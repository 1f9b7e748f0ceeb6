import EchoMetrics.Text.Blank
import EchoMetrics.Text.Utf8

/-! # Requested paths

A request names what it asks for by a target: maybe a host, a path, a query and a fragment. Only
the path matters here. -/

namespace EchoMetrics.Endpoint

def hexDigit? (c : Char) : Option Nat :=
  if c.isDigit then some (c.toNat - 48)
  else if 'a' ≤ c.toLower ∧ c.toLower ≤ 'f' then some (c.toLower.toNat - 87)
  else none

/-- The octets of a path, in which a percent sign and two hexadecimal digits stand for one. -/
def pathOctets : List Char → List UInt8
  | '%' :: a :: b :: cs =>
    match hexDigit? a, hexDigit? b with
    | some m, some n => UInt8.ofNat (16 * m + n) :: pathOctets cs
    | _, _ => String.utf8EncodeChar '%' ++ pathOctets (a :: b :: cs)
  | c :: cs => String.utf8EncodeChar c ++ pathOctets cs
  | [] => []

def unescape (cs : List Char) : List Char := Text.decodeAfter none (pathOctets cs)

/-- What is in front of a query or fragment. -/
def withoutQuery (target : List Char) : List Char :=
  target.takeWhile fun c => c != '?' && c != '#'

/-- Drops each segment that is one dot, and each that is two dots with the one in front of it. The
segments that are kept so far come last first; an empty one at the root stays. -/
def resolveSegments (kept : List (List Char)) : List (List Char) → List (List Char)
  | [] => kept.reverse
  | s :: rest =>
    if s = ['.'] then resolveSegments kept rest
    else if s = ['.', '.'] then resolveSegments (if kept = [[]] then kept else kept.tail) rest
    else resolveSegments (s :: kept) rest

def resolveDots (path : List Char) : List Char :=
  List.intercalate ['/'] (resolveSegments [] (Text.pieces (· == '/') path))

/-- What is behind a host, which two slashes announce; an empty one counts as none. Only a path that
a host is named for is absolute, so that its dots are resolved. -/
def withoutHost : List Char → List Char
  | '/' :: '/' :: '/' :: path => '/' :: path
  | '/' :: '/' :: cs => resolveDots (cs.dropWhile (· != '/'))
  | cs => cs

/-- The path from the root: behind one slash, whatever number stands in front. -/
def fromRoot (path : List Char) : List Char :=
  match resolveDots ('/' :: path.dropWhile (· == '/')) with
  | [] => ['/']
  | cs => cs

/-- The path that a request asks for. Escapes are resolved twice, on the way and on arrival. -/
def requestedPath (target : String) : String :=
  String.ofList (unescape (unescape (fromRoot (withoutHost (withoutQuery target.toList)))))

example : requestedPath "/metrics" = "/metrics" := by decide +kernel
example : requestedPath "/a/./b/../c%20d?x=1#y" = "/a/c d" := by decide +kernel
example : requestedPath "//host/m%2573" = "/ms" := by decide +kernel
example : requestedPath "//host/.//a" = "/a" := by decide +kernel
example : requestedPath "/.//a" = "//a" := by decide +kernel
example : requestedPath "" = "/" := by decide +kernel

end EchoMetrics.Endpoint
