import EchoMetrics.Text.Scanner

/-! # Shapes of a line

What the prober prints, read off the text of a line before any of its numbers is looked at. A shape
holds the texts as they stand in the line. -/

namespace EchoMetrics.Line

open Text Text.Scanner

/-- A target, and its address if the line names one. -/
structure Host where
  target : String
  addr : Option String := none
deriving DecidableEq, Repr

/-- The numbers of an interval summary: requests, replies, lost percentage, and the three round-trip
times if there are any. -/
structure Summary where
  transmitted : String
  received : String
  lost : String
  rtt : Option (String × String × String)
deriving DecidableEq, Repr

inductive Shape
  /-- The heading of a batch of summaries. -/
  | localTime
  /-- The answer to one request, or that there was none in time. -/
  | probe (host : Host) (seq : String) (rtt : Option String)
  /-- A second answer to the same request. -/
  | duplicate (host : Host)
  | summary (host : Host) (counts : Summary)
  /-- A host on the way reports that it cannot deliver a request. -/
  | icmpError (host : Host) (error source : String)
  | unreachable (host : Host)
  /-- The prober's own complaint about a target. -/
  | proberError (target : String)
deriving DecidableEq, Repr

/-- What is left of a line after `[`, a stamp, `]` and one blank or more, by falling number of
blanks. -/
def afterBlanks : List Char → List (List Char)
  | [] => []
  | c :: cs => if Text.isBlank c then afterBlanks cs ++ [cs] else []

/-- Where the text after an optional stamp may begin: after the stamp, if there is one, or at the
front. -/
def starts (line : List Char) : List (List Char) :=
  match (lit "[" *> upTo ']') line with
  | some (_, rest) => afterBlanks rest ++ [line]
  | none => [line]

/-- An address in parentheses, after blanks. -/
def address : Scanner String := do
  blanks
  lit "("
  let addr ← run fun c => c != ')' && !Text.isBlank c
  lit ")"
  return String.ofList addr

/-- A target and its optional address. -/
def host : Scanner Host := do
  let target ← word
  let addr ← maybe address
  return { target := String.ofList target, addr }

/-- A host and the colon after it. -/
def label : Scanner Host := do
  let h ← host
  blanks
  lit ":"
  blanks
  return h

/-- Nothing more, or a blank and anything without a line break. -/
def remark : Scanner Unit := fun
  | [] => some ((), [])
  | c :: cs => if Text.isBlank c && cs.all (· != '\n') then some ((), []) else none

/-- The round-trip time of a reply. -/
def reply : Scanner String := do
  let _ ← word
  lit " bytes,"
  blanks
  let rtt ← word
  lit " ms"
  return String.ofList rtt

/-- The round-trip time of a reply, or that none came in time. -/
def answer : Scanner (Option String) := (lit "timed out" *> pure none) <|> some <$> reply

def probe : Scanner Shape := do
  let h ← label
  lit "["
  let seq ← upTo ']'
  lit ","
  blanks
  let rtt ← answer
  remark
  return .probe h (String.ofList seq) rtt

def duplicate : Scanner Shape := do
  let h ← label
  lit "duplicate for ["
  return .duplicate h

/-- A part of a group of numbers that are separated by slashes. -/
def part : Scanner String := String.ofList <$> run fun c => c != '/' && !Text.isBlank c

/-- The name of a group of numbers and its equals sign. -/
def group (name : String) : Scanner Unit := do
  lit name
  spaces
  lit "="
  spaces

def roundTrips : Scanner (String × String × String) := do
  lit ","
  spaces
  group "min/avg/max"
  let min ← part
  lit "/"
  let avg ← part
  lit "/"
  let max ← part
  return (min, avg, max)

/-- The numbers of a summary. -/
def counts : Scanner Summary := do
  group "xmt/rcv/%loss"
  let transmitted ← part
  lit "/"
  let received ← part
  lit "/"
  let lost ← run fun c => c != '%' && !Text.isBlank c
  lit "%"
  let rtt ← maybe roundTrips
  return { transmitted, received, lost := String.ofList lost, rtt }

def summary : Scanner Shape := do
  let h ← label
  let c ← counts
  spaces
  done
  return .summary h c

/-- Who reports an undeliverable request, and to which host it was sent. -/
def report : Scanner (String × Host) := do
  lit " from "
  let source ← word
  lit " for ICMP Echo sent to "
  let h ← host
  spaces
  done
  return (String.ofList source, h)

def icmpError : Scanner Shape := do
  let (error, source, h) ← shortestBefore report
  return .icmpError h (String.ofList error) source

def unreachable : Scanner Shape := do
  let h ← host
  blanks
  lit "is"
  blanks
  lit "unreachable"
  spaces
  done
  return .unreachable h

/-- A word that ends in a colon, one blank, and a message. -/
def proberError : Scanner Shape := fun cs =>
  match word cs with
  | some (target, _ :: message) =>
    if target.getLast? = some ':' && 1 < target.length && !message.isEmpty &&
        message.all (· != '\n') then
      some (.proberError (String.ofList target.dropLast), [])
    else none
  | _ => none

/-- A stamp and nothing else. -/
def localTime : Scanner Shape := do
  lit "["
  let _ ← upTo ']'
  done
  return .localTime

/-- Tries a scanner at every place where the text after a stamp may begin. -/
def stamped (s : Scanner Shape) (line : List Char) : Option Shape :=
  (starts line).findSome? fun cs => (s cs).map Prod.fst

def unstamped (s : Scanner Shape) (line : List Char) : Option Shape := (s line).map Prod.fst

/-- The shape of a trimmed line. -/
def shape? (line : List Char) : Option Shape :=
  unstamped localTime line <|> stamped probe line <|> stamped duplicate line <|>
    stamped summary line <|> stamped icmpError line <|> unstamped unreachable line <|>
      unstamped proberError line

end EchoMetrics.Line
