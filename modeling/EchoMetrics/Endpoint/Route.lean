import EchoMetrics.Decimal.Numeral
import EchoMetrics.Text.Scanner

/-! # Routes

The paths that an endpoint answers. In a route a name between braces is a parameter, which stands
for any text of its kind; a kind other than the first is written behind a colon. Main statements: a
text without braces is a route (`ofText?_of_forall_ne`), and it takes that text and, as every route
does, that text with a line break behind it (`captures?_literal_eq_some_iff`). -/

namespace EchoMetrics.Endpoint

/-- What a parameter stands for. -/
inductive Route.Kind
  | segment
  | anyPath
  | whole
  | decimal
  | uuid
deriving DecidableEq, Repr

inductive Route.Part
  | literal (c : Char)
  | parameter (kind : Route.Kind)
deriving DecidableEq, Repr

structure Route where
  parts : List Route.Part
deriving DecidableEq, Repr

namespace Route

namespace Kind

def ofName? : String → Option Kind
  | "str" => some .segment
  | "path" => some .anyPath
  | "int" => some .whole
  | "float" => some .decimal
  | "uuid" => some .uuid
  | _ => none

/-- The fronts of a text that have at least `least` characters, all of them satisfying `p`, each
with the rest behind it. The longest is the first. -/
def fronts (p : Char → Bool) (least : Nat) (cs : List Char) : List (List Char × List Char) :=
  let longest := (cs.takeWhile p).length
  (List.range' least (longest + 1 - least)).reverse.map cs.splitAt

def isHexDigit (c : Char) : Bool :=
  c.isDigit || ('a' ≤ c.toLower && c.toLower ≤ 'f')

/-- What follows groups of hexadecimal digits of these lengths, between which may be hyphens. -/
def afterGroups? : List Nat → List Char → Option (List Char)
  | [], cs => some cs
  | n :: ns, cs =>
    if (cs.takeWhile isHexDigit).length < n then none
    else match ns, cs.drop n with
      | _ :: _, '-' :: rest => afterGroups? ns rest
      | _, rest => afterGroups? ns rest

/-- The ways to read a parameter off the front of a text, the preferred one first. -/
def readings : Kind → List Char → List (List Char × List Char)
  | .segment, cs => fronts (· != '/') 1 cs
  | .anyPath, cs => fronts (· != '\n') 0 cs
  | .whole, cs => fronts Char.isDigit 1 cs
  | .decimal, cs => (fronts Char.isDigit 1 cs).flatMap fun (digits, rest) =>
    (match rest with
    | '.' :: part => (fronts Char.isDigit 1 part).map fun (ds, rest) => (digits ++ '.' :: ds, rest)
    | _ => []) ++ [(digits, rest)]
  | .uuid, cs => (afterGroups? [8, 4, 4, 4, 12] cs).toList.map fun rest =>
    (cs.take (cs.length - rest.length), rest)

/-- Every text of a kind has a value, but for whole numbers of too many digits. -/
def hasValue : Kind → List Char → Bool
  | .whole, cs => (Numeral.count? cs).isSome
  | _, _ => true

end Kind

/-- A character of a route, or a parameter as it is written. -/
inductive Piece
  | letter (c : Char)
  | parameter (name kind : String)
deriving DecidableEq, Repr

namespace Piece

open Text

def isNameStart (c : Char) : Bool := c.isAlpha || c = '_'

def name : Scanner (List Char) := fun cs =>
  if cs.head?.any isNameStart then Scanner.run (fun c => isNameStart c || c.isDigit) cs else none

/-- Reads a parameter. One of no kind stands for a segment. -/
def scan : Scanner Piece := do
  Scanner.lit "\x7b"
  let n ← name
  let kind ← Scanner.maybe (do Scanner.lit ":"; name)
  Scanner.lit "\x7d"
  return .parameter (String.ofList n) ((kind.map String.ofList).getD "str")

/-- The pieces of a text, of which the first `taken` characters belong to a piece before. Braces
around anything else than a parameter are characters as others. -/
def ofChars (taken : Nat) : List Char → List Piece
  | [] => []
  | c :: cs =>
    match taken, scan (c :: cs) with
    | n + 1, _ => ofChars n cs
    | 0, some (p, rest) => p :: ofChars (cs.length - rest.length) cs
    | 0, none => .letter c :: ofChars 0 cs

def part? : Piece → Option Part
  | .letter c => some (.literal c)
  | .parameter _ kind => (Kind.ofName? kind).map .parameter

def name? : Piece → Option String
  | .letter _ => none
  | .parameter name _ => some name

end Piece

/-- The route that a text stands for, if it knows the kinds of its parameters and no two of them
have the same name. -/
def ofText? (text : String) : Option Route := do
  let pieces := Piece.ofChars 0 text.toList
  let parts ← pieces.mapM Piece.part?
  if (pieces.filterMap Piece.name?).Nodup then some ⟨parts⟩ else none

def literal (text : String) : Route := ⟨text.toList.map .literal⟩

/-- What the parameters take of a path, if it is of this form. A line break may stand behind it. -/
def capturesOf? : List Part → List Char → Option (List (Kind × List Char))
  | [], cs => if cs = [] ∨ cs = ['\n'] then some [] else none
  | .literal _ :: _, [] => none
  | .literal c :: ps, d :: cs => if c = d then capturesOf? ps cs else none
  | .parameter k :: ps, cs => (k.readings cs).findSome? fun (taken, rest) =>
    (capturesOf? ps rest).map ((k, taken) :: ·)

def captures? (r : Route) (path : String) : Option (List (Kind × List Char)) :=
  capturesOf? r.parts path.toList

/-- Whether a path is of this form; nothing if a parameter takes a text without a value. -/
def accepts? (r : Route) (path : String) : Option Bool :=
  match r.captures? path with
  | none => some false
  | some taken => if taken.all fun (k, cs) => k.hasValue cs then some true else none

theorem captures?_literal_eq_some_iff {text path : String} {taken : List (Kind × List Char)} :
    (literal text).captures? path = some taken ↔
      taken = [] ∧ (path = text ∨ path.toList = text.toList ++ ['\n']) := by
  have h (ts cs : List Char) : capturesOf? (ts.map .literal) cs = some taken ↔
      taken = [] ∧ (cs = ts ∨ cs = ts ++ ['\n']) := by
    induction ts generalizing cs with
    | nil => simp [capturesOf?, eq_comm, and_comm]
    | cons t ts ih =>
      cases cs with
      | nil => simp [capturesOf?]
      | cons c cs =>
        by_cases e : t = c
        · simp [capturesOf?, e, ih]
        · simp [capturesOf?, e, Ne.symm e]
  rw [captures?, literal, h, String.toList_inj]

theorem Piece.scan_cons_eq_none {c : Char} (h : c ≠ '\x7b') (cs : List Char) :
    scan (c :: cs) = none := by
  have : Text.Scanner.lit "\x7b" (c :: cs) = none := by
    simp [Text.Scanner.lit, Text.Scanner.after?, Ne.symm h]
  simp only [scan, bind, StateT.bind, this]
  rfl

theorem ofText?_of_forall_ne {text : String} (h : ∀ c ∈ text.toList, c ≠ '\x7b') :
    ofText? text = some (literal text) := by
  have hp (cs : List Char) (h : ∀ c ∈ cs, c ≠ '\x7b') :
      Piece.ofChars 0 cs = cs.map .letter := by
    induction cs with
    | nil => rfl
    | cons c cs ih =>
      simp [Piece.ofChars, Piece.scan_cons_eq_none (h c (by simp)),
        ih fun d hd => h d (by simp [hd])]
  have hm (cs : List Char) : (cs.map Piece.letter).mapM Piece.part? = some (cs.map .literal) := by
    induction cs with
    | nil => rfl
    | cons c cs ih => simp [Piece.part?, ih]
  have hn (cs : List Char) : (cs.map Piece.letter).filterMap Piece.name? = [] := by
    simp [Piece.name?]
  simp [ofText?, hp _ h, hm, hn, literal]

example : ofText? "/a\x7bb" = some (literal "/a\x7bb") := by decide +kernel
example : ofText? "/\x7bn:word\x7d" = none := by decide +kernel
example : ofText? "/\x7bn\x7d/\x7bn\x7d" = none := by decide +kernel
example : (ofText? "/\x7ba\x7d-\x7bb\x7d").bind (·.captures? "/x-y-z") =
    some [(.segment, "x-y".toList), (.segment, ['z'])] := by decide +kernel

end Route

end EchoMetrics.Endpoint
