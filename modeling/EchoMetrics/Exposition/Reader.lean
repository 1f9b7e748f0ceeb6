import EchoMetrics.Exposition.Family
import EchoMetrics.Text.Scanner

/-! # Reading the text form

The lines of the text form, each read by itself: the two lines of a heading, and the line of a
series with its name, its labels and the text of its value. -/

namespace EchoMetrics.Exposition

open Text Text.Scanner

/-- What a line of the text form says. -/
inductive Entry
  | help (name text : String)
  | type (name kind : String)
  | series (name : String) (labels : List (String × String)) (value : String)
deriving DecidableEq, Repr

namespace Reader

/-- The character that a backslash and another character stand for. -/
def unescape? : Char → Option Char
  | '\\' => some '\\'
  | '"' => some '"'
  | 'n' => some '\n'
  | _ => none

/-- The value of a label up to the quote that ends it. -/
def labelValue : Scanner (List Char)
  | [] => none
  | [c] => if c = '"' then some ([], []) else none
  | c :: d :: cs =>
    if c = '"' then some ([], d :: cs)
    else if c = '\\' then do
      let (v, rest) ← labelValue cs
      return ((← unescape? d) :: v, rest)
    else do
      let (v, rest) ← labelValue (d :: cs)
      return (c :: v, rest)

def label : Scanner (String × String) := do
  let name ← run fun c => c != '='
  lit "=\""
  let value ← labelValue
  return (String.ofList name, String.ofList value)

/-- At most `n` labels, and the brace behind the last one. -/
def labelsUpTo : (n : Nat) → Scanner (List (String × String))
  | 0 => fun _ => none
  | n + 1 => do
    let l ← label
    (lit "\x7d" *> pure [l]) <|> (lit "," *> (l :: ·) <$> labelsUpTo n)

/-- Labels between braces; none without braces. A text has fewer labels than characters. -/
def labels : Scanner (List (String × String))
  | '\x7b' :: cs => labelsUpTo cs.length cs
  | cs => some ([], cs)

/-- The rest of the line. -/
def remainder : Scanner String := fun cs => some (String.ofList cs, [])

def nameUpTo (stop : Char → Bool) : Scanner String := String.ofList <$> run fun c => !stop c

def help : Scanner Entry := do
  lit "# HELP "
  let name ← nameUpTo (· == ' ')
  lit " "
  return .help name (← remainder)

def type : Scanner Entry := do
  lit "# TYPE "
  let name ← nameUpTo (· == ' ')
  lit " "
  return .type name (← remainder)

def series : Scanner Entry := do
  let name ← nameUpTo fun c => c == ' ' || c == '\x7b'
  let ls ← labels
  lit " "
  return .series name ls (← remainder)

/-- A quote ends a label value that is written before it. -/
theorem labelValue_append (v rest : List Char) :
    labelValue (v.flatMap escapeLabel ++ '"' :: rest) = some (v, rest) := by
  induction v with
  | nil => cases rest <;> simp [labelValue]
  | cons c v ih =>
    rw [List.flatMap_cons, List.append_assoc]
    generalize hr : v.flatMap escapeLabel ++ '"' :: rest = r at ih ⊢
    simp only [escapeLabel]
    split
    · simp [labelValue, unescape?, ih]
    · simp [labelValue, unescape?, ih]
    · simp [labelValue, unescape?, ih]
    · rename_i hb hq _
      have hb : c ≠ '\\' := hb
      have hq : c ≠ '"' := hq
      cases r with
      | nil => simp at hr
      | cons d r => simp [labelValue, hb, hq, ih]

end Reader

def Entry.ofLine? (line : List Char) : Option Entry :=
  ((Reader.help <|> Reader.type <|> Reader.series) line).map Prod.fst

/-- What a text says, line by line. Every line ends in a line break. -/
def read? (text : String) : Option (List Entry) :=
  let lines := pieces (· == '\n') text.toList
  if lines.getLast? = some [] then lines.dropLast.mapM Entry.ofLine? else none

/-- The float that stands for a value; infinite for a count past the last one. -/
def Value.toFloat : Value → Float
  | .real x => x
  | .count n => floatOfNat n

/-- What the line of a series says. -/
def Series.entry (s : Series) : Entry := .series s.name s.labels (writeValue s.value.toFloat)

/-- What the lines of a family say: its heading, and then its series. -/
def Family.entries (f : Family) : List Entry :=
  .help f.exposedName f.help :: .type f.exposedName f.kind.type :: f.series.map Series.entry

end EchoMetrics.Exposition
