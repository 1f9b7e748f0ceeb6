import EchoMetrics.Decimal.Basic
import EchoMetrics.Text.Blank

/-! # Reading numerals

Two readers: a strict one for the numbers in the prober's output, and a lenient one for
configuration values. -/

namespace EchoMetrics.Numeral

/-- Numerals with more digits are refused. -/
def maxDigits : Nat := 4300

/-- A count written with ASCII digits only. -/
def count? (cs : List Char) : Option Nat :=
  if !cs.isEmpty && cs.all Char.isDigit && cs.length ≤ maxDigits then some (natOfAscii cs) else none

/-- The decimal with these digits before and after the point. -/
def fraction (whole part : List Char) (exponent : Int) : Decimal :=
  ⟨natOfAscii (whole ++ part), exponent - part.length⟩

/-- A finite number written with ASCII digits and at most one point, with digits on either side
of it. -/
def measure? (cs : List Char) : Option Float :=
  let whole := cs.takeWhile Char.isDigit
  let value? := match cs.dropWhile Char.isDigit with
    | [] => some (fraction whole [] 0)
    | '.' :: part =>
      if !part.isEmpty && part.all Char.isDigit then some (fraction whole part 0) else none
    | _ => none
  if whole.isEmpty then none else (value?.map Decimal.toFloat).filter Float.isFinite

/-- The text without its underscores, if each stands between two other characters. -/
def ungrouped? (cs : List Char) : Option (List Char) :=
  let groups := Text.pieces (· == '_') cs
  if groups.all (!·.isEmpty) then some groups.flatten else none

/-- Splits off a leading sign; `true` for minus. -/
def signed : List Char → Bool × List Char
  | '-' :: cs => (true, cs)
  | '+' :: cs => (false, cs)
  | cs => (false, cs)

inductive IntFault
  | unreadable
  | oversized
deriving DecidableEq, Repr

/-- A whole number in its plain form: digits without needless zeros in front, and a minus sign or
none. A row of too many digits is refused as such whatever follows it. -/
def plainInt? (cs : List Char) : Except IntFault Int :=
  let (negative, ds) := match cs with
    | '-' :: ds => (true, ds)
    | ds => (false, ds)
  match ds.takeWhile Char.isDigit with
  | [] => .error .unreadable
  | '0' :: _ => if ds = ['0'] then .ok 0 else .error .unreadable
  | digits =>
    if maxDigits < digits.length then .error .oversized
    else if digits ≠ ds then .error .unreadable
    else .ok (if negative then -(natOfAscii digits : Int) else natOfAscii digits)

/-- What follows zeros and underscores, the last of which is `last`. It is kept if nothing follows
it or only a fraction. -/
def afterZeros? (last : Char) : List Char → Option (List Char)
  | [] => some [last]
  | c :: cs =>
    if c = '0' || c = '_' then afterZeros? c cs
    else if c = '.' then some (last :: c :: cs)
    else if c = '-' || c.isDigit then some (c :: cs)
    else none

/-- The numeral without zeros in front of its digits. -/
def unpadded? : List Char → Option (List Char)
  | [] => none
  | '-' :: cs => (unpadded? cs).map ('-' :: ·)
  | c :: cs => if c = '0' then afterZeros? c cs else if c.isDigit then some (c :: cs) else none

/-- The numeral without its fraction, if that is a row of zeros. -/
def withoutFraction (cs : List Char) : List Char :=
  match cs.dropWhile (· != '.') with
  | _ :: part => if !part.isEmpty && part.all (· == '0') then cs.takeWhile (· != '.') else cs
  | [] => cs

/-- The plain form of a numeral between white space, with a plus sign, zeros in front, grouped
digits or a fraction of zeros. -/
def plainForm? (cs : List Char) : Option (List Char) := do
  let cs ← match Text.trimBy Text.isWhiteSpace cs with
    | '+' :: '-' :: _ => none
    | '+' :: cs => some cs
    | cs => some cs
  ungrouped? (withoutFraction (← unpadded? cs))

/-- A whole number, in plain form or another. Only in the former can it have too many digits; in any
other it is then unreadable. -/
def int? (s : String) : Except IntFault Int :=
  match plainInt? s.toList with
  | .error .unreadable =>
    ((plainForm? s.toList).bind fun cs => (plainInt? cs).toOption).elim (.error .unreadable) .ok
  | outcome => outcome

/-- The power of ten after an exponent mark; no mark stands for none. -/
def power? : List Char → Option Int
  | [] => some 0
  | c :: cs =>
    if c = 'e' || c = 'E' then
      let (negative, ds) := signed cs
      if !ds.isEmpty && ds.all Char.isDigit then
        some (if negative then -(natOfAscii ds : Int) else natOfAscii ds)
      else none
    else none

/-- A number without a sign: a word for infinity or for no number, or digits with an optional point
and an optional power of ten. -/
def magnitude? (cs : List Char) : Option Float :=
  let word := String.ofList (cs.map Char.toLower)
  if word = "inf" || word = "infinity" then some (1.0 / 0.0)
  else if word = "nan" then some (0.0 / 0.0)
  else
    let whole := cs.takeWhile Char.isDigit
    let (part, rest) := match cs.dropWhile Char.isDigit with
      | '.' :: cs => (cs.takeWhile Char.isDigit, cs.dropWhile Char.isDigit)
      | cs => ([], cs)
    if whole.isEmpty && part.isEmpty then none
    else (power? rest).map fun e => (fraction whole part e).toFloat

/-- A number with optional sign. -/
def plainFloat? (cs : List Char) : Option Float :=
  let (negative, cs) := signed cs
  (magnitude? cs).map fun x => if negative then -x else x

/-- A number, between white space or with underscores in it, but not both. -/
def float? (s : String) : Option Float :=
  plainFloat? (Text.trimBy Text.isWhiteSpace s.toList) <|>
    (ungrouped? s.toList).bind plainFloat?

end EchoMetrics.Numeral
