import EchoMetrics.Decimal.Shortest

/-! # Written forms of a float -/

namespace EchoMetrics.Decimal

/-- How floats are written: the exponents of the first digit for which the point stands among the
digits, and the words for what has no digits. -/
structure Form where
  first : Int := -4
  last : Int := 15
  infinity : String := "inf"
  nan : String := "nan"
deriving Repr

/-- Floats in messages and answers. -/
def plain : Form := {}

/-- Digits with a point among them; at least one digit on either side of it. -/
def positional (ds : List Char) (lead : Int) : List Char :=
  if lead < 0 then
    '0' :: '.' :: (List.replicate (-lead - 1).toNat '0' ++ ds)
  else
    let whole := lead.toNat + 1
    let rest := ds.drop whole
    ds.take whole ++ List.replicate (whole - ds.length) '0' ++
      '.' :: if rest.isEmpty then ['0'] else rest

/-- Digits with a point after the first one, and a signed exponent of at least two digits. -/
def scientific (ds : List Char) (lead : Int) : List Char :=
  let power := Nat.toDigits 10 lead.natAbs
  ds.take 1 ++ (if ds.length ≤ 1 then [] else '.' :: ds.drop 1) ++
    'e' :: (if lead < 0 then '-' else '+') :: (List.replicate (2 - power.length) '0' ++ power)

def write (f : Form) (d : Decimal) : String :=
  let ds := Nat.toDigits 10 d.digits
  let lead := d.exponent + (ds.length - 1 : Nat)
  String.ofList <|
    if f.first ≤ lead ∧ lead ≤ f.last then positional ds lead else scientific ds lead

def sign (negative : Bool) (s : String) : String := if negative then "-" ++ s else s

/-- Writes a float with the fewest digits that read back. -/
def writeFloat (f : Form) (x : Float) : String :=
  match x.toModel.unpack with
  | .notANumber => f.nan
  | .infinity s => sign (s == .negative) f.infinity
  | .zero s => sign (s == .negative) (write f ⟨0, 0⟩)
  | .finite s m e _ => sign (s == .negative) (write f (Interval.mk m e).shortest)

/-- The quotient rounded to the nearest whole number, half to even. -/
def roundDiv (num den : Nat) : Nat :=
  let q := num / den
  let r := num % den
  if 2 * r < den || 2 * r = den && q % 2 = 0 then q else q + 1

/-- Writes `n` with its last `places` digits behind a point. -/
def withPoint (places n : Nat) : String :=
  let ds := Nat.toDigits 10 n
  let ds := List.replicate (places + 1 - ds.length) '0' ++ ds
  String.ofList (ds.take (ds.length - places) ++ '.' :: ds.drop (ds.length - places))

/-- Writes a float with so many digits behind the point, rounding its exact value half to even. -/
def writeFixed (places : Nat) (x : Float) : String :=
  match x.toModel.unpack with
  | .notANumber => plain.nan
  | .infinity s => sign (s == .negative) plain.infinity
  | .zero s => sign (s == .negative) (withPoint places 0)
  | .finite s m e _ =>
    let num := m * Nat.pow 10 places * Nat.pow 2 e.toNat
    sign (s == .negative) (withPoint places (roundDiv num (Nat.pow 2 (-e).toNat)))

example : writeFloat plain 0.1 = "0.1" := by decide +kernel
example : writeFixed 1 2.25 = "2.2" := by decide +kernel

end EchoMetrics.Decimal
