/-! # Decimal fractions and the floats nearest to them -/

namespace EchoMetrics

/-- The number `digits * 10 ^ exponent`. -/
structure Decimal where
  digits : Nat
  exponent : Int := 0
deriving DecidableEq, Repr

namespace Decimal

/-- The float nearest to a decimal fraction, of two equally near ones the one with the even
mantissa. Infinite past the last finite float. -/
def toFloat (d : Decimal) : Float := .ofModel (.ofScientific d.digits d.exponent)

/-- The number that a row of digits stands for. -/
def ofDigits (ds : List Nat) : Nat := ds.foldl (fun n d => 10 * n + d) 0

@[simp] theorem ofDigits_nil : ofDigits [] = 0 := rfl

@[simp] theorem ofDigits_append_singleton (ds : List Nat) (d : Nat) :
    ofDigits (ds ++ [d]) = 10 * ofDigits ds + d := by
  simp [ofDigits, List.foldl_append]

end Decimal

/-- The value of an ASCII digit. -/
def asciiDigit (c : Char) : Nat := c.toNat - '0'.toNat

/-- The count that ASCII digits stand for. -/
def natOfAscii (cs : List Char) : Nat := Decimal.ofDigits (cs.map asciiDigit)

/-- The float nearest to a count. -/
def floatOfNat (n : Nat) : Float := .ofModel (.ofNat n)

def floatOfInt : Int → Float
  | .ofNat n => floatOfNat n
  | .negSucc n => -floatOfNat (n + 1)

/-- The whole number that a float stands for, if it stands for one. -/
def intOfFloat? (x : Float) : Option Int :=
  match x.toModel.unpack with
  | .zero _ => some 0
  | .finite sign m e _ =>
    let unit := Nat.pow 2 (-e).toNat
    let q := m / unit
    if q * unit = m then
      let n : Int := (q * Nat.pow 2 e.toNat : Nat)
      some (if sign == .negative then -n else n)
    else none
  | .infinity _ | .notANumber => none

end EchoMetrics
