import EchoMetrics.Decimal.Basic

/-! # The shortest decimal that reads back

A positive float `m * 2 ^ e` is the nearest one to every real between the midpoints to its two
neighbours, the midpoints included when `m` is even. Of the decimals in that interval the ones with
the fewest digits are wanted, and of those the nearest to the float itself. -/

namespace EchoMetrics.Decimal

/-- The mantissa of the powers of two; the float below one is half as far away as the one above. -/
def leastNormal : Nat := Nat.pow 2 52

/-- The exponent of the smallest floats, which are evenly spaced. -/
def leastExponent : Int := -1074

/-- The interval of a float, in quarters of the unit of its mantissa. -/
structure Interval where
  mantissa : Nat
  exponent : Int

namespace Interval

variable (i : Interval)

def centre : Nat := 4 * i.mantissa

def lower : Nat :=
  i.centre - if i.mantissa = leastNormal ∧ leastExponent < i.exponent then 1 else 2

def upper : Nat := i.centre + 2

/-- The point `c * 10 ^ g`, scaled so as to compare with `binary g`. -/
def decimal (g : Int) (c : Nat) : Nat :=
  c * (Nat.pow 10 g.toNat * Nat.pow 2 (2 - i.exponent).toNat)

/-- So many quarters of the unit, scaled so as to compare with `decimal g`. -/
def binary (g : Int) (k : Nat) : Nat :=
  k * (Nat.pow 10 (-g).toNat * Nat.pow 2 (i.exponent - 2).toNat)

/-- Whether `c * 10 ^ g` reads back as the float. -/
def contains (g : Int) (c : Nat) : Bool :=
  if i.mantissa % 2 = 0 then
    i.binary g i.lower ≤ i.decimal g c && i.decimal g c ≤ i.binary g i.upper
  else
    i.binary g i.lower < i.decimal g c && i.decimal g c < i.binary g i.upper

/-- The greatest point of the grid `10 ^ g` that is not above the float. -/
def floor (g : Int) : Nat := i.binary g i.centre / i.decimal g 1

/-- The point of the grid `10 ^ g` in the interval: of two the nearer one, and the even one when
both are equally near. -/
def pick (g : Int) : Option Nat :=
  let c := i.floor g
  match i.contains g c && c != 0, i.contains g (c + 1) with
  | true, true =>
    let below := i.binary g i.centre - i.decimal g c
    let above := i.decimal g (c + 1) - i.binary g i.centre
    some (if below < above || below = above && c % 2 = 0 then c else c + 1)
  | true, false => some c
  | false, true => some (c + 1)
  | false, false => none

/-- The exponent of the first digit: `10 ^ lead` is the greatest power of ten up to the float. -/
def lead : Int :=
  let whole := i.mantissa * Nat.pow 2 i.exponent.toNat
  let unit := Nat.pow 2 (-i.exponent).toNat
  if unit ≤ whole then (Nat.toDigits 10 (whole / unit)).length - 1
  else -(Nat.toDigits 10 ((unit - 1) / whole)).length

/-- Tries one digit, then two, up to seventeen, which always suffice. -/
def shortest : Decimal :=
  match (List.range 17).findSome? fun k : Nat => (i.pick (i.lead - k)).map (⟨·, i.lead - k⟩) with
  | some d => if d.digits = 10 then ⟨1, d.exponent + 1⟩ else d
  | none => ⟨i.floor (i.lead - 16), i.lead - 16⟩

end Interval

example : (Interval.mk leastNormal (-52)).shortest = ⟨1, 0⟩ := by decide +kernel
example : (Interval.mk 1 (-1074)).shortest = ⟨5, -324⟩ := by decide +kernel

end EchoMetrics.Decimal
