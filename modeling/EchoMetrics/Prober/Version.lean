import EchoMetrics.Decimal.Numeral
import EchoMetrics.Prober.Call
import EchoMetrics.Prober.Fault
import EchoMetrics.Text.Digit
import EchoMetrics.Text.Scanner

/-! # The version of the prober -/

namespace EchoMetrics.Prober

open Text Text.Scanner

structure Version where
  major : Nat
  minor : Nat
  patch : Nat
deriving DecidableEq, Repr

def Version.text (v : Version) : String :=
  toString v.major ++ "." ++ toString v.minor ++ "." ++ toString v.patch

/-- The digits of a version, of any script; a missing patch is zero. -/
structure Version.Digits where
  major : List Char
  minor : List Char
  patch : List Char
deriving DecidableEq, Repr

def dotted : Scanner (List Char) := do
  lit "."
  run isDigit

def announcement : Scanner Version.Digits := do
  lit ": Version "
  let major ← run isDigit
  let minor ← dotted
  let patch ← maybe dotted
  return ⟨major, minor, patch.getD ['0']⟩

/-- The last announcement in a line that has a character before it. -/
def announced? : List Char → Option Version.Digits
  | [] => none
  | _ :: cs => announced? cs <|> (announcement cs).map Prod.fst

/-- The announcement in the first line of a text that holds one. -/
def announcedIn? (s : String) : Option Version.Digits :=
  (pieces (· == '\n') s.toList).findSome? announced?

/-- Why there is no version: the prober is unusable, the call for the version broke off, or a number
has too many digits. -/
inductive VersionFault
  | prober (f : Fault)
  | call (f : CallFault)
  | tooManyDigits (digits : Nat)
deriving DecidableEq

def VersionFault.message : VersionFault → String
  | .prober f => f.message
  | .call f => f.message
  | .tooManyDigits digits =>
    "Exceeds the limit (4300 digits) for integer string conversion: value has " ++
      toString digits ++ " digits; use sys.set_int_max_str_digits() to increase the limit"

def number (ds : List Char) : Except VersionFault Nat :=
  if Numeral.maxDigits < ds.length then .error (.tooManyDigits ds.length)
  else .ok (Decimal.ofDigits (ds.map fun c => (digit? c).getD 0))

def Version.Digits.version (d : Version.Digits) : Except VersionFault Version := do
  let major ← number d.major
  let minor ← number d.minor
  let patch ← number d.patch
  return ⟨major, minor, patch⟩

/-- The code with which the prober exits when it cannot run at all. -/
def dependenciesMissing : Int := 4

/-- The version that a call announces, on its output or else among its errors. -/
def readVersion (binary : String) (timeout : Float) : Answer → Except VersionFault Version
  | .refused reason => .error (.prober (.cannotExecute binary reason))
  | .silent => .error (.prober (.noAnswer binary timeout))
  | .broken f => .error (.call f)
  | .exited code stdout stderr =>
    if code = dependenciesMissing then .error (.prober (.missingDependencies binary stderr))
    else if code ≠ 0 then .error (.prober (.failed binary code))
    else match announcedIn? stdout <|> announcedIn? stderr with
      | some d => d.version
      | none => .error (.prober (.noVersion (trim stdout)))

end EchoMetrics.Prober
