import EchoMetrics.Text.Quoted

/-! # Why a field is refused -/

namespace EchoMetrics

/-- Why a value is refused. `ρ` holds the rules that the record states beyond the types and bounds
of its fields. -/
inductive Cause (ρ : Type)
  | missing
  | notInt
  | fractional
  | notFinite
  | unreadableInt
  | oversizedInt
  | notFloat
  | unreadableFloat
  | notText
  | noText
  | notList
  | notOneOf (choices : List String)
  | notAbove (bound : Nat)
  | below (bound : Nat)
  | above (bound : Nat)
  | broken (rule : ρ)
deriving DecidableEq, Repr

/-- Where in a record a value stands. -/
inductive Place
  | whole
  | field (name : String)
  | item (name : String) (index : Nat)
deriving DecidableEq, Repr

structure Fault (ρ : Type) where
  place : Place
  cause : Cause ρ
deriving DecidableEq, Repr

/-- The choices, each quoted, the last one after `or`. -/
def alternatives : List String → String
  | [] => ""
  | [a] => Text.quoted a
  | [a, b] => Text.quoted a ++ " or " ++ Text.quoted b
  | a :: as => Text.quoted a ++ ", " ++ alternatives as

namespace Cause

/-- The wording of a cause, given that of the record's own rules. -/
def message {ρ : Type} (say : ρ → String) : Cause ρ → String
  | .missing => "Field required"
  | .notInt => "Input should be a valid integer"
  | .fractional => "Input should be a valid integer, got a number with a fractional part"
  | .notFinite => "Input should be a finite number"
  | .unreadableInt => "Input should be a valid integer, unable to parse string as an integer"
  | .oversizedInt => "Unable to parse input string as an integer, exceeded maximum size"
  | .notFloat => "Input should be a valid number"
  | .unreadableFloat => "Input should be a valid number, unable to parse string as a number"
  | .notText => "Input should be a valid string"
  | .noText => "String should have at least 1 character"
  | .notList => "Input should be a valid list"
  | .notOneOf choices => "Input should be " ++ alternatives choices
  | .notAbove bound => "Input should be greater than " ++ toString bound
  | .below bound => "Input should be greater than or equal to " ++ toString bound
  | .above bound => "Input should be less than or equal to " ++ toString bound
  | .broken rule => "Value error, " ++ say rule

end Cause

end EchoMetrics
