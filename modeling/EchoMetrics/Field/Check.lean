import EchoMetrics.Decimal.Numeral
import EchoMetrics.Field.Fault
import EchoMetrics.Field.Value

/-! # Checking fields

A single value is checked rule by rule and refused by the first rule that it breaks. A record is
checked field by field, and all refused fields are reported, in the order in which they are
declared. -/

namespace EchoMetrics

/-- The outcome of checking one value. -/
abbrev Check (ρ α : Type) := Except (Cause ρ) α

namespace Check

variable {ρ : Type}

/-- Whole floats of at least this size are refused as whole numbers. -/
def floatLimit : Nat := Nat.pow 2 63

def int : Value → Check ρ Int
  | .int n => .ok n
  | .bool b => .ok (if b then 1 else 0)
  | .float x =>
    if !x.isFinite then .error .notFinite
    else match intOfFloat? x with
      | none => .error .fractional
      | some n => if n.natAbs < floatLimit then .ok n else .error .oversizedInt
  | .text s =>
    match Numeral.int? s with
    | .ok n => .ok n
    | .error .unreadable => .error .unreadableInt
    | .error .oversized => .error .oversizedInt
  | .null | .list _ | .record => .error .notInt

def float : Value → Check ρ Float
  | .float x => .ok x
  | .int n =>
    let x := floatOfInt n
    if x.isFinite then .ok x else .error .notFloat
  | .bool b => .ok (if b then 1.0 else 0.0)
  | .text s =>
    match Numeral.float? s with
    | some x => .ok x
    | none => .error .unreadableFloat
  | .null | .list _ | .record => .error .notFloat

def text : Value → Check ρ String
  | .text s => .ok s
  | _ => .error .notText

def list : Value → Check ρ (List Value)
  | .list items => .ok items
  | _ => .error .notList

/-- One of the named choices. -/
def choice {α : Type} (choices : List (String × α)) (v : Value) : Check ρ α :=
  match v with
  | .text s =>
    match choices.lookup s with
    | some a => .ok a
    | none => .error (.notOneOf (choices.map Prod.fst))
  | _ => .error (.notOneOf (choices.map Prod.fst))

/-- Lets an explicit null through. -/
def nullable {α : Type} (check : Value → Check ρ α) : Value → Check ρ (Option α)
  | .null => .ok none
  | v => some <$> check v

/-- A whole number not below a bound. -/
def atLeast (bound : Nat) (n : Int) : Check ρ Nat :=
  if (bound : Int) ≤ n then .ok n.toNat else .error (.below bound)

def atMost (bound : Nat) (n : Int) : Check ρ Int :=
  if n ≤ (bound : Int) then .ok n else .error (.above bound)

def nonnegative (x : Float) : Check ρ Float := if 0.0 ≤ x then .ok x else .error (.below 0)

def positive (x : Float) : Check ρ Float := if 0.0 < x then .ok x else .error (.notAbove 0)

def atMostOne (x : Float) : Check ρ Float := if x ≤ 1.0 then .ok x else .error (.above 1)

def nonempty (s : String) : Check ρ String := if s = "" then .error .noText else .ok s

/-- A count: a whole number not below a bound. -/
def count (bound : Nat) (v : Value) : Check ρ Nat := int v >>= atLeast bound

end Check

/-- The outcome of checking several fields: all of them, or every fault. -/
inductive Checked (ρ α : Type)
  | valid (a : α)
  | faulty (faults : List (Fault ρ))
deriving DecidableEq, Repr

namespace Checked

variable {ρ α β : Type}

def and (f : Checked ρ (α → β)) (x : Checked ρ α) : Checked ρ β :=
  match f, x with
  | .valid f, .valid a => .valid (f a)
  | .valid _, .faulty es => .faulty es
  | .faulty es, .valid _ => .faulty es
  | .faulty es, .faulty es' => .faulty (es ++ es')

instance : Applicative (Checked ρ) where
  pure := .valid
  seq f x := f.and (x ())

/-- Goes on with a further check, which runs only when no field was refused. -/
def andThen (x : Checked ρ α) (f : α → Except ρ β) : Checked ρ β :=
  match x with
  | .faulty es => .faulty es
  | .valid a =>
    match f a with
    | .ok b => .valid b
    | .error rule => .faulty [⟨.whole, .broken rule⟩]

/-- The outcome of checking the value that stands in one field. -/
def ofCheck (name : String) : Check ρ α → Checked ρ α
  | .ok a => .valid a
  | .error cause => .faulty [⟨.field name, cause⟩]

def toExcept : Checked ρ α → Except (List (Fault ρ)) α
  | .valid a => .ok a
  | .faulty es => .error es

@[simp] theorem seq_valid (f : α → β) (a : α) :
    ((.valid f : Checked ρ (α → β)) <*> .valid a) = .valid (f a) := rfl
@[simp] theorem map_valid (f : α → β) (a : α) : f <$> (.valid a : Checked ρ α) = .valid (f a) := rfl
@[simp] theorem seq_faulty (f : α → β) (es : List (Fault ρ)) :
    ((.valid f : Checked ρ (α → β)) <*> .faulty es) = .faulty es := rfl
@[simp] theorem map_faulty (f : α → β) (es : List (Fault ρ)) :
    f <$> (.faulty es : Checked ρ α) = .faulty es := rfl
@[simp] theorem faulty_seq_valid (es : List (Fault ρ)) (a : α) :
    ((.faulty es : Checked ρ (α → β)) <*> .valid a) = .faulty es := rfl
@[simp] theorem faulty_seq_faulty (es es' : List (Fault ρ)) :
    ((.faulty es : Checked ρ (α → β)) <*> .faulty es') = .faulty (es ++ es') := rfl

end Checked

namespace Record

variable {ρ α : Type}

/-- Checks a field that has to be present. -/
def required (r : Record) (name : String) (check : Value → Check ρ α) : Checked ρ α :=
  .ofCheck name <|
    match r.lookup name with
    | some v => check v
    | none => .error .missing

/-- Checks a field if it is present; its default is taken unchecked. -/
def withDefault (r : Record) (name : String) (default : α) (check : Value → Check ρ α) :
    Checked ρ α :=
  .ofCheck name <|
    match r.lookup name with
    | some v => check v
    | none => .ok default

/-- Checks a field that may be absent or null. -/
def optional (r : Record) (name : String) (check : Value → Check ρ α) : Checked ρ (Option α) :=
  r.withDefault name none (Check.nullable check)

/-- Checks a list of texts item by item, and then the list as a whole. -/
def texts (r : Record) (name : String) (rule : List String → Except ρ (List String)) :
    Checked ρ (List String) :=
  match r.lookup name with
  | none => .valid []
  | some v =>
    match Check.list v with
    | .error cause => .faulty [⟨.field name, cause⟩]
    | .ok items =>
      let checked := items.mapIdx fun i item => (i, (Check.text item : Check ρ String))
      match checked.filterMap fun
          | (i, .error cause) => some (⟨.item name i, cause⟩ : Fault ρ)
          | (_, .ok _) => none with
      | [] => .ofCheck name ((rule (checked.filterMap (·.2.toOption))).mapError .broken)
      | faults => .faulty faults

end Record

end EchoMetrics
