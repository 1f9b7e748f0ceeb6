import EchoMetrics.Proofs.Field.Check

/-! # Declared fields

A record is told by the list of its fields, each with what may be wrong with the value that stands
in it. Main statement: what is found of a record that is checked field by field is put together from
what is found of each field, in the same order. -/

namespace EchoMetrics

variable {ρ α β : Type}

/-- Why a check refuses a value, if it does. -/
def Check.cause? : Check ρ α → Option (Cause ρ)
  | .ok _ => none
  | .error cause => some cause

/-- A field, and what is wrong with its value or with its absence. -/
structure Declaration (ρ : Type) where
  name : String
  cause? : Option Value → Option (Cause ρ)

namespace Declaration

/-- A field that has to be present. -/
def required (name : String) (check : Value → Check ρ α) : Declaration ρ where
  name
  cause?
    | some v => Check.cause? (check v)
    | none => some .missing

/-- A field that may be absent. -/
def withDefault (name : String) (check : Value → Check ρ α) : Declaration ρ where
  name
  cause? o := o.bind fun v => Check.cause? (check v)

/-- What is wrong with the field of a record. -/
def fault? (d : Declaration ρ) (r : Record) : Option (Fault ρ) :=
  (d.cause? (r.lookup d.name)).map fun cause => ⟨.field d.name, cause⟩

/-- Every field is told once at most, and in its turn. -/
theorem map_place_sublist (ds : List (Declaration ρ)) (r : Record) :
    ((ds.filterMap (·.fault? r)).map Fault.place).Sublist (ds.map fun d => .field d.name) := by
  induction ds with
  | nil => exact List.nil_sublist _
  | cons d ds ih =>
    cases h : d.fault? r with
    | none =>
      simp only [List.filterMap_cons, h]
      exact ih.cons _
    | some e =>
      obtain ⟨cause, -, rfl⟩ := Option.map_eq_some_iff.1 h
      simp only [List.filterMap_cons, h]
      exact ih.cons_cons _

end Declaration

namespace Checked

/-- The faults that are found are these, and if there are none, there is a value. -/
inductive Finds : Checked ρ α → List (Fault ρ) → Prop
  | nothing (a : α) : Finds (.valid a) []
  | faults {es : List (Fault ρ)} (h : es ≠ []) : Finds (.faulty es) es

variable {f : Checked ρ (α → β)} {x : Checked ρ α} {es es' : List (Fault ρ)}

theorem Finds.map (g : α → β) (h : x.Finds es) : (g <$> x).Finds es := by
  cases h with
  | nothing a => exact .nothing (g a)
  | faults h => exact .faults h

/-- What comes first is found first. -/
theorem Finds.seq (hf : f.Finds es) (hx : x.Finds es') : (f <*> x).Finds (es ++ es') := by
  cases hf with
  | nothing g => exact hx.map g
  | faults h =>
    cases hx with
    | nothing a => exact (List.append_nil es).symm ▸ .faults h
    | faults h' => exact .faults (List.append_ne_nil_of_left_ne_nil h es')

theorem finds_ofCheck (name : String) (c : Check ρ α) :
    (ofCheck name c).Finds
      ((Check.cause? c).map fun cause => (⟨.field name, cause⟩ : Fault ρ)).toList := by
  cases c with
  | ok a => exact .nothing a
  | error cause => exact .faults (List.cons_ne_nil _ _)

end Checked

namespace Record

variable (r : Record) (name : String) (check : Value → Check ρ α)

theorem finds_required :
    (r.required name check).Finds ((Declaration.required name check).fault? r).toList := by
  rw [required, Declaration.fault?, Declaration.required]
  cases r.lookup name with
  | none => exact Checked.finds_ofCheck name (.error .missing)
  | some v => exact Checked.finds_ofCheck name (check v)

theorem finds_withDefault (default : α) :
    (r.withDefault name default check).Finds
      ((Declaration.withDefault name check).fault? r).toList := by
  rw [withDefault, Declaration.fault?, Declaration.withDefault]
  cases r.lookup name with
  | none => exact Checked.finds_ofCheck name (.ok default)
  | some v => exact Checked.finds_ofCheck name (check v)

end Record

end EchoMetrics
