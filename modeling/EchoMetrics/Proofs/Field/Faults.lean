import EchoMetrics.Proofs.Field.Check

/-! # The faults of a record

The faults of several fields are those of each of them, and a field is at fault by itself. Records
that agree on a field agree on its fault. -/

namespace EchoMetrics

namespace Checked

variable {ρ α β γ : Type}

theorem map_map (f : β → γ) (g : α → β) (x : Checked ρ α) : f <$> g <$> x = (f ∘ g) <$> x := by
  cases x <;> rfl

theorem map_seq (f : β → γ) (g : Checked ρ (α → β)) (x : Checked ρ α) :
    f <$> (g <*> x) = ((f ∘ ·) <$> g) <*> x := by
  cases g <;> cases x <;> rfl

/-- The fault is one of those that were found. -/
def Reports (x : Checked ρ α) (e : Fault ρ) : Prop := ∃ es, x = .faulty es ∧ e ∈ es

variable {e : Fault ρ}

theorem not_reports_valid (a : α) : ¬ (.valid a : Checked ρ α).Reports e := by
  rintro ⟨es, h, -⟩
  cases h

theorem reports_faulty_iff {es : List (Fault ρ)} :
    (.faulty es : Checked ρ α).Reports e ↔ e ∈ es := by
  constructor
  · rintro ⟨_, h, he⟩
    cases h
    exact he
  · exact fun he => ⟨es, rfl, he⟩

theorem reports_map_iff {f : α → β} {x : Checked ρ α} : (f <$> x).Reports e ↔ x.Reports e := by
  cases x with
  | valid a => exact iff_of_false (not_reports_valid _) (not_reports_valid _)
  | faulty es => exact reports_faulty_iff.trans reports_faulty_iff.symm

theorem reports_seq_iff {f : Checked ρ (α → β)} {x : Checked ρ α} :
    (f <*> x).Reports e ↔ f.Reports e ∨ x.Reports e := by
  cases f <;> cases x <;> simp [reports_faulty_iff, not_reports_valid]

theorem reports_ofCheck_iff {name : String} {c : Check ρ α} :
    (ofCheck name c).Reports e ↔ ∃ cause, c = .error cause ∧ e = ⟨.field name, cause⟩ := by
  cases c with
  | ok a =>
    refine iff_of_false (not_reports_valid a) ?_
    rintro ⟨_, h, -⟩
    cases h
  | error cause =>
    rw [ofCheck, reports_faulty_iff, List.mem_singleton]
    constructor
    · rintro rfl
      exact ⟨cause, rfl, rfl⟩
    · rintro ⟨_, h, rfl⟩
      cases h
      rfl

end Checked

namespace Record

variable {ρ α : Type} {r r' : Record} {name other : String}

/-- No other field than the named one is told apart. -/
def SameApart (name : String) (r r' : Record) : Prop :=
  ∀ other, other ≠ name → r.lookup other = r'.lookup other

theorem SameApart.withDefault_eq (h : SameApart name r r') (hne : other ≠ name) (d : α)
    (check : Value → Check ρ α) : r.withDefault other d check = r'.withDefault other d check := by
  rw [withDefault, withDefault, h other hne]

/-- A field is not at fault for another one. -/
theorem not_reports_withDefault {d : α} {check : Value → Check ρ α} {cause : Cause ρ}
    (hne : other ≠ name) : ¬ (r.withDefault other d check).Reports ⟨.field name, cause⟩ := by
  intro h
  obtain ⟨_, -, e⟩ := Checked.reports_ofCheck_iff.1 h
  exact hne (Place.field.inj (congrArg Fault.place e)).symm

end Record

end EchoMetrics
