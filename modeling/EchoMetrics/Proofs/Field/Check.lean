import EchoMetrics.Field.Check

/-! # What the checks of fields let through

Which values pass a check, and what is known of a field that passed. -/

namespace EchoMetrics

section

variable {ε ε' α β : Type}

theorem bind_eq_ok_iff {x : Except ε α} {f : α → Except ε β} {b : β} :
    x >>= f = .ok b ↔ ∃ a, x = .ok a ∧ f a = .ok b := by
  constructor
  · intro h
    cases x with
    | error e => cases h
    | ok a => exact ⟨a, rfl, h⟩
  · rintro ⟨a, rfl, h⟩
    exact h

theorem bind_eq_error_iff {x : Except ε α} {f : α → Except ε β} {e : ε} :
    x >>= f = .error e ↔ x = .error e ∨ ∃ a, x = .ok a ∧ f a = .error e := by
  constructor
  · intro h
    cases x with
    | error e' =>
      cases h
      exact .inl rfl
    | ok a => exact .inr ⟨a, rfl, h⟩
  · rintro (rfl | ⟨a, rfl, h⟩)
    · rfl
    · exact h

theorem ite_eq_ok_iff {p : Prop} [Decidable p] {a b : α} {e : ε} :
    (if p then .ok a else .error e : Except ε α) = .ok b ↔ p ∧ a = b := by
  by_cases hp : p
  · rw [if_pos hp]
    exact ⟨fun h => ⟨hp, Except.ok.inj h⟩, fun h => congrArg Except.ok h.2⟩
  · rw [if_neg hp]
    exact ⟨nofun, fun h => absurd h.1 hp⟩

theorem mapError_eq_ok_iff {x : Except ε α} {f : ε → ε'} {a : α} :
    x.mapError f = .ok a ↔ x = .ok a := by
  constructor
  · intro h
    cases x with
    | error e => cases h
    | ok a =>
      cases h
      rfl
  · rintro rfl
    rfl

theorem mapError_eq_error_iff {x : Except ε α} {f : ε → ε'} {e' : ε'} :
    x.mapError f = .error e' ↔ ∃ e, x = .error e ∧ f e = e' := by
  constructor
  · intro h
    cases x with
    | error e =>
      cases h
      exact ⟨e, rfl, rfl⟩
    | ok a => cases h
  · rintro ⟨e, rfl, rfl⟩
    rfl

end

namespace Checked

variable {ρ α β : Type}

theorem seq_eq_valid_iff {f : Checked ρ (α → β)} {x : Checked ρ α} {b : β} :
    f <*> x = .valid b ↔ ∃ a g, x = .valid a ∧ f = .valid g ∧ g a = b := by
  cases f <;> cases x <;> simp

theorem map_eq_valid_iff {f : α → β} {x : Checked ρ α} {b : β} :
    f <$> x = .valid b ↔ ∃ a, x = .valid a ∧ f a = b := by
  cases x <;> simp

theorem andThen_eq_valid_iff {x : Checked ρ α} {f : α → Except ρ β} {b : β} :
    x.andThen f = .valid b ↔ ∃ a, x = .valid a ∧ f a = .ok b := by
  cases x with
  | faulty es => simp [andThen]
  | valid a => cases h : f a <;> simp [andThen, h]

theorem toExcept_eq_ok_iff {x : Checked ρ α} {a : α} : x.toExcept = .ok a ↔ x = .valid a := by
  cases x <;> simp [toExcept]

theorem ofCheck_eq_valid_iff {name : String} {c : Check ρ α} {a : α} :
    ofCheck name c = .valid a ↔ c = .ok a := by
  cases c <;> simp [ofCheck]

end Checked

/-! ## What a check lets through -/

namespace Check

variable {ρ α : Type}

theorem positive_eq_ok_iff {x y : Float} :
    (positive x : Check ρ Float) = .ok y ↔ 0.0 < x ∧ x = y := ite_eq_ok_iff

theorem nonnegative_eq_ok_iff {x y : Float} :
    (nonnegative x : Check ρ Float) = .ok y ↔ 0.0 ≤ x ∧ x = y := ite_eq_ok_iff

theorem atMost_eq_ok_iff {bound : Nat} {m n : Int} :
    (atMost bound m : Check ρ Int) = .ok n ↔ m ≤ bound ∧ m = n := ite_eq_ok_iff

theorem atLeast_eq_ok_iff {bound n : Nat} {m : Int} :
    (atLeast bound m : Check ρ Nat) = .ok n ↔ bound ≤ n ∧ m = n := by
  rw [atLeast, ite_eq_ok_iff]
  omega

theorem pos_of_float {v : Value} {x : Float}
    (h : (float v >>= positive : Check ρ Float) = .ok x) : 0.0 < x := by
  obtain ⟨_, -, h⟩ := bind_eq_ok_iff.1 h
  obtain ⟨hpos, rfl⟩ := positive_eq_ok_iff.1 h
  exact hpos

theorem zero_le_of_float {v : Value} {x : Float}
    (h : (float v >>= nonnegative : Check ρ Float) = .ok x) : 0.0 ≤ x := by
  obtain ⟨_, -, h⟩ := bind_eq_ok_iff.1 h
  obtain ⟨hle, rfl⟩ := nonnegative_eq_ok_iff.1 h
  exact hle

theorem le_of_count {bound n : Nat} {v : Value} (h : (count bound v : Check ρ Nat) = .ok n) :
    bound ≤ n := by
  obtain ⟨_, -, h⟩ := bind_eq_ok_iff.1 h
  exact (atLeast_eq_ok_iff.1 h).1

theorem of_nullable {check : Value → Check ρ α} {P : α → Prop} {v : Value} {o : Option α}
    (hc : ∀ {v a}, check v = .ok a → P a) (h : nullable check v = .ok o) : ∀ a ∈ o, P a := by
  have hsome : ∀ {x : Check ρ α}, some <$> x = .ok o → ∃ a, x = .ok a ∧ some a = o := by
    intro x hx
    cases x with
    | error => cases hx
    | ok a => exact ⟨a, rfl, Except.ok.inj hx⟩
  cases v with
  | null =>
    cases h
    nofun
  | _ =>
    obtain ⟨a, ha, rfl⟩ := hsome h
    intro b hb
    cases Option.mem_some.1 hb
    exact hc ha

end Check

namespace Record

variable {ρ α : Type} {r : Record} {name : String}

/-- A field is the default, or what the check makes of the value that stands in it. -/
theorem withDefault_eq_valid_iff {d a : α} {check : Value → Check ρ α} :
    r.withDefault name d check = .valid a ↔
      r.lookup name = none ∧ d = a ∨ ∃ v, r.lookup name = some v ∧ check v = .ok a := by
  rw [withDefault, Checked.ofCheck_eq_valid_iff]
  cases r.lookup name <;> simp

theorem required_eq_valid_iff {a : α} {check : Value → Check ρ α} :
    r.required name check = .valid a ↔ ∃ v, r.lookup name = some v ∧ check v = .ok a := by
  rw [required, Checked.ofCheck_eq_valid_iff]
  cases r.lookup name <;> simp

theorem of_required {check : Value → Check ρ α} {P : α → Prop} {a : α}
    (hc : ∀ {v a}, check v = .ok a → P a) (h : r.required name check = .valid a) : P a := by
  obtain ⟨v, -, hv⟩ := required_eq_valid_iff.1 h
  exact hc hv

/-- What holds of the default and of what the check lets through holds of the field. -/
theorem of_withDefault {check : Value → Check ρ α} {P : α → Prop} {d a : α} (hd : P d)
    (hc : ∀ {v a}, check v = .ok a → P a) (h : r.withDefault name d check = .valid a) : P a := by
  rcases withDefault_eq_valid_iff.1 h with ⟨-, rfl⟩ | ⟨v, -, hv⟩
  · exact hd
  · exact hc hv

theorem of_optional {check : Value → Check ρ α} {P : α → Prop} {o : Option α}
    (hc : ∀ {v a}, check v = .ok a → P a) (h : r.optional name check = .valid o) : ∀ a ∈ o, P a :=
  of_withDefault (P := fun o => ∀ a ∈ o, P a) (by simp) (Check.of_nullable hc) h

theorem of_texts {rule : List String → Except ρ (List String)} {P : List String → Prop}
    {ts : List String} (hnil : P []) (hr : ∀ {ts ts'}, rule ts = .ok ts' → P ts')
    (h : r.texts name rule = .valid ts) : P ts := by
  rw [texts] at h
  split at h
  · cases h
    exact hnil
  · split at h
    · cases h
    · simp only at h
      split at h
      · rename_i items _ _
        generalize hrule : rule _ = result at h
        cases result with
        | error => cases h
        | ok =>
          cases h
          exact hr hrule
      · cases h

end Record

/-! ## Fields that pass their checks -/

section

variable {ρ α β : Type} {r : Record} {name : String} {v : Value}

theorem Record.required_of_lookup {check : Value → Check ρ α} {a : α}
    (hl : r.lookup name = some v) (hc : check v = .ok a) : r.required name check = .valid a := by
  rw [Record.required, hl]
  exact congrArg (Checked.ofCheck name) hc

theorem Record.withDefault_of_lookup {check : Value → Check ρ α} {a d : α}
    (hl : r.lookup name = some v) (hc : check v = .ok a) :
    r.withDefault name d check = .valid a := by
  rw [Record.withDefault, hl]
  exact congrArg (Checked.ofCheck name) hc

theorem Record.withDefault_of_absent {check : Value → Check ρ α} {d : α}
    (hl : r.lookup name = none) : r.withDefault name d check = .valid d := by
  rw [Record.withDefault, hl]
  rfl

theorem Value.ofOption_map (f : β → Value) (g : α → β) (o : Option α) :
    ofOption f (o.map g) = ofOption (fun a => f (g a)) o := by
  cases o <;> rfl

theorem Check.nullable_ofOption {check : Value → Check ρ α} {f : α → Value} {o : Option α}
    (hf : ∀ a ∈ o, f a ≠ .null) (hc : ∀ a ∈ o, check (f a) = .ok a) :
    Check.nullable check (.ofOption f o) = .ok o := by
  cases o with
  | none => rfl
  | some a =>
    have hsome : Check.nullable check (f a) = some <$> check (f a) := by
      cases hv : f a <;> first | rfl | exact absurd hv (hf a rfl)
    rw [Value.ofOption_some, hsome, hc a rfl]
    rfl

theorem Check.count_of_le {bound n : Nat} (h : bound ≤ n) :
    (Check.count bound (.int n) : Check ρ Nat) = .ok n :=
  atLeast_eq_ok_iff.2 ⟨h, rfl⟩

theorem Check.nonempty_of_ne {s : String} (h : s ≠ "") :
    (Check.nonempty s : Check ρ String) = .ok s :=
  if_neg h

theorem Check.nonnegative_of_le {x : Float} (h : 0.0 ≤ x) :
    (Check.nonnegative x : Check ρ Float) = .ok x :=
  if_pos h

theorem Check.share_of_le {x : Float} (h0 : 0.0 ≤ x) (h1 : x ≤ 1.0) :
    (Check.float (.float x) >>= Check.atMostOne >>= Check.nonnegative : Check ρ Float) = .ok x := by
  have hle : (Check.atMostOne x : Check ρ Float) = .ok x := if_pos h1
  show Check.atMostOne x >>= Check.nonnegative = _
  rw [hle]
  exact nonnegative_of_le h0

theorem Check.nullable_text (o : Option String) :
    (Check.nullable Check.text (.ofOption .text o) : Check ρ (Option String)) = .ok o :=
  nullable_ofOption (fun _ _ => nofun) fun _ _ => rfl

theorem Check.nullable_nonnegative {o : Option Float} (h : ∀ x ∈ o, 0.0 ≤ x) :
    (Check.nullable (fun v => Check.float v >>= Check.nonnegative) (.ofOption .float o) :
      Check ρ (Option Float)) = .ok o :=
  nullable_ofOption (fun _ _ => nofun) fun x hx => nonnegative_of_le (h x hx)

theorem Check.nullable_count (o : Option Nat) :
    (Check.nullable (Check.count 0) (.ofOption (fun n => .int (Int.ofNat n)) o) :
      Check ρ (Option Nat)) = .ok o :=
  nullable_ofOption (fun _ _ => nofun) fun n _ => count_of_le n.zero_le

/-- A list of texts is refused as a whole only. -/
theorem Record.texts_of_lookup {rule : List String → Except ρ (List String)} {ts : List String}
    (hl : r.lookup name = some (.list (ts.map .text))) :
    r.texts name rule = .ofCheck name ((rule ts).mapError .broken) := by
  rw [texts, hl]
  simp only [Check.list]
  split
  · rw [List.mapIdx_eq_zipIdx_map, List.zipIdx_map, List.map_map, List.filterMap_map]
    change Checked.ofCheck name ((rule (ts.zipIdx.filterMap fun p => some p.1)).mapError _) = _
    rw [List.filterMap_eq_map', List.zipIdx_map_fst]
  · rename_i hne
    refine absurd (List.filterMap_eq_nil_iff.2 ?_) hne
    intro p hp
    obtain ⟨i, hi, rfl⟩ := List.mem_mapIdx.1 hp
    rw [List.getElem_map]
    rfl

end

end EchoMetrics
