import EchoMetrics.Endpoint
import EchoMetrics.Proofs.Binary.Overflow

/-! # What can be written

The text form has a place for every float, but a count has to be turned into one first. Main
statement: a snapshot is rendered if and only if every count that it shows is less than the limit of
floats; else rendering fails, and in a way that is not foreseen. -/

namespace EchoMetrics

open Binary (countLimit countLimit_pos)

namespace Exposition

/-! ## The encoder -/

/-- Something is written if and only if a condition holds; else some count is too large. -/
inductive WrittenIff {α : Type} (p : Prop) : Except EncodingFault α → Prop
  | written (h : p) (a : α) : WrittenIff p (.ok a)
  | tooLarge (h : ¬ p) : WrittenIff p (.error .countTooLarge)

namespace WrittenIff

variable {α β : Type} {p q : Prop} {e : Except EncodingFault α}

theorem congr (h : WrittenIff p e) (hpq : p ↔ q) : WrittenIff q e := by
  cases h with
  | written h a => exact .written (hpq.1 h) a
  | tooLarge h => exact .tooLarge (mt hpq.2 h)

theorem map (h : WrittenIff p e) (f : α → β) : WrittenIff p (f <$> e) := by
  cases h with
  | written h a => exact .written h (f a)
  | tooLarge h => exact .tooLarge h

theorem bind {f : α → Except EncodingFault β} (h : WrittenIff p e)
    (hf : ∀ a, WrittenIff q (f a)) : WrittenIff (p ∧ q) (e >>= f) := by
  cases h with
  | written h a => exact (hf a).congr (and_iff_right h).symm
  | tooLarge h => exact .tooLarge fun hpq => h hpq.1

/-- Of a list either everything is written or nothing. -/
theorem mapM {f : α → Except EncodingFault β} {p : α → Prop} (h : ∀ a, WrittenIff (p a) (f a))
    (as : List α) : WrittenIff (∀ a ∈ as, p a) (as.mapM f) := by
  induction as with
  | nil => exact .written (List.forall_mem_nil p) []
  | cons a as ih =>
    simp only [List.mapM_cons, bind_pure_comp]
    have hcons := (h a).bind fun b => ih.map (b :: ·)
    exact hcons.congr List.forall_mem_cons.symm

end WrittenIff

/-- A value that has a float. -/
def Value.Writable : Value → Prop
  | .count n => n < countLimit
  | .real _ => True

theorem Value.float_writtenIff (x : Value) : WrittenIff x.Writable x.float := by
  cases x with
  | real x => exact .written trivial x
  | count n =>
    rw [float]
    have hinf := Binary.isInf_floatOfNat_iff n
    split
    · rename_i h
      exact .tooLarge (Nat.not_lt.2 (hinf.1 h))
    · rename_i h
      exact .written (Nat.not_le.1 (mt hinf.2 h)) _

theorem Series.line_writtenIff (s : Series) : WrittenIff s.value.Writable s.line :=
  s.value.float_writtenIff.map _

def Family.Writable (f : Family) : Prop := ∀ s ∈ f.series, s.value.Writable

theorem Family.text_writtenIff (f : Family) : WrittenIff f.Writable f.text :=
  (WrittenIff.mapM Series.line_writtenIff f.series).map fun ls => f.heading ++ ls.flatten

theorem encode_writtenIff (families : List Family) :
    WrittenIff (∀ f ∈ families, f.Writable) (encode families) :=
  (WrittenIff.mapM Family.text_writtenIff families).map fun ts => String.ofList ts.flatten

/-! ## Families -/

section

variable {targets : List TargetState} {kind : Kind} {name help : String}

theorem perTarget_writable_iff {value : TargetState → Option Value} :
    (perTarget kind name help value targets).Writable ↔
      ∀ t ∈ targets, ∀ x ∈ value t, x.Writable := by
  simp only [Family.Writable, perTarget, List.mem_filterMap]
  constructor
  · intro h t ht x hx
    exact h _ ⟨t, ht, by rw [Option.mem_def.1 hx]; rfl⟩
  · rintro h s ⟨t, ht, hs⟩
    obtain ⟨x, hx, rfl⟩ := Option.map_eq_some_iff.1 hs
    exact h t ht x hx

theorem durations_writable_iff {tally : TargetState → Tally} :
    (durations name help tally targets).Writable ↔
      ∀ t ∈ targets, t.current.isSome → (tally t).count < countLimit := by
  simp only [Family.Writable, durations, List.mem_flatMap]
  constructor
  · intro h t ht hc
    by_cases h0 : (tally t).count = 0
    · rw [h0]
      exact countLimit_pos
    · refine h { name := name ++ "_count", labels := hostLabels t,
                 value := .count (tally t).count } ⟨t, ht, ?_⟩
      obtain ⟨c, hcur⟩ := Option.isSome_iff_exists.1 hc
      rw [if_neg (by simp [h0, hcur])]
      simp
  · rintro h s ⟨t, ht, hs⟩
    split at hs
    · exact absurd hs List.not_mem_nil
    · rename_i hc
      have hlt := h t ht (by cases hcur : t.current <;> simp_all)
      simp only [List.mem_cons, List.not_mem_nil, or_false] at hs
      rcases hs with rfl | rfl | rfl
      · exact hlt
      · exact hlt
      · trivial

theorem roundTrips_writable : (roundTrips targets).Writable := by
  simp only [Family.Writable, roundTrips, List.mem_flatMap]
  rintro s ⟨t, -, hs⟩
  split at hs
  · exact absurd hs List.not_mem_nil
  · obtain ⟨_, -, rfl⟩ := List.mem_map.1 hs
    trivial

theorem errors_writable_iff :
    (errors targets).Writable ↔ ∀ t ∈ targets, ∀ e ∈ t.errors.toList, e.2 < countLimit := by
  simp only [Family.Writable, errors, List.mem_flatMap, List.mem_map]
  constructor
  · intro h t ht e he
    exact h _ ⟨t, ht, e, he, rfl⟩
  · rintro h s ⟨t, ht, e, he, rfl⟩
    exact h t ht e he

theorem mem_sampled_iff {f : TargetState → Option Value} {t : TargetState} {x : Value} :
    x ∈ sampled f t ↔ t.current.isSome ∧ x ∈ f t := by
  rw [sampled]
  cases t.current <;> simp

theorem single_writable_iff {x : Value} : (single kind name help x).Writable ↔ x.Writable := by
  simp [Family.Writable, single]

end

end Exposition

/-! ## Counts of a snapshot -/

/-- The counts that are shown of a target. Most of them are shown with a sample only. -/
inductive TargetState.Shows (t : TargetState) : Nat → Prop
  | transmitted {s : Sample} (h : s ∈ t.current) : t.Shows s.transmitted
  | received {s : Sample} (h : s ∈ t.current) : t.Shows s.received
  | transmittedTotal (h : t.current.isSome) : t.Shows t.transmittedTotal
  | receivedTotal (h : t.current.isSome) : t.Shows t.receivedTotal
  | lastSeq {n : Nat} (h : t.current.isSome) (hn : n ∈ t.lastSeq) : t.Shows n
  | roundTrip (h : t.current.isSome) : t.Shows t.roundTrip.count
  | variation (h : t.current.isSome) : t.Shows t.variation.count
  | error {kind : String} {n : Nat} (h : t.errors[kind]? = some n) : t.Shows n

/-- The counts that are shown of a registry. -/
inductive Registry.Shows (r : Registry) : Nat → Prop
  | target {name : String} {t : TargetState} {n : Nat} (h : r.targets[name]? = some t)
      (hn : t.Shows n) : r.Shows n
  | samplesIngested : r.Shows r.samplesIngested
  | parseErrors : r.Shows r.parseErrors
  | restarts : r.Shows r.restarts

namespace Exposition

theorem targetFamilies_writable_iff {targets : List TargetState} :
    (∀ f ∈ targetFamilies targets, f.Writable) ↔
      ∀ t ∈ targets, ∀ n, t.Shows n → n < countLimit := by
  simp only [targetFamilies, List.forall_mem_cons, perTarget_writable_iff, durations_writable_iff,
    errors_writable_iff, mem_sampled_iff]
  constructor
  · rintro ⟨htransmitted, hreceived, -, -, htotal, htotal', hseq, hroundTrip, hvariation, herror, -⟩
      t ht n hn
    cases hn with
    | transmitted h => exact htransmitted t ht _ (Option.mem_map_of_mem _ h)
    | received h => exact hreceived t ht _ (Option.mem_map_of_mem _ h)
    | transmittedTotal h => exact htotal t ht _ ⟨h, rfl⟩
    | receivedTotal h => exact htotal' t ht _ ⟨h, rfl⟩
    | lastSeq h hn => exact hseq t ht _ ⟨h, Option.mem_map_of_mem _ hn⟩
    | roundTrip h => exact hroundTrip t ht h
    | variation h => exact hvariation t ht h
    | error h => exact herror t ht (_, n) (Std.ExtTreeMap.mem_toList_iff_getElem?_eq_some.2 h)
  · intro h
    refine ⟨?_, ?_, ?_, roundTrips_writable, ?_, ?_, ?_, ?_, ?_, ?_, nofun⟩
    · intro t ht x hx
      obtain ⟨s, hs, rfl⟩ := Option.mem_map.1 hx
      exact h t ht _ (.transmitted hs)
    · intro t ht x hx
      obtain ⟨s, hs, rfl⟩ := Option.mem_map.1 hx
      exact h t ht _ (.received hs)
    · intro _ _ x hx
      obtain ⟨s, -, rfl⟩ := Option.mem_map.1 hx
      trivial
    · rintro t ht x ⟨hc, hx⟩
      obtain rfl := Option.some.inj hx
      exact h t ht _ (.transmittedTotal hc)
    · rintro t ht x ⟨hc, hx⟩
      obtain rfl := Option.some.inj hx
      exact h t ht _ (.receivedTotal hc)
    · rintro t ht x ⟨hc, hx⟩
      obtain ⟨n, hn, rfl⟩ := Option.mem_map.1 hx
      exact h t ht n (.lastSeq hc hn)
    · exact fun t ht hc => h t ht _ (.roundTrip hc)
    · exact fun t ht hc => h t ht _ (.variation hc)
    · exact fun t ht e he =>
        h t ht e.2 (.error (Std.ExtTreeMap.mem_toList_iff_getElem?_eq_some.1 he))

theorem exporterFamilies_writable_iff {s : Snapshot} :
    (∀ f ∈ exporterFamilies s, f.Writable) ↔
      s.samplesIngested < countLimit ∧ s.parseErrors < countLimit ∧ s.restarts < countLimit := by
  simp only [exporterFamilies, List.forall_mem_append, List.forall_mem_cons, single_writable_iff]
  constructor
  · rintro ⟨⟨hsamples, herrors, hrestarts, -⟩, -⟩
    exact ⟨hsamples, herrors, hrestarts⟩
  · rintro ⟨hsamples, herrors, hrestarts⟩
    refine ⟨⟨hsamples, herrors, hrestarts, trivial, trivial, ?_, nofun⟩, ?_⟩
    · intro x hx
      obtain ⟨_, -, rfl⟩ := List.mem_map.1 hx
      trivial
    · intro f hf x hx
      obtain ⟨_, -, rfl⟩ := List.mem_map.1 hf
      obtain rfl := List.mem_singleton.1 hx
      trivial

theorem families_writable_iff (r : Registry) (now : Float) :
    (∀ f ∈ families (r.snapshot now), f.Writable) ↔ ∀ n, r.Shows n → n < countLimit := by
  rw [families, List.forall_mem_append, targetFamilies_writable_iff, exporterFamilies_writable_iff]
  constructor
  · rintro ⟨htargets, hsamples, herrors, hrestarts⟩ n hn
    cases hn with
    | target h hn =>
      exact htargets _ (Snapshot.mem_states_iff.2 ⟨_, h⟩) n hn
    | samplesIngested => exact hsamples
    | parseErrors => exact herrors
    | restarts => exact hrestarts
  · intro h
    refine ⟨?_, h _ .samplesIngested, h _ .parseErrors, h _ .restarts⟩
    intro t ht n hn
    obtain ⟨name, hname⟩ := Snapshot.mem_states_iff.1 ht
    exact h n (.target hname hn)

/-! ## Main statement -/

/-- A snapshot is rendered if and only if every count that it shows is within the limit. There is no
other reason for rendering to fail. -/
theorem render_cases (r : Registry) (now : Float) :
    ((∀ n, r.Shows n → n < countLimit) ∧ ∃ text, render (r.snapshot now) = .ok text) ∨
      (¬ ∀ n, r.Shows n → n < countLimit) ∧
        render (r.snapshot now) = .error (.unforeseen .countTooLarge) := by
  have h := (encode_writtenIff (families (r.snapshot now))).congr (families_writable_iff r now)
  rw [render, renderWith]
  revert h
  generalize encode (families (r.snapshot now)) = e
  intro h
  cases h with
  | written h text => exact .inl ⟨h, text, rfl⟩
  | tooLarge h => exact .inr ⟨h, rfl⟩

end Exposition

end EchoMetrics
