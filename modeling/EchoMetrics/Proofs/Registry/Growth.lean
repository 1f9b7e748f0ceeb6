import EchoMetrics.Proofs.Binary.Order
import EchoMetrics.Proofs.Line.Moment
import EchoMetrics.Proofs.Registry.Independence
import EchoMetrics.Registry.Feed

/-! # What a registry knows only grows

Totals, counts and sums of durations never fall, and what is known of a target stays known, whatever
is written, as long as times of replies are finite and not negative. Main statements: a write and a
history of writes make a registry grow, and all that a registry is fed with are such writes. -/

namespace EchoMetrics

open Binary

/-- A round trip whose time is a duration. -/
def Sample.Timed (s : Sample) : Prop := ∀ rtt ∈ s.rtt, rtt.avg.isFinite = true ∧ 0.0 ≤ rtt.avg

def Write.Timed : Write → Prop
  | .ingest s => s.Timed
  | .error _ _ | .parseError | .start _ | .restart _ | .phase _ | .version _ => True

/-! ## Tallies and counts of errors -/

/-- Neither the number nor the sum of durations falls. -/
structure Tally.Grows (t t' : Tally) : Prop where
  nonneg : 0.0 ≤ t'.seconds
  count : t.count ≤ t'.count
  seconds : t.seconds ≤ t'.seconds

namespace Tally.Grows

variable {t t' t'' : Tally}

theorem refl (h : 0.0 ≤ t.seconds) : t.Grows t := ⟨h, le_rfl, le_refl_of_zero_le h⟩

theorem trans (h : t.Grows t') (h' : t'.Grows t'') (h0 : 0.0 ≤ t.seconds) : t.Grows t'' :=
  ⟨h'.nonneg, h.count.trans h'.count,
    le_trans_of_zero_le h0 h.nonneg h'.nonneg h.seconds h'.seconds⟩

theorem add (h : 0.0 ≤ t.seconds) {ms : Float} (hms : 0.0 ≤ ms) : t.Grows (t.add ms) := by
  have hdiv : 0.0 ≤ ms / 1000.0 := zero_le_div hms (by decide +kernel) (by decide +kernel)
  obtain ⟨hnonneg, hle⟩ := le_add h hdiv
  exact ⟨hnonneg, Nat.le_succ _, hle⟩

end Tally.Grows

/-- No kind of errors is forgotten, and none is counted less often. -/
def ErrorCounts.Grows (e e' : ErrorCounts) : Prop :=
  ∀ (kind : String) (n : Nat), e[kind]? = some n → ∃ n', e'[kind]? = some n' ∧ n ≤ n'

namespace ErrorCounts.Grows

variable {e e' e'' : ErrorCounts}

theorem refl (e : ErrorCounts) : e.Grows e := fun _ n h => ⟨n, h, le_rfl⟩

theorem trans (h : e.Grows e') (h' : e'.Grows e'') : e.Grows e'' := by
  intro kind n hn
  obtain ⟨n', hn', hle⟩ := h kind n hn
  obtain ⟨n'', hn'', hle'⟩ := h' kind n' hn'
  exact ⟨n'', hn'', hle.trans hle'⟩

theorem add (e : ErrorCounts) (kind : String) : e.Grows (e.add kind) := by
  intro other n hn
  rw [ErrorCounts.add, Std.ExtTreeMap.getElem?_insert]
  split
  · rename_i h
    rw [Std.LawfulEqCmp.compare_eq_iff_eq.1 h, hn]
    exact ⟨_, rfl, Nat.le_succ n⟩
  · exact ⟨n, hn, le_rfl⟩

end ErrorCounts.Grows

/-! ## Targets -/

namespace TargetState

/-- All durations are ones that can be added up. -/
structure Sound (t : TargetState) : Prop where
  roundTrip : 0.0 ≤ t.roundTrip.seconds
  variation : 0.0 ≤ t.variation.seconds
  lastReply : ∀ ms ∈ t.lastReplyMs, ms.isFinite = true

theorem sound_empty (name : String) : Sound { name } :=
  ⟨(by decide +kernel : (0.0 : Float) ≤ 0.0), (by decide +kernel : (0.0 : Float) ≤ 0.0),
    fun _ h => absurd h (Option.not_mem_none _)⟩

/-- What is known of a target becomes more. -/
structure Grows (t t' : TargetState) : Prop where
  name : t'.name = t.name
  lastReply : ∀ ms ∈ t'.lastReplyMs, ms.isFinite = true
  current : t.current.isSome → t'.current.isSome
  lastSeq : t.lastSeq.isSome → t'.lastSeq.isSome
  transmittedTotal : t.transmittedTotal ≤ t'.transmittedTotal
  receivedTotal : t.receivedTotal ≤ t'.receivedTotal
  errors : t.errors.Grows t'.errors
  roundTrip : t.roundTrip.Grows t'.roundTrip
  variation : t.variation.Grows t'.variation

variable {t t' t'' : TargetState} {s : Sample}

namespace Grows

theorem sound (h : t.Grows t') : t'.Sound := ⟨h.roundTrip.nonneg, h.variation.nonneg, h.lastReply⟩

theorem trans (h : t.Grows t') (h' : t'.Grows t'') (ht : t.Sound) : t.Grows t'' where
  name := h'.name.trans h.name
  lastReply := h'.lastReply
  current hc := h'.current (h.current hc)
  lastSeq hc := h'.lastSeq (h.lastSeq hc)
  transmittedTotal := h.transmittedTotal.trans h'.transmittedTotal
  receivedTotal := h.receivedTotal.trans h'.receivedTotal
  errors := h.errors.trans h'.errors
  roundTrip := h.roundTrip.trans h'.roundTrip ht.roundTrip
  variation := h.variation.trans h'.variation ht.variation

end Grows

namespace Sound

theorem grows_refl (h : t.Sound) : t.Grows t where
  name := rfl
  lastReply := h.lastReply
  current := id
  lastSeq := id
  transmittedTotal := le_rfl
  receivedTotal := le_rfl
  errors := .refl _
  roundTrip := .refl h.roundTrip
  variation := .refl h.variation

theorem grows_countError (h : t.Sound) (kind : String) : t.Grows (t.countError kind) :=
  { h.grows_refl with errors := .add _ kind }

theorem grows_summarize (h : t.Sound) (s : Sample) : t.Grows (t.summarize s) :=
  { h.grows_refl with
    current := fun _ => rfl
    transmittedTotal := Nat.le_add_right _ _
    receivedTotal := Nat.le_add_right _ _ }

/-- A reply adds its own time, and its difference to the reply before. -/
theorem grows_reply (h : t.Sound) {ms : Float} (hf : ms.isFinite = true) (h0 : 0.0 ≤ ms) :
    t.Grows (t.reply ms) := by
  refine { h.grows_refl with
    lastReply := ?_
    roundTrip := .add h.roundTrip h0
    variation := ?_ }
  · rintro ms' ⟨⟩
    exact hf
  · simp only [reply]
    split
    · rename_i last hlast
      exact .add h.variation (zero_le_abs_sub hf (h.lastReply last hlast))
    · exact .refl h.variation

theorem grows_probe (h : t.Sound) (hs : s.Timed) : t.Grows (t.probe s) := by
  have hseq : t.Grows { t with lastSeq := s.seq <|> t.lastSeq } := by
    refine { h.grows_refl with lastSeq := ?_ }
    intro hseq
    cases s.seq with
    | none => exact hseq
    | some => rfl
  have herror {t' : TargetState} (h' : t.Grows t') :
      t.Grows (if s.error.isSome then t'.countError icmp else t') := by
    split
    · exact h'.trans (h'.sound.grows_countError icmp) h
    · exact h'
  rw [probe]
  cases hrtt : s.rtt with
  | none => exact herror hseq
  | some rtt =>
    obtain ⟨hf, h0⟩ := hs rtt hrtt
    exact herror (hseq.trans (hseq.sound.grows_reply hf h0) h)

theorem grows_ingest (h : t.Sound) (hs : s.Timed) : t.Grows (t.ingest s) := by
  have hlatest : t.Grows { t with latest := some s, addr := t.newAddr s } := by
    refine { h.grows_refl with current := ?_ }
    intro _
    rw [current]
    cases t.lastSummary <;> rfl
  rw [ingest]
  split
  · exact hlatest.trans (hlatest.sound.grows_summarize s) h
  · exact hlatest.trans (hlatest.sound.grows_probe hs) h

end Sound

/-- A write about a target makes what is known of it grow. -/
theorem Sound.grows_change (h : t.Sound) {w : Write} (hw : w.Timed) : t.Grows (w.change t) := by
  cases w with
  | ingest s => exact h.grows_ingest hw
  | error name kind => exact h.grows_countError kind
  | parseError | start | restart | phase | version => exact h.grows_refl

end TargetState

/-! ## Registries -/

namespace Registry

def Sound (r : Registry) : Prop := ∀ name : String, (r.target name).Sound

theorem sound_empty : Sound {} := by
  intro name
  have htarget : ({} : Registry).target name = { name } := by
    simp [target]
  rw [htarget]
  exact TargetState.sound_empty name

/-- A registry comes to know more. -/
structure Grows (r r' : Registry) : Prop where
  sound : r'.Sound
  targets (name : String) (t : TargetState) (h : r.targets[name]? = some t) :
    ∃ t', r'.targets[name]? = some t' ∧ t.Grows t'
  samplesIngested : r.samplesIngested ≤ r'.samplesIngested
  parseErrors : r.parseErrors ≤ r'.parseErrors
  restarts : r.restarts ≤ r'.restarts

variable {r r' r'' : Registry} {w : Write}

theorem Sound.of_getElem? (h : r.Sound) {name : String} {t : TargetState}
    (ht : r.targets[name]? = some t) : t.Sound := by
  have hsound := h name
  rwa [target, ht] at hsound

theorem Sound.grows_refl (h : r.Sound) : r.Grows r :=
  ⟨h, fun _ t ht => ⟨t, ht, (h.of_getElem? ht).grows_refl⟩, le_rfl, le_rfl, le_rfl⟩

theorem Grows.trans (h : r.Grows r') (h' : r'.Grows r'') (hr : r.Sound) : r.Grows r'' := by
  refine ⟨h'.sound, ?_, h.samplesIngested.trans h'.samplesIngested,
    h.parseErrors.trans h'.parseErrors, h.restarts.trans h'.restarts⟩
  intro name t ht
  obtain ⟨t', ht', hgrows⟩ := h.targets name t ht
  obtain ⟨t'', ht'', hgrows'⟩ := h'.targets name t' ht'
  exact ⟨t'', ht'', hgrows.trans hgrows' (hr.of_getElem? ht)⟩

/-- A write makes a registry grow. -/
theorem Sound.grows_apply (h : r.Sound) (hw : w.Timed) : r.Grows (r.apply w) := by
  constructor
  · intro name
    rw [target_apply]
    split
    · exact ((h name).grows_change hw).sound
    · exact h name
  · intro name t ht
    have htarget : r.target name = t := by rw [target, ht, Option.getD_some]
    rw [getElem?_targets_apply, htarget]
    split
    · exact ⟨_, rfl, (h.of_getElem? ht).grows_change hw⟩
    · exact ⟨t, ht, (h.of_getElem? ht).grows_refl⟩
  · cases w with
    | ingest s => exact Nat.le_succ _
    | _ => exact le_rfl
  · cases w with
    | parseError => exact Nat.le_succ _
    | _ => exact le_rfl
  · cases w with
    | restart => exact Nat.le_succ _
    | _ => exact le_rfl

/-- A history of writes makes a registry grow. -/
theorem Sound.grows_replay (h : r.Sound) {ws : History} (hws : ∀ w ∈ ws, w.Timed) :
    r.Grows (r.replay ws) := by
  induction ws generalizing r with
  | nil => exact h.grows_refl
  | cons w ws ih =>
    obtain ⟨hw, hws⟩ := List.forall_mem_cons.1 hws
    have hstep := h.grows_apply hw
    exact hstep.trans (ih hstep.sound hws) h

end Registry

/-! ## What registries are fed with -/

namespace Line

theorem timed_of_read {now : Float} {raw : String} {s : Sample}
    (h : read (.float now) raw = .sample s) : s.Timed := by
  obtain ⟨x, m, -, hm, hheld⟩ := exists_measures_of_read h
  intro rtt hrtt
  exact hm.bounds _ (hheld.mem_rtt hrtt) rtt.avg (by simp)

end Line

theorem Feed.timed_of_write? {f : Feed} {w : Write} (h : f.write? = some w) : w.Timed := by
  cases f with
  | line now raw =>
    cases w with
    | ingest s => exact Line.timed_of_read (Line.Outcome.eq_sample_of_write? h)
    | _ => trivial
  | start | restart | phase | version =>
    obtain rfl := Option.some.inj h
    trivial

theorem Registry.grows_feedAll (before later : List Feed) :
    (({} : Registry).feedAll before).Grows (({} : Registry).feedAll (before ++ later)) := by
  have htimed (fs : List Feed) : ∀ w ∈ fs.filterMap Feed.write?, w.Timed := by
    intro w hw
    obtain ⟨f, -, hf⟩ := List.mem_filterMap.1 hw
    exact Feed.timed_of_write? hf
  rw [feedAll_eq_replay, feedAll_eq_replay, List.filterMap_append, replay_append]
  exact (sound_empty.grows_replay (htimed before)).sound.grows_replay (htimed later)

end EchoMetrics
