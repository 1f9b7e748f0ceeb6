import EchoMetrics.Proofs.Exposition.Encoding
import EchoMetrics.Proofs.Line.Moment
import EchoMetrics.Proofs.Registry.Replay

/-! # Numbers of lines that cannot be shown

A line may hold numbers of thousands of digits, and a total grows with every summary. Main
statements: what a registry knows from lines is rendered as long as its counters, its totals and the
numbers of its requests are within the limit of floats; past it, rendering fails without being
foreseen, and one line is enough for that. -/

namespace EchoMetrics

open Binary (countLimit countLimit_pos one_lt_countLimit)

/-! ## Counts of a history -/

namespace History

variable {ws : History} {name : String} {s : Sample}

theorem total_eq_sum (ns : List Nat) : total ns = ns.sum := List.sum_eq_foldl.symm

theorem le_total {n : Nat} {ns : List Nat} (h : n ∈ ns) : n ≤ total ns := by
  rw [total_eq_sum]
  exact List.le_sum_of_mem h

theorem receivedTotal_state_le (ws : History) (name : String) :
    (ws.state name).receivedTotal ≤ (ws.state name).transmittedTotal := by
  simp only [state, total_eq_sum]
  exact List.sum_le_sum fun s _ => s.received_le

theorem ingest_mem_of_mem_samples (h : s ∈ ws.samples name) : .ingest s ∈ ws := by
  obtain ⟨w, hw, hs⟩ := List.mem_filterMap.1 h
  cases w with
  | ingest s' =>
    simp only at hs
    split at hs
    · cases hs
      exact hw
    · cases hs
  | _ => cases hs

theorem length_samples_le (ws : History) (name : String) :
    (ws.samples name).length ≤ ws.samplesIngested := by
  rw [samples, samplesIngested, List.length_filterMap_eq_countP]
  refine List.countP_mono_left ?_
  intro w _ hw
  cases w with
  | ingest => rfl
  | _ => cases hw

/-- There are at most as many replies as samples. -/
theorem count_roundTrip_state_le (ws : History) (name : String) :
    (ws.state name).roundTrip.count ≤ ws.samplesIngested :=
  calc (ws.replies name).length ≤ (ws.probes name).length := List.length_filterMap_le ..
    _ ≤ (ws.samples name).length := List.length_filter_le ..
    _ ≤ ws.samplesIngested := ws.length_samples_le name

/-- The current sample is a summary, or a probe of a target without summaries. -/
theorem mem_current_state (h : s ∈ (ws.state name).current) :
    s ∈ ws.summaries name ∨ s ∈ ws.samples name ∧ s.source = .probe := by
  rw [TargetState.current] at h
  cases hlast : (ws.state name).lastSummary with
  | some s' =>
    rw [hlast] at h
    obtain rfl := Option.some.inj h
    exact .inl (List.mem_of_getLast? hlast)
  | none =>
    rw [hlast] at h
    have hmem : s ∈ ws.samples name := List.mem_of_getLast? h
    refine .inr ⟨hmem, ?_⟩
    cases hs : s.source with
    | probe => rfl
    | summary =>
      have hnil : ws.summaries name = [] := List.getLast?_eq_none_iff.1 hlast
      have hmem' : s ∈ ws.summaries name := List.mem_filter.2 ⟨hmem, by simp [hs]⟩
      rw [hnil] at hmem'
      exact absurd hmem' List.not_mem_nil

theorem isSome_current_state (h : s ∈ ws.samples name) : (ws.state name).current.isSome := by
  have hlatest : (ws.state name).latest.isSome :=
    List.getLast?_isSome.2 (List.ne_nil_of_mem h)
  rw [TargetState.current]
  cases (ws.state name).lastSummary with
  | none => exact hlatest
  | some => rfl

/-- A total that is not zero comes from a summary. -/
theorem isSome_current_of_transmittedTotal (h : (ws.state name).transmittedTotal ≠ 0) :
    (ws.state name).current.isSome := by
  cases hs : ws.summaries name with
  | nil => exact absurd (by simp [state, hs, total]) h
  | cons s ss =>
    have hmem : s ∈ ws.summaries name := by
      rw [hs]
      exact List.mem_cons_self
    exact isSome_current_state (List.mem_of_mem_filter hmem)

/-- A number of a request comes from a probe. -/
theorem exists_probe_of_lastSeq {n : Nat} (h : n ∈ (ws.state name).lastSeq) :
    ∃ s ∈ ws.samples name, s.seq = some n := by
  obtain ⟨s, hs, hn⟩ := List.mem_filterMap.1 (List.mem_of_getLast? h)
  exact ⟨s, List.mem_of_mem_filter hs, hn⟩

end History

/-! ## The limit -/

/-- No counter, total or number of a request is too large to be shown. -/
structure Registry.WithinLimit (r : Registry) : Prop where
  samplesIngested : r.samplesIngested < countLimit
  parseErrors : r.parseErrors < countLimit
  transmittedTotal (name : String) : (r.target name).transmittedTotal < countLimit
  lastSeq (name : String) {n : Nat} (h : n ∈ (r.target name).lastSeq) : n < countLimit
  errors (name kind : String) {n : Nat} (h : (r.target name).errors[kind]? = some n) :
    n < countLimit

namespace History

variable {ws : History}

/-- What is held of a target is what the history says, or nothing. -/
theorem target_registry_of_shows {name : String} {t : TargetState}
    (h : ws.registry.targets[name]? = some t) : t = ws.state name := by
  rw [← target_registry, Registry.target, h]
  rfl

theorem shows_state {name : String} {n : Nat} (h : (ws.state name).Shows n) (hn : n ≠ 0) :
    ws.registry.Shows n := by
  refine @Registry.Shows.target _ name (ws.state name) n ?_ h
  rw [getElem?_targets_registry]
  refine if_pos ?_
  by_contra hmem
  rw [state_of_notMem ws hmem] at h
  cases h with
  | transmittedTotal | receivedTotal | roundTrip | variation => exact hn rfl
  | transmitted h | received h | lastSeq h | error h => cases h

/-- All that is shown is within the limit if the totals and counters are, for histories without
restarts in which a probe is a single request. -/
theorem withinLimit_iff (hrestarts : ws.restarts = 0)
    (hprobe : ∀ s, .ingest s ∈ ws → s.source = .probe → s.transmitted = 1) :
    ws.registry.WithinLimit ↔ ∀ n, ws.registry.Shows n → n < countLimit := by
  constructor
  · intro h n hn
    cases hn with
    | samplesIngested => exact h.samplesIngested
    | parseErrors => exact h.parseErrors
    | restarts =>
      show ws.restarts < countLimit
      rw [hrestarts]
      exact countLimit_pos
    | @target name _ _ ht hn =>
      obtain rfl := target_registry_of_shows ht
      have htotal := h.transmittedTotal name
      have hseq := @h.lastSeq name
      have herrors := h.errors name
      rw [target_registry] at htotal hseq herrors
      have htransmitted : ∀ s ∈ (ws.state name).current, s.transmitted < countLimit := by
        intro s hs
        rcases mem_current_state hs with hmem | ⟨hmem, hs⟩
        · exact (le_total (List.mem_map_of_mem hmem)).trans_lt htotal
        · rw [hprobe s (ingest_mem_of_mem_samples hmem) hs]
          exact one_lt_countLimit
      have hreplies := (ws.count_roundTrip_state_le name).trans_lt h.samplesIngested
      cases hn with
      | transmitted hs => exact htransmitted _ hs
      | received hs => exact (Sample.received_le _).trans_lt (htransmitted _ hs)
      | transmittedTotal => exact htotal
      | receivedTotal => exact (ws.receivedTotal_state_le name).trans_lt htotal
      | lastSeq _ hn => exact hseq hn
      | roundTrip => exact hreplies
      | variation =>
        rw [count_variation_state]
        omega
      | error hn => exact herrors _ hn
  · intro h
    have hstate {name : String} {n : Nat} (hn : (ws.state name).Shows n) : n < countLimit := by
      rcases Nat.eq_zero_or_pos n with rfl | hpos
      · exact countLimit_pos
      · exact h n (shows_state hn hpos.ne')
    refine ⟨h _ .samplesIngested, h _ .parseErrors, ?_, ?_, ?_⟩
    · intro name
      rw [target_registry]
      by_cases h0 : (ws.state name).transmittedTotal = 0
      · rw [h0]
        exact countLimit_pos
      · exact hstate (.transmittedTotal (isSome_current_of_transmittedTotal h0))
    · intro name n hn
      rw [target_registry] at hn
      obtain ⟨s, hs, -⟩ := exists_probe_of_lastSeq hn
      exact hstate (.lastSeq (isSome_current_state hs) hn)
    · intro name kind n hn
      rw [target_registry] at hn
      exact hstate (.error hn)

end History

/-! ## Lines -/

/-- What is measured of one request is measured of one. -/
theorem Line.Reads.transmitted_of_probe {raw : String} {s : Sample} (h : Reads raw s)
    (hs : s.source = .probe) : s.transmitted = 1 := by
  obtain ⟨_, h⟩ := h
  obtain ⟨x, m, -, hm, hheld⟩ := exists_measures_of_read h
  rw [hheld.source] at hs
  rw [hheld.transmitted]
  cases hm with
  | summary => cases hs
  | @probe _ _ _ _ t => cases t <;> rfl
  | icmpError | unreachable => rfl

namespace Registry

variable (lines : List (Float × String))

theorem restarts_writesOf : History.restarts (writesOf lines) = 0 := by
  rw [History.restarts, List.countP_eq_zero]
  intro w hw
  have h := ofLine_of_mem_writesOf hw
  cases w with
  | restart => exact h.elim
  | _ => exact Bool.false_ne_true

theorem ingestAll_withinLimit_iff :
    (({} : Registry).ingestAll lines).WithinLimit ↔
      ∀ n, (({} : Registry).ingestAll lines).Shows n → n < countLimit := by
  rw [ingestAll_eq_replay, History.replay_eq_registry]
  refine History.withinLimit_iff (restarts_writesOf lines) ?_
  intro s hs hprobe
  obtain ⟨_, -, hreads⟩ := exists_reads_of_mem_writesOf hs
  exact hreads.transmitted_of_probe hprobe

end Registry

theorem TargetState.lastSeq_probe (t : TargetState) (s : Sample) :
    (t.probe s).lastSeq = (s.seq <|> t.lastSeq) := by
  simp only [probe]
  split <;> split <;> rfl

/-- A request whose number is too large is past the limit as long as it is the last one. -/
theorem Registry.not_withinLimit_of_read (lines : List (Float × String)) {now : Float}
    {raw : String} {s : Sample} {n : Nat} (h : Line.read (.float now) raw = .sample s)
    (hs : s.source = .probe) (hseq : s.seq = some n) (hn : countLimit ≤ n) :
    ¬ (({} : Registry).ingestAll (lines ++ [(now, raw)])).WithinLimit := by
  intro hlimit
  have hlines : ({} : Registry).ingestAll (lines ++ [(now, raw)]) =
      (Registry.ingestAll {} lines).apply (.ingest s) := by
    simp only [ingestAll, List.foldl_append, List.foldl_cons, List.foldl_nil, ingest, h,
      Line.Outcome.write?, Option.map_some, Option.getD_some]
  have htarget : ((Registry.ingestAll {} lines).apply (.ingest s)).target s.target =
      ((Registry.ingestAll {} lines).target s.target).ingest s :=
    target_update_self (Registry.ingestAll {} lines) s.target (·.ingest s)
  have hlast : ((({} : Registry).ingestAll (lines ++ [(now, raw)])).target s.target).lastSeq =
      some n := by
    rw [hlines, htarget, TargetState.ingest, hs]
    exact (TargetState.lastSeq_probe _ s).trans (by rw [hseq]; rfl)
  exact absurd (hlimit.lastSeq s.target hlast) hn.not_gt

/-! ## Main statements -/

open Exposition Endpoint

/-- The exposition of what is known from lines. -/
def Exposition.renderLines (lines : List (Float × String)) (now : Float) :
    Except RenderFault String :=
  render ((({} : Registry).ingestAll lines).snapshot now)

/-- What is known from lines is rendered, and a scrape succeeds, if and only if it is within the
limit. Past the limit rendering fails in a way that is not foreseen, and so does the scrape. -/
theorem Exposition.renderLines_cases (lines : List (Float × String)) (now : Float) :
    ((({} : Registry).ingestAll lines).WithinLimit ∧
        ∃ text, renderLines lines now = .ok text ∧
          metrics (renderLines lines now) = ⟨200, .exposition text⟩) ∨
      ¬ (({} : Registry).ingestAll lines).WithinLimit ∧
        renderLines lines now = .error (.unforeseen .countTooLarge) ∧
        metrics (renderLines lines now) = crashed := by
  have hiff := Registry.ingestAll_withinLimit_iff lines
  rcases render_cases (({} : Registry).ingestAll lines) now with
    ⟨hshown, text, hrender⟩ | ⟨hshown, hrender⟩
  · exact .inl ⟨hiff.2 hshown, text, hrender, congrArg metrics hrender⟩
  · exact .inr ⟨mt hiff.1 hshown, hrender, congrArg metrics hrender⟩

/-- A request whose number has 310 digits is more than can be rendered. -/
theorem Exposition.renderLines_long_number :
    renderLines [(0.5, "a : [" ++ String.ofList ('1' :: List.replicate 309 '0') ++ "], timed out")]
        1.0 = .error (.unforeseen .countTooLarge) := by
  let digits := String.ofList ('1' :: List.replicate 309 '0')
  have hdigits : digits.toList = '1' :: List.replicate 309 '0' := String.toList_ofList
  have hcount : Numeral.Count digits.toList (10 ^ 309) := by
    rw [hdigits]
    exact Numeral.count?_eq_some_iff.1 (by decide +kernel)
  have hseq : Line.Without ']' digits.toList := by
    rw [hdigits]
    decide +kernel
  have hlabel : Line.Label ⟨"a", none⟩ ("a".toList ++ ([' '] ++ ':' :: [' '])) :=
    .mk (.bare (by decide)) (by decide) (by decide)
  have hst : Line.Prefix "a" [] := .absent (by decide)
  have hraw (ds : String) : ("a : [" ++ ds ++ "], timed out").toList =
      [] ++ ("a".toList ++ ([' '] ++ ':' :: [' ']) ++ '[' ::
        (ds.toList ++ ']' :: ',' :: ([' '] ++ ("timed out".toList ++ [])))) := by
    simp
  have hshape := Line.shape?_trim_of_probe (hraw digits) hst hlabel hseq (by decide) .timedOut
    .absent
  obtain ⟨s, hs, hheld⟩ := Line.read_of_measurement hshape
    (Line.reading_of_numbers hcount .absent) (Line.Measurement.valid_request .absent (by decide) _)
    0.5
  have hlimit := Registry.not_withinLimit_of_read [] hs hheld.source hheld.seq (by decide +kernel)
  rcases render_cases (({} : Registry).ingestAll [(0.5, "a : [" ++ digits ++ "], timed out")]) 1.0
    with ⟨hshown, -⟩ | ⟨-, hrender⟩
  · exact absurd ((Registry.ingestAll_withinLimit_iff _).2 hshown) hlimit
  · exact hrender

end EchoMetrics
