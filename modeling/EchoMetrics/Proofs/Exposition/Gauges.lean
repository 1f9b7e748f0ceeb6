import EchoMetrics.Proofs.Exposition.Catalogue

/-! # Gauges

Main statement: the gauges of a target show its last summary, whatever came after it, and as long as
there was no summary its last sample. -/

namespace EchoMetrics.Exposition

/-- The gauges of a target among the lines are the lines of its gauges. -/
theorem filter_isGaugeOf_entries (fs : List Family) (name : String) :
    (fs.flatMap Family.entries).filter (·.isGaugeOf name) =
      (((fs.flatMap (·.series)).filter fun s => s.target? = some name).filter
        fun s => gaugeNames.contains s.name).map Series.entry := by
  induction fs with
  | nil => rfl
  | cons f fs ih =>
    have hseries : (f.series.map Series.entry).filter (·.isGaugeOf name) =
        ((f.series.filter fun s => s.target? = some name).filter
          fun s => gaugeNames.contains s.name).map Series.entry := by
      rw [List.filter_map, List.filter_filter]
      rfl
    rw [List.flatMap_cons, List.filter_append, ih, List.flatMap_cons, List.filter_append,
      List.filter_append, List.map_append, ← hseries]
    rfl

theorem filter_gaugeNames_eq_nil {f : Family} (hf : f.WellFormed)
    (h : (sampleNames f.exposedName f.kind.type).any gaugeNames.contains = false) :
    (f.series.filter fun s => gaugeNames.contains s.name) = [] := by
  refine List.filter_eq_nil_iff.2 ?_
  intro s hs
  exact List.any_eq_false.1 h s.name (hf.name_mem s hs)

theorem filter_gaugeNames_eq_self {f : Family} (hf : f.WellFormed)
    (h : (sampleNames f.exposedName f.kind.type).all gaugeNames.contains = true) :
    (f.series.filter fun s => gaugeNames.contains s.name) = f.series := by
  refine List.filter_eq_self.2 ?_
  intro s hs
  exact List.all_eq_true.1 h s.name (hf.name_mem s hs)

/-- The gauges of a single target show its current sample. -/
theorem filter_gaugeNames_targetFamilies (t : TargetState) :
    (((targetFamilies [t]).flatMap (·.series)).filter fun s => gaugeNames.contains s.name) =
      t.current.toList.flatMap fun s => gauges s (t.addr.getD "") t.name := by
  have hwell : ∀ f ∈ targetFamilies [t], f.WellFormed :=
    targetFamilies_wellFormed (List.nodup_singleton _)
  simp only [targetFamilies, List.forall_mem_cons] at hwell
  obtain ⟨h₀, h₁, h₂, h₃, h₄, h₅, h₆, h₇, h₈, h₉, -⟩ := hwell
  simp only [targetFamilies, List.flatMap_cons, List.flatMap_nil, List.filter_append]
  rw [filter_gaugeNames_eq_self h₀ rfl, filter_gaugeNames_eq_self h₁ rfl,
    filter_gaugeNames_eq_self h₂ rfl, filter_gaugeNames_eq_self h₃ rfl,
    filter_gaugeNames_eq_nil h₄ rfl, filter_gaugeNames_eq_nil h₅ rfl,
    filter_gaugeNames_eq_nil h₆ rfl, filter_gaugeNames_eq_nil h₇ rfl,
    filter_gaugeNames_eq_nil h₈ rfl, filter_gaugeNames_eq_nil h₉ rfl]
  cases hcurrent : t.current with
  | none => simp [perTarget, roundTrips, hcurrent]
  | some c =>
    cases hrtt : c.rtt with
    | none => simp [perTarget, roundTrips, hcurrent, hrtt, gauges, hostLabels, Kind.suffix]
    | some rtt => simp [perTarget, roundTrips, hcurrent, hrtt, gauges, hostLabels, Kind.suffix]

/-- The gauges in the exposition of a snapshot are those of the target's state. -/
theorem filter_isGaugeOf_families {x : Snapshot} (hx : x.Keyed) (name : String) :
    ((families x).flatMap Family.entries).filter (·.isGaugeOf name) =
      (x.targets[name]?.toList.flatMap fun t =>
        t.current.toList.flatMap fun s => gauges s (t.addr.getD "") name).map Series.entry := by
  rw [filter_isGaugeOf_entries, filter_families hx]
  cases ht : x.targets[name]? with
  | none => rfl
  | some t =>
    rw [Option.toList_some, filter_gaugeNames_targetFamilies, List.flatMap_singleton, hx name t ht]

theorem gauges_ne_nil (s : Sample) (addr target : String) : gauges s addr target ≠ [] :=
  List.cons_ne_nil _ _

/-! ## Main statement -/

/-- In the exposition of what is known after any writes the gauges of a target show the last summary
of the target, or its last sample if there was no summary. There are none if and only if there was
no sample. -/
theorem gauges_follow_summaries (ws : History) (name : String) (now : Float) {text : String}
    (h : render ((({} : Registry).replay ws).snapshot now) = .ok text) :
    ∃ es, read? text = some es ∧
      es.filter (·.isGaugeOf name) =
        (((ws.summaries name).getLast? <|> (ws.samples name).getLast?).toList.flatMap fun s =>
          gauges s ((ws.addr name).getD "") name).map Series.entry ∧
      (es.filter (·.isGaugeOf name) = [] ↔ ws.samples name = []) := by
  have hgauges : ((families ((({} : Registry).replay ws).snapshot now)).flatMap
      Family.entries).filter (·.isGaugeOf name) =
        ((ws.state name).current.toList.flatMap fun s =>
          gauges s ((ws.state name).addr.getD "") name).map Series.entry := by
    have htarget : ((({} : Registry).replay ws).snapshot now).targets[name]? =
        if name ∈ ws.filterMap (·.target?) then some (ws.state name) else none := by
      rw [← History.getElem?_targets_registry, ← History.replay_eq_registry]
      rfl
    rw [filter_isGaugeOf_families (Registry.keyed_replay ws), htarget]
    split
    · rw [Option.toList_some, List.flatMap_singleton]
    · rename_i hmem
      rw [History.state_of_notMem ws hmem]
      rfl
  refine ⟨_, read?_render (Registry.keyed_replay ws) h, hgauges, ?_⟩
  rw [hgauges, List.map_eq_nil_iff]
  constructor
  · intro hnil
    refine List.eq_nil_iff_forall_not_mem.2 ?_
    intro s hs
    obtain ⟨c, hc⟩ := Option.isSome_iff_exists.1 (History.isSome_current_state hs)
    rw [hc, Option.toList_some, List.flatMap_singleton] at hnil
    exact gauges_ne_nil c _ _ hnil
  · intro hnil
    have hcurrent : (ws.state name).current = none := by
      simp [TargetState.current, History.state, History.summaries, hnil]
    rw [hcurrent]
    rfl

/-- A summary without an answer stays shown after a reply, an error and another target's summary. -/
theorem gauges_follow_summaries_silent :
    let summary (target : String) : Sample :=
      { target, source := .summary, transmitted := 3, received := 0
        received_le := Nat.zero_le 3, loss := 1.0, observedAt := 0.0 }
    let reply : Sample :=
      { target := "a", source := .probe, transmitted := 1, received := 1
        received_le := Nat.le_refl 1, loss := 0.0
        rtt := some ⟨2.0, 2.0, 2.0, by decide +kernel, by decide +kernel⟩, observedAt := 0.0 }
    let ws : History := [.ingest (summary "a"), .ingest reply, .error "a" "fping",
      .ingest (summary "b")]
    ∃ text es, render ((({} : Registry).replay ws).snapshot 1.5) = .ok text ∧
      read? text = some es ∧
      es.filter (·.isGaugeOf "a") =
        [ .series "fping_target_transmitted" [("addr", ""), ("target", "a")] "3.0",
          .series "fping_target_received" [("addr", ""), ("target", "a")] "0.0",
          .series "fping_target_loss_ratio" [("addr", ""), ("target", "a")] "1.0" ] := by
  intro summary reply ws
  cases htext : render ((({} : Registry).replay ws).snapshot 1.5) with
  | error fault =>
    have hok : (render ((({} : Registry).replay ws).snapshot 1.5)).isOk = true := by decide +kernel
    rw [htext] at hok
    cases hok
  | ok text =>
    obtain ⟨es, hread, hgauges, -⟩ := gauges_follow_summaries ws "a" 1.5 htext
    refine ⟨text, es, rfl, hread, hgauges.trans ?_⟩
    decide +kernel

end EchoMetrics.Exposition
