import EchoMetrics.Exposition.Report
import EchoMetrics.Proofs.Line.Moment
import EchoMetrics.Proofs.Registry.Independence

/-! # What a scrape can see

A registry knows more than it shows: of the last sample nothing can be seen once there is a summary,
and of no sample when it was observed. Here a registry is cut down to what can be seen. Main
statements: the cut-down registry has the same exposition, and what can be seen after a write
depends on what could be seen before it. -/

namespace EchoMetrics

/-! ## Targets -/

namespace TargetState

/-- What can be seen of a target. -/
def visible (t : TargetState) : TargetState :=
  { t with
    latest := if t.lastSummary.isSome then none else t.latest.map Sample.undated
    lastSummary := t.lastSummary.map Sample.undated }

variable (t : TargetState) (s : Sample) (kind : String)

theorem current_visible : t.visible.current = t.current.map Sample.undated := by
  cases h : t.lastSummary <;> simp [visible, current, h]

theorem visible_visible : t.visible.visible = t.visible := by
  cases h : t.lastSummary <;> cases h' : t.latest <;> simp [visible, h, h']

theorem visible_ingest : (t.ingest s).visible = (t.visible.ingest s.undated).visible := by
  cases hs : s.source with
  | summary => simp [ingest, hs, visible, summarize, newAddr]
  | probe =>
    cases ht : t.lastSummary <;> cases hr : s.rtt <;> cases he : s.error.isSome <;>
      simp [ingest, hs, hr, he, ht, visible, probe, reply, countError, newAddr]

theorem visible_countError :
    (t.countError kind).visible = (t.visible.countError kind).visible := by
  cases h : t.lastSummary <;> cases h' : t.latest <;> simp [visible, countError, h, h']

end TargetState

/-! ## Registries -/

theorem Write.visible_change (w : Write) (t : TargetState) :
    (w.change t).visible = (w.undated.change t.visible).visible := by
  cases w with
  | ingest s => exact t.visible_ingest s
  | error name kind => exact t.visible_countError kind
  | _ => exact t.visible_visible.symm

namespace Registry

/-- What can be seen of a registry. -/
def visible (r : Registry) : Registry :=
  { r with targets := r.targets.map fun _ t => t.visible }

variable {r r' : Registry}

/-- Registries look the same if all their targets and counters do. -/
theorem visible_eq_of_targets (h : ∀ name : String,
      r.targets[name]?.map TargetState.visible = r'.targets[name]?.map TargetState.visible)
    (hs : r.samplesIngested = r'.samplesIngested) (ha : SameApart r r') :
    r.visible = r'.visible := by
  have htargets : (r.targets.map fun _ t => t.visible) = r'.targets.map fun _ t => t.visible := by
    apply Std.ExtTreeMap.ext_getElem?
    intro name
    rw [Std.ExtTreeMap.getElem?_map, Std.ExtTreeMap.getElem?_map]
    exact h name
  rw [visible, visible, htargets, hs, ha.parseErrors, ha.restarts, ha.startedAt, ha.phase,
    ha.version]

theorem target_visible (name : String) : r.visible.target name = (r.target name).visible := by
  rw [target, target, visible, Std.ExtTreeMap.getElem?_map]
  cases r.targets[name]? <;> rfl

/-- What can be seen after a write depends on what could be seen before. -/
theorem visible_apply (r : Registry) (w : Write) :
    (r.apply w).visible = (r.visible.apply w.undated).visible := by
  refine visible_eq_of_targets ?_ ?_ ?_
  · intro name
    rw [getElem?_targets_apply, getElem?_targets_apply, w.target?_undated, target_visible]
    split
    · exact congrArg some (w.visible_change (r.target name))
    · rw [visible, Std.ExtTreeMap.getElem?_map, Option.map_map]
      congr 1
      funext t
      exact t.visible_visible.symm
  · cases w <;> rfl
  · cases w <;> exact ⟨rfl, rfl, rfl, rfl, rfl⟩

/-- Registries that look the same still do after writes that differ in times of samples only. -/
theorem visible_replay_congr (h : r.visible = r'.visible) {ws ws' : History}
    (hw : ws.map Write.undated = ws'.map Write.undated) :
    (r.replay ws).visible = (r'.replay ws').visible := by
  induction ws generalizing r r' ws' with
  | nil =>
    obtain rfl := List.map_eq_nil_iff.1 hw.symm
    exact h
  | cons w ws ih =>
    obtain ⟨w', ws', rfl, hhead, htail⟩ := List.map_eq_cons_iff.1 hw.symm
    have hstep : (r.apply w).visible = (r'.apply w').visible := by
      rw [visible_apply r w, visible_apply r' w', h, hhead]
    exact ih hstep htail.symm

end Registry

/-! ## The exposition -/

namespace Exposition

variable (targets : List TargetState)

theorem perTarget_visible (kind : Kind) (name help : String) {value : TargetState → Option Value}
    (h : ∀ t, value t.visible = value t) :
    perTarget kind name help value (targets.map TargetState.visible) =
      perTarget kind name help value targets := by
  simp only [perTarget, List.filterMap_map]
  congr 2
  funext t
  simp only [Function.comp, h]
  rfl

theorem durations_visible (name help : String) {tally : TargetState → Tally}
    (h : ∀ t, tally t.visible = tally t) :
    durations name help tally (targets.map TargetState.visible) =
      durations name help tally targets := by
  simp only [durations, List.flatMap_map]
  congr 2
  funext t
  simp only [h, TargetState.current_visible, Option.isNone_map]
  rfl

theorem roundTrips_visible :
    roundTrips (targets.map TargetState.visible) = roundTrips targets := by
  simp only [roundTrips, List.flatMap_map]
  congr 2
  funext t
  rw [TargetState.current_visible, Option.bind_map]
  rfl

theorem errors_visible : errors (targets.map TargetState.visible) = errors targets := by
  simp only [errors, List.flatMap_map]
  rfl

theorem targetFamilies_visible :
    targetFamilies (targets.map TargetState.visible) = targetFamilies targets := by
  have hcurrent (f : Sample → Value) (hf : ∀ s, f s.undated = f s) (t : TargetState) :
      t.visible.current.map f = t.current.map f := by
    rw [TargetState.current_visible, Option.map_map]
    congr 1
    exact funext hf
  have hsampled (f : TargetState → Option Value) (hf : ∀ t, f t.visible = f t) (t : TargetState) :
      sampled f t.visible = sampled f t := by
    rw [sampled, sampled, TargetState.current_visible, hf, Option.bind_map]
    rfl
  rw [targetFamilies, targetFamilies,
    perTarget_visible _ _ _ _ (hcurrent _ fun _ => rfl),
    perTarget_visible _ _ _ _ (hcurrent _ fun _ => rfl),
    perTarget_visible _ _ _ _ (hcurrent _ fun _ => rfl), roundTrips_visible,
    perTarget_visible _ _ _ _ (hsampled _ fun _ => rfl),
    perTarget_visible _ _ _ _ (hsampled _ fun _ => rfl),
    perTarget_visible _ _ _ _ (hsampled _ fun _ => rfl), durations_visible _ _ _ fun _ => rfl,
    durations_visible _ _ _ fun _ => rfl, errors_visible]

theorem families_visible (r : Registry) (now : Float) :
    families (r.visible.snapshot now) = families (r.snapshot now) := by
  have hlist : (r.visible.snapshot now).targetList =
      (r.snapshot now).targetList.map fun p => (p.1, p.2.visible) :=
    Std.ExtTreeMap.toList_map
  have hstates : (r.visible.snapshot now).states =
      (r.snapshot now).states.map TargetState.visible := by
    rw [Snapshot.states, hlist, List.map_map, Snapshot.states, List.map_map]
    rfl
  rw [families, families, hstates, targetFamilies_visible]
  rfl

/-- Registries that look the same have the same exposition. -/
theorem render_congr {r r' : Registry} (h : r.visible = r'.visible) (now : Float) :
    render (r.snapshot now) = render (r'.snapshot now) := by
  rw [render, renderWith, ← families_visible, h, families_visible]
  rfl

end Exposition

end EchoMetrics
