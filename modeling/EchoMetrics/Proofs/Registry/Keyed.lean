import EchoMetrics.Proofs.Registry.Independence
import EchoMetrics.Registry.Feed

/-! # Targets under their names

What is known of a target carries the name of the target, and is kept under a name. Main statement:
the two are the same after any history of writes. -/

namespace EchoMetrics

/-! ## Names -/

namespace TargetState

variable (t : TargetState)

theorem name_ingest (s : Sample) : (t.ingest s).name = t.name := by
  rw [ingest]
  cases s.source with
  | summary => rfl
  | probe =>
    simp only [probe]
    split <;> split <;> rfl

/-- No write renames a target. -/
theorem name_change (w : Write) : (w.change t).name = t.name := by
  cases w with
  | ingest s => exact t.name_ingest s
  | error | parseError | start | restart | phase | version => rfl

end TargetState

/-! ## Registries -/

namespace Registry

/-- Whatever is kept under a name carries this name. -/
def Keyed (r : Registry) : Prop :=
  ∀ (name : String) (t : TargetState), r.targets[name]? = some t → t.name = name

variable {r : Registry}

theorem keyed_empty : Keyed {} := by
  intro name t h
  rw [Std.ExtTreeMap.getElem?_empty] at h
  cases h

theorem Keyed.name_target (h : r.Keyed) (name : String) : (r.target name).name = name := by
  rw [target]
  cases ht : r.targets[name]? with
  | none => rfl
  | some t => exact h name t ht

theorem Keyed.apply (h : r.Keyed) (w : Write) : (r.apply w).Keyed := by
  intro name t ht
  rw [getElem?_targets_apply] at ht
  split at ht
  · obtain rfl := Option.some.inj ht
    rw [TargetState.name_change, h.name_target]
  · exact h name t ht

theorem Keyed.replay (h : r.Keyed) (ws : History) : (r.replay ws).Keyed := by
  induction ws generalizing r with
  | nil => exact h
  | cons w ws ih => exact ih (h.apply w)

theorem keyed_replay (ws : History) : (({} : Registry).replay ws).Keyed := keyed_empty.replay ws

theorem keyed_feedAll (fs : List Feed) : (({} : Registry).feedAll fs).Keyed := by
  rw [feedAll_eq_replay]
  exact keyed_replay _

end Registry

end EchoMetrics
