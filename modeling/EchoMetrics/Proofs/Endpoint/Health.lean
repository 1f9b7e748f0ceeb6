import EchoMetrics.Proofs.Binary.Difference
import EchoMetrics.Proofs.Binary.Product
import EchoMetrics.Proofs.Endpoint.Routing
import EchoMetrics.Proofs.Registry.Replay

/-! # What health tells of a history

Main statement: health tells of a registry what its history says, and the answer is a report unless
the prober was given up and the uptime is too large for a number. The targets that it counts are
those with a sample and, besides, those that the prober only complained of. -/

namespace EchoMetrics

open Binary

/-- The target that a write brings a sample of. -/
def Write.measured? : Write → Option String
  | .ingest s => some s.target
  | .error _ _ | .parseError | .start _ | .restart _ | .phase _ | .version _ => none

/-- The target that a write complains of. -/
def Write.complained? : Write → Option String
  | .error name _ => some name
  | .ingest _ | .parseError | .start _ | .restart _ | .phase _ | .version _ => none

theorem Write.target?_eq_some_iff {w : Write} {name : String} :
    w.target? = some name ↔ w.measured? = some name ∨ w.complained? = some name := by
  cases w <;> simp [target?, measured?, complained?]

/-! ## Counting targets -/

/-- A map has as many entries as there are keys, however the keys are told. -/
theorem size_eq_card {β : Type} {t : Std.ExtTreeMap String β} {names : Finset String}
    (h : ∀ name, name ∈ t ↔ name ∈ names) : t.size = names.card := by
  have hkeys : t.keys.toFinset = names := by
    ext name
    rw [List.mem_toFinset, Std.ExtTreeMap.mem_keys, h]
  rw [← Std.ExtTreeMap.length_keys, ← List.toFinset_card_of_nodup Std.ExtTreeMap.nodup_keys, hkeys]

namespace History

variable (ws : History) (now : Float)

/-- The targets with at least one sample. -/
def measured : Finset String := (ws.filterMap (·.measured?)).toFinset

/-- The targets that the prober complained of. -/
def complained : Finset String := (ws.filterMap (·.complained?)).toFinset

theorem mem_targets_registry (name : String) :
    name ∈ ws.registry.targets ↔ name ∈ ws.measured ∪ (ws.complained \ ws.measured) := by
  rw [Finset.union_sdiff_self_eq_union, Finset.mem_union, measured, complained,
    List.mem_toFinset, List.mem_toFinset, Std.ExtTreeMap.mem_iff_isSome_getElem?,
    getElem?_targets_registry]
  simp only [List.mem_filterMap, Write.target?_eq_some_iff, and_or_left, exists_or]
  split <;> simp_all

theorem size_targets_registry :
    ws.registry.targets.size = ws.measured.card + (ws.complained \ ws.measured).card := by
  rw [size_eq_card ws.mem_targets_registry, Finset.card_union_of_disjoint Finset.disjoint_sdiff]

/-- A snapshot of what was a new registry before the history. -/
def seen : Snapshot := (({} : Registry).replay ws).snapshot now

/-- The readings of the clock are numbers, and at the last launch it did not stand before the epoch,
unless it was set back since. -/
def Clocked : Prop :=
  now.isFinite = true ∧ ∀ started, ws.startedAt = some started →
    started.isFinite = true ∧ (0.0 ≤ started ∨ now ≤ started)

end History

/-! ## Uptimes -/

theorem Snapshot.zero_le_uptime (x : Snapshot) : 0.0 ≤ x.uptime := by
  have hzero : (0.0 : Float) ≤ 0.0 := by decide +kernel
  rw [uptime]
  cases x.startedAt with
  | none => exact hzero
  | some started =>
    dsimp only
    split
    · rename_i hpos
      exact zero_le_of_pos hpos
    · exact hzero

/-- An uptime is a number if it is a part of the time since the epoch. If the clock was set back, it
is zero. -/
theorem Snapshot.isFinite_uptime {x : Snapshot} (htaken : x.takenAt.isFinite = true)
    (h : ∀ started, x.startedAt = some started →
      started.isFinite = true ∧ (0.0 ≤ started ∨ x.takenAt ≤ started)) :
    x.uptime.isFinite = true := by
  rw [uptime]
  cases hstarted : x.startedAt with
  | none => exact isFinite_zero
  | some started =>
    obtain ⟨hfinite, horder⟩ := h started hstarted
    dsimp only
    by_cases hback : x.takenAt ≤ started
    · rw [if_neg (not_pos_sub htaken hfinite hback)]
      exact isFinite_zero
    · split
      · refine isFinite_sub htaken hfinite (horder.resolve_right hback) ?_
        rw [le_iff_val_le htaken hfinite] at hback
        exact (le_iff_val_le hfinite htaken).2 (le_of_not_ge hback)
      · exact isFinite_zero

theorem History.isFinite_uptime {ws : History} {now : Float} (h : ws.Clocked now) :
    (ws.seen now).uptime.isFinite = true := by
  refine Snapshot.isFinite_uptime h.1 ?_
  rw [seen, replay_eq_registry]
  exact h.2

/-! ## Health -/

/-- What health tells of the history of a registry. -/
structure Health.Follows (h : Health) (ws : History) : Prop where
  failed : h.failed = true ↔ ws.phase = .fatal
  phase : h.phase = ws.phase
  version : h.version = ws.version
  zero_le_uptime : 0.0 ≤ h.uptime
  restarts : h.restarts = ws.restarts
  samplesIngested : h.samplesIngested = ws.samplesIngested
  parseErrors : h.parseErrors = ws.parseErrors
  targets : h.targets = ws.measured.card + (ws.complained \ ws.measured).card

theorem History.phase_seen (ws : History) (now : Float) : (ws.seen now).phase = ws.phase := by
  rw [seen, replay_eq_registry]
  rfl

theorem History.follows_health (ws : History) (now : Float) : (ws.seen now).health.Follows ws := by
  have hzero := Snapshot.zero_le_uptime (ws.seen now)
  rw [seen, replay_eq_registry] at hzero ⊢
  exact {
    failed := decide_eq_true_iff
    phase := rfl
    version := rfl
    zero_le_uptime := hzero
    restarts := rfl
    samplesIngested := rfl
    parseErrors := rfl
    targets := ws.size_targets_registry }

/-- All targets have a sample if and only if none was only complained of. -/
theorem Health.Follows.targets_eq_card_iff {h : Health} {ws : History} (hf : h.Follows ws) :
    h.targets = ws.measured.card ↔ ws.complained ⊆ ws.measured := by
  rw [hf.targets, Nat.add_eq_left, Finset.card_eq_zero, Finset.sdiff_eq_empty_iff_subset]

namespace Endpoint

open Exposition

/-- Health tells of a registry what its history says: the counters are the numbers of the writes of
their kind, and the targets are those with a sample, to which come those that the prober complained
of without any. The answer is a report, whose status tells whether the prober was given up. Only if
it was, and if the uptime is no number, there is none; that cannot be if no launch was before the
epoch, however the clock was set back. -/
theorem respond_health (ws : History) (now : Float) (metricsPath : String)
    (encoder : List Family → Except EncodingFault String) :
    (ws.seen now).health.Follows ws ∧
      ((ws.seen now).health.targets = ws.measured.card ↔ ws.complained ⊆ ws.measured) ∧
      (respond metricsPath (ws.seen now) encoder "GET" "/health" =
          ⟨if ws.phase = .fatal then 503 else 200, .health (ws.seen now).health⟩ ∨
        ws.phase = .fatal ∧ (ws.seen now).uptime.isFinite = false ∧
          respond metricsPath (ws.seen now) encoder "GET" "/health" = crashed) ∧
      (ws.Clocked now → respond metricsPath (ws.seen now) encoder "GET" "/health" =
        ⟨if ws.phase = .fatal then 503 else 200, .health (ws.seen now).health⟩) := by
  have hfollows := ws.follows_health now
  have hhealth : respond metricsPath (ws.seen now) encoder "GET" "/health" =
      health (ws.seen now) := respond_of_mem_healthPaths (List.mem_cons_self ..)
  rw [hhealth, ← ws.phase_seen now]
  refine ⟨hfollows, hfollows.targets_eq_card_iff, ?_, ?_⟩
  · obtain hcrashed | ⟨-, hreport⟩ := health_cases (ws.seen now)
    · exact .inr hcrashed
    · exact .inl hreport
  · intro hclocked
    exact health_of_isFinite fun _ => History.isFinite_uptime hclocked

/-- The target of a lost request is complained of as well, the clock is set back and the prober is
given up. -/
theorem respond_health_set_back :
    let s : Sample :=
      { target := "a", source := .probe, transmitted := 1, received := 0
        received_le := Nat.zero_le 1, loss := 1.0, observedAt := 0.0 }
    let ws : History := [.start 5.0, .ingest s, .error "a" "fping", .phase .fatal]
    respond "/metrics" (ws.seen 3.0) encode "GET" "/health" = ⟨503, .health (ws.seen 3.0).health⟩ ∧
      (ws.seen 3.0).health.targets = 1 := by
  intro s ws
  obtain ⟨-, htargets, -, hreport⟩ := respond_health ws 3.0 "/metrics" encode
  have hclocked : ws.Clocked 3.0 := by
    refine ⟨by decide +kernel, ?_⟩
    intro started hstarted
    obtain rfl : (5.0 : Float) = started := Option.some.inj hstarted
    exact ⟨by decide +kernel, .inr (by decide +kernel)⟩
  exact ⟨hreport hclocked, htargets.2 (by decide)⟩

/-- A complaint alone makes a target count, and health can fail after a launch before the epoch. -/
theorem health_of_complaint :
    (History.measured [.error "t" "fping"] = ∅ ∧
      (History.seen [.error "t" "fping"] 1.0).health.targets = 1) ∧
    (-1e308 : Float).isFinite = true ∧ (1e308 : Float).isFinite = true ∧
      respond "/metrics" (History.seen [.start (-1e308), .phase .fatal] 1e308) encode "GET"
        "/health" = crashed := by
  exact ⟨⟨rfl, by decide +kernel⟩, by decide +kernel, by decide +kernel, by decide +kernel⟩

end Endpoint

end EchoMetrics
