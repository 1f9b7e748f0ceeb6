import Mathlib.Data.List.Induction
import EchoMetrics.Registry.History

/-! # Replaying a history

A registry is what its history says: each write changes the closed form of the history in the way in
which it changes the registry. Main statement: what a new registry holds after any list of writes is
the registry that the list leads to. -/

namespace EchoMetrics

/-- A map that gives every name of a list the same value however often the name occurs. -/
theorem getElem?_ofList_map {β : Type} (names : List String) (f : String → β) (name : String) :
    (Std.ExtTreeMap.ofList (names.map fun n => (n, f n)))[name]? =
      if name ∈ names then some (f name) else none := by
  rw [Std.ExtTreeMap.ofList_eq_insertMany_empty, Std.ExtTreeMap.getElem?_insertMany_list]
  simp only [Std.LawfulEqCmp.compare_eq_iff_eq, List.findSomeRev?_eq_findSome?_reverse,
    Std.ExtTreeMap.getElem?_empty, Option.or_none, ← List.map_reverse, List.findSome?_map]
  have hmem : name ∈ names ↔ name ∈ names.reverse := List.mem_reverse.symm
  simp only [hmem]
  induction names.reverse with
  | nil => rfl
  | cons n ns ih =>
    rw [List.findSome?_cons]
    by_cases h : n = name
    · simp [h]
    · simp [h, Ne.symm h, ih]

namespace History

variable (ws : History) (name : String)

/-! ## Samples and errors of a target -/

/-- What is known of a target depends on its samples and its errors only. -/
theorem state_congr {ws ws' : History} {name : String} (hs : ws.samples name = ws'.samples name)
    (he : ws.errorKinds name = ws'.errorKinds name) : ws.state name = ws'.state name := by
  simp only [state, addr, summaries, probes, replies, variations, errors, hs, he]

theorem samples_append_ingest (s : Sample) :
    samples (ws ++ [.ingest s]) s.target = ws.samples s.target ++ [s] := by
  simp [samples]

theorem samples_append_error (kind : String) :
    samples (ws ++ [.error name kind]) name = ws.samples name := by
  simp [samples]

theorem errorKinds_append_ingest (s : Sample) :
    errorKinds (ws ++ [.ingest s]) s.target = ws.errorKinds s.target ++
      if s.source = .probe ∧ s.error.isSome then [TargetState.icmp] else [] := by
  simp only [errorKinds, List.filterMap_append, List.filterMap_cons, List.filterMap_nil, true_and]
  split <;> simp_all

theorem errorKinds_append_error (kind : String) :
    errorKinds (ws ++ [.error name kind]) name = ws.errorKinds name ++ [kind] := by
  simp [errorKinds]

theorem getElem?_errors (kind : String) :
    (ws.errors name)[kind]? =
      if kind ∈ ws.errorKinds name then some ((ws.errorKinds name).count kind) else none :=
  getElem?_ofList_map ..

/-- Counting an error adds one to the count of its kind. -/
theorem errors_of_errorKinds_append {ws ws' : History} {name kind : String}
    (h : ws'.errorKinds name = ws.errorKinds name ++ [kind]) :
    ws'.errors name = (ws.errors name).add kind := by
  ext k n
  rw [ErrorCounts.add, Std.ExtTreeMap.getElem?_insert, getElem?_errors, getElem?_errors,
    getElem?_errors, h]
  simp only [Std.LawfulEqCmp.compare_eq_iff_eq, List.mem_append, List.mem_singleton,
    List.count_append, List.count_singleton]
  by_cases hk : kind = k
  · subst hk
    by_cases hm : kind ∈ ws.errorKinds name
    · simp [hm]
    · simp [hm, List.count_eq_zero_of_not_mem hm]
  · simp [hk, Ne.symm hk]

/-! ## Tallies and totals -/

theorem total_append_singleton (ns : List Nat) (n : Nat) : total (ns ++ [n]) = total ns + n := by
  simp [total]

theorem tally_append_singleton (ms : List Float) (x : Float) :
    tally (ms ++ [x]) = (tally ms).add x := by
  simp [tally, seconds, Tally.add]

/-- One more entry makes one more pair with the entry before, if there is one. -/
theorem zipWith_drop_one_append {α β : Type} (f : α → α → β) (xs : List α) (x : α) :
    (xs ++ [x]).zipWith f ((xs ++ [x]).drop 1) =
      xs.zipWith f (xs.drop 1) ++ (xs.getLast?.map (f · x)).toList := by
  induction xs with
  | nil => rfl
  | cons a xs ih =>
    cases xs with
    | nil => rfl
    | cons b xs => simpa using ih

/-! ## One more write -/

/-- A write about another target says nothing of this one. -/
theorem state_append_of_ne {w : Write} (h : w.target? ≠ some name) :
    state (ws ++ [w]) name = ws.state name := by
  refine state_congr ?_ ?_
  all_goals
    cases w <;> simp_all [samples, errorKinds, Write.target?]

theorem state_append_error (kind : String) :
    state (ws ++ [.error name kind]) name = (ws.state name).countError kind := by
  simp only [state, TargetState.countError, addr, summaries, probes, replies, variations,
    samples_append_error, errors_of_errorKinds_append (errorKinds_append_error ws name kind)]

theorem addr_append_ingest (s : Sample) :
    addr (ws ++ [.ingest s]) s.target = (ws.state s.target).newAddr s := by
  simp only [addr, samples_append_ingest, List.filterMap_append, TargetState.newAddr, state]
  cases h : s.addr with
  | none => simp [h]
  | some a =>
    by_cases ha : a = ""
    · simp [h, ha]
    · simp [h, ha, Option.filter]

theorem state_append_summary {s : Sample} (h : s.source = .summary) :
    state (ws ++ [.ingest s]) s.target = (ws.state s.target).ingest s := by
  have hs : summaries (ws ++ [.ingest s]) s.target = ws.summaries s.target ++ [s] := by
    simp [summaries, samples_append_ingest, h]
  have hp : probes (ws ++ [.ingest s]) s.target = ws.probes s.target := by
    simp [probes, samples_append_ingest, h]
  have he : errors (ws ++ [.ingest s]) s.target = ws.errors s.target := by
    simp [errors, errorKinds_append_ingest, h]
  simp only [TargetState.ingest, h, TargetState.summarize, ← addr_append_ingest]
  simp [state, replies, variations, samples_append_ingest, hs, hp, he, total_append_singleton]

theorem replies_append_probe {s : Sample} (h : s.source = .probe) :
    replies (ws ++ [.ingest s]) s.target =
      ws.replies s.target ++ (s.rtt.map (·.avg)).toList := by
  cases hr : s.rtt <;> simp [replies, probes, samples_append_ingest, h, hr]

/-- One more reply adds its difference to the reply before. -/
theorem tally_variations_append {ws ws' : History} {name : String} {ms : Float}
    (h : ws'.replies name = ws.replies name ++ [ms]) :
    tally (ws'.variations name) = ((ws.state name).reply ms).variation := by
  rw [variations, h, zipWith_drop_one_append]
  simp only [TargetState.reply, state]
  cases (ws.replies name).getLast? with
  | none => simp [variations]
  | some last => exact tally_append_singleton ..

theorem errors_append_probe {s : Sample} (h : s.source = .probe) :
    errors (ws ++ [.ingest s]) s.target =
      if s.error.isSome then (ws.errors s.target).add TargetState.icmp
      else ws.errors s.target := by
  split
  · rename_i he
    exact errors_of_errorKinds_append (by simp [errorKinds_append_ingest, h, he])
  · rename_i he
    simp [errors, errorKinds_append_ingest, h, he]

theorem state_append_probe {s : Sample} (h : s.source = .probe) :
    state (ws ++ [.ingest s]) s.target = (ws.state s.target).ingest s := by
  have hs : summaries (ws ++ [.ingest s]) s.target = ws.summaries s.target := by
    simp [summaries, samples_append_ingest, h]
  have hp : probes (ws ++ [.ingest s]) s.target = ws.probes s.target ++ [s] := by
    simp [probes, samples_append_ingest, h]
  have he := errors_append_probe ws h
  simp only [TargetState.ingest, h, TargetState.probe, ← addr_append_ingest]
  -- a reply moves both tallies, a timeout and an error none of them
  cases hrtt : s.rtt with
  | none =>
    have hr : replies (ws ++ [.ingest s]) s.target = ws.replies s.target := by
      simp [replies_append_probe ws h, hrtt]
    have hv : variations (ws ++ [.ingest s]) s.target = ws.variations s.target := by
      rw [variations, variations, hr]
    cases hi : s.error.isSome <;>
      simp [state, samples_append_ingest, hs, hp, hr, hv, he, hi, TargetState.countError]
  | some r =>
    have hr : replies (ws ++ [.ingest s]) s.target = ws.replies s.target ++ [r.avg] := by
      simp [replies_append_probe ws h, hrtt]
    have hv := tally_variations_append hr
    cases hi : s.error.isSome <;>
      simp [state, samples_append_ingest, hs, hp, hr, hv, he, hi, TargetState.countError,
        TargetState.reply, tally_append_singleton]

theorem state_append_ingest (s : Sample) :
    state (ws ++ [.ingest s]) s.target = (ws.state s.target).ingest s := by
  cases h : s.source with
  | probe => exact state_append_probe ws h
  | summary => exact state_append_summary ws h

/-! ## The registry of a history -/

theorem getElem?_targets_registry :
    ws.registry.targets[name]? =
      if name ∈ ws.filterMap (·.target?) then some (ws.state name) else none :=
  getElem?_ofList_map ..

/-- Nothing is known of a target that no write is about. -/
theorem state_of_notMem {name : String} (h : name ∉ ws.filterMap (·.target?)) :
    ws.state name = { name } := by
  have hne : ∀ w ∈ ws, w.target? ≠ some name := by
    intro w hw hn
    exact h (List.mem_filterMap.2 ⟨w, hw, hn⟩)
  refine (@state_congr ws [] name ?_ ?_).trans rfl
  · apply List.filterMap_eq_nil_iff.2
    intro w hw
    have := hne w hw
    cases w <;> simp_all [Write.target?]
  · apply List.filterMap_eq_nil_iff.2
    intro w hw
    have := hne w hw
    cases w <;> simp_all [Write.target?]

theorem target_registry : ws.registry.target name = ws.state name := by
  rw [Registry.target, getElem?_targets_registry]
  split
  · rfl
  · rename_i h
    rw [Option.getD_none, state_of_notMem ws h]

theorem targets_registry_append_of_none {w : Write} (h : w.target? = none) :
    (registry (ws ++ [w])).targets = ws.registry.targets := by
  ext name t
  rw [getElem?_targets_registry, getElem?_targets_registry,
    state_append_of_ne ws name (by simp [h])]
  simp [h]

theorem targets_registry_append {w : Write} {name : String} {f : TargetState → TargetState}
    (h : w.target? = some name) (hf : state (ws ++ [w]) name = f (ws.state name)) :
    (registry (ws ++ [w])).targets = (ws.registry.update name f).targets := by
  ext other t
  rw [Registry.update, Std.ExtTreeMap.getElem?_insert, getElem?_targets_registry,
    getElem?_targets_registry, target_registry, List.filterMap_append]
  simp only [Std.LawfulEqCmp.compare_eq_iff_eq, List.mem_append]
  by_cases ho : name = other
  · subst ho
    simp [h, hf]
  · have hs : state (ws ++ [w]) other = ws.state other :=
      state_append_of_ne ws other (by simp [h, ho])
    simp [h, ho, Ne.symm ho, hs]

/-- A write changes the closed form of a history in the way in which it changes a registry. -/
theorem registry_append (w : Write) : registry (ws ++ [w]) = ws.registry.apply w := by
  change Registry.mk (registry (ws ++ [w])).targets _ _ _ _ _ _ = _
  cases w with
  | ingest s =>
    rw [targets_registry_append ws (f := (·.ingest s)) rfl (state_append_ingest ws s)]
    simp [Registry.apply, Registry.update, registry, samplesIngested, parseErrors, restarts,
      startedAt, phase, version]
  | error name kind =>
    rw [targets_registry_append ws (f := (·.countError kind)) rfl (state_append_error ws name kind)]
    simp [Registry.apply, Registry.update, registry, samplesIngested, parseErrors, restarts,
      startedAt, phase, version]
  | _ =>
    rw [targets_registry_append_of_none ws rfl]
    simp [Registry.apply, registry, samplesIngested, parseErrors, restarts, startedAt, phase,
      version]

/-- A new registry is after any history what the history says. -/
theorem replay_eq_registry : ({} : Registry).replay ws = ws.registry := by
  induction ws using List.reverseRecOn with
  | nil => rfl
  | append_singleton ws w ih => rw [Registry.replay_append, ih, registry_append]; rfl

theorem count_variation_state :
    (ws.state name).variation.count = (ws.state name).roundTrip.count - 1 := by
  simp [state, tally, variations]

/-! ## Main statement -/

/-- A snapshot of what was a new registry is the closed form of the history. In it a target is known
if and only if some write is about it; there is one pair of successive replies less than there are
replies, and every kind of error is counted as often as it occurs. -/
theorem snapshot_replay (now : Float) :
    (({} : Registry).replay ws).snapshot now = { ws.registry with takenAt := now } ∧
      ∀ name,
        ((({} : Registry).replay ws).snapshot now).targets[name]? =
          (if name ∈ ws.filterMap (·.target?) then some (ws.state name) else none) ∧
        (ws.state name).variation.count = (ws.state name).roundTrip.count - 1 ∧
        ∀ kind, (ws.state name).errors[kind]?.getD 0 = (ws.errorKinds name).count kind := by
  have hx : (({} : Registry).replay ws).snapshot now = { ws.registry with takenAt := now } := by
    rw [replay_eq_registry]
    rfl
  refine ⟨hx, ?_⟩
  intro name
  refine ⟨?_, count_variation_state ws name, ?_⟩
  · rw [hx]
    exact getElem?_targets_registry ws name
  · intro kind
    change (ws.errors name)[kind]?.getD 0 = _
    rw [getElem?_errors]
    split
    · rfl
    · rename_i h
      exact (List.count_eq_zero_of_not_mem h).symm

end History

end EchoMetrics
