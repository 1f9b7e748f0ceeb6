import EchoMetrics.Proofs.Service.Serving
import EchoMetrics.Proofs.Supervision.Script

/-! # Scripted exporters among all

Main statement: the exporter that is run by a script stops for a reason for which it may stop, and
the server is told to end from outside only where the script says so. -/

namespace EchoMetrics

namespace Supervision.Run

/-- Only a wait that is too long fails. -/
theorem canWait_of_supervise {reason : String} {cs : List Conduct} {r : Run}
    {canWait : Float → Bool} {d : Float}
    (h : (supervise reason cs r canWait).2 = some (.wait d)) : canWait d = false := by
  induction cs generalizing r with
  | nil =>
    rw [supervise] at h
    dsimp only at h
    split at h
    · cases h
    · split at h
      · cases h
      · rw [snd_fail] at h
        cases h
  | cons c cs ih =>
    rw [supervise] at h
    dsimp only at h
    split at h
    · cases h
    · split at h
      · cases h
      · split at h
        · cases h
        · split at h
          · rw [snd_fail] at h
            cases h
          · split at h
            · exact ih h
            · rename_i hwait
              rw [snd_fail] at h
              cases h
              exact Bool.eq_false_iff.2 hwait

end Supervision.Run

namespace Service

open Supervision

/-- An end is final. -/
theorem ended_of_granted {q : Prop} {t t' : Threads} {fault : Option RunFault}
    (h : Threads.Granted q t t') (hr : t.runner = .ended fault) : t'.runner = .ended fault := by
  cases h with
  | work h =>
    cases h with
    | run h => exact absurd hr (h.runner_ne_ended _)
    | stop _ h => exact h.run_eq.1.trans hr
    | exit => exact hr
  | call => exact hr

namespace Serving

variable {q : Prop} {v : Serving} {t : Threads}

/-- What the threads can do they do while the exporter serves, if shutdowns are asked for only where
the server has been told to end. -/
theorem exists_reachable_of_steps (h : Steps (Threads.Granted q) v.threads t) (hq : q → v.Leaves)
    (hw : ∀ d, t.runner = .ended (some (.wait d)) → canWait d = false) :
    ∃ v', v.Reachable v' ∧ v'.threads = t ∧ v'.sight.interrupted = v.sight.interrupted ∧
      v'.sight.expired = v.sight.expired ∧ (q → v'.Leaves) := by
  induction h with
  | refl => exact ⟨v, .refl, rfl, rfl, rfl, hq⟩
  | @tail b c _ hs ih =>
    -- Nothing follows an end, so a wait that failed before is the one that is known at last.
    obtain ⟨v', hv, rfl, hi, he, hl⟩ := ih fun d hd => hw d (ended_of_granted hs hd)
    cases hs with
    | work hwork =>
      refine ⟨v'.work c, hv.tail (.work hwork hw), rfl, hi, he, fun hq' => ?_⟩
      rcases hl hq' with h | h | ⟨fault, h⟩
      · exact .inl h
      · exact .inr (.inl h)
      · exact .inr (.inr ⟨fault, ended_of_granted (.work (q := q) hwork) h⟩)
    | call hq' => exact ⟨_, hv.tail (.shutdown (hl hq')), rfl, hi, he, hl⟩

end Serving

/-- The supervised run of a scripted exporter. -/
def scripted (w : Surroundings) (s : Settings) (path version : String) : Run where
  supervisor := .ofSettings s path (({} : Registry).apply (.version version))
  clock := w.clock
  interruptions :=
    { onceStarted := w.interrupted || (if w.interrupted then none else s.runtimeLimitS).isSome
      afterRun := true }

theorem serve_of_supervise {w : Surroundings} {s : Settings} {path version : String} {r : Run}
    {fault : Option RunFault}
    (h : Run.supervise w.reason w.probers (scripted w s path version) canWait = (r, fault)) :
    (serve w s path version).1 = r.shutdownIf r.interruptions.afterRun ∧
      (serve w s path version).2.1 = fault := by
  have hserve : ((serve w s path version).1, (serve w s path version).2.1) =
      (scripted w s path version).whole w.reason w.probers canWait := rfl
  have hwhole : (scripted w s path version).whole w.reason w.probers canWait =
      (r.shutdownIf r.interruptions.afterRun, fault) := by
    change (let ended := Run.supervise w.reason w.probers (scripted w s path version) canWait
      (ended.1.shutdownIf ended.1.interruptions.afterRun, ended.2)) = _
    rw [h]
  rw [hwhole] at hserve
  exact ⟨congrArg Prod.fst hserve, congrArg Prod.snd hserve⟩

theorem canWait_of_ended {w : Surroundings} {s : Settings} {path version : String} {r : Run}
    {fault : Option RunFault}
    (h : Run.supervise w.reason w.probers (scripted w s path version) canWait = (r, fault))
    (d : Float) (hd : Runner.ended fault = .ended (some (.wait d))) : canWait d = false :=
  Run.canWait_of_supervise ((congrArg Prod.snd h).trans (Runner.ended.inj hd))

section

variable (w : Surroundings) (s : Settings) (path version : String)

/-- Something from outside tells the server to end. -/
def Surroundings.Calls : Prop := w.Interrupts ∨ ∃ limit, s.runtimeLimitS = some limit

theorem asks_scripted : (scripted w s path version).Asks (w.Calls s) where
  onceStarted h := by
    rcases Bool.or_eq_true_iff.1 h with h | h
    · exact .inl (.inl h)
    · split at h
      · cases h
      · exact .inr (Option.isSome_iff_exists.1 h)
  afterLine _ h := by cases h
  onSleep _ h := by cases h
  onRelaunch _ h := by cases h
  untilStopped h := by cases h

/-- Before it does anything the exporter can be told what it will be told from outside. -/
theorem exists_told :
    ∃ v, (Serving.start s path version).Reachable v ∧
      v.threads = (scripted w s path version).threads .checking 0 ∧ (w.Calls s → v.Leaves) ∧
      (v.sight.interrupted = true → w.Interrupts) ∧
      (v.sight.expired = true → ∃ limit, s.runtimeLimitS = some limit) := by
  have hnever {p : Prop} (h : false = true) : p := Bool.noConfusion h
  by_cases hi : w.Interrupts
  · exact ⟨_, .tail .refl .interrupt, rfl, fun _ => .inl rfl, fun _ => hi, hnever⟩
  · by_cases he : ∃ limit, s.runtimeLimitS = some limit
    · obtain ⟨limit, hlimit⟩ := he
      exact ⟨_, .tail .refl (.expire hlimit), rfl, fun _ => .inr (.inl rfl), hnever,
        fun _ => ⟨limit, hlimit⟩⟩
    · exact ⟨_, .refl, rfl, fun h => absurd h (not_or.2 ⟨hi, he⟩), hnever, hnever⟩

variable {r : Run} {fault : Option RunFault}

/-- Up to its end, what the supervising thread does by the script it can do in an exporter. -/
theorem exists_ended_supervise
    (h : Run.supervise w.reason w.probers (scripted w s path version) canWait = (r, fault)) :
    r.interruptions.afterRun = true ∧
    ∃ v n, (Serving.start s path version).Reachable v ∧ v.threads = r.threads (.ended fault) n ∧
      (v.sight.interrupted = true → w.Interrupts) ∧
      (v.sight.expired = true → ∃ limit, s.runtimeLimitS = some limit) := by
  have hprobers (c : Conduct) (hc : c ∈ w.probers) (hu : c.untilStopped = true) : w.Calls s :=
    .inl (.inr ⟨c, hc, hu⟩)
  obtain ⟨-, hi, hsteps⟩ := Run.leads_supervise w.reason hprobers (scripted w s path version)
    canWait (asks_scripted w s path version)
  obtain ⟨v, hv, hthreads, hcalls, hinterrupted, hexpired⟩ := exists_told w s path version
  obtain ⟨n, hsteps⟩ := hsteps 0
  rw [h] at hi hsteps
  rw [← hthreads] at hsteps
  obtain ⟨v', hv', ht, hi', he', -⟩ := Serving.exists_reachable_of_steps hsteps hcalls
    (canWait_of_ended h)
  refine ⟨congrArg Interruptions.afterRun hi, v', n, hv.trans hv', ht, ?_, ?_⟩
  · rw [hi']
    exact hinterrupted
  · rw [he']
    exact hexpired

/-- What a scripted exporter comes to while it serves, an exporter can come to. -/
theorem exists_over_serve :
    ∃ v, (Serving.start s path version).Reachable v ∧ v.Over (serve w s path version).2.1 ∧
      v.threads.supervisor = (serve w s path version).1.supervisor ∧
      (v.sight.interrupted = true → w.Interrupts) ∧
      (v.sight.expired = true → ∃ limit, s.runtimeLimitS = some limit) := by
  rcases hended : Run.supervise w.reason w.probers (scripted w s path version) canWait with
    ⟨r, fault⟩
  obtain ⟨hafter, v, n, hv, ht, hinterrupted, hexpired⟩ :=
    exists_ended_supervise w s path version hended
  obtain ⟨hr, hfault⟩ := serve_of_supervise hended
  rw [hr, hfault, hafter]
  have hover : v.threads.runner = .ended fault := by rw [ht]; rfl
  -- The run is over, so the server is told to end, whatever else has told it to.
  have hshutdown := Run.steps_shutdown (q := True) trivial (x := .ended fault) rfl rfl r n
  rw [← ht] at hshutdown
  obtain ⟨v', hv', ht', hi', he', -⟩ := Serving.exists_reachable_of_steps hshutdown
    (fun _ => .inr (.inr ⟨fault, hover⟩)) (canWait_of_ended hended)
  refine ⟨v', hv.trans hv', ⟨?_, ?_⟩, ?_, ?_, ?_⟩
  · rw [ht']
    rfl
  · rw [ht']
    exact List.mem_replicate.2 ⟨Nat.succ_ne_zero n, rfl⟩
  · rw [ht']
    rfl
  · rw [hi']
    exact hinterrupted
  · rw [he']
    exact hexpired

end

/-! ## Why a scripted exporter stops -/

section

variable {w : Surroundings} {s : Settings}

theorem cause_run_of_refused {f : Prober.VersionFault}
    (h : Settings.load w.environment w.arguments = .ok s) (hf : findProber w s = .error f) :
    (run w).cause = .prober f := by
  rw [run, h]
  dsimp only
  rw [hf]
  cases f <;> rfl

theorem cause_run_of_served {path version : String}
    (h : Settings.load w.environment w.arguments = .ok s)
    (hf : findProber w s = .ok (path, version)) :
    (run w).cause = if canWait (s.shutdownGraceS + joinSlack)
      then .ofEnd (serve w s path version).1.supervisor.launches (serve w s path version).2.1
      else .unwaitable := by
  rw [run, h]
  dsimp only
  rw [hf]
  dsimp only
  cases canWait (s.shutdownGraceS + joinSlack) with
  | false => rfl
  | true => cases (serve w s path version).2.1 <;> rfl

end

/-- The scripted exporter stops for a reason for which it may stop. -/
theorem exists_ends_run (w : Surroundings) :
    ∃ seen, Ends w (run w).cause seen ∧ (seen.interrupted = true → w.Interrupts) ∧
      (seen.expired = true → ∃ s limit, Settings.load w.environment w.arguments = .ok s ∧
        s.runtimeLimitS = some limit) := by
  have hnever {p : Prop} (h : false = true) : p := Bool.noConfusion h
  cases hload : Settings.load w.environment w.arguments with
  | error refusal =>
    cases refusal with
    | stop stop =>
      rw [run, hload]
      exact ⟨{}, .argument hload, hnever, hnever⟩
    | fault f =>
      rw [run, hload]
      exact ⟨{}, .configuration hload, hnever, hnever⟩
  | ok s =>
    cases hfind : findProber w s with
    | error f =>
      rw [cause_run_of_refused hload hfind]
      exact ⟨{}, .prober hload hfind, hnever, hnever⟩
    | ok p =>
      obtain ⟨path, version⟩ := p
      obtain ⟨v, hv, ho, hs, hinterrupted, hexpired⟩ := exists_over_serve w s path version
      rw [cause_run_of_served hload hfind, ← hs]
      refine ⟨v.sight, ?_, hinterrupted, fun h => ?_⟩
      · by_cases hjoin : canWait (s.shutdownGraceS + joinSlack) = true
        · rw [if_pos hjoin]
          exact .served hload hfind hv ho hjoin
        · rw [if_neg hjoin]
          exact .unwaitable hload hfind hv ho.2 (Bool.eq_false_iff.2 hjoin)
      · obtain ⟨limit, hlimit⟩ := hexpired h
        exact ⟨s, limit, rfl, hlimit⟩

end Service

end EchoMetrics
