import Mathlib
import EchoMetrics.Proofs.Supervision.Probers

/-! # What becomes of probers after a shutdown

Main statement: in whatever order the threads take their steps, no two probers run at a time, a
shutdown that has returned leaves no prober behind and lets none be launched, and an exit that was
asked for ends the run. -/

namespace EchoMetrics.Supervision

namespace Threads

variable {t t' : Threads} {n : Nat}

/-! ## After a shutdown -/

/-- A stopping thread that is done with the prober stays so. -/
theorem over_set {i : Nat} {st st' : Stopper} (hi : t.stoppers[i]? = some st)
    (h : ∃ s ∈ t.stoppers, s.Over) (ho : st.Over → st'.Over) :
    ∃ s ∈ t.stoppers.set i st', s.Over := by
  obtain ⟨s, hs, hso⟩ := h
  obtain ⟨j, hj⟩ := List.getElem?_of_mem hs
  by_cases e : i = j
  · subst e
    cases hi.symm.trans hj
    exact ⟨st', List.mem_set (List.getElem?_eq_some_iff.1 hi).1 st', ho hso⟩
  · exact ⟨s, List.mem_of_getElem? ((List.getElem?_set_ne e).trans hj), hso⟩

theorem over_step (hs : Step t t') (h : ∃ s ∈ t.stoppers, s.Over) : ∃ s ∈ t'.stoppers, s.Over := by
  cases hs with
  | work hs =>
    cases hs with
    | run hs =>
      rw [hs.stoppers_eq]
      exact h
    | stop _ hs =>
      cases hs with
      | flag hi | decide hi _ | enter hi | expose hi | lock hi _ => exact over_set hi h (nomatch ·)
      | reap hi => exact over_set hi h fun _ => .inl rfl
      | leave hi => exact over_set hi h fun _ => .inr rfl
    | exit => exact h
  | call =>
    obtain ⟨s, hs, ho⟩ := h
    exact ⟨s, List.mem_append_left _ hs, ho⟩

/-- A stopping thread neither counts anything nor does anything to a prober that is gone. -/
theorem StopStep.frame {i : Nat} (hs : StopStep t i t') (hr : t.supervisor.running? = none) :
    t'.runner = t.runner ∧ t'.supervisor.backoff = t.supervisor.backoff ∧ t'.ledger = t.ledger := by
  cases hs with
  | reap => exact ⟨rfl, rfl, congrArg (·, _) (Supervisor.processes_reap hr)⟩
  | _ => exact ⟨rfl, rfl, rfl⟩

/-- After a shutdown, the probers stay as they are. -/
theorem Attended.processes_step (h : Attended n t) (ho : ∃ s ∈ t.stoppers, s.Over)
    (hs : Step t t') : t'.supervisor.processes = t.supervisor.processes := by
  obtain ⟨s, hm, ho⟩ := ho
  obtain ⟨hnone, hlaunches⟩ := h.finished s hm ho
  cases hs with
  | work hs =>
    cases hs with
    | run hs =>
      cases hs.turn with
      | spawn hd =>
        rw [hd] at hlaunches
        cases hlaunches
      | keep _ hl | lock _ _ _ hl | allow _ _ _ hl | release _ _ hl | record _ _ hl | count _ _ hl
      | collect _ _ _ hl => exact (ledger_eq hl).1
    | stop _ hs => exact (ledger_eq (hs.frame hnone).2.2).1
    | exit hp => cases hnone.symm.trans hp
  | call => rfl

/-- After a shutdown, all probers are gone, and none is launched. -/
theorem Attended.halted (h : Attended n t) (hp : t.Phased) (ho : ∃ s ∈ t.stoppers, s.Over)
    (h' : Reachable t t') :
    t'.supervisor.processes = t.supervisor.processes ∧
      (∀ p ∈ t'.supervisor.processes, p.alive = false) ∧ t'.runner ≠ .launching .spawning := by
  have hinv : Attended n t' ∧ t'.Phased ∧ (∃ s ∈ t'.stoppers, s.Over) ∧
      t'.supervisor.processes = t.supervisor.processes := by
    refine h'.invariant (p := fun u => Attended n u ∧ u.Phased ∧ (∃ s ∈ u.stoppers, s.Over) ∧
      u.supervisor.processes = t.supervisor.processes) ⟨h, hp, ho, rfl⟩ ?_
    rintro u u' ⟨hu, hup, huo, hps⟩ hs
    exact ⟨hu.step hup hs, hup.step hs, over_step hs huo, (hu.processes_step huo hs).trans hps⟩
  obtain ⟨hu, -, ⟨s, hm, ho⟩, hps⟩ := hinv
  obtain ⟨hnone, hlaunches⟩ := hu.finished s hm ho
  refine ⟨hps, hu.dead hnone, fun hr => ?_⟩
  rw [hr] at hlaunches
  cases hlaunches

end Threads

/-! ## After an exit that was asked for -/

def Entering.rank : Entering → Nat
  | .waiting => 3
  | .decided _ => 2
  | .entered _ => 1

/-- How many steps the supervising thread still takes after an exit that was asked for. -/
def Runner.rank : Runner → Nat
  | .judging _ => 4
  | .entering _ e => e.rank
  | .checking | .launching _ | .watching | .sleeping _ | .ended _ => 0

/-- How many steps a stopping thread still takes. -/
def Stopper.rank : Stopper → Nat
  | .flagging => 7
  | .entering e => e.rank + 3
  | .waiting => 3
  | .ending => 2
  | .leaving => 1
  | .returned => 0

namespace Threads

variable {t t' : Threads} {n : Nat}

/-- How many steps there are to take. -/
def rank (t : Threads) : Nat := t.runner.rank + (t.stoppers.map Stopper.rank).sum

/-- The prober has exited after so long, which was asked for, and nothing comes of it but the end of
the run. -/
structure Excused (lifetime : Float) (s : Supervisor) (t : Threads) : Prop where
  runner : t.runner = .judging lifetime ∨ (∃ e, t.runner = .entering .finish e) ∨
    t.runner = .ended none
  stopping : t.supervisor.stopping = true
  backoff : t.supervisor.backoff = s.backoff
  processes : t.supervisor.processes = s.processes
  launches : t.supervisor.launches = s.launches
  restarts : t.supervisor.registry.restarts = s.registry.restarts

variable {l : Float} {s : Supervisor}

theorem Excused.running? (h : Excused l s t) (hs : s.running? = none) :
    t.supervisor.running? = none :=
  (Supervisor.running?_congr h.processes).trans hs

/-- A step of the supervising thread goes on towards the end of the run. -/
theorem Excused.move {r : Runner} {s' : Supervisor} {shown : List Phase} (h : Excused l s t)
    (hr : (∃ e, r = .entering .finish e) ∨ r = .ended none) (hrank : r.rank < t.runner.rank)
    (hs : s'.stopping = t.supervisor.stopping) (hb : s'.backoff = t.supervisor.backoff)
    (hl : ledger ⟨s', r, t.stoppers, shown⟩ = t.ledger) :
    Excused l s ⟨s', r, t.stoppers, shown⟩ ∧ rank ⟨s', r, t.stoppers, shown⟩ < t.rank := by
  obtain ⟨hps, hn, hres⟩ := ledger_eq hl
  exact ⟨⟨.inr hr, hs.trans h.stopping, hb.trans h.backoff, hps.trans h.processes,
    hn.trans h.launches, hres.trans h.restarts⟩, Nat.add_lt_add_right hrank _⟩

theorem Excused.eq_finish {g : Goal} {e : Entering} (h : Excused l s t)
    (hr : t.runner = .entering g e) : g = .finish := by
  rcases h.runner with hr' | ⟨_, hr'⟩ | hr' <;> cases hr.symm.trans hr'
  rfl

theorem Excused.run (h : Excused l s t) (hs : RunStep t t') :
    Excused l s t' ∧ t'.rank < t.rank := by
  cases hs with
  | excuse hr _ => exact h.move (.inl ⟨_, rfl⟩) (by rw [hr]; exact Nat.lt_add_one 3) rfl rfl rfl
  | judge _ hs => cases hs.symm.trans h.stopping
  | decide hr _ =>
    obtain rfl := h.eq_finish hr
    rcases t.decide_cases .finish with ⟨hd, -⟩ | ⟨hd, -⟩ <;> rw [hd]
    · exact h.move (.inr rfl) (by rw [hr]; exact Nat.zero_lt_succ 2) rfl rfl rfl
    · exact h.move (.inl ⟨_, rfl⟩) (by rw [hr]; exact Nat.lt_add_one 2) rfl rfl rfl
  | enter hr =>
    obtain rfl := h.eq_finish hr
    exact h.move (.inl ⟨_, rfl⟩) (by rw [hr]; exact Nat.lt_add_one 1) rfl rfl rfl
  | expose hr =>
    obtain rfl := h.eq_finish hr
    exact h.move (.inr rfl) (by rw [hr]; exact Nat.lt_add_one 0) rfl rfl rfl
  | begin hr _ | quit hr _ | lock hr _ | allow hr _ | refuse hr _ | spawn _ hr | spawnFails _ hr
  | record _ hr | count hr | ingest _ _ hr | collect _ hr _ | wake hr | rouse hr _
  | sleepFails hr =>
    rcases h.runner with hr' | ⟨_, hr'⟩ | hr' <;> cases hr.symm.trans hr'

theorem rank_set {i : Nat} {st st' : Stopper} (hi : t.stoppers[i]? = some st)
    (h : st'.rank < st.rank) :
    ((t.stoppers.set i st').map Stopper.rank).sum < (t.stoppers.map Stopper.rank).sum := by
  obtain ⟨hlt, rfl⟩ := List.getElem?_eq_some_iff.1 hi
  have hset (st' : Stopper) : ((t.stoppers.set i st').map Stopper.rank).sum =
      ((t.stoppers.take i).map Stopper.rank).sum +
        (st'.rank + ((t.stoppers.drop (i + 1)).map Stopper.rank).sum) := by
    rw [List.set_eq_take_append_cons_drop, if_pos hlt, List.map_append, List.map_cons,
      List.sum_append, List.sum_cons]
  have hself := hset t.stoppers[i]
  rw [List.set_getElem_self] at hself
  rw [hself, hset]
  omega

theorem StopStep.rank_lt {i : Nat} (hs : StopStep t i t') : t'.rank < t.rank := by
  cases hs with
  | flag hi | lock hi _ | reap hi | leave hi =>
    refine Nat.add_lt_add_left (rank_set hi ?_) _
    decide
  | decide hi _ =>
    refine Nat.add_lt_add_left (rank_set hi ?_) _
    rcases t.decideStop_cases with hd | ⟨hd, -⟩ <;> rw [hd] <;> decide
  | enter hi =>
    refine Nat.add_lt_add_left (rank_set hi ?_) _
    exact Nat.lt_add_one 4
  | expose hi =>
    refine Nat.add_lt_add_left (rank_set hi ?_) _
    exact Nat.lt_add_one 3

theorem Excused.work (h : Excused l s t) (hr : s.running? = none) (hs : Work t t') :
    Excused l s t' ∧ t'.rank < t.rank := by
  cases hs with
  | run hs => exact h.run hs
  | stop _ hs =>
    obtain ⟨hrun, hb, hl⟩ := hs.frame (h.running? hr)
    obtain ⟨hps, hn, hres⟩ := ledger_eq hl
    refine ⟨⟨hrun ▸ h.runner, stopping_of_step (.work (.stop _ hs)) h.stopping, hb.trans h.backoff,
      hps.trans h.processes, hn.trans h.launches, hres.trans h.restarts⟩, hs.rank_lt⟩
  | exit hp => cases (h.running? hr).symm.trans hp

theorem Excused.step (h : Excused l s t) (hr : s.running? = none) (hs : Step t t') :
    Excused l s t' := by
  cases hs with
  | work hs => exact (h.work hr hs).1
  | call => exact ⟨h.runner, h.stopping, h.backoff, h.processes, h.launches, h.restarts⟩

/-- What is under way does not go on forever. -/
theorem Excused.acc (h : Excused l s t) (hr : s.running? = none) :
    Acc (fun b a => Work a b) t := by
  induction hk : t.rank using Nat.strongRecOn generalizing t with
  | _ k ih =>
    refine ⟨_, fun t' hs => ?_⟩
    obtain ⟨h', hlt⟩ := h.work hr hs
    exact ih _ (hk ▸ hlt) h' rfl

/-- A thread that holds the lock on the phase is not kept waiting. -/
theorem exists_work_of_entersPhase {st : Stopper} (hm : st ∈ t.stoppers)
    (he : st.entersPhase = true) : ∃ t', Work t t' := by
  obtain ⟨i, hi⟩ := List.getElem?_of_mem hm
  cases st with
  | entering e =>
    cases e with
    | waiting => cases he
    | decided p => exact ⟨_, .stop i (.enter hi)⟩
    | entered p => exact ⟨_, .stop i (.expose hi)⟩
  | flagging | waiting | ending | leaving | returned => cases he

/-- When nothing is left to do, the run has ended. -/
theorem Excused.ended_of_rest (h : Excused l s t) (hrest : ∀ t', ¬ Work t t') :
    t.runner = .ended none := by
  rcases h.runner with hr | ⟨e, hr⟩ | hr
  · exact absurd (.run (.excuse hr h.stopping)) (hrest _)
  · cases e with
    | waiting =>
      refine absurd (.run (.decide hr ⟨by rw [hr]; rfl, fun st hst => ?_⟩)) (hrest _)
      refine Bool.eq_false_iff.2 fun he => ?_
      obtain ⟨t', hs⟩ := exists_work_of_entersPhase hst he
      exact hrest t' hs
    | decided p => exact absurd (.run (.enter hr)) (hrest _)
    | entered p => exact absurd (.run (.expose hr)) (hrest _)
  · exact hr

/-- An exit that was asked for before it is judged on ends the run, without a retry, a wait or
another launch. -/
theorem Attended.excused (h : Attended n t) (hp : t.Phased) (hr : t.runner = .judging l)
    (hs : t.supervisor.stopping = true) (h' : Reachable t t') :
    Excused l t.supervisor t' ∧ (t'.runner = .ended none → t'.supervisor.phase = .shuttingDown) ∧
      Acc (fun b a => Work a b) t' ∧ ((∀ t'', ¬ Work t' t'') → t'.runner = .ended none) := by
  have hnone := h.untended (by rw [hr]; rfl)
  have hinv : Excused l t.supervisor t' ∧ t'.Phased := by
    refine h'.invariant (p := fun u => Excused l t.supervisor u ∧ u.Phased)
      ⟨⟨.inl hr, hs, rfl, rfl, rfl, rfl⟩, hp⟩ ?_
    rintro u u' ⟨hu, hup⟩ hs
    exact ⟨hu.step hnone hs, hup.step hs⟩
  obtain ⟨hx, hp'⟩ := hinv
  refine ⟨hx, fun he => ?_, hx.acc hnone, hx.ended_of_rest⟩
  have hfit := hp'.runner
  rw [he] at hfit
  exact hfit.elim id id

/-! ## Main statement -/

/-- However the steps of the supervising thread, of any number of threads that ask for a shutdown
and of the probers follow one another:
* at most one prober runs;
* once a shutdown has returned, all probers that were ever launched are gone for good, and the
  supervising thread never gets to launch one again;
* if the stop flag is set when an exit is judged on, then from there on no retry is used, nothing is
  waited for, launched or counted, and the run ends as one that was asked to shut down; it cannot go
  on forever, and nothing but its end leaves it without a step to take;
* while no thread holds the lock on the prober, every launch but the first has counted as a
  restart. -/
theorem shutdown_leaves_no_prober (s : Settings) (binary : String) (g : Registry)
    (h : Reachable { supervisor := .ofSettings s binary g } t) :
    t.supervisor.processes.countP (·.alive) ≤ 1 ∧
      (.returned ∈ t.stoppers → ∀ t', Reachable t t' →
        t'.supervisor.processes = t.supervisor.processes ∧
          (∀ p ∈ t'.supervisor.processes, p.alive = false) ∧
          t'.runner ≠ .launching .spawning) ∧
      (∀ l, t.runner = .judging l → t.supervisor.stopping = true → ∀ t', Reachable t t' →
        Excused l t.supervisor t' ∧
          (t'.runner = .ended none → t'.supervisor.phase = .shuttingDown) ∧
          Acc (fun b a => Work a b) t' ∧ ((∀ t'', ¬ Work t' t'') → t'.runner = .ended none)) ∧
      (t.ProberFree →
        t.supervisor.registry.restarts = g.restarts + (t.supervisor.launches - 1)) := by
  have ha := attended_of_reachable h
  have hp := phased_of_reachable h
  exact ⟨ha.countP_alive_le_one, fun hm t' h' => ha.halted hp ⟨_, hm, .inr rfl⟩ h',
    fun l hr hs t' h' => ha.excused hp hr hs h', ha.restarts_eq⟩

/-- A shutdown ends the prober and returns before its exit is judged on. -/
theorem shutdown_before_judging :
    ∃ t, Reachable { supervisor := .ofSettings {} "" {} } t ∧ t.stoppers = [.returned] ∧
      t.runner = .judging 1.0 ∧ t.supervisor.stopping = true ∧
      t.supervisor.processes = [{ pid := 7, alive := false }] ∧
      t.supervisor.registry.restarts = t.supervisor.launches - 1 ∧
      ∀ t', Reachable t t' → t'.runner ≠ .launching .spawning ∧
        (∀ p ∈ t'.supervisor.processes, p.alive = false) ∧ Excused 1.0 t.supervisor t' ∧
        ((∀ t'', ¬ Work t' t'') → t'.runner = .ended none) := by
  have h₁ : Reachable { supervisor := .ofSettings {} "" {} } _ :=
    .tail .refl (.work (.run (.begin rfl rfl)))
  have h₂ := h₁.tail (.work (.run (.decide rfl ⟨rfl, nofun⟩)))
  have h₃ := h₂.tail (.work (.run (.lock rfl ⟨rfl, nofun⟩)))
  have h₄ := h₃.tail (.work (.run (.allow rfl rfl)))
  have h₅ := h₄.tail (.work (.run (.spawn 7 rfl)))
  have h₆ := h₅.tail (.work (.run (.record 0.0 rfl)))
  have h₇ := h₆.tail (.work (.run (.count rfl)))
  have h₈ := h₇.tail (.work (.run (.decide rfl ⟨rfl, nofun⟩)))
  have h₉ := h₈.tail (.work (.run (.enter rfl)))
  have h₁₀ := h₉.tail (.work (.run (.expose rfl)))
  have h₁₁ := h₁₀.tail .call
  have h₁₂ := h₁₁.tail (.work (.stop 0 (.flag rfl)))
  have h₁₃ := h₁₂.tail (.work (.stop 0 (.decide rfl ⟨rfl, by decide⟩)))
  have h₁₄ := h₁₃.tail (.work (.stop 0 (.enter rfl)))
  have h₁₅ := h₁₄.tail (.work (.stop 0 (.expose rfl)))
  have h₁₆ := h₁₅.tail (.work (.stop 0 (.lock rfl ⟨rfl, by decide⟩)))
  have h₁₇ := h₁₆.tail (.work (.stop 0 (.reap rfl)))
  have h₁₈ := h₁₇.tail (.work (.stop 0 (.leave rfl)))
  have h₁₉ := h₁₈.tail (.work (.run (.collect 1.0 rfl rfl)))
  obtain ⟨-, hreturned, hjudged, -⟩ := shutdown_leaves_no_prober {} "" {} h₁₉
  refine ⟨_, h₁₉, rfl, rfl, rfl, rfl, rfl, fun t' h' => ?_⟩
  have hhalted := hreturned List.mem_cons_self t' h'
  have hends := hjudged 1.0 rfl rfl t' h'
  exact ⟨hhalted.2.2, hhalted.2.1, hends.1, hends.2.2.2⟩

end Threads

end EchoMetrics.Supervision
