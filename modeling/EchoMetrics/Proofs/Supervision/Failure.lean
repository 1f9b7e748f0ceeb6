import Mathlib
import EchoMetrics.Proofs.Supervision.Shutdown

/-! # After a failure

Main statement: once a run has failed, what is under way does not go on forever, and nothing but the
end of the supervising thread and of all shutdowns leaves the threads without a step to take. -/

namespace EchoMetrics.Supervision.Threads

variable {t t' : Threads} {f : RunFault}

/-- The run has failed, and the supervising thread has nothing left to do but to show it. -/
structure Failing (f : RunFault) (t : Threads) : Prop where
  runner : (∃ e, t.runner = .entering (.fail f) e) ∨ t.runner = .ended (some f)
  gone : t.supervisor.running? = none

namespace Failing

theorem eq_fail {g : Goal} {e : Entering} (h : Failing f t) (hr : t.runner = .entering g e) :
    g = .fail f := by
  rcases h.runner with ⟨e', hr'⟩ | hr' <;> cases hr.symm.trans hr'
  rfl

/-- A step of the supervising thread goes on towards its end. -/
theorem move {r : Runner} {s : Supervisor} {shown : List Phase} (h : Failing f t)
    (hr : (∃ e, r = .entering (.fail f) e) ∨ r = .ended (some f)) (hrank : r.rank < t.runner.rank)
    (hs : s.processes = t.supervisor.processes) :
    Failing f ⟨s, r, t.stoppers, shown⟩ ∧ rank ⟨s, r, t.stoppers, shown⟩ < t.rank :=
  ⟨⟨hr, (Supervisor.running?_congr hs).trans h.gone⟩, Nat.add_lt_add_right hrank _⟩

theorem run (h : Failing f t) (hs : RunStep t t') : Failing f t' ∧ t'.rank < t.rank := by
  cases hs with
  | decide hr _ =>
    obtain rfl := h.eq_fail hr
    rcases t.decide_cases (.fail f) with ⟨hd, -⟩ | ⟨hd, -⟩ <;> rw [hd]
    · exact h.move (.inr rfl) (by rw [hr]; exact Nat.zero_lt_succ 2) rfl
    · exact h.move (.inl ⟨_, rfl⟩) (by rw [hr]; exact Nat.lt_add_one 2) rfl
  | enter hr =>
    obtain rfl := h.eq_fail hr
    exact h.move (.inl ⟨_, rfl⟩) (by rw [hr]; exact Nat.lt_add_one 1) rfl
  | expose hr =>
    obtain rfl := h.eq_fail hr
    exact h.move (.inr rfl) (by rw [hr]; exact Nat.lt_add_one 0) rfl
  | begin hr _ | quit hr _ | lock hr _ | allow hr _ | refuse hr _ | spawn _ hr | spawnFails _ hr
  | record _ hr | count hr | ingest _ _ hr | collect _ hr _ | judge hr _ | excuse hr _ | wake hr
  | rouse hr _ | sleepFails hr =>
    rcases h.runner with ⟨e, hr'⟩ | hr' <;> cases hr.symm.trans hr'

theorem work (h : Failing f t) (hs : Work t t') : Failing f t' ∧ t'.rank < t.rank := by
  cases hs with
  | run hs => exact h.run hs
  | stop _ hs =>
    obtain ⟨hrun, -, hl⟩ := hs.frame h.gone
    refine ⟨⟨?_, (Supervisor.running?_congr (ledger_eq hl).1).trans h.gone⟩, hs.rank_lt⟩
    rw [hrun]
    exact h.runner
  | exit hp => cases h.gone.symm.trans hp

/-- What is under way does not go on forever. -/
theorem acc (h : Failing f t) : Acc (fun b a => Work a b) t := by
  induction hk : t.rank using Nat.strongRecOn generalizing t with
  | _ k ih =>
    refine ⟨_, ?_⟩
    intro t' hs
    obtain ⟨h', hlt⟩ := h.work hs
    exact ih _ (hk ▸ hlt) h' rfl

end Failing

/-! ## At rest -/

theorem not_entersPhase_of_rest (hrest : ∀ t', ¬ Work t t') :
    ∀ st ∈ t.stoppers, st.entersPhase = false := by
  intro st hm
  refine Bool.eq_false_iff.2 ?_
  intro he
  obtain ⟨t', hs⟩ := exists_work_of_entersPhase hm he
  exact hrest t' hs

theorem not_holdsProber_of_rest (hrest : ∀ t', ¬ Work t t') :
    ∀ st ∈ t.stoppers, st.holdsProber = false := by
  intro st hm
  obtain ⟨i, hi⟩ := List.getElem?_of_mem hm
  cases st with
  | ending => exact absurd (.stop i (.reap hi)) (hrest _)
  | leaving => exact absurd (.stop i (.leave hi)) (hrest _)
  | flagging | entering | waiting | returned => rfl

/-- A shutdown that is kept waiting by nobody returns. -/
theorem returned_of_rest (hrest : ∀ t', ¬ Work t t') (hr : t.runner.entersPhase = false)
    (hr' : t.runner.holdsProber = false) : ∀ st ∈ t.stoppers, st = .returned := by
  have hphase := not_entersPhase_of_rest hrest
  have hprober := not_holdsProber_of_rest hrest
  intro st hm
  obtain ⟨i, hi⟩ := List.getElem?_of_mem hm
  cases st with
  | flagging => exact absurd (.stop i (.flag hi)) (hrest _)
  | entering e =>
    cases e with
    | waiting => exact absurd (.stop i (.decide hi ⟨hr, hphase⟩)) (hrest _)
    | decided | entered => cases hphase _ hm
  | waiting => exact absurd (.stop i (.lock hi ⟨hr', hprober⟩)) (hrest _)
  | ending | leaving => cases hprober _ hm
  | returned => rfl

/-- When nothing is left to do, the supervising thread has ended and all shutdowns have returned. -/
theorem Failing.ended_of_rest (h : Failing f t) (hrest : ∀ t', ¬ Work t t') :
    t.runner = .ended (some f) ∧ ∀ st ∈ t.stoppers, st = .returned := by
  rcases h.runner with ⟨e, hr⟩ | hr
  · cases e with
    | waiting =>
      have hfree : t.PhaseFree := ⟨by rw [hr]; rfl, not_entersPhase_of_rest hrest⟩
      exact absurd (.run (.decide hr hfree)) (hrest _)
    | decided => exact absurd (.run (.enter hr)) (hrest _)
    | entered => exact absurd (.run (.expose hr)) (hrest _)
  · exact ⟨hr, returned_of_rest hrest (by rw [hr]; rfl) (by rw [hr]; rfl)⟩

end EchoMetrics.Supervision.Threads
