import EchoMetrics.Proofs.Binary.Arithmetic
import EchoMetrics.Proofs.Supervision.Shutdown
import EchoMetrics.Service.Serving

/-! # What is seen of the exporter while it serves

Main statements: in whatever order the steps follow one another, what was seen is told by the place
where the supervising thread is and the number of launches, the run ends without a failure only if
the server was told to end before, and it fails in no way that is not foreseen. -/

namespace EchoMetrics

namespace Supervision.Threads

variable {t t' : Threads} {i : Nat}

/-! ## What steps leave alone -/

theorem RunStep.stopping_eq (hs : RunStep t t') :
    t'.supervisor.stopping = t.supervisor.stopping := by
  cases hs with
  | @judge lifetime _ _ =>
    obtain ⟨b, r, hj, -⟩ := t.judge_eq lifetime
    rw [hj]
  | _ => rfl

theorem RunStep.runner_ne_ended (hs : RunStep t t') (fault : Option RunFault) :
    t.runner ≠ .ended fault := by
  intro hr
  cases hs with
  | begin h _ | quit h _ | decide h _ | enter h | expose h | lock h _ | allow h _ | refuse h _
  | spawn _ h | spawnFails _ h | record _ h | count h | ingest _ _ h | collect _ h _ | judge h _
  | excuse h _ | wake h | rouse h _ | sleepFails h => cases h.symm.trans hr

theorem StopStep.run_eq (hs : StopStep t i t') :
    t'.runner = t.runner ∧ t'.supervisor.launches = t.supervisor.launches ∧
      t'.supervisor.backoff = t.supervisor.backoff := by
  cases hs <;> exact ⟨rfl, rfl, rfl⟩

theorem StopStep.stoppers_ne_nil (hs : StopStep t i t') : t.stoppers ≠ [] := by
  intro hnil
  cases hs with
  | flag h | decide h _ | enter h | expose h | lock h _ | reap h | leave h =>
    rw [hnil] at h
    cases h

end Supervision.Threads

namespace Service

open Supervision

/-! ## What was seen -/

/-- The failure that a fault is seen as. -/
def Occurrence.ofFault : RunFault → Option Occurrence
  | .launch f => some (.notStarted f)
  | .backoff (.exhausted n) => some (.exhausted n)
  | .backoff .factorTooLarge | .wait _ => none

def failureOf : Goal → Option Occurrence
  | .fail f => Occurrence.ofFault f
  | .launch | .watch | .rest _ | .finish => none

/-- The failure that brings the supervising thread to its end. -/
def failure? : Runner → Option Occurrence
  | .entering g _ => failureOf g
  | .ended (some f) => Occurrence.ofFault f
  | .checking | .launching _ | .watching | .judging _ | .sleeping _ | .ended none => none

/-- How many launches are not counted yet. -/
def uncounted : Runner → Nat
  | .launching .recording | .launching .counting => 1
  | _ => 0

/-- Every prober that was started, and the failure that came last. -/
def story (launches : Nat) (r : Runner) : List Occurrence :=
  List.replicate (launches + uncounted r) .started ++ (failure? r).toList

variable {t t' : Threads}

theorem between_self (r : Runner) : Occurrence.between r r = none := by
  cases r with
  | launching l => cases l <;> rfl
  | _ => rfl

/-- A move after which nothing new is told. -/
theorem story_of_quiet {n : Nat} {r r' : Runner} (hu : uncounted r' = uncounted r)
    (hf : failure? r' = failure? r) (hb : Occurrence.between r r' = none) :
    story n r' = story n r ++ (Occurrence.between r r').toList := by
  rw [story, story, hu, hf, hb, Option.toList_none, List.append_nil]

theorem story_next (n : Nat) (g : Goal) (e : Entering) :
    story n g.next = story n (.entering g e) ++
      (Occurrence.between (.entering g e) g.next).toList := by
  refine story_of_quiet ?_ ?_ rfl <;> cases g <;> rfl

theorem launches_settle (s : Supervisor) (l : Float) : (s.settle l).launches = s.launches := by
  rw [Supervisor.settle_eq]

/-- What happens is told from then on. -/
theorem story_step (hs : Threads.RunStep t t') :
    story t'.supervisor.launches t'.runner =
      story t.supervisor.launches t.runner ++
        (Occurrence.between t.runner t'.runner).toList := by
  cases hs with
  | begin hr _ | quit hr _ | enter hr | lock hr _ | allow hr _ | refuse hr _ | record _ hr
  | ingest _ _ hr | collect _ hr _ | excuse hr _ | wake hr | rouse hr _ | sleepFails hr =>
    rw [hr]
    exact story_of_quiet rfl rfl rfl
  | @decide g hr _ =>
    rw [hr]
    rcases t.decide_cases g with ⟨hd, -⟩ | ⟨hd, -⟩ <;> rw [hd]
    · exact story_next _ g .waiting
    · exact story_of_quiet rfl rfl rfl
  | expose hr =>
    rw [hr]
    exact story_next _ _ _
  | spawn _ hr =>
    rw [hr]
    change List.replicate (_ + 1) Occurrence.started ++ [] = (List.replicate _ _ ++ []) ++ [_]
    rw [List.append_nil, List.append_nil, List.replicate_succ']
    rfl
  | spawnFails _ hr =>
    rw [hr]
    change List.replicate _ _ ++ [_] = (List.replicate _ _ ++ []) ++ [_]
    rw [List.append_nil]
    rfl
  | count hr =>
    rw [hr]
    exact (List.append_nil _).symm
  | @judge lifetime hr _ =>
    rw [hr]
    cases hb : (t.supervisor.settle lifetime).backoff.next with
    | ok p =>
      rw [Threads.judge_of_ok (t := t) hb, launches_settle]
      exact story_of_quiet rfl rfl rfl
    | error f =>
      rw [Threads.judge_of_error (t := t) hb, launches_settle]
      cases f with
      | exhausted n =>
        change List.replicate _ _ ++ [_] = (List.replicate _ _ ++ []) ++ [_]
        rw [List.append_nil]
        rfl
      | factorTooLarge => exact story_of_quiet rfl rfl rfl

/-- A phase is entered for this only after a launch. -/
def followsLaunch : Goal → Bool
  | .watch | .rest _ | .fail (.backoff _) => true
  | .launch | .finish | .fail (.launch _) | .fail (.wait _) => false

/-- The supervising thread has launched a prober before it got here. -/
def hasLaunched : Runner → Bool
  | .entering g _ => followsLaunch g
  | .watching | .judging _ | .sleeping _ | .ended (some (.backoff _)) => true
  | .checking | .launching _ | .ended none | .ended (some (.launch _))
  | .ended (some (.wait _)) => false

theorem hasLaunched_next (g : Goal) : hasLaunched g.next = followsLaunch g := by
  cases g with
  | fail f => cases f <;> rfl
  | _ => rfl

theorem launched_step (h : hasLaunched t.runner = true → 0 < t.supervisor.launches)
    (hs : Threads.RunStep t t') (h' : hasLaunched t'.runner = true) :
    0 < t'.supervisor.launches := by
  cases hs with
  | begin | quit | lock | allow | refuse | spawn | spawnFails | record | excuse | wake | rouse
  | sleepFails => cases h'
  | enter hr | collect _ hr =>
    rw [hr] at h
    exact h h'
  | ingest => exact h h'
  | @decide g hr _ =>
    rw [hr] at h
    rcases t.decide_cases g with ⟨hd, -⟩ | ⟨hd, -⟩ <;> rw [hd] at h'
    · exact h ((hasLaunched_next g).symm.trans h')
    · exact h h'
  | @expose g _ hr =>
    rw [hr] at h
    exact h ((hasLaunched_next g).symm.trans h')
  | count => exact Nat.succ_pos _
  | @judge lifetime hr _ =>
    rw [hr] at h
    obtain ⟨b, r, hj, -⟩ := t.judge_eq lifetime
    rw [hj]
    exact h rfl

/-! ## Failures that are foreseen -/

/-- The delays and the budget of settings. -/
def budget (s : Settings) (attempts : Nat) : Backoff where
  base := s.backoffBaseS
  cap := s.backoffCapS
  maxRetries := s.maxRestarts
  attempts

/-- What is foreseen of the phases that are entered. -/
def OrderlyGoal (s : Settings) : Goal → Prop
  | .rest d => ∃ k, d = (budget s 0).delay k
  | .fail f => f.isForeseen = true
  | .launch | .watch | .finish => True

/-- What is foreseen of the places where the supervising thread is: it sleeps for the delays of the
settings only, and ends in no other failure than those that the supervisor gives up for. -/
def Orderly (s : Settings) : Runner → Prop
  | .entering g _ => OrderlyGoal s g
  | .sleeping d => ∃ k, d = (budget s 0).delay k
  | .ended (some f) => f.isForeseen = true
  | .checking | .launching _ | .watching | .judging _ | .ended none => True

theorem orderly_next {s : Settings} {g : Goal} (h : OrderlyGoal s g) : Orderly s g.next := by
  cases g with
  | rest | fail => exact h
  | launch | watch | finish => trivial

/-- The delay can be computed as long as there are at most 1024 retries. -/
theorem next_ne_factorTooLarge {b : Backoff} (h : b.maxRetries ≤ 1024) :
    b.next ≠ .error .factorTooLarge := by
  intro hb
  rw [Backoff.next] at hb
  split at hb
  · cases hb
  · rename_i hlt
    split at hb
    · rename_i hinf
      have hfinite : (floatOfNat (Nat.pow 2 b.attempts)).isInf = false :=
        Binary.isInf_floatOfNat_two_pow (by omega)
      exact Bool.false_ne_true (hfinite.symm.trans hinf)
    · cases hb

/-- The supervising thread keeps to the delays and the budget of the settings. -/
structure Ordered (s : Settings) (t : Threads) : Prop where
  budget : ∃ k, t.supervisor.backoff = budget s k
  runner : Orderly s t.runner

theorem Ordered.settle {s : Settings} (h : Ordered s t) (l : Float) :
    ∃ k, (t.supervisor.settle l).backoff = Service.budget s k := by
  obtain ⟨k, hk⟩ := h.budget
  rw [Supervisor.settle]
  split
  · exact ⟨0, congrArg Backoff.reset hk⟩
  · exact ⟨k, hk⟩

theorem Ordered.judge {s : Settings} (h : Ordered s t) (hs : s.maxRestarts ≤ 1024) (l : Float) :
    Ordered s (t.judge l) := by
  obtain ⟨k, hk⟩ := h.settle l
  cases hb : (t.supervisor.settle l).backoff.next with
  | ok p =>
    obtain ⟨d, b⟩ := p
    obtain ⟨hd, hb'⟩ := Backoff.eq_of_next hb
    rw [Threads.judge_of_ok (t := t) hb]
    rw [hk] at hd hb'
    exact ⟨⟨k + 1, hb'⟩, k, hd⟩
  | error f =>
    rw [Threads.judge_of_error (t := t) hb]
    cases f with
    | exhausted n => exact ⟨⟨k, hk⟩, rfl⟩
    | factorTooLarge =>
      refine absurd hb (next_ne_factorTooLarge ?_)
      rw [hk]
      exact hs

theorem Ordered.run {s : Settings} (h : Ordered s t) (hs : s.maxRestarts ≤ 1024)
    (hd : ∀ k, canWait ((Service.budget s 0).delay k) = true) (hrun : Threads.RunStep t t')
    (hw : ∀ d, t'.runner = .ended (some (.wait d)) → canWait d = false) : Ordered s t' := by
  have hrunner := h.runner
  cases hrun with
  | begin | quit | lock | allow | refuse | spawn | record | count | collect | excuse | wake
  | rouse => exact ⟨h.budget, trivial⟩
  | spawnFails => exact ⟨h.budget, rfl⟩
  | enter hr =>
    rw [hr] at hrunner
    exact ⟨h.budget, hrunner⟩
  | ingest => exact ⟨h.budget, hrunner⟩
  | @decide g hr _ =>
    rw [hr] at hrunner
    refine ⟨h.budget, ?_⟩
    rcases t.decide_cases g with ⟨hd, -⟩ | ⟨hd, -⟩ <;> rw [hd]
    · exact orderly_next hrunner
    · exact hrunner
  | expose hr =>
    rw [hr] at hrunner
    exact ⟨h.budget, orderly_next hrunner⟩
  | judge => exact h.judge hs _
  | @sleepFails delay hr =>
    rw [hr] at hrunner
    obtain ⟨k, rfl⟩ := hrunner
    exact absurd (hw _ rfl) (Bool.eq_false_iff.not_left.2 (hd k))

/-! ## Who told the server to end -/

namespace Serving

variable {v v' : Serving} {s : Settings}

/-- The server was told to end from outside. -/
def Told (v : Serving) : Prop := v.sight.interrupted = true ∨ v.sight.expired = true

/-- What is known wherever the threads are. -/
structure Faithful (s : Settings) (v : Serving) : Prop where
  occurrences : v.sight.occurrences = story v.threads.supervisor.launches v.threads.runner
  launched : hasLaunched v.threads.runner = true → 0 < v.threads.supervisor.launches
  ordered : Ordered s v.threads
  /-- The run ends in a failure, or else the server was told to end before a shutdown was asked for.
  -/
  asked : v.threads.supervisor.stopping = true ∨ v.threads.stoppers ≠ [] →
    v.Told ∨ ∃ fault, v.threads.runner = .ended (some fault)

/-- What else may happen keeps what is known, as long as it leaves the supervising thread alone. -/
theorem Faithful.keep (h : Faithful s v) (hr : v'.threads.runner = v.threads.runner)
    (hn : v'.threads.supervisor.launches = v.threads.supervisor.launches)
    (hb : v'.threads.supervisor.backoff = v.threads.supervisor.backoff)
    (ho : v'.sight.occurrences = v.sight.occurrences)
    (ha : v'.threads.supervisor.stopping = true ∨ v'.threads.stoppers ≠ [] →
      v'.Told ∨ ∃ fault, v'.threads.runner = .ended (some fault)) : Faithful s v' where
  occurrences := by rw [ho, hr, hn, h.occurrences]
  launched := by rw [hr, hn]; exact h.launched
  ordered := ⟨by rw [hb]; exact h.ordered.budget, by rw [hr]; exact h.ordered.runner⟩
  asked := ha

theorem occurrences_work_of_runner_eq (hr : t.runner = v.threads.runner) :
    (v.work t).sight.occurrences = v.sight.occurrences := by
  change v.sight.occurrences ++ (Occurrence.between v.threads.runner t.runner).toList = _
  rw [hr, between_self, Option.toList_none, List.append_nil]

theorem Faithful.work (h : Faithful s v) (hs : s.maxRestarts ≤ 1024)
    (hd : ∀ k, canWait ((budget s 0).delay k) = true) (hwork : v.threads.Work t)
    (hw : ∀ d, t.runner = .ended (some (.wait d)) → canWait d = false) : Faithful s (v.work t) := by
  cases hwork with
  | run hrun =>
    refine ⟨?_, launched_step h.launched hrun, h.ordered.run hs hd hrun hw, ?_⟩
    · exact (congrArg (· ++ _) h.occurrences).trans (story_step hrun).symm
    · intro hasked
      have hstop : v.threads.supervisor.stopping = true ∨ v.threads.stoppers ≠ [] := by
        rw [← hrun.stopping_eq, ← hrun.stoppers_eq]
        exact hasked
      rcases h.asked hstop with htold | ⟨fault, hended⟩
      · exact .inl htold
      · exact absurd hended (hrun.runner_ne_ended _)
  | stop i hstop =>
    obtain ⟨hr, hn, hb⟩ := hstop.run_eq
    refine h.keep hr hn hb (occurrences_work_of_runner_eq hr) ?_
    intro _
    refine (h.asked (.inr hstop.stoppers_ne_nil)).imp id ?_
    rintro ⟨fault, hended⟩
    exact ⟨fault, hr.trans hended⟩
  | exit => exact h.keep rfl rfl rfl (occurrences_work_of_runner_eq rfl) h.asked

/-- A run that has not failed is ended by a request to stop. -/
theorem Faithful.told_of_ended (h : Faithful s v) (hp : v.threads.Phased)
    (hr : v.threads.runner = .ended none) : v.Told := by
  have hphase := hp.runner
  rw [hr] at hphase
  rcases h.asked (.inl (hp.ends (hphase.elim id id))) with htold | ⟨fault, hended⟩
  · exact htold
  · cases hr.symm.trans hended

theorem Faithful.step (h : Faithful s v) (hs : s.maxRestarts ≤ 1024)
    (hd : ∀ k, canWait ((budget s 0).delay k) = true) (hp : v.threads.Phased) (hstep : v.Step v') :
    Faithful s v' := by
  cases hstep with
  | work hwork hw => exact h.work hs hd hwork hw
  | interrupt => exact h.keep rfl rfl rfl rfl fun _ => .inl (.inl rfl)
  | expire => exact h.keep rfl rfl rfl rfl fun _ => .inl (.inr rfl)
  | shutdown hleaves =>
    refine h.keep rfl rfl rfl rfl fun _ => ?_
    rcases hleaves with hinterrupted | hexpired | ⟨fault, hended⟩
    · exact .inl (.inl hinterrupted)
    · exact .inl (.inr hexpired)
    · cases fault with
      | none => exact .inl (h.told_of_ended hp hended)
      | some fault => exact .inr ⟨fault, hended⟩

/-- What the threads do while the exporter serves is what they can do. -/
theorem reachable_threads (h : v.Reachable v') : v.threads.Reachable v'.threads := by
  induction h with
  | refl => exact .refl
  | tail _ hs ih =>
    cases hs with
    | work hwork => exact .tail ih (.work hwork)
    | interrupt | expire => exact ih
    | shutdown => exact .tail ih .call

theorem phased_of_reachable {path version : String} (h : (start s path version).Reachable v) :
    v.threads.Phased :=
  Threads.phased_of_reachable (reachable_threads h)

theorem faithful_of_reachable {path version : String} (hs : s.maxRestarts ≤ 1024)
    (hd : ∀ k, canWait ((budget s 0).delay k) = true)
    (h : (start s path version).Reachable v) : Faithful s v := by
  induction h with
  | refl =>
    refine ⟨rfl, ?_, ⟨⟨0, rfl⟩, trivial⟩, ?_⟩
    · intro h
      cases h
    · rintro (h | h)
      · cases h
      · exact absurd rfl h
  | tail h hstep ih => exact ih.step hs hd (phased_of_reachable h) hstep

end Serving

end Service

end EchoMetrics
