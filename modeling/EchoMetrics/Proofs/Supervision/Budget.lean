import EchoMetrics.Proofs.Supervision.Course

/-! # When the retries are used up

A stable exit gives all retries back and then uses the first of them itself. So the exits that use
up the budget are unstable but for the first of them, which is a stable one unless no exit was
stable at all. Main statement: this is how every run ends that gives up for want of retries,
whenever it is interrupted. -/

namespace EchoMetrics

theorem Backoff.eq_of_next_eq_exhausted {b : Backoff} {n : Nat}
    (h : b.next = .error (.exhausted n)) : b.maxRetries ≤ b.attempts ∧ n = b.attempts + 1 := by
  simp only [next] at h
  split at h
  · rename_i hle
    cases h
    exact ⟨hle, rfl⟩
  · split at h <;> cases h

namespace Supervision

namespace Schedule

variable (threshold : Float)

/-- The retries that are used at the last exit tell how many unstable exits there were in a row:
as many as retries if there was a stable one before them, and else one more. -/
theorem retries_cases (ls : List Float) (l : Float) :
    (retries threshold (ls ++ [l]) (ls.length + 1) = ls.length ∧
        ∀ x ∈ ls ++ [l], ¬ threshold ≤ x) ∨
      ∃ before stable after, ls ++ [l] = before ++ stable :: after ∧ threshold ≤ stable ∧
        after.length = retries threshold (ls ++ [l]) (ls.length + 1) ∧
        ∀ x ∈ after, ¬ threshold ≤ x := by
  induction ls using List.reverseRecOn generalizing l with
  | nil =>
    rw [retries_append_length]
    split
    · rename_i hl
      exact .inr ⟨[], l, [], rfl, hl, rfl, nofun⟩
    · rename_i hl
      exact .inl ⟨rfl, by simpa using hl⟩
  | append_singleton ls l' ih =>
    rw [retries_append_length]
    split
    · rename_i hl
      exact .inr ⟨ls ++ [l'], l, [], rfl, hl, rfl, nofun⟩
    · rename_i hl
      have hlast : ∀ x ∈ [l], ¬ threshold ≤ x := List.forall_mem_singleton.2 hl
      rw [used_append]
      rcases ih l' with ⟨hk, hall⟩ | ⟨before, stable, after, heq, hstable, hk, hall⟩
      · refine .inl ⟨?_, List.forall_mem_append.2 ⟨hall, hlast⟩⟩
        rw [hk, List.length_append, List.length_singleton]
      · refine .inr ⟨before, stable, after ++ [l], ?_, hstable, ?_,
          List.forall_mem_append.2 ⟨hall, hlast⟩⟩
        · rw [heq, List.append_assoc, List.cons_append]
        · rw [List.length_append, hk, List.length_singleton]

end Schedule

namespace Run

/-! ## What the budget depends on -/

/-- The settings, the budget and the exits so far. -/
def account (r : Run) : Settings × Backoff × List Float :=
  (r.supervisor.settings, r.supervisor.backoff, r.journal.lifetimes)

variable (r : Run)

theorem lifetimes_append (j j' : Journal) :
    Journal.lifetimes (j ++ j') = j.lifetimes ++ j'.lifetimes := List.filterMap_append

theorem account_emit {e : Event} (h : Journal.lifetimes [e] = []) :
    (r.emit e).account = r.account := by
  rw [account, emit, lifetimes_append, h, List.append_nil]
  rfl

theorem account_publish (p : Phase) : (r.publish p).account = r.account := by
  have hf := frame_publish r p
  rw [account, account, hf.settings, hf.backoff, Journal.lifetimes_eq_filterMap_moves, hf.moves,
    Journal.lifetimes_eq_filterMap_moves]

theorem account_kill (ds : List String) :
    (ds.foldl (fun r d => r.emit (.signal .kill (some d))) r).account = r.account := by
  induction ds generalizing r with
  | nil => rfl
  | cons d ds ih => exact (ih _).trans (account_emit r rfl)

theorem account_terminate : r.terminate.account = r.account := by
  rw [terminate]
  split
  · have hterm : account { r.emit (.signal .term none) with supervisor := r.supervisor.reap } =
      r.account := account_emit r (e := .signal .term none) rfl
    dsimp only
    split
    · exact (account_emit _ rfl).trans
        ((account_kill _ _).trans ((account_emit _ rfl).trans hterm))
    · exact hterm
  · rfl

theorem account_shutdownIf (b : Bool) : (r.shutdownIf b).account = r.account := by
  cases b with
  | false => rfl
  | true => exact (account_terminate _).trans (account_publish _ _)

theorem account_ingest (stream : Stream) (text : String) :
    (r.ingest stream text).account = r.account := by
  have hkeep (r : Run) : account
      { r with supervisor := r.supervisor.ingest r.clock text, lines := r.lines + 1 } =
        r.account := rfl
  rw [ingest]
  split
  · exact (account_shutdownIf _ _).trans ((account_emit _ rfl).trans
      ((hkeep _).trans (account_emit r (e := .reported (.said _)) rfl)))
  · exact (account_shutdownIf _ _).trans ((account_emit _ rfl).trans (hkeep r))

theorem account_drain (i : Intake) (as : List Arrival) :
    (Intake.drain ingest i r as).2.account = r.account :=
  Intake.drain_invariant (P := fun r' : Run => r'.account = r.account)
    (fun r' stream text h => (account_ingest r' stream text).trans h) i rfl as

theorem account_watch : r.watch.account = r.account := by
  have hbefore := account_drain r { pending := r.conduct.streams } r.conduct.arrivals
  simp only [watch]
  generalize Intake.drain ingest { pending := r.conduct.streams } r r.conduct.arrivals = d
    at hbefore ⊢
  obtain ⟨i, r₁⟩ := d
  have hstop := (account_shutdownIf r₁ r.conduct.untilStopped).trans hbefore
  generalize r₁.shutdownIf r.conduct.untilStopped = r₂ at hstop ⊢
  have hafter := (account_drain (r₂.leave (r.conduct.exitTime r₂.clock)) i r.conduct.ending).trans
    hstop
  simp only [leave] at hafter
  split
  · exact (account_emit _ (e := .reported (.abandoned _ _)) rfl).trans hafter
  · exact hafter

theorem account_announce : r.announce.account = r.account := by
  simp only [announce]
  split
  · exact (account_shutdownIf _ _).trans (account_publish r .starting)
  · exact account_publish r .starting

theorem account_start (c : Conduct) : (r.start c).account = r.account :=
  (account_shutdownIf _ _).trans (account_publish (r.launched c) .running)

theorem account_fail (fault : RunFault) : (r.fail fault).1.account = r.account := by
  rw [fail]
  split
  · exact (account_publish _ _).trans (account_emit r rfl)
  · rfl

theorem account_wait (d : Float) : (r.wait d).account = r.account :=
  (account_shutdownIf _ _).trans (account_emit _ rfl)

/-! ## What the budget is after every exit -/

/-- After these exits so many retries are used. -/
structure Budgeted (s : Settings) (k : Nat) (ls : List Float) (r : Run) : Prop where
  settings : r.supervisor.settings = s
  maxRetries : r.supervisor.backoff.maxRetries = s.maxRestarts
  attempts : r.supervisor.backoff.attempts = k
  lifetimes : r.journal.lifetimes = ls
  le : k ≤ s.maxRestarts

namespace Budgeted

variable {r r' : Run} {s : Settings} {k : Nat} {ls : List Float}

theorem congr (h : Budgeted s k ls r) (heq : r'.account = r.account) : Budgeted s k ls r' := by
  have hbackoff : r'.supervisor.backoff = r.supervisor.backoff := congrArg (·.2.1) heq
  have hlifetimes : r'.journal.lifetimes = r.journal.lifetimes := congrArg (·.2.2) heq
  refine ⟨(congrArg Prod.fst heq).trans h.settings, ?_, ?_, hlifetimes.trans h.lifetimes, h.le⟩
  · rw [hbackoff]
    exact h.maxRetries
  · rw [hbackoff]
    exact h.attempts

open Schedule in
/-- An exit uses no retry before it is judged. -/
theorem settle (h : Budgeted s (used s.stabilityThreshold ls) ls r) (code : Int) (l : Float) :
    Budgeted s (retries s.stabilityThreshold (ls ++ [l]) (ls.length + 1)) (ls ++ [l])
      { r.report (.exited code l) with supervisor := r.supervisor.settle l } := by
  have hbackoff := backoff_settle r.supervisor l
  rw [h.settings] at hbackoff
  refine ⟨?_, ?_, ?_, ?_, ?_⟩
  · show (r.supervisor.settle l).settings = s
    rw [Supervisor.settle_eq]
    exact h.settings
  · show (r.supervisor.settle l).backoff.maxRetries = s.maxRestarts
    rw [hbackoff, ← h.maxRetries]
    split <;> rfl
  · show (r.supervisor.settle l).backoff.attempts = _
    rw [hbackoff, retries_append_length, ← h.attempts]
    split <;> rfl
  · show Journal.lifetimes (r.journal ++ _) = _
    rw [lifetimes_append, h.lifetimes]
    rfl
  · rw [retries_append_length]
    split
    · exact Nat.zero_le _
    · exact h.le

theorem backOff {d : Float} {b : Backoff} (h : Budgeted s k ls r)
    (hb : r.supervisor.backoff.next = .ok (d, b)) : Budgeted s (k + 1) ls (r.backOff b) := by
  have hlt : k < s.maxRestarts := by
    by_contra hle
    rw [← h.attempts, ← h.maxRetries, not_lt] at hle
    rw [Backoff.next_eq_exhausted hle] at hb
    cases hb
  obtain ⟨-, rfl⟩ := Backoff.eq_of_next hb
  refine congr (r := { r with supervisor := { r.supervisor with backoff := _ } }) ?_
    (account_publish _ .backingOff)
  exact ⟨h.settings, h.maxRetries, congrArg (· + 1) h.attempts, h.lifetimes, hlt⟩

end Budgeted

/-! ## The loop -/

/-- If a run gives up for want of retries, then all of them were used at its last exit. -/
def Spent (s : Settings) (out : Run × Option RunFault) : Prop :=
  ∀ n, out.2 = some (.backoff (.exhausted n)) → n = s.maxRestarts + 1 ∧
    ∃ ls l, out.1.journal.lifetimes = ls ++ [l] ∧
      Schedule.retries s.stabilityThreshold (ls ++ [l]) (ls.length + 1) = s.maxRestarts

section

variable {r : Run} {s : Settings} {ls : List Float}

theorem spent_fail {fault : RunFault} (h : ∀ n, fault ≠ .backoff (.exhausted n)) :
    Spent s (r.fail fault) := by
  intro n hn
  rw [fault_fail] at hn
  exact absurd (Option.some.inj hn) (h n)

theorem spent_finish (r : Run) : Spent s r.finish := by
  intro n hn
  cases hn

/-- Up to a launch, nothing is used. -/
theorem spent_before_launch (r : Run) {out : Run × Option RunFault} (h : Spent s out) :
    Spent s (if r.supervisor.stopping then r.finish
      else if r.announce.supervisor.stopping then r.announce.finish else out) := by
  split
  · exact spent_finish r
  · split
    · exact spent_finish _
    · exact h

theorem Budgeted.spent_fail_next {l : Float} {f : Backoff.Fault}
    (h : Budgeted s (Schedule.retries s.stabilityThreshold (ls ++ [l]) (ls.length + 1))
      (ls ++ [l]) r)
    (hf : r.supervisor.backoff.next = .error f) : Spent s (r.fail (.backoff f)) := by
  intro n hn
  rw [fault_fail] at hn
  obtain rfl : f = .exhausted n := RunFault.backoff.inj (Option.some.inj hn)
  obtain ⟨hle, rfl⟩ := Backoff.eq_of_next_eq_exhausted hf
  rw [h.maxRetries, h.attempts] at hle
  have hk := le_antisymm h.le hle
  rw [h.attempts, hk]
  exact ⟨rfl, ls, l, (h.congr (account_fail r _)).lifetimes, hk⟩

open Schedule in
theorem Budgeted.spent (h : Budgeted s (used s.stabilityThreshold ls) ls r) (reason : String)
    (cs : List Conduct) (canWait : Float → Bool) : Spent s (supervise reason cs r canWait) := by
  induction cs generalizing r ls with
  | nil =>
    rw [supervise]
    exact spent_before_launch r (spent_fail fun n h => by cases h)
  | cons c cs ih =>
    rw [supervise]
    refine spent_before_launch r ?_
    have h₁ : Budgeted s _ ls (r.announce.emit (.spawned r.announce.supervisor.command)) :=
      h.congr ((account_emit _ rfl).trans (account_announce r))
    generalize r.announce.emit (.spawned r.announce.supervisor.command) = r₁ at h₁ ⊢
    have h₂ := h₁.congr ((account_watch _).trans (account_start r₁ c))
    dsimp only
    generalize (r₁.start c).watch.clock - (r₁.start c).clock = l
    generalize (r₁.start c).watch = r₂ at h₂ ⊢
    split
    · exact spent_finish r₂
    · have h₃ := h₂.settle c.code l
      split
      · rename_i f hf
        exact h₃.spent_fail_next hf
      · rename_i d b hb
        have h₄ := h₃.backOff hb
        rw [← used_append] at h₄
        split
        · exact ih (h₄.congr (account_wait _ d))
        · exact spent_fail fun n h => by cases h

end

end Run

/-! ## Main statement -/

/-- However a run is interrupted: if it gives up for want of retries, then as many unstable exits
came last as there are retries. The exit before them was stable, unless the run began with one more
unstable exit. -/
theorem exits_before_exhausted (s : Settings) (binary : String) (g : Registry) (clock : Float)
    (i : Interruptions) (reason : String) (cs : List Conduct) (canWait : Float → Bool) {n : Nat}
    (h : (Run.whole { supervisor := .ofSettings s binary g, interruptions := i, clock } reason cs
      canWait).2 = some (.backoff (.exhausted n))) :
    let ls := (Run.whole { supervisor := .ofSettings s binary g, interruptions := i, clock } reason
      cs canWait).1.journal.lifetimes
    n = s.maxRestarts + 1 ∧
      ((ls.length = s.maxRestarts + 1 ∧ ∀ l ∈ ls, ¬ s.stabilityThreshold ≤ l) ∨
        ∃ before stable after, ls = before ++ stable :: after ∧ s.stabilityThreshold ≤ stable ∧
          after.length = s.maxRestarts ∧ ∀ l ∈ after, ¬ s.stabilityThreshold ≤ l) := by
  have hstart : Run.Budgeted s (Schedule.used s.stabilityThreshold [])
      [] { supervisor := .ofSettings s binary g, interruptions := i, clock } :=
    ⟨rfl, rfl, rfl, rfl, Nat.zero_le _⟩
  have hbefore := hstart.congr (Run.account_shutdownIf _ i.beforeRun)
  obtain ⟨hn, ls, l, hls, hk⟩ := hbefore.spent reason cs canWait n h
  refine ⟨hn, ?_⟩
  have hlast : (Run.whole { supervisor := .ofSettings s binary g, interruptions := i, clock } reason
      cs canWait).1.journal.lifetimes = ls ++ [l] :=
    (congrArg (·.2.2) (Run.account_shutdownIf _ _)).trans hls
  rw [hlast]
  have hcases := Schedule.retries_cases s.stabilityThreshold ls l
  rw [hk] at hcases
  rcases hcases with ⟨hlength, hall⟩ | hstable
  · refine .inl ⟨?_, hall⟩
    rw [hlength, List.length_append, List.length_singleton]
  · exact .inr hstable

/-- With one retry, the first of the last two exits is a stable one. -/
theorem exits_before_exhausted_one :
    let s : Settings := { maxRestarts := 1 }
    let cs : List Conduct := [{ lifetime := 1.0 }, { lifetime := 40.0 }, { lifetime := 2.0 }]
    let ended := Run.whole { supervisor := .ofSettings s "" {}, clock := 0.0 } "gone" cs
    ended.2 = some (.backoff (.exhausted 2)) ∧
      ∃ before stable after, ended.1.journal.lifetimes = before ++ stable :: after ∧
        s.stabilityThreshold ≤ stable ∧ after.length = 1 ∧
          ∀ l ∈ after, ¬ s.stabilityThreshold ≤ l := by
  intro s cs ended
  have hended : ended.2 = some (.backoff (.exhausted 2)) ∧
      ended.1.journal.lifetimes.length = 3 := by decide +kernel
  obtain ⟨hfault, hlength⟩ := hended
  have h := exits_before_exhausted s "" {} 0.0 {} "gone" cs (fun _ => true) hfault
  rcases h with ⟨-, ⟨hlength', -⟩ | hstable⟩
  · exact absurd (hlength.symm.trans hlength') (by decide)
  · exact ⟨hfault, hstable⟩

/-- Without retries a run gives up after a stable exit. -/
theorem exhausted_after_stable :
    let s : Settings := { maxRestarts := 0 }
    let ended := Run.whole { supervisor := .ofSettings s "" {}, clock := 0.0 } "gone"
      [{ lifetime := 40.0 }]
    ended.2 = some (.backoff (.exhausted 1)) ∧ ended.1.journal.lifetimes = [40.0] ∧
      s.stabilityThreshold ≤ 40.0 := by
  decide +kernel

end Supervision

end EchoMetrics
