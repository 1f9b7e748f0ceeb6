import EchoMetrics.Proofs.Supervision.Phases

/-! # How probers are attended to

Main statement: in whatever order the threads take their steps, a prober that runs is the one that
was launched last, the supervising thread attends to it, and no stopping thread is done with it. The
registry counts one restart for every launch but the first. -/

namespace EchoMetrics.Supervision

/-! ## What the supervising thread does about probers -/

/-- What the supervising thread is doing about probers. -/
inductive Duty
  | idle
  | checking
  | spawning
  | recording
  | counting
  /-- It has launched a prober and let go of the lock. -/
  | tending
deriving DecidableEq

namespace Duty

/-- It holds the lock on the prober. -/
def holds : Duty → Bool
  | .idle | .tending => false
  | .checking | .spawning | .recording | .counting => true

/-- It goes through with a launch, whatever becomes of the stop flag. -/
def launches : Duty → Bool
  | .idle | .checking | .tending => false
  | .spawning | .recording | .counting => true

/-- There may be a prober that runs. -/
def tends : Duty → Bool
  | .idle | .checking | .spawning => false
  | .recording | .counting | .tending => true

theorem holds_of_launches {d : Duty} (h : d.launches = true) : d.holds = true := by
  cases d with
  | spawning | recording | counting => rfl
  | idle | checking | tending => cases h

end Duty

def Launch.duty : Launch → Duty
  | .waiting => .idle
  | .checking => .checking
  | .spawning => .spawning
  | .recording => .recording
  | .counting => .counting

def Goal.duty : Goal → Duty
  | .watch => .tending
  | .launch | .rest _ | .fail _ | .finish => .idle

def Runner.duty : Runner → Duty
  | .launching l => l.duty
  | .entering g _ => g.duty
  | .watching => .tending
  | .checking | .judging _ | .sleeping _ | .ended _ => .idle

theorem Goal.duty_next (g : Goal) : g.next.duty = g.duty := by cases g <;> rfl

theorem Runner.holdsProber_eq (r : Runner) : r.holdsProber = r.duty.holds := by
  cases r with
  | launching l => cases l <;> rfl
  | entering g _ => cases g <;> rfl
  | _ => rfl

/-- A stopping thread is done with the prober. -/
def Stopper.Over (s : Stopper) : Prop := s = .leaving ∨ s = .returned

namespace Supervisor

variable {s : Supervisor}

theorem running?_eq_none_iff : s.running? = none ↔ ∀ p ∈ s.processes.head?, p.alive = false := by
  rw [running?, Option.filter_eq_none_iff]
  simp

theorem running?_congr {s' : Supervisor} (h : s'.processes = s.processes) :
    s'.running? = s.running? := by
  rw [running?, running?, h]

/-- There is nothing to end if no prober runs. -/
theorem processes_reap (h : s.running? = none) : s.reap.processes = s.processes := by
  rw [running?_eq_none_iff] at h
  show s.processes.modifyHead _ = _
  cases hp : s.processes with
  | nil => rfl
  | cons p ps =>
    have halive : p.alive = false := h p (by rw [hp]; rfl)
    rw [List.modifyHead_cons, ← halive]

end Supervisor

namespace Threads

variable {t t' : Threads}

/-- The launched probers, the number of launches, and the number of restarts in the registry. -/
def ledger (t : Threads) : List Process × Nat × Nat :=
  (t.supervisor.processes, t.supervisor.launches, t.supervisor.registry.restarts)

theorem ledger_eq {ps : List Process} {n m : Nat} (h : t.ledger = (ps, n, m)) :
    t.supervisor.processes = ps ∧ t.supervisor.launches = n ∧
      t.supervisor.registry.restarts = m := by
  rw [ledger, Prod.mk.injEq, Prod.mk.injEq] at h
  exact h

/-- What a step of the supervising thread does about probers. -/
inductive Turn (t t' : Threads) : Prop
  | keep (hd : t'.runner.duty = t.runner.duty) (h : t'.ledger = t.ledger)
  | lock (hd : t.runner.duty = .idle) (hd' : t'.runner.duty = .checking) (hf : t.ProberFree)
      (h : t'.ledger = t.ledger)
  | allow (hd : t.runner.duty = .checking) (hd' : t'.runner.duty = .spawning)
      (hs : t.supervisor.stopping = false) (h : t'.ledger = t.ledger)
  /-- There will be no launch. -/
  | release (hd : t.runner.duty = .checking ∨ t.runner.duty = .spawning)
      (hd' : t'.runner.duty = .idle) (h : t'.ledger = t.ledger)
  | spawn {pid : Nat} (hd : t.runner.duty = .spawning) (hd' : t'.runner.duty = .recording)
      (h : t'.ledger =
        ({ pid } :: t.supervisor.processes, t.supervisor.launches, t.supervisor.registry.restarts))
  | record (hd : t.runner.duty = .recording) (hd' : t'.runner.duty = .counting)
      (h : t'.ledger = (t.supervisor.processes, t.supervisor.launches,
        t.supervisor.registry.restarts + if t.supervisor.launches = 0 then 0 else 1))
  | count (hd : t.runner.duty = .counting) (hd' : t'.runner.duty = .tending)
      (h : t'.ledger =
        (t.supervisor.processes, t.supervisor.launches + 1, t.supervisor.registry.restarts))
  | collect (hd : t.runner.duty = .tending) (hd' : t'.runner.duty = .idle)
      (hr : t.supervisor.running? = none) (h : t'.ledger = t.ledger)

theorem RunStep.turn (hs : RunStep t t') : Turn t t' := by
  cases hs with
  | begin hr _ | quit hr _ | enter hr | excuse hr _ | wake hr | rouse hr _ | sleepFails hr =>
    exact .keep (by rw [hr]; rfl) rfl
  | @decide g hr _ =>
    refine .keep ?_ rfl
    rw [hr]
    rcases t.decide_cases g with ⟨hd, -⟩ | ⟨hd, -⟩ <;> rw [hd]
    · exact g.duty_next
    · rfl
  | @expose g _ hr => exact .keep (by rw [hr]; exact g.duty_next) rfl
  | lock hr hf => exact .lock (by rw [hr]; rfl) rfl hf rfl
  | allow hr hs => exact .allow (by rw [hr]; rfl) rfl hs rfl
  | refuse hr _ => exact .release (by rw [hr]; exact .inl rfl) rfl rfl
  | spawn _ hr => exact .spawn (by rw [hr]; rfl) rfl rfl
  | spawnFails _ hr => exact .release (by rw [hr]; exact .inr rfl) rfl rfl
  | record now hr =>
    refine .record (by rw [hr]; rfl) rfl ?_
    rw [← t.supervisor.restarts_recordLaunch now]
    rfl
  | count hr => exact .count (by rw [hr]; rfl) rfl rfl
  | ingest now line _ =>
    refine .keep rfl ?_
    rw [ledger, ledger, ← t.supervisor.registry.restarts_ingest now line]
    rfl
  | collect _ hr hn => exact .collect (by rw [hr]; rfl) rfl hn rfl
  | @judge lifetime hr _ =>
    obtain ⟨b, r, hj, hcases⟩ := t.judge_eq lifetime
    rw [hj]
    refine .keep ?_ rfl
    rw [hr]
    rcases hcases with ⟨d, rfl⟩ | ⟨f, rfl⟩ | ⟨f, rfl⟩ <;> rfl

theorem RunStep.stoppers_eq (hs : RunStep t t') : t'.stoppers = t.stoppers := by
  cases hs with
  | @judge lifetime _ _ =>
    obtain ⟨b, r, hj, -⟩ := t.judge_eq lifetime
    rw [hj]
  | _ => rfl

/-! ## The invariant -/

/-- How the probers are attended to. The registry had shown so many restarts at first. -/
structure Attended (n : Nat) (t : Threads) : Prop where
  /-- While the supervising thread holds the lock on the prober, no other thread does. -/
  exclusive : t.runner.duty.holds = true → ∀ s ∈ t.stoppers, s.holdsProber = false
  /-- Only the prober that was launched last may run. -/
  earlier : ∀ p ∈ t.supervisor.processes.tail, p.alive = false
  untended : t.runner.duty.tends = false → t.supervisor.running? = none
  finished : ∀ s ∈ t.stoppers, s.Over →
    t.supervisor.running? = none ∧ t.runner.duty.launches = false
  restarts : t.supervisor.registry.restarts =
    n + if t.runner.duty = .counting then t.supervisor.launches else t.supervisor.launches - 1

variable {n : Nat}

/-- What a step that launches no prober and counts nothing has to respect. -/
theorem Attended.keep (h : Attended n t) (hst : t'.stoppers = t.stoppers)
    (hl : t'.ledger = t.ledger)
    (hholds : t'.runner.duty.holds = true → t.runner.duty.holds = true ∨ t.ProberFree)
    (htends : t'.runner.duty.tends = false → t.supervisor.running? = none)
    (hlaunches : t'.runner.duty.launches = true →
      t.runner.duty.launches = true ∨ ∀ s ∈ t.stoppers, ¬ s.Over)
    (hcounts : t'.runner.duty = .counting ↔ t.runner.duty = .counting) : Attended n t' := by
  obtain ⟨hps, hn, hr⟩ := ledger_eq hl
  have hrun := Supervisor.running?_congr hps
  refine ⟨?_, ?_, ?_, ?_, ?_⟩
  · rw [hst]
    intro hd
    exact (hholds hd).elim h.exclusive And.right
  · rw [hps]
    exact h.earlier
  · rw [hrun]
    exact htends
  · rw [hst, hrun]
    intro s hs ho
    refine ⟨(h.finished s hs ho).1, Bool.eq_false_iff.2 fun hd => ?_⟩
    rcases hlaunches hd with hd | hno
    · cases hd.symm.trans (h.finished s hs ho).2
    · exact hno s hs ho
  · rw [hr, hn, h.restarts]
    simp only [hcounts]

theorem Phased.not_over (h : t.Phased) (hs : t.supervisor.stopping = false) :
    ∀ s ∈ t.stoppers, ¬ s.Over := by
  intro s hm ho
  have hf : s ≠ .flagging := by rcases ho with rfl | rfl <;> nofun
  cases hs.symm.trans (h.asked s hm hf)

theorem Attended.dead (h : Attended n t) (hr : t.supervisor.running? = none) :
    ∀ p ∈ t.supervisor.processes, p.alive = false := by
  have hhead := Supervisor.running?_eq_none_iff.1 hr
  have htail := h.earlier
  generalize t.supervisor.processes = ps at hhead htail
  cases ps with
  | nil => nofun
  | cons p ps => exact List.forall_mem_cons.2 ⟨hhead p rfl, htail⟩

/-- What a step that goes through with a launch has to respect. -/
theorem Attended.launch (h : Attended n t) (hst : t'.stoppers = t.stoppers)
    (hlaunches : t.runner.duty.launches = true) (htends : t'.runner.duty.tends = true)
    (hps : ∀ p ∈ t'.supervisor.processes.tail, p.alive = false)
    (hr : t'.supervisor.registry.restarts = n +
      if t'.runner.duty = .counting then t'.supervisor.launches else t'.supervisor.launches - 1) :
    Attended n t' where
  exclusive := fun _ => hst ▸ h.exclusive (Duty.holds_of_launches hlaunches)
  earlier := hps
  untended := fun hd => nomatch htends.symm.trans hd
  finished := fun s hs ho => nomatch hlaunches.symm.trans (h.finished s (hst ▸ hs) ho).2
  restarts := hr

theorem Attended.run (h : Attended n t) (hp : t.Phased) (hs : RunStep t t') : Attended n t' := by
  have hst := hs.stoppers_eq
  cases hs.turn with
  | keep hd hl =>
    refine h.keep hst hl ?_ ?_ ?_ ?_ <;> rw [hd]
    · exact .inl
    · exact h.untended
    · exact .inl
  | lock hd hd' hf hl =>
    refine h.keep hst hl (fun _ => .inr hf) (fun _ => h.untended ?_) ?_ ?_ <;> rw [hd]
    · rfl
    · rw [hd']
      nofun
    · rw [hd']
      decide
  | allow hd hd' hs hl =>
    refine h.keep hst hl ?_ (fun _ => h.untended ?_) (fun _ => .inr (hp.not_over hs)) ?_ <;> rw [hd]
    · exact fun _ => .inl rfl
    · rfl
    · rw [hd']
      decide
  | release hd hd' hl =>
    have hn : t.runner.duty.tends = false := by rcases hd with hd | hd <;> rw [hd] <;> rfl
    refine h.keep hst hl ?_ (fun _ => h.untended hn) ?_ ?_ <;> rw [hd']
    · nofun
    · nofun
    · rcases hd with hd | hd <;> rw [hd] <;> decide
  | collect hd hd' hr hl =>
    refine h.keep hst hl ?_ (fun _ => hr) ?_ ?_ <;> rw [hd']
    · nofun
    · nofun
    · rw [hd]
      decide
  | spawn hd hd' hl =>
    obtain ⟨hps, hn, hr⟩ := ledger_eq hl
    refine h.launch hst (by rw [hd]; rfl) (by rw [hd']; rfl) ?_ ?_
    · rw [hps]
      exact h.dead (h.untended (by rw [hd]; rfl))
    · rw [hr, hn, h.restarts, hd, hd']
      rfl
  | record hd hd' hl =>
    obtain ⟨hps, hn, hr⟩ := ledger_eq hl
    refine h.launch hst (by rw [hd]; rfl) (by rw [hd']; rfl) (hps ▸ h.earlier) ?_
    rw [hr, hn, h.restarts, hd, hd', if_neg nofun, if_pos rfl]
    split <;> omega
  | count hd hd' hl =>
    obtain ⟨hps, hn, hr⟩ := ledger_eq hl
    refine h.launch hst (by rw [hd]; rfl) (by rw [hd']; rfl) (hps ▸ h.earlier) ?_
    rw [hr, hn, h.restarts, hd, hd', if_pos rfl, if_neg nofun, Nat.add_sub_cancel]

/-- The exit of a prober. -/
theorem Attended.reap (h : Attended n t) :
    Attended n { t with supervisor := t.supervisor.reap } where
  exclusive := h.exclusive
  earlier := by
    show ∀ p ∈ (t.supervisor.processes.modifyHead _).tail, p.alive = false
    rw [List.tail_modifyHead]
    exact h.earlier
  untended := fun _ => t.supervisor.running?_reap
  finished := fun s hs ho => ⟨t.supervisor.running?_reap, (h.finished s hs ho).2⟩
  restarts := h.restarts

/-- A step of a stopping thread that leaves the probers alone. -/
theorem Attended.keepStop {i : Nat} {st : Stopper} {s : Supervisor} {shown : List Phase}
    (h : Attended n t)
    (hl : ledger ⟨s, t.runner, t.stoppers, shown⟩ = t.ledger)
    (hholds : st.holdsProber = true → t.runner.duty.holds = false)
    (hover : st.Over → t.supervisor.running? = none ∧ t.runner.duty.launches = false) :
    Attended n ⟨s, t.runner, t.stoppers.set i st, shown⟩ := by
  obtain ⟨hps, hn, hr⟩ := ledger_eq hl
  have hrun : s.running? = t.supervisor.running? := Supervisor.running?_congr hps
  refine ⟨fun hd => forall_mem_set (h.exclusive hd) ?_, ?_, ?_, ?_, ?_⟩
  · refine Bool.eq_false_iff.2 fun hst => ?_
    cases hd.symm.trans (hholds hst)
  · rw [hps]
    exact h.earlier
  · rw [hrun]
    exact h.untended
  · rw [hrun]
    exact forall_mem_set h.finished hover
  · rw [hr, hn]
    exact h.restarts

theorem Attended.stop {i : Nat} (h : Attended n t) (hs : StopStep t i t') : Attended n t' := by
  cases hs with
  | flag _ | enter _ | expose _ => exact h.keepStop rfl nofun nofun
  | decide _ _ =>
    rcases t.decideStop_cases with hd | ⟨hd, -⟩ <;> rw [hd] <;> exact h.keepStop rfl nofun nofun
  | lock _ hf =>
    refine h.keepStop rfl (fun _ => ?_) nofun
    rw [← Runner.holdsProber_eq]
    exact hf.1
  | reap hi =>
    have hfree : t.runner.duty.holds = false := by
      refine Bool.eq_false_iff.2 fun hd => ?_
      cases h.exclusive hd _ (List.mem_of_getElem? hi)
    refine h.reap.keepStop rfl (fun _ => hfree) fun _ => ⟨t.supervisor.running?_reap, ?_⟩
    exact Bool.eq_false_iff.2 fun hd => by cases (Duty.holds_of_launches hd).symm.trans hfree
  | leave hi =>
    exact h.keepStop rfl nofun fun _ => h.finished _ (List.mem_of_getElem? hi) (.inl rfl)

theorem Attended.step (h : Attended n t) (hp : t.Phased) (hs : Step t t') : Attended n t' := by
  cases hs with
  | work hs =>
    cases hs with
    | run hs => exact h.run hp hs
    | stop _ hs => exact h.stop hs
    | exit => exact h.reap
  | call =>
    exact ⟨fun hd => forall_mem_call (h.exclusive hd) rfl, h.earlier, h.untended,
      forall_mem_call h.finished (nomatch ·), h.restarts⟩

theorem Attended.countP_alive_le_one (h : Attended n t) :
    t.supervisor.processes.countP (·.alive) ≤ 1 := by
  have htail := h.earlier
  cases hps : t.supervisor.processes with
  | nil => exact Nat.zero_le 1
  | cons p ps =>
    rw [hps, List.tail_cons] at htail
    have hzero : ps.countP (·.alive) = 0 := by
      rw [List.countP_eq_zero]
      exact fun q hq => Bool.eq_false_iff.1 (htail q hq)
    rw [List.countP_cons, hzero]
    split <;> decide

/-- Every launch but the first counts as a restart, while none is on its way. -/
theorem Attended.restarts_eq (h : Attended n t) (hf : t.ProberFree) :
    t.supervisor.registry.restarts = n + (t.supervisor.launches - 1) := by
  have hd : t.runner.duty ≠ .counting := by
    intro hd
    have hholds := t.runner.holdsProber_eq
    rw [hd] at hholds
    cases hf.1.symm.trans hholds
  rw [h.restarts, if_neg hd]

theorem attended_init (s : Settings) (binary : String) (g : Registry) :
    Attended g.restarts { supervisor := .ofSettings s binary g } :=
  ⟨nofun, nofun, fun _ => rfl, nofun, rfl⟩

theorem attended_of_reachable {s : Settings} {binary : String} {g : Registry}
    (h : Reachable { supervisor := .ofSettings s binary g } t) : Attended g.restarts t := by
  induction h with
  | refl => exact attended_init s binary g
  | tail h hs ih => exact ih.step (phased_of_reachable h) hs

end Threads

end EchoMetrics.Supervision
