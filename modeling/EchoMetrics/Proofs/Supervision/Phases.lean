import EchoMetrics.Supervision.Threads

/-! # The phase as each thread knows it

Main statement: wherever the supervising thread is, the supervisor is in the phase that the thread
has entered last or, once a stop was requested, in the one that shuts down. What the thread enters
next is a change that the lifecycle has. -/

namespace EchoMetrics

/-- The lifecycle: which phase may give way to which. -/
inductive Phase.Change : Phase → Phase → Prop
  | run : Change .starting .running
  | rest : Change .running .backingOff
  | retry : Change .backingOff .starting
  | fail {p : Phase} (h : p = .starting ∨ p = .running ∨ p = .shuttingDown) : Change p .fatal
  | stop {p : Phase} (h : p ≠ .shuttingDown) : Change p .shuttingDown

/-- The phases of a prober that is done with. -/
def Phase.IsFinal (p : Phase) : Prop := p = .fatal ∨ p = .shuttingDown

namespace Supervision

namespace Supervisor

variable {s : Supervisor} {p q : Phase}

/-- It is in a phase, or in the one that may take its place at any time. -/
def At (s : Supervisor) (p : Phase) : Prop := s.phase = p ∨ s.phase = .shuttingDown

theorem At.change (h : s.At p) (hc : Phase.Change p q) : s.At q ∨ Phase.Change s.phase q := by
  rcases h with h | h
  · exact .inr (h ▸ hc)
  · exact .inl (.inr h)

theorem admitted_eq (s : Supervisor) (p : Phase) :
    s.admitted p = p ∨ s.admitted p = .shuttingDown ∧ s.stopping = true := by
  rw [admitted]
  split
  · rename_i h
    exact .inr ⟨rfl, (Bool.and_eq_true_iff.1 h).1⟩
  · exact .inl rfl

theorem isFinal_admitted (h : s.stopping = true) : (s.admitted p).IsFinal := by
  rw [admitted, h, Bool.true_and]
  split
  · exact .inr rfl
  · rename_i hp
    exact .inl (by simpa using hp)

/-- What is entered instead of a phase is a change if the phase is. -/
theorem change_admitted (h : s.At p ∨ Phase.Change s.phase p)
    (hs : s.phase = .shuttingDown → s.stopping = true) (hne : s.admitted p ≠ s.phase) :
    Phase.Change s.phase (s.admitted p) := by
  rcases s.admitted_eq p with hp | ⟨hp, -⟩
  · rw [hp] at hne ⊢
    rcases h with (h | h) | h
    · exact absurd h.symm hne
    · -- only the failure of a run gets past the request to stop
      have hf : p.IsFinal := hp ▸ isFinal_admitted (hs h)
      rcases hf with rfl | rfl
      · exact .fail (.inr (.inr h))
      · exact absurd h.symm hne
    · exact h
  · rw [hp] at hne ⊢
    exact .stop hne.symm

end Supervisor

/-! ## What each thread relies on -/

/-- What the supervising thread knows of the supervisor. -/
def Runner.Fits (s : Supervisor) : Runner → Prop
  | .checking => s.At .starting ∨ s.At .backingOff
  | .entering g .waiting =>
    (s.At g.phase ∨ Phase.Change s.phase g.phase) ∧ (g = .finish → s.stopping = true)
  | .entering g (.decided p) =>
    (p = g.phase ∨ p = .shuttingDown) ∧ (p = .shuttingDown → s.stopping = true)
  | .entering g (.entered _) => s.At g.phase
  | .launching _ => s.At .starting
  | .watching | .judging _ => s.At .running
  | .sleeping _ => s.At .backingOff
  | .ended none => s.At .shuttingDown
  | .ended (some _) => True

theorem Goal.fits_next {g : Goal} {s : Supervisor} (h : s.At g.phase) : g.next.Fits s := by
  cases g with
  | fail => trivial
  | launch | watch | rest | finish => exact h

theorem Goal.eq_finish {g : Goal} (h : g.phase = .shuttingDown) : g = .finish := by
  cases g with
  | finish => rfl
  | launch | watch | rest | fail => cases h

/-- A request to stop takes nothing from what the supervising thread knows. -/
theorem Runner.Fits.mono {r : Runner} {s s' : Supervisor} (h : r.Fits s)
    (hp : s'.phase = s.phase ∨ s'.phase = .shuttingDown)
    (hs : s.stopping = true → s'.stopping = true) : r.Fits s' := by
  have hat {p : Phase} (h : s.At p) : s'.At p := by
    rcases hp with hp | hp
    · exact h.imp hp.trans hp.trans
    · exact .inr hp
  cases r with
  | checking => exact h.imp hat hat
  | entering g e =>
    cases e with
    | waiting =>
      refine ⟨?_, fun hg => hs (h.2 hg)⟩
      rcases h.1 with h | h
      · exact .inl (hat h)
      · rcases hp with hp | hp
        · exact .inr (hp ▸ h)
        · exact .inl (.inr hp)
    | decided p => exact ⟨h.1, fun hp => hs (h.2 hp)⟩
    | entered _ => exact hat h
  | launching _ | watching | judging _ | sleeping _ => exact hat h
  | ended fault =>
    cases fault with
    | none => exact hat h
    | some _ => trivial

namespace Threads

variable {t t' : Threads}

/-- What the threads know of the supervisor. -/
structure Phased (t : Threads) : Prop where
  runner : t.runner.Fits t.supervisor
  /-- It takes a request to stop to get to the end. -/
  ends : t.supervisor.phase = .shuttingDown → t.supervisor.stopping = true
  asked : ∀ s ∈ t.stoppers, s ≠ .flagging → t.supervisor.stopping = true
  decided : ∀ s ∈ t.stoppers, ∀ p, s = .entering (.decided p) → p = .shuttingDown

theorem forall_mem_set {P : Stopper → Prop} {i : Nat} {st : Stopper} (h : ∀ s ∈ t.stoppers, P s)
    (hst : P st) : ∀ s ∈ t.stoppers.set i st, P s := by
  intro s hs
  rcases List.mem_or_eq_of_mem_set hs with hs | rfl
  · exact h s hs
  · exact hst

theorem forall_mem_call {P : Stopper → Prop} (h : ∀ s ∈ t.stoppers, P s) (hf : P .flagging) :
    ∀ s ∈ t.stoppers ++ [.flagging], P s :=
  List.forall_mem_append.2 ⟨h, List.forall_mem_singleton.2 hf⟩

theorem judge_of_ok {l d : Float} {b : Backoff}
    (h : (t.supervisor.settle l).backoff.next = .ok (d, b)) :
    t.judge l = { t with
      supervisor := { t.supervisor.settle l with backoff := b }
      runner := .entering (.rest d) .waiting } := by
  simp only [judge, h]

theorem judge_of_error {l : Float} {f : Backoff.Fault}
    (h : (t.supervisor.settle l).backoff.next = .error f) :
    t.judge l = { t with
      supervisor := t.supervisor.settle l
      runner := if (RunFault.backoff f).isForeseen then .entering (.fail (.backoff f)) .waiting
        else .ended (some (.backoff f)) } := by
  simp only [judge, h]

theorem judge_eq (t : Threads) (l : Float) :
    ∃ b r, t.judge l = { t with supervisor := { t.supervisor with backoff := b }, runner := r } ∧
      ((∃ d, r = .entering (.rest d) .waiting) ∨ (∃ f, r = .entering (.fail f) .waiting) ∨
        ∃ f, r = .ended (some f)) := by
  cases h : (t.supervisor.settle l).backoff.next with
  | ok p =>
    rw [judge_of_ok h, Supervisor.settle_eq]
    exact ⟨_, _, rfl, .inl ⟨_, rfl⟩⟩
  | error f =>
    rw [judge_of_error h, Supervisor.settle_eq]
    refine ⟨_, _, rfl, .inr ?_⟩
    split
    · exact .inl ⟨_, rfl⟩
    · exact .inr ⟨_, rfl⟩

theorem decide_cases (t : Threads) (g : Goal) :
    (t.decide g = g.next ∧ t.supervisor.admitted g.phase = t.supervisor.phase) ∨
      (t.decide g = .entering g (.decided (t.supervisor.admitted g.phase)) ∧
        t.supervisor.admitted g.phase ≠ t.supervisor.phase) := by
  rw [decide, Supervisor.change?]
  by_cases h : t.supervisor.admitted g.phase = t.supervisor.phase
  · rw [if_pos h]
    exact .inl ⟨rfl, h⟩
  · rw [if_neg h]
    exact .inr ⟨rfl, h⟩

theorem decideStop_cases (t : Threads) :
    t.decideStop = .waiting ∨
      (t.decideStop = .entering (.decided .shuttingDown) ∧ t.supervisor.phase ≠ .shuttingDown) := by
  have ha : t.supervisor.admitted .shuttingDown = .shuttingDown := ite_self _
  rw [decideStop, Supervisor.change?, ha]
  by_cases h : .shuttingDown = t.supervisor.phase
  · rw [if_pos h]
    exact .inl rfl
  · rw [if_neg h]
    exact .inr ⟨rfl, Ne.symm h⟩

theorem fits_decide {g : Goal} (h : t.Phased) (hr : t.runner = .entering g .waiting) :
    (t.decide g).Fits t.supervisor := by
  have hw := h.runner
  rw [hr] at hw
  rcases t.decide_cases g with ⟨hd, hp⟩ | ⟨hd, -⟩ <;> rw [hd]
  · apply Goal.fits_next
    rcases t.supervisor.admitted_eq g.phase with ha | ⟨ha, -⟩
    · exact .inl (hp.symm.trans ha)
    · exact .inr (hp.symm.trans ha)
  · rcases t.supervisor.admitted_eq g.phase with ha | ⟨ha, hs⟩ <;> rw [ha]
    · exact ⟨.inl rfl, fun hg => hw.2 (Goal.eq_finish hg)⟩
    · exact ⟨.inr rfl, fun _ => hs⟩

/-- A step of the supervising thread, if it neither sets the stop flag nor enters a phase. -/
theorem Phased.move {r : Runner} {s : Supervisor} {shown : List Phase} (h : t.Phased)
    (hp : s.phase = t.supervisor.phase) (hs : s.stopping = t.supervisor.stopping)
    (hr : r.Fits t.supervisor) : Phased ⟨s, r, t.stoppers, shown⟩ where
  runner := hr.mono (.inl hp) hs.trans
  ends := fun he => hs.trans (h.ends (hp.symm.trans he))
  asked := fun st hst hf => hs.trans (h.asked st hst hf)
  decided := h.decided

theorem Phased.run (h : t.Phased) (hs : RunStep t t') : t'.Phased := by
  have hfit := h.runner
  cases hs with
  | begin hr _ =>
    rw [hr] at hfit
    refine h.move rfl rfl ⟨?_, nofun⟩
    rcases hfit with hp | hp
    · exact .inl hp
    · exact hp.change .retry
  | quit _ hs | refuse _ hs | excuse _ hs | rouse _ hs =>
    refine h.move rfl rfl ⟨?_, fun _ => hs⟩
    by_cases hp : t.supervisor.phase = .shuttingDown
    · exact .inl (.inl hp)
    · exact .inr (.stop hp)
  | decide hr _ => exact h.move rfl rfl (fits_decide h hr)
  | enter hr =>
    rw [hr] at hfit
    exact ⟨hfit.1, hfit.2, h.asked, h.decided⟩
  | expose hr =>
    rw [hr] at hfit
    exact h.move rfl rfl (Goal.fits_next hfit)
  | lock hr _ | allow hr _ | spawn _ hr | record _ hr | collect _ hr _ =>
    rw [hr] at hfit
    exact h.move rfl rfl hfit
  | spawnFails _ hr =>
    rw [hr] at hfit
    exact h.move rfl rfl ⟨hfit.change (.fail (.inl rfl)), nofun⟩
  | count hr =>
    rw [hr] at hfit
    exact h.move rfl rfl ⟨hfit.change .run, nofun⟩
  | ingest => exact h.move rfl rfl hfit
  | @judge lifetime hr _ =>
    rw [hr] at hfit
    obtain ⟨b, r, hj, hcases⟩ := t.judge_eq lifetime
    rw [hj]
    refine h.move rfl rfl ?_
    rcases hcases with ⟨d, rfl⟩ | ⟨f, rfl⟩ | ⟨f, rfl⟩
    · exact ⟨hfit.change .rest, nofun⟩
    · exact ⟨hfit.change (.fail (.inr (.inl rfl))), nofun⟩
    · trivial
  | wake hr =>
    rw [hr] at hfit
    exact h.move rfl rfl (.inr hfit)
  | sleepFails => exact h.move rfl rfl trivial

/-- A step of a stopping thread, if it neither sets the stop flag nor enters a phase. -/
theorem Phased.moveStop {i : Nat} {st st' : Stopper} {s : Supervisor} {shown : List Phase}
    (h : t.Phased) (hi : t.stoppers[i]? = some st) (hf : st ≠ .flagging)
    (hp : s.phase = t.supervisor.phase) (hs : s.stopping = t.supervisor.stopping)
    (hd : ∀ p, st' = .entering (.decided p) → p = .shuttingDown) :
    Phased ⟨s, t.runner, t.stoppers.set i st', shown⟩ where
  runner := h.runner.mono (.inl hp) hs.trans
  ends := fun he => hs.trans (h.ends (hp.symm.trans he))
  asked := fun _ _ _ => hs.trans (h.asked st (List.mem_of_getElem? hi) hf)
  decided := forall_mem_set h.decided hd

theorem Phased.stop {i : Nat} (h : t.Phased) (hs : StopStep t i t') : t'.Phased := by
  cases hs with
  | flag hi =>
    exact ⟨h.runner.mono (.inl rfl) fun _ => rfl, fun _ => rfl, fun _ _ _ => rfl,
      forall_mem_set h.decided nofun⟩
  | decide hi _ =>
    refine h.moveStop hi nofun rfl rfl ?_
    intro p hp
    rcases t.decideStop_cases with hd | ⟨hd, -⟩
    · cases hd.symm.trans hp
    · cases hd.symm.trans hp
      rfl
  | @enter p hi =>
    obtain rfl := h.decided _ (List.mem_of_getElem? hi) p rfl
    have hs := h.asked _ (List.mem_of_getElem? hi) nofun
    exact ⟨h.runner.mono (.inr rfl) id, fun _ => hs, fun _ _ _ => hs,
      forall_mem_set h.decided nofun⟩
  | expose hi | lock hi _ | reap hi | leave hi => exact h.moveStop hi nofun rfl rfl nofun

theorem Phased.step (h : t.Phased) (hs : Step t t') : t'.Phased := by
  cases hs with
  | work hs =>
    cases hs with
    | run hs => exact h.run hs
    | stop i hs => exact h.stop hs
    | exit => exact ⟨h.runner.mono (.inl rfl) id, h.ends, h.asked, h.decided⟩
  | call =>
    exact ⟨h.runner, h.ends, forall_mem_call h.asked fun hf => absurd rfl hf,
      forall_mem_call h.decided nofun⟩

/-- Nobody takes a request to stop back. -/
theorem stopping_of_step (hs : Step t t') (h : t.supervisor.stopping = true) :
    t'.supervisor.stopping = true := by
  cases hs with
  | work hs =>
    cases hs with
    | run hs =>
      cases hs with
      | @judge lifetime _ _ =>
        obtain ⟨b, r, hj, -⟩ := t.judge_eq lifetime
        rw [hj]
        exact h
      | _ => exact h
    | stop _ hs =>
      cases hs with
      | flag => rfl
      | _ => exact h
    | exit => exact h
  | call => exact h

theorem phased_init (s : Settings) (binary : String) (g : Registry) :
    Phased { supervisor := .ofSettings s binary g } :=
  ⟨.inl (.inl rfl), nofun, nofun, nofun⟩

theorem phased_of_reachable {s : Settings} {binary : String} {g : Registry}
    (h : Reachable { supervisor := .ofSettings s binary g } t) : t.Phased :=
  h.invariant (phased_init s binary g) fun _ _ => .step

end Threads

end Supervision

end EchoMetrics
