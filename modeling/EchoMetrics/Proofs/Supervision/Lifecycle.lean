import EchoMetrics.Proofs.Supervision.Phases
import Mathlib.Data.List.Chain

/-! # The lifecycle of the phase

Main statement: in whatever order the threads take their steps, the registry shows phases that
follow one another as the lifecycle has it, it shows the supervisor's phase while no thread is
entering one, and nothing but an end is shown once a thread that asks for a shutdown has published
it. -/

namespace EchoMetrics

namespace Supervision

/-! ## Who holds the lock on the phase -/

/-- A thread that enters a phase, if it holds the lock. -/
def Entering.entrants (e : Entering) : List Entering := if e.holds then [e] else []

def Runner.entrants : Runner → List Entering
  | .entering _ e => e.entrants
  | .checking | .launching _ | .watching | .judging _ | .sleeping _ | .ended _ => []

def Stopper.entrants : Stopper → List Entering
  | .entering e => e.entrants
  | .flagging | .waiting | .ending | .leaving | .returned => []

/-- A thread that asks for a shutdown is past publishing it. -/
def Stopper.hasPublished : Stopper → Bool
  | .flagging | .entering _ => false
  | .waiting | .ending | .leaving | .returned => true

theorem Entering.entrants_eq_nil_iff {e : Entering} : e.entrants = [] ↔ e.holds = false := by
  cases e <;> simp [entrants, holds]

theorem Runner.entrants_eq_nil_iff {r : Runner} : r.entrants = [] ↔ r.entersPhase = false := by
  cases r with
  | entering _ e => exact e.entrants_eq_nil_iff
  | _ => exact iff_of_true rfl rfl

theorem Stopper.entrants_eq_nil_iff {s : Stopper} : s.entrants = [] ↔ s.entersPhase = false := by
  cases s with
  | entering e => exact e.entrants_eq_nil_iff
  | _ => exact iff_of_true rfl rfl

theorem Goal.entrants_next (g : Goal) : g.next.entrants = [] := by cases g <;> rfl

namespace Threads

variable {t t' : Threads}

/-- The threads that hold the lock on the phase. -/
def entrants (t : Threads) : List Entering :=
  t.runner.entrants ++ t.stoppers.flatMap Stopper.entrants

theorem phaseFree_iff : t.PhaseFree ↔ t.entrants = [] := by
  rw [PhaseFree, entrants, List.append_eq_nil_iff, List.flatMap_eq_nil_iff,
    Runner.entrants_eq_nil_iff]
  simp only [Stopper.entrants_eq_nil_iff]

/-- The holders of the lock with a stopping thread among them or another one in its place. -/
theorem exists_entrants_set {i : Nat} {s : Stopper} (h : t.stoppers[i]? = some s) :
    ∃ pre post, t.entrants = pre ++ s.entrants ++ post ∧ ∀ s',
      t.runner.entrants ++ (t.stoppers.set i s').flatMap Stopper.entrants =
        pre ++ s'.entrants ++ post := by
  obtain ⟨hi, rfl⟩ := List.getElem?_eq_some_iff.1 h
  have hset (s' : Stopper) :
      t.runner.entrants ++ (t.stoppers.set i s').flatMap Stopper.entrants =
        t.runner.entrants ++ (t.stoppers.take i).flatMap Stopper.entrants ++ s'.entrants ++
          (t.stoppers.drop (i + 1)).flatMap Stopper.entrants := by
    rw [List.set_eq_take_append_cons_drop, if_pos hi, List.flatMap_append, List.flatMap_cons]
    simp only [List.append_assoc]
  refine ⟨_, _, ?_, hset⟩
  have hself := hset t.stoppers[i]
  rw [List.set_getElem_self] at hself
  exact hself

/-! ## What a step does to the phase -/

/-- The supervisor's phase, the registry's, and all that the registry has shown. -/
def display (t : Threads) : Phase × Phase × List Phase :=
  (t.supervisor.phase, t.supervisor.registry.phase, t.shown)

theorem display_eq {p q : Phase} {shown : List Phase} (h : t.display = (p, q, shown)) :
    t.supervisor.phase = p ∧ t.supervisor.registry.phase = q ∧ t.shown = shown := by
  rw [display, Prod.mk.injEq, Prod.mk.injEq] at h
  exact h

/-- A thread that asks for a shutdown has published it. -/
def Published (t : Threads) : Prop := ∃ s ∈ t.stoppers, s.hasPublished = true

/-- What a step does to the phase. -/
inductive PhaseMove (t t' : Threads) : Prop
  | keep (he : t'.entrants = t.entrants) (hd : t'.display = t.display)
      (hp : t'.Published → t.Published ∨ t.entrants = [])
  | decide {p : Phase} (hf : t.entrants = []) (he : t'.entrants = [.decided p])
      (hd : t'.display = t.display) (hc : Phase.Change t.supervisor.phase p)
      (hs : t'.supervisor.stopping = true → p.IsFinal)
  | enter (pre post : List Entering) (p : Phase) (he : t.entrants = pre ++ .decided p :: post)
      (he' : t'.entrants = pre ++ .entered p :: post)
      (hd : t'.display = (p, t.supervisor.registry.phase, t.shown))
      (hp : t'.Published → t.Published)
  | expose (pre post : List Entering) (p : Phase) (he : t.entrants = pre ++ .entered p :: post)
      (he' : t'.entrants = pre ++ post) (hd : t'.display = (t.supervisor.phase, p, t.shown ++ [p]))

/-- A step of the supervising thread that leaves the lock and the phase alone. -/
theorem PhaseMove.keepRun {r : Runner} {s : Supervisor} (hr : r.entrants = t.runner.entrants)
    (hp : s.phase = t.supervisor.phase)
    (hg : s.registry.phase = t.supervisor.registry.phase) :
    PhaseMove t ⟨s, r, t.stoppers, t.shown⟩ := by
  refine .keep ?_ ?_ .inl
  · exact congrArg (· ++ t.stoppers.flatMap Stopper.entrants) hr
  · rw [display, display, hp, hg]

theorem RunStep.phaseMove (h : t.Phased) (hs : RunStep t t') : PhaseMove t t' := by
  cases hs with
  | begin hr _ | quit hr _ | lock hr _ | allow hr _ | refuse hr _ | spawn _ hr | spawnFails _ hr
  | count hr | collect _ hr _ | excuse hr _ | wake hr | rouse hr _ | sleepFails hr =>
    exact .keepRun (by rw [hr]; rfl) rfl rfl
  | decide hr hf =>
    rw [phaseFree_iff] at hf
    rcases t.decide_cases _ with ⟨hd, -⟩ | ⟨hd, hne⟩ <;> rw [hd]
    · refine .keepRun ?_ rfl rfl
      rw [hr, Goal.entrants_next]
      rfl
    · have hfit := h.runner
      rw [hr] at hfit
      have hnone := (List.append_eq_nil_iff.1 hf).2
      refine .decide hf ?_ rfl (Supervisor.change_admitted hfit.1 h.ends hne)
        Supervisor.isFinal_admitted
      rw [entrants, hnone]
      rfl
  | @enter g p hr =>
    refine .enter [] (t.stoppers.flatMap Stopper.entrants) p ?_ rfl rfl id
    rw [entrants, hr]
    rfl
  | @expose g p hr =>
    refine .expose [] (t.stoppers.flatMap Stopper.entrants) p ?_ ?_ rfl
    · rw [entrants, hr]
      rfl
    · rw [entrants, Goal.entrants_next]
  | record now hr => exact .keepRun (by rw [hr]; rfl) rfl (t.supervisor.phase_recordLaunch now)
  | ingest now line hr => exact .keepRun rfl rfl (t.supervisor.registry.phase_ingest now line)
  | @judge lifetime hr _ =>
    obtain ⟨b, r, hj, hcases⟩ := t.judge_eq lifetime
    rw [hj]
    refine .keepRun ?_ rfl rfl
    rw [hr]
    rcases hcases with ⟨d, rfl⟩ | ⟨f, rfl⟩ | ⟨f, rfl⟩ <;> rfl

theorem published_of_set {i : Nat} {st : Stopper}
    (h : ∃ s ∈ t.stoppers.set i st, s.hasPublished = true) :
    t.Published ∨ st.hasPublished = true := by
  obtain ⟨s, hs, hp⟩ := h
  rcases List.mem_or_eq_of_mem_set hs with hs | rfl
  · exact .inl ⟨s, hs, hp⟩
  · exact .inr hp

/-- A step of a stopping thread that leaves the lock and the phase alone. -/
theorem PhaseMove.keepStop {i : Nat} {st st' : Stopper} {s : Supervisor}
    (hi : t.stoppers[i]? = some st) (he : st'.entrants = st.entrants)
    (hp : s.phase = t.supervisor.phase) (hg : s.registry.phase = t.supervisor.registry.phase)
    (hst : st'.hasPublished = true → st.hasPublished = true ∨ t.entrants = []) :
    PhaseMove t ⟨s, t.runner, t.stoppers.set i st', t.shown⟩ := by
  obtain ⟨pre, post, hpre, hset⟩ := exists_entrants_set hi
  refine .keep ?_ ?_ fun hpub => ?_
  · rw [hpre, ← he]
    exact hset st'
  · rw [display, display, hp, hg]
  · rcases published_of_set hpub with hpub | hpub
    · exact .inl hpub
    · exact (hst hpub).imp_left fun hpub => ⟨st, List.mem_of_getElem? hi, hpub⟩

theorem StopStep.phaseMove {i : Nat} (hs : StopStep t i t') : PhaseMove t t' := by
  cases hs with
  | flag hi => exact .keepStop hi rfl rfl rfl nofun
  | decide hi hf =>
    rw [phaseFree_iff] at hf
    rcases t.decideStop_cases with hd | ⟨hd, hne⟩ <;> rw [hd]
    · exact .keepStop hi rfl rfl rfl fun _ => .inr hf
    · obtain ⟨pre, post, hpre, hset⟩ := exists_entrants_set hi
      rw [hf] at hpre
      obtain ⟨hpre', rfl⟩ := List.append_eq_nil_iff.1 hpre.symm
      obtain ⟨rfl, -⟩ := List.append_eq_nil_iff.1 hpre'
      exact .decide hf (hset _) rfl (.stop hne) fun _ => .inr rfl
  | @enter p hi =>
    obtain ⟨pre, post, hpre, hset⟩ := exists_entrants_set hi
    refine .enter pre post p ?_ ?_ rfl fun hpub => ?_
    · rw [hpre, List.append_assoc]
      rfl
    · refine (hset _).trans ?_
      rw [List.append_assoc]
      rfl
    · exact (published_of_set hpub).resolve_right nofun
  | @expose p hi =>
    obtain ⟨pre, post, hpre, hset⟩ := exists_entrants_set hi
    refine .expose pre post p ?_ ?_ rfl
    · rw [hpre, List.append_assoc]
      rfl
    · refine (hset _).trans ?_
      rw [List.append_assoc]
      rfl
  | lock hi _ | reap hi | leave hi => exact .keepStop hi rfl rfl rfl fun _ => .inl rfl

theorem Step.phaseMove (h : t.Phased) (hs : Step t t') : PhaseMove t t' := by
  cases hs with
  | work hs =>
    cases hs with
    | run hs => exact hs.phaseMove h
    | stop _ hs => exact hs.phaseMove
    | exit => exact .keep rfl rfl .inl
  | call =>
    refine .keep ?_ rfl fun hp => ?_
    · simp [entrants, Stopper.entrants]
    · obtain ⟨st, hst, hp⟩ := hp
      rcases List.mem_append.1 hst with hst | hst
      · exact .inl ⟨st, hst, hp⟩
      · obtain rfl := List.mem_singleton.1 hst
        cases hp

/-! ## The invariant -/

end Threads

/-- It is not about to show anything but an end. -/
def Entering.IsFinal : Entering → Prop
  | .waiting => True
  | .decided p | .entered p => p.IsFinal

namespace Threads

variable {t t' : Threads}

/-- At most one thread holds the lock. The registry is behind the supervisor only between two steps
of that thread. -/
inductive Consistent (t : Threads) : Prop
  | free (he : t.entrants = []) (hp : t.supervisor.registry.phase = t.supervisor.phase)
  | decided {p : Phase} (he : t.entrants = [.decided p])
      (hp : t.supervisor.registry.phase = t.supervisor.phase)
      (hc : Phase.Change t.supervisor.phase p)
  | entered {p : Phase} (he : t.entrants = [.entered p]) (hp : t.supervisor.phase = p)
      (hc : Phase.Change t.supervisor.registry.phase p)

/-- The lifecycle as it has been shown so far. -/
structure Lifecycle (t : Threads) : Prop where
  phased : t.Phased
  consistent : t.Consistent
  chain : (Phase.starting :: t.shown).IsChain Phase.Change
  last : (Phase.starting :: t.shown).getLast? = some t.supervisor.registry.phase
  settled : t.Published → ∀ e ∈ t.entrants, e.IsFinal

theorem Phased.stopping_of_published (h : t.Phased) (hp : t.Published) :
    t.supervisor.stopping = true := by
  obtain ⟨s, hs, hp⟩ := hp
  refine h.asked s hs ?_
  rintro rfl
  cases hp

/-- A thread that holds the lock is the only one. -/
theorem Consistent.alone {e : Entering} {pre post : List Entering} (h : t.Consistent)
    (he : t.entrants = pre ++ e :: post) : pre = [] ∧ post = [] := by
  have hlen : t.entrants.length ≤ 1 := by
    cases h with
    | free h => simp [h]
    | decided h => simp [h]
    | entered h => simp [h]
  rw [he, List.length_append, List.length_cons] at hlen
  exact ⟨List.eq_nil_of_length_eq_zero (by omega), List.eq_nil_of_length_eq_zero (by omega)⟩

theorem Consistent.step (h : t.Consistent) (hm : PhaseMove t t') : t'.Consistent := by
  cases hm with
  | keep he hd =>
    obtain ⟨hph, hreg, -⟩ := display_eq hd
    cases h with
    | free he' hp => exact .free (he.trans he') (by rw [hreg, hph, hp])
    | decided he' hp hc => exact .decided (he.trans he') (by rw [hreg, hph, hp]) (by rwa [hph])
    | entered he' hp hc => exact .entered (he.trans he') (hph.trans hp) (by rwa [hreg])
  | decide hf he hd hc =>
    obtain ⟨hph, hreg, -⟩ := display_eq hd
    cases h with
    | free _ hp => exact .decided he (by rw [hreg, hph, hp]) (by rwa [hph])
    | decided he' => cases hf.symm.trans he'
    | entered he' => cases hf.symm.trans he'
  | enter _ _ _ he he' hd =>
    obtain ⟨hph, hreg, -⟩ := display_eq hd
    obtain ⟨rfl, rfl⟩ := h.alone he
    cases h with
    | free hf => cases hf.symm.trans he
    | decided hf hp hc =>
      cases hf.symm.trans he
      exact .entered he' hph (by rwa [hreg, hp])
    | entered hf => cases hf.symm.trans he
  | expose _ _ _ he he' hd =>
    obtain ⟨hph, hreg, -⟩ := display_eq hd
    obtain ⟨rfl, rfl⟩ := h.alone he
    cases h with
    | free hf => cases hf.symm.trans he
    | decided hf => cases hf.symm.trans he
    | entered hf hp =>
      cases hf.symm.trans he
      exact .free he' (by rw [hreg, hph, hp])

/-- What the registry shows next is a change. -/
theorem Consistent.shown_step (h : t.Consistent) (hm : PhaseMove t t') :
    (t'.shown = t.shown ∧ t'.supervisor.registry.phase = t.supervisor.registry.phase) ∨
      ∃ p, t'.shown = t.shown ++ [p] ∧ t'.supervisor.registry.phase = p ∧
        Phase.Change t.supervisor.registry.phase p ∧ .entered p ∈ t.entrants := by
  cases hm with
  | keep _ hd | decide _ _ hd | enter _ _ _ _ _ hd =>
    obtain ⟨-, hreg, hshown⟩ := display_eq hd
    exact .inl ⟨hshown, hreg⟩
  | expose _ _ p he _ hd =>
    obtain ⟨-, hreg, hshown⟩ := display_eq hd
    obtain ⟨rfl, rfl⟩ := h.alone he
    refine .inr ⟨p, hshown, hreg, ?_, by simp [he]⟩
    cases h with
    | free hf => cases hf.symm.trans he
    | decided hf => cases hf.symm.trans he
    | entered hf _ hc =>
      cases hf.symm.trans he
      exact hc

theorem settled_step (h : ∀ e ∈ t.entrants, e.IsFinal) (hs : t'.supervisor.stopping = true)
    (hm : PhaseMove t t') : ∀ e ∈ t'.entrants, e.IsFinal := by
  cases hm with
  | keep he => rwa [he]
  | decide _ he _ _ hf =>
    rw [he, List.forall_mem_singleton]
    exact hf hs
  | enter _ _ _ he he' =>
    rw [he, List.forall_mem_append, List.forall_mem_cons] at h
    rw [he', List.forall_mem_append, List.forall_mem_cons]
    exact h
  | expose _ _ _ he he' =>
    rw [he, List.forall_mem_append, List.forall_mem_cons] at h
    rw [he', List.forall_mem_append]
    exact ⟨h.1, h.2.2⟩

theorem Lifecycle.step (h : t.Lifecycle) (hs : Step t t') : t'.Lifecycle := by
  have hphased := h.phased.step hs
  have hm := hs.phaseMove h.phased
  have hshown := h.consistent.shown_step hm
  refine ⟨hphased, h.consistent.step hm, ?_, ?_, fun hp => ?_⟩
  · rcases hshown with ⟨hl, -⟩ | ⟨p, hl, -, hc, -⟩ <;> rw [hl]
    · exact h.chain
    · rw [← List.cons_append, List.isChain_append, h.last]
      refine ⟨h.chain, .singleton p, fun q hq p' hp => ?_⟩
      cases hq
      cases hp
      exact hc
  · rcases hshown with ⟨hl, hr⟩ | ⟨p, hl, hr, -⟩ <;> rw [hl, hr]
    · exact h.last
    · rw [← List.cons_append, List.getLast?_concat]
  · have hstop := hphased.stopping_of_published hp
    cases hm with
    | keep he _ hpub =>
      rw [he]
      rcases hpub hp with hp | hf
      · exact h.settled hp
      · rw [hf]
        nofun
    | decide hf he hd hc hs => exact settled_step (by rw [hf]; nofun) hstop (.decide hf he hd hc hs)
    | enter pre post p he he' hd hpub =>
      exact settled_step (h.settled (hpub hp)) hstop (.enter pre post p he he' hd hpub)
    | expose _ _ _ he he' =>
      obtain ⟨rfl, rfl⟩ := h.consistent.alone he
      rw [he']
      nofun

theorem lifecycle_init (s : Settings) (binary : String) {g : Registry} (hg : g.phase = .starting) :
    Lifecycle { supervisor := .ofSettings s binary g } where
  phased := phased_init s binary g
  consistent := .free rfl hg
  chain := .singleton _
  last := congrArg some hg.symm
  settled := nofun

theorem lifecycle_of_reachable {s : Settings} {binary : String} {g : Registry}
    (hg : g.phase = .starting) (h : Reachable { supervisor := .ofSettings s binary g } t) :
    t.Lifecycle :=
  h.invariant (lifecycle_init s binary hg) fun _ _ => .step

/-- The registry shows the supervisor's phase while no thread is entering one. -/
theorem Lifecycle.phase_eq (h : t.Lifecycle) (hf : t.PhaseFree) :
    t.supervisor.registry.phase = t.supervisor.phase := by
  rw [phaseFree_iff] at hf
  cases h.consistent with
  | free _ hp => exact hp
  | decided he => cases hf.symm.trans he
  | entered he => cases hf.symm.trans he

/-- Once a shutdown was published, the registry shows nothing but an end. -/
theorem exists_shown_append (h : t.Lifecycle) (hp : t.Published) (h' : Reachable t t') :
    ∃ ps, t'.shown = t.shown ++ ps ∧ ∀ p ∈ ps, p.IsFinal := by
  have hinv : t'.Lifecycle ∧ t'.supervisor.stopping = true ∧ (∀ e ∈ t'.entrants, e.IsFinal) ∧
      ∃ ps, t'.shown = t.shown ++ ps ∧ ∀ p ∈ ps, p.IsFinal := by
    have h₀ : ∃ ps, t.shown = t.shown ++ ps ∧ ∀ p ∈ ps, p.IsFinal :=
      ⟨[], (List.append_nil _).symm, nofun⟩
    refine h'.invariant (p := fun u => u.Lifecycle ∧ u.supervisor.stopping = true ∧
      (∀ e ∈ u.entrants, e.IsFinal) ∧ ∃ ps, u.shown = t.shown ++ ps ∧ ∀ p ∈ ps, p.IsFinal)
      ⟨h, h.phased.stopping_of_published hp, h.settled hp, h₀⟩ ?_
    rintro u u' ⟨hu, hstop, hfinal, ps, hps, hall⟩ hs
    have hstop' := stopping_of_step hs hstop
    have hm := hs.phaseMove hu.phased
    refine ⟨hu.step hs, hstop', settled_step hfinal hstop' hm, ?_⟩
    rcases hu.consistent.shown_step hm with ⟨hl, -⟩ | ⟨p, hl, -, -, he⟩
    · exact ⟨ps, hl.trans hps, hall⟩
    · refine ⟨ps ++ [p], ?_, ?_⟩
      · rw [hl, hps, List.append_assoc]
      · rw [List.forall_mem_append, List.forall_mem_singleton]
        exact ⟨hall, hfinal _ he⟩
  exact hinv.2.2.2

/-- However the steps of the supervising thread, of any number of threads that ask for a shutdown
and of the probers follow one another: the phases that the registry has shown are a walk through the
lifecycle, which begins with `starting` and ends with the phase that the registry shows now. While
no thread is entering a phase, that is the supervisor's phase. From the time on at which a shutdown
was published, nothing but an end is shown any more. -/
theorem shown_follows_lifecycle (s : Settings) (binary : String) {g : Registry}
    (hg : g.phase = .starting) (h : Reachable { supervisor := .ofSettings s binary g } t) :
    (Phase.starting :: t.shown).IsChain Phase.Change ∧
      (Phase.starting :: t.shown).getLast? = some t.supervisor.registry.phase ∧
      (t.PhaseFree → t.supervisor.registry.phase = t.supervisor.phase) ∧
      ∀ st ∈ t.stoppers, st.hasPublished = true → ∀ t', Reachable t t' →
        ∃ ps, t'.shown = t.shown ++ ps ∧ ∀ p ∈ ps, p.IsFinal := by
  have hl := lifecycle_of_reachable hg h
  exact ⟨hl.chain, hl.last, hl.phase_eq, fun st hst hp t' h' =>
    exists_shown_append hl ⟨st, hst, hp⟩ h'⟩

/-- A shutdown comes in between a launch and the phase that follows it. -/
theorem shown_running_shuttingDown :
    ∃ t, Reachable { supervisor := .ofSettings {} "" {} } t ∧
      ({} : Registry).phase = .starting ∧ t.stoppers = [.waiting] ∧
      t.shown = [.running, .shuttingDown] ∧
      (Phase.starting :: t.shown).IsChain Phase.Change ∧
      ∀ t', Reachable t t' → ∃ ps, t'.shown = t.shown ++ ps ∧ ∀ p ∈ ps, p.IsFinal := by
  have h₁ : Reachable { supervisor := .ofSettings {} "" {} } _ :=
    .tail .refl (.work (.run (.begin rfl rfl)))
  have h₂ := h₁.tail (.work (.run (.decide rfl ⟨rfl, nofun⟩)))
  have h₃ := h₂.tail (.work (.run (.lock rfl ⟨rfl, nofun⟩)))
  have h₄ := h₃.tail (.work (.run (.allow rfl rfl)))
  have h₅ := h₄.tail (.work (.run (.spawn 0 rfl)))
  have h₆ := h₅.tail (.work (.run (.record 0.0 rfl)))
  have h₇ := h₆.tail (.work (.run (.count rfl)))
  have h₈ := h₇.tail (.work (.run (.decide rfl ⟨rfl, nofun⟩)))
  have h₉ := h₈.tail .call
  have h₁₀ := h₉.tail (.work (.stop 0 (.flag rfl)))
  have h₁₁ := h₁₀.tail (.work (.run (.enter rfl)))
  have h₁₂ := h₁₁.tail (.work (.run (.expose rfl)))
  have h₁₃ := h₁₂.tail (.work (.stop 0 (.decide rfl ⟨rfl, by decide⟩)))
  have h₁₄ := h₁₃.tail (.work (.stop 0 (.enter rfl)))
  have h₁₅ := h₁₄.tail (.work (.stop 0 (.expose rfl)))
  obtain ⟨hchain, -, -, hlater⟩ := shown_follows_lifecycle {} "" (g := {}) rfl h₁₅
  exact ⟨_, h₁₅, rfl, rfl, rfl, hchain, hlater _ List.mem_cons_self rfl⟩

end Threads

end Supervision

end EchoMetrics
