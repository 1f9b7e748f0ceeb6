import EchoMetrics.Proofs.Supervision.Lifecycle
import EchoMetrics.Proofs.Supervision.Probers
import EchoMetrics.Supervision.Run

/-! # Scripted runs among the runs of the threads

Main statement: what a scripted run does, the threads can do, with the same end and the same phases
shown, and with no shutdown that the script does not ask for. What holds however the threads take
their steps thus holds of every scripted run. -/

namespace EchoMetrics.Supervision

theorem Supervisor.reap_eq_self {s : Supervisor} (h : s.running? = none) : s.reap = s :=
  congrArg (fun ps => { s with processes := ps }) (processes_reap h)

theorem Journal.phases_append (j j' : Journal) : (j ++ j').phases = j.phases ++ j'.phases :=
  List.filterMap_append

/-- A step in which a shutdown is asked for only if that is granted. -/
inductive Threads.Granted (q : Prop) (t : Threads) : Threads → Prop
  | work {t' : Threads} (h : Work t t') : Granted q t t'
  | call (h : q) : Granted q t { t with stoppers := t.stoppers ++ [.flagging] }

theorem Threads.Granted.step {q : Prop} {t t' : Threads} (h : Granted q t t') : Step t t' := by
  cases h with
  | work h => exact .work h
  | call => exact .call

namespace Run

variable {r r' r'' : Run} {x y z : Runner} {n : Nat}

/-- The threads of a scripted run. So many shutdowns were asked for, and all have returned. -/
def threads (r : Run) (x : Runner) (n : Nat) : Threads where
  supervisor := r.supervisor
  runner := x
  stoppers := List.replicate n .returned
  shown := r.journal.phases

theorem phaseFree_threads (h : x.entersPhase = false) : (r.threads x n).PhaseFree :=
  ⟨h, fun _ hs => List.eq_of_mem_replicate hs ▸ rfl⟩

theorem proberFree_threads (h : x.holdsProber = false) : (r.threads x n).ProberFree :=
  ⟨h, fun _ hs => List.eq_of_mem_replicate hs ▸ rfl⟩

/-- What a script says of shutdowns, and of the prober that was started last. -/
def plan (r : Run) : Interruptions × Conduct := (r.interruptions, r.conduct)

/-- Shutdowns are asked for while the run lasts only if this is so. -/
structure Asks (q : Prop) (r : Run) : Prop where
  onceStarted : r.interruptions.onceStarted = true → q
  afterLine (k : Nat) : r.interruptions.afterLine = some k → q
  onSleep (k : Nat) : r.interruptions.onSleep = some k → q
  onRelaunch (k : Nat) : r.interruptions.onRelaunch = some k → q
  untilStopped : r.conduct.untilStopped = true → q

theorem Asks.congr {q : Prop} (h : Asks q r) (hp : r'.plan = r.plan) : Asks q r' := by
  have hi : r'.interruptions = r.interruptions := congrArg Prod.fst hp
  have hc : r'.conduct = r.conduct := congrArg Prod.snd hp
  constructor
  · exact hi ▸ h.onceStarted
  · exact hi ▸ h.afterLine
  · exact hi ▸ h.onSleep
  · exact hi ▸ h.onRelaunch
  · exact hc ▸ h.untilStopped

/-- The threads can go on from one point of a scripted run to another one. -/
def Leads (q : Prop) (x : Runner) (r : Run) (y : Runner) (r' : Run) : Prop :=
  Asks q r → Asks q r' ∧ r'.interruptions = r.interruptions ∧
    ∀ n, ∃ m, Steps (Threads.Granted q) (r.threads x n) (r'.threads y m)

namespace Leads

variable {q : Prop}

theorem refl (x : Runner) (r : Run) : Leads q x r x r :=
  fun h => ⟨h, rfl, fun n => ⟨n, .refl⟩⟩

theorem trans (h : Leads q x r y r') (h' : Leads q y r' z r'') : Leads q x r z r'' := by
  intro ha
  obtain ⟨ha', hi, h⟩ := h ha
  obtain ⟨ha'', hi', h'⟩ := h' ha'
  refine ⟨ha'', hi'.trans hi, fun n => ?_⟩
  obtain ⟨m, h⟩ := h n
  obtain ⟨k, h'⟩ := h' m
  exact ⟨k, h.trans h'⟩

theorem of_asks (h : Asks q r → Leads q x r y r') : Leads q x r y r' := fun ha => h ha ha

theorem of_steps (hp : r'.plan = r.plan)
    (h : ∀ n, ∃ m, Steps (Threads.Granted q) (r.threads x n) (r'.threads y m)) :
    Leads q x r y r' := fun ha => ⟨ha.congr hp, congrArg Prod.fst hp, h⟩

theorem step (hp : r'.plan = r.plan)
    (h : ∀ n, Threads.RunStep (r.threads x n) (r'.threads y n)) : Leads q x r y r' :=
  of_steps hp fun n => ⟨n, .tail .refl (.work (.run (h n)))⟩

/-- The threads do not show what is only written down. -/
theorem of_eq (hp : r'.plan = r.plan) (hs : r'.supervisor = r.supervisor)
    (hj : r'.journal.phases = r.journal.phases) : Leads q x r x r' := by
  refine of_steps hp fun n => ?_
  have heq : r'.threads x n = r.threads x n := by rw [threads, threads, hs, hj]
  exact ⟨n, heq ▸ .refl⟩

end Leads

variable {q : Prop}

theorem phases_emit (r : Run) {e : Event} (h : Journal.phases [e] = []) :
    (r.emit e).journal.phases = r.journal.phases := by
  rw [emit, Journal.phases_append, h, List.append_nil]

theorem leads_emit (x : Runner) (r : Run) {e : Event} (h : Journal.phases [e] = []) :
    Leads q x r x (r.emit e) :=
  .of_eq rfl rfl (phases_emit r h)

/-! ## Entering a phase -/

theorem publish_of_none {p : Phase} (h : r.supervisor.change? p = none) : r.publish p = r := by
  rw [publish, Supervisor.publish, h]

theorem publish_of_some {p q : Phase} (h : r.supervisor.change? p = some q) :
    r.publish p =
      { r with supervisor := (r.supervisor.enter q).expose q }.emit (.phase q) := by
  rw [publish, Supervisor.publish, h]

theorem leads_publish (g : Goal) (r : Run) :
    Leads q (.entering g .waiting) r g.next (r.publish g.phase) := by
  have hdecide (n : Nat) := Threads.RunStep.decide (t := r.threads (.entering g .waiting) n) rfl
    (phaseFree_threads rfl)
  cases hc : r.supervisor.change? g.phase with
  | none =>
    rw [publish_of_none hc]
    refine .step rfl fun n => ?_
    have hd : (r.threads (.entering g .waiting) n).decide g = g.next := by
      rw [Threads.decide, threads, hc]
    exact hd ▸ hdecide n
  | some p =>
    rw [publish_of_some hc]
    have h₁ : Leads q (.entering g .waiting) r (.entering g (.decided p)) r := by
      refine .step rfl fun n => ?_
      have hd : (r.threads (.entering g .waiting) n).decide g = .entering g (.decided p) := by
        rw [Threads.decide, threads, hc]
      exact hd ▸ hdecide n
    have h₂ : Leads q (.entering g (.decided p)) r (.entering g (.entered p))
        { r with supervisor := r.supervisor.enter p } :=
      .step rfl fun n => .enter rfl
    refine (h₁.trans h₂).trans (.step rfl fun n => ?_)
    rw [threads, threads, emit, Journal.phases_append]
    exact .expose rfl

/-! ## Asking for a shutdown -/

/-- The threads of a scripted run while one of them asks for a shutdown. -/
def asking (r : Run) (x : Runner) (n : Nat) (s : Stopper) : Threads :=
  { r.threads x n with stoppers := List.replicate n .returned ++ [s] }

theorem asking_returned (r : Run) (x : Runner) (n : Nat) :
    r.asking x n .returned = r.threads x (n + 1) := by
  rw [asking, threads, threads, List.replicate_succ']

/-- A step of the thread that asks for a shutdown. -/
theorem asking_step {s s' : Stopper}
    (h : (r.asking x n s).stoppers[n]? = some s → Threads.StopStep (r.asking x n s) n
      { r'.asking x n s with stoppers := (r.asking x n s).stoppers.set n s' }) :
    Threads.Granted q (r.asking x n s) (r'.asking x n s') := by
  have hget : (r.asking x n s).stoppers[n]? = some s := by simp [asking]
  have hset : (r.asking x n s).stoppers.set n s' = (r'.asking x n s').stoppers := by simp [asking]
  have hstep := h hget
  rw [hset] at hstep
  exact .work (.stop n hstep)

theorem phaseFree_asking {s : Stopper} (h : x.entersPhase = false) (hs : s.entersPhase = false) :
    (r.asking x n s).PhaseFree := by
  refine ⟨h, fun st hst => ?_⟩
  rcases List.mem_append.1 hst with hst | hst
  · exact List.eq_of_mem_replicate hst ▸ rfl
  · exact List.mem_singleton.1 hst ▸ hs

theorem proberFree_asking {s : Stopper} (h : x.holdsProber = false) (hs : s.holdsProber = false) :
    (r.asking x n s).ProberFree := by
  refine ⟨h, fun st hst => ?_⟩
  rcases List.mem_append.1 hst with hst | hst
  · exact List.eq_of_mem_replicate hst ▸ rfl
  · exact List.mem_singleton.1 hst ▸ hs

/-- The threads publish a shutdown. -/
theorem steps_asking_publish (hx : x.entersPhase = false) :
    Steps (Threads.Granted q) (r.asking x n (.entering .waiting))
      ((r.publish .shuttingDown).asking x n .waiting) := by
  have hdecide (h : (r.asking x n (.entering .waiting)).stoppers[n]? = _) :=
    Threads.StopStep.decide h (phaseFree_asking hx rfl)
  cases hc : r.supervisor.change? .shuttingDown with
  | none =>
    rw [publish_of_none hc]
    have hd : (r.asking x n (.entering .waiting)).decideStop = .waiting := by
      rw [Threads.decideStop, asking, threads, hc]
    exact .tail .refl (asking_step fun h => hd ▸ hdecide h)
  | some p =>
    rw [publish_of_some hc]
    have hd : (r.asking x n (.entering .waiting)).decideStop = .entering (.decided p) := by
      rw [Threads.decideStop, asking, threads, hc]
    have h₁ : Threads.Granted q (r.asking x n (.entering .waiting))
        (r.asking x n (.entering (.decided p))) :=
      asking_step fun h => hd ▸ hdecide h
    have h₂ : Threads.Granted q (r.asking x n (.entering (.decided p)))
        (asking { r with supervisor := r.supervisor.enter p } x n (.entering (.entered p))) :=
      asking_step .enter
    refine ((Steps.refl.tail h₁).tail h₂).tail (asking_step fun h => ?_)
    rw [asking, asking, threads, threads, emit, Journal.phases_append]
    exact .expose h

/-- What is killed below a prober is seen only. -/
theorem kill_eq (ds : List String) (r : Run) :
    let r' := ds.foldl (fun r d => r.emit (.signal .kill (some d))) r
    r'.supervisor = r.supervisor ∧ r'.journal.phases = r.journal.phases ∧ r'.plan = r.plan := by
  induction ds generalizing r with
  | nil => exact ⟨rfl, rfl, rfl⟩
  | cons d ds ih =>
    obtain ⟨hs, hj, hp⟩ := ih (r.emit (.signal .kill (some d)))
    exact ⟨hs, hj.trans (phases_emit r rfl), hp⟩

theorem terminate_eq (r : Run) :
    r.terminate.supervisor = r.supervisor.reap ∧
      r.terminate.journal.phases = r.journal.phases ∧ r.terminate.plan = r.plan := by
  rw [terminate]
  split
  · rename_i p _
    have hterm := phases_emit r (e := .signal .term none) rfl
    dsimp only
    split
    · have hreport (r : Run) := phases_emit r
        (e := .reported (.ignoredTerm p.pid r.supervisor.settings.shutdownGraceS)) rfl
      have hkill := kill_eq r.conduct.descendants
      exact ⟨(hkill _).1,
        (phases_emit _ rfl).trans ((hkill _).2.1.trans ((hreport _).trans hterm)), (hkill _).2.2⟩
    · exact ⟨rfl, hterm, rfl⟩
  · rename_i h
    rw [Supervisor.reap_eq_self h]
    exact ⟨rfl, rfl, rfl⟩

theorem plan_publish (r : Run) (p : Phase) : (r.publish p).plan = r.plan := by
  rw [publish]
  split <;> rfl

theorem plan_shutdown (r : Run) : r.shutdown.plan = r.plan :=
  (terminate_eq _).2.2.trans (plan_publish _ _)

/-- A shutdown is asked for and returns. -/
theorem steps_shutdown (hq : q) (hx : x.entersPhase = false) (hx' : x.holdsProber = false)
    (r : Run) (n : Nat) :
    Steps (Threads.Granted q) (r.threads x n) (r.shutdown.threads x (n + 1)) := by
  obtain ⟨hs, hp, -⟩ := terminate_eq
    (publish { r with supervisor := r.supervisor.requestStop } .shuttingDown)
  rw [shutdown]
  generalize hr : publish { r with supervisor := r.supervisor.requestStop } .shuttingDown = r'
    at hs hp
  have hcall : Threads.Granted q (r.threads x n) (r.asking x n .flagging) := .call hq
  have hflag : Threads.Granted q (r.asking x n .flagging)
      (asking { r with supervisor := r.supervisor.requestStop } x n (.entering .waiting)) :=
    asking_step .flag
  have hpublish := steps_asking_publish (q := q) (n := n)
    (r := { r with supervisor := r.supervisor.requestStop }) hx
  rw [hr] at hpublish
  have hlock : Threads.Granted q (r'.asking x n .waiting) (r'.asking x n .ending) :=
    asking_step fun h => .lock h (proberFree_asking hx' rfl)
  have hreap : Threads.Granted q (r'.asking x n .ending)
      (asking { r' with supervisor := r'.supervisor.reap } x n .leaving) :=
    asking_step .reap
  have hleave : Threads.Granted q (asking { r' with supervisor := r'.supervisor.reap } x n .leaving)
      (r'.terminate.asking x n .returned) := by
    have heq : r'.terminate.asking x n .returned =
        asking { r' with supervisor := r'.supervisor.reap } x n .returned := by
      rw [asking, asking, threads, threads, hs, hp]
    rw [heq]
    exact asking_step .leave
  have hreached := ((Steps.refl.tail hcall).tail hflag).trans hpublish
  rw [← asking_returned]
  exact ((hreached.tail hlock).tail hreap).tail hleave

theorem leads_shutdownIf {b : Bool} (hx : x.entersPhase = false) (hx' : x.holdsProber = false)
    (r : Run) (hb : Asks q r → b = true → q) : Leads q x r x (r.shutdownIf b) := by
  cases b with
  | false => exact .refl x r
  | true =>
    refine .of_asks fun ha => .of_steps (plan_shutdown r) fun n => ?_
    exact ⟨n + 1, steps_shutdown (hb ha rfl) hx hx' r n⟩

/-! ## Watching a prober -/

theorem leads_ingest (r : Run) (stream : Stream) (text : String) :
    Leads q .watching r .watching (r.ingest stream text) := by
  have hline (r : Run) : Leads q .watching r .watching
      { r with supervisor := r.supervisor.ingest r.clock text, lines := r.lines + 1 } :=
    .step rfl fun n => .ingest r.clock text rfl
  have htake (r : Run) (n m k : Nat) := ((hline r).trans
    (leads_emit .watching _ (e := .line stream n m k) rfl)).trans
      (leads_shutdownIf rfl rfl _ fun ha hb => ha.afterLine (r.lines + 1) (of_decide_eq_true hb))
  rw [ingest]
  split
  · exact (leads_emit .watching r (e := .reported (.said _)) rfl).trans (htake _ _ _ _)
  · exact htake _ _ _ _

theorem leads_drain (i : Intake) (r : Run) (as : List Arrival) :
    Leads q .watching r .watching (Intake.drain ingest i r as).2 :=
  Intake.drain_invariant (fun r' stream text h => h.trans (leads_ingest r' stream text)) i
    (.refl _ r) as

theorem running?_shutdown (r : Run) : r.shutdown.supervisor.running? = none := by
  rw [shutdown, (terminate_eq _).1]
  exact Supervisor.running?_reap _

theorem running?_shutdownIf (h : r.supervisor.running? = none) (b : Bool) :
    (r.shutdownIf b).supervisor.running? = none := by
  cases b with
  | false => exact h
  | true => exact running?_shutdown r

theorem running?_ingest (h : r.supervisor.running? = none) (stream : Stream) (text : String) :
    (r.ingest stream text).supervisor.running? = none := by
  rw [ingest]
  split
  · refine running?_shutdownIf ?_ _
    exact h
  · refine running?_shutdownIf ?_ _
    exact h

/-- What is read of a prober that is gone does not bring it back. -/
theorem running?_drain (h : r.supervisor.running? = none) (i : Intake) (as : List Arrival) :
    (Intake.drain ingest i r as).2.supervisor.running? = none :=
  Intake.drain_invariant (P := fun r' : Run => r'.supervisor.running? = none)
    (fun _ stream text h => running?_ingest h stream text) i h as

theorem leads_exit (x : Runner) (r : Run) (now : Float) :
    Leads q x r x { r with supervisor := r.supervisor.reap, clock := now } := by
  cases h : r.supervisor.running? with
  | none => exact .of_eq rfl (Supervisor.reap_eq_self h) rfl
  | some p => exact .of_steps rfl fun n => ⟨n, .tail .refl (.work (.exit h))⟩

/-- A prober is watched until it is gone. -/
theorem leads_watch (r : Run) :
    Leads q .watching r .watching r.watch ∧ r.watch.supervisor.running? = none := by
  have hbefore := leads_drain (q := q) { pending := r.conduct.streams } r r.conduct.arrivals
  simp only [watch]
  generalize Intake.drain ingest { pending := r.conduct.streams } r r.conduct.arrivals = d
    at hbefore ⊢
  obtain ⟨i, r₁⟩ := d
  have hstop (ha : Asks q r) := leads_shutdownIf (x := .watching) (b := r.conduct.untilStopped)
    rfl rfl r₁ fun _ => ha.untilStopped
  generalize r₁.shutdownIf r.conduct.untilStopped = r₂ at hstop
  have hexit := leads_exit (q := q) .watching r₂ (r.conduct.exitTime r₂.clock)
  have hgone : r₂.supervisor.reap.running? = none := r₂.supervisor.running?_reap
  generalize hr₃ : ({ r₂ with
    supervisor := r₂.supervisor.reap, clock := r.conduct.exitTime r₂.clock } : Run) = r₃ at hexit ⊢
  have hgone₃ : r₃.supervisor.running? = none := hr₃ ▸ hgone
  have hafter := leads_drain (q := q) i r₃ r.conduct.ending
  have hgone₄ := running?_drain hgone₃ i r.conduct.ending
  have hall := Leads.of_asks fun ha => ((hbefore.trans (hstop ha)).trans hexit).trans hafter
  split
  · exact ⟨hall.trans (leads_emit .watching _ (e := .reported (.abandoned _ _)) rfl), hgone₄⟩
  · exact ⟨hall, hgone₄⟩

/-! ## The loop -/

theorem leads_announce (h : r.supervisor.stopping = false) :
    Leads q .checking r (.launching .waiting) r.announce := by
  have hbegin : Leads q .checking r (.entering .launch .waiting) r :=
    .step rfl fun n => .begin rfl h
  have hpublish := hbegin.trans (leads_publish .launch r)
  simp only [announce]
  split
  · have hcount : Leads q (.launching .waiting) (r.publish .starting) (.launching .waiting)
        { r.publish .starting with relaunches := (r.publish .starting).relaunches + 1 } :=
      .of_eq rfl rfl rfl
    exact (hpublish.trans hcount).trans
      (leads_shutdownIf rfl rfl _ fun ha hb => ha.onRelaunch _ (of_decide_eq_true hb))
  · exact hpublish

theorem leads_conduct {c : Conduct} (hc : c.untilStopped = true → q) (x : Runner) (r : Run) :
    Leads q x r x { r with conduct := c } := fun ha =>
  ⟨⟨ha.onceStarted, ha.afterLine, ha.onSleep, ha.onRelaunch, hc⟩, rfl, fun n => ⟨n, .refl⟩⟩

theorem leads_start (r : Run) {c : Conduct} (hc : c.untilStopped = true → q) :
    Leads q (.launching .spawning) r .watching (r.start c) := by
  have hspawn : Leads q (.launching .spawning) r (.launching .recording)
      { r with supervisor := r.supervisor.spawn c.pid } :=
    .step rfl fun n => .spawn c.pid rfl
  have hrecord : Leads q (.launching .recording) { r with supervisor := r.supervisor.spawn c.pid }
      (.launching .counting)
      { r with supervisor := (r.supervisor.spawn c.pid).recordLaunch r.clock } :=
    .step rfl fun n => .record r.clock rfl
  have hcount : Leads q (.launching .counting)
      { r with supervisor := (r.supervisor.spawn c.pid).recordLaunch r.clock }
      (.entering .watch .waiting) { r with supervisor := r.supervisor.launch c.pid r.clock } :=
    .step rfl fun n => .count rfl
  have hlaunch := ((hspawn.trans hrecord).trans hcount).trans (leads_conduct hc _ _)
  exact (hlaunch.trans (leads_publish .watch _)).trans
    (leads_shutdownIf rfl rfl _ fun ha => (ha.congr (plan_publish _ _).symm).onceStarted)

/-- A run that is asked to end does. -/
theorem leads_finish (h : ∀ n, Threads.RunStep (r.threads x n)
    (r.threads (.entering .finish .waiting) n)) : Leads q x r (.ended none) r.finish.1 :=
  (Leads.step rfl h).trans (leads_publish .finish r)

/-- A run that gives up ends. -/
theorem leads_fail {fault : RunFault} (h : fault.isForeseen = true) (r : Run) :
    Leads q (.entering (.fail fault) .waiting) r (.ended (some fault)) (r.fail fault).1 := by
  rw [fail, if_pos h]
  exact (leads_emit _ r (e := .reported (.gaveUp fault)) rfl).trans
    (leads_publish (.fail fault) _)

theorem snd_fail (r : Run) (fault : RunFault) : (r.fail fault).2 = some fault := by
  rw [fail]
  split <;> rfl

theorem leads_judge_of_ok {l d : Float} {b : Backoff} (hs : r.supervisor.stopping = false)
    (h : (r.supervisor.settle l).backoff.next = .ok (d, b)) :
    Leads q (.judging l) r (.sleeping d)
      (backOff { r with supervisor := r.supervisor.settle l } b) := by
  have hjudge : Leads q (.judging l) r (.entering (.rest d) .waiting)
      { r with supervisor := { r.supervisor.settle l with backoff := b } } := by
    refine .step rfl fun n => ?_
    have hstep := Threads.RunStep.judge (t := r.threads (.judging l) n) rfl hs
    rw [Threads.judge_of_ok (t := r.threads _ n) h] at hstep
    exact hstep
  exact hjudge.trans (leads_publish (.rest d) _)

theorem leads_judge_of_error {l : Float} {f : Backoff.Fault} (hs : r.supervisor.stopping = false)
    (h : (r.supervisor.settle l).backoff.next = .error f) :
    Leads q (.judging l) r (.ended (some (.backoff f)))
      (fail { r with supervisor := r.supervisor.settle l } (.backoff f)).1 := by
  have hstep (n : Nat) := Threads.RunStep.judge (t := r.threads (.judging l) n) rfl hs
  by_cases hf : (RunFault.backoff f).isForeseen = true
  · have hjudge : Leads q (.judging l) r (.entering (.fail (.backoff f)) .waiting)
        { r with supervisor := r.supervisor.settle l } := by
      refine .step rfl fun n => ?_
      have h' := hstep n
      rw [Threads.judge_of_error (t := r.threads _ n) h, if_pos hf] at h'
      exact h'
    exact hjudge.trans (leads_fail hf _)
  · rw [fail, if_neg hf]
    refine .step rfl fun n => ?_
    have h' := hstep n
    rw [Threads.judge_of_error (t := r.threads _ n) h, if_neg hf] at h'
    exact h'

theorem leads_wait (r : Run) (d : Float) : Leads q (.sleeping d) r (.sleeping d) (r.wait d) := by
  have hcount : Leads q (.sleeping d) r (.sleeping d)
      { r with clock := r.clock + d, sleeps := r.sleeps + 1 } :=
    .of_eq rfl rfl rfl
  exact (hcount.trans (leads_emit _ _ (e := .slept d) rfl)).trans
    (leads_shutdownIf rfl rfl _ fun ha hb => ha.onSleep _ (of_decide_eq_true hb))

/-- From a launch to the judgement on the exit. -/
theorem leads_round (r : Run) {c : Conduct} (hc : c.untilStopped = true → q) (l : Float) :
    Leads q (.launching .spawning) r (.judging l) (r.start c).watch := by
  obtain ⟨hwatch, hgone⟩ := leads_watch (r.start c)
  exact ((leads_start r hc).trans hwatch).trans (.step rfl fun n => .collect l rfl hgone)

theorem leads_launch (hs : r.supervisor.stopping = false) :
    Leads q (.launching .waiting) r (.launching .spawning)
      (r.emit (.spawned r.supervisor.command)) := by
  have hlock : Leads q (.launching .waiting) r (.launching .checking) r :=
    .step rfl fun n => .lock rfl (proberFree_threads rfl)
  have hallow : Leads q (.launching .checking) r (.launching .spawning) r :=
    .step rfl fun n => .allow rfl hs
  exact (hlock.trans hallow).trans (leads_emit _ r rfl)

/-- Up to a launch, nothing depends on the prober. -/
theorem leads_before_launch (r : Run) (out : Run × Option RunFault)
    (h : Leads q (.launching .spawning) (r.announce.emit (.spawned r.announce.supervisor.command))
      (.ended out.2) out.1) :
    let ended := if r.supervisor.stopping then r.finish
      else if r.announce.supervisor.stopping then r.announce.finish else out
    Leads q .checking r (.ended ended.2) ended.1 := by
  dsimp only
  by_cases hs : r.supervisor.stopping = true
  · rw [if_pos hs]
    exact leads_finish fun n => .quit rfl hs
  · rw [if_neg hs]
    have hannounce := leads_announce (q := q) (Bool.eq_false_iff.2 hs)
    by_cases hs' : r.announce.supervisor.stopping = true
    · rw [if_pos hs']
      have hlock : Leads q (.launching .waiting) r.announce (.launching .checking) r.announce :=
        .step rfl fun n => .lock rfl (proberFree_threads rfl)
      exact (hannounce.trans hlock).trans (leads_finish fun n => .refuse rfl hs')
    · rw [if_neg hs']
      exact (hannounce.trans (leads_launch (Bool.eq_false_iff.2 hs'))).trans h

theorem leads_supervise (reason : String) {cs : List Conduct}
    (hcs : ∀ c ∈ cs, c.untilStopped = true → q) (r : Run) (canWait : Float → Bool) :
    Leads q .checking r (.ended (supervise reason cs r canWait).2)
      (supervise reason cs r canWait).1 := by
  induction cs generalizing r with
  | nil =>
    rw [supervise]
    refine leads_before_launch r _ ?_
    dsimp only
    rw [snd_fail]
    exact (Leads.step rfl fun n => .spawnFails _ rfl).trans (leads_fail rfl _)
  | cons c cs ih =>
    rw [supervise]
    refine leads_before_launch r _ ?_
    generalize r.announce.emit (.spawned r.announce.supervisor.command) = r₁
    dsimp only
    have hround := leads_round r₁ (hcs c List.mem_cons_self)
      ((r₁.start c).watch.clock - (r₁.start c).clock)
    generalize (r₁.start c).watch.clock - (r₁.start c).clock = l at hround ⊢
    generalize (r₁.start c).watch = r₂ at hround ⊢
    by_cases hs : r₂.supervisor.stopping = true
    · rw [if_pos hs]
      exact hround.trans (leads_finish fun n => .excuse rfl hs)
    · rw [if_neg hs]
      replace hround := hround.trans
        (leads_emit (.judging l) r₂ (e := .reported (.exited c.code l)) rfl)
      have hs₃ : (r₂.report (.exited c.code l)).supervisor.stopping = false :=
        Bool.eq_false_iff.2 hs
      rw [report] at hs₃ ⊢
      generalize r₂.emit (.reported (.exited c.code l)) = r₃ at hround hs₃ ⊢
      cases hb : (r₃.supervisor.settle l).backoff.next with
      | error f =>
        dsimp only
        rw [snd_fail]
        exact hround.trans (leads_judge_of_error hs₃ hb)
      | ok p =>
        obtain ⟨d, b⟩ := p
        dsimp only
        replace hround := hround.trans (leads_judge_of_ok hs₃ hb)
        generalize backOff { r₃ with supervisor := r₃.supervisor.settle l } b = r₄ at hround ⊢
        split
        · have hwake : Leads q (.sleeping d) (r₄.wait d) .checking (r₄.wait d) :=
            .step rfl fun n => .wake rfl
          exact ((hround.trans (leads_wait r₄ d)).trans hwake).trans
            (ih (fun c hm => hcs c (List.mem_cons_of_mem _ hm)) _)
        · rw [snd_fail]
          exact hround.trans (.step rfl fun n => .sleepFails rfl)

theorem asks_true (r : Run) : Asks True r :=
  ⟨fun _ => trivial, fun _ _ => trivial, fun _ _ => trivial, fun _ _ => trivial, fun _ => trivial⟩

/-- Whatever a scripted run does, the threads can do, to the same end. -/
theorem leads_whole (r : Run) (reason : String) (cs : List Conduct) (canWait : Float → Bool) :
    Leads True .checking r (.ended (r.whole reason cs canWait).2)
      (r.whole reason cs canWait).1 := by
  have hbefore := leads_shutdownIf (x := .checking) (b := r.interruptions.beforeRun) rfl rfl r
    fun _ _ => trivial
  have hprobers (c : Conduct) (_ : c ∈ cs) (_ : c.untilStopped = true) : True := trivial
  have hrun := leads_supervise reason hprobers (r.shutdownIf r.interruptions.beforeRun) canWait
  exact (hbefore.trans hrun).trans (leads_shutdownIf rfl rfl _ fun _ _ => trivial)

section

variable (s : Settings) (binary : String) (g : Registry) (clock : Float) (i : Interruptions)
  (reason : String) (cs : List Conduct) (canWait : Float → Bool)

theorem reachable_whole :
    let ended := whole { supervisor := .ofSettings s binary g, interruptions := i, clock } reason cs
      canWait
    ∃ n, Threads.Reachable { supervisor := .ofSettings s binary g }
      (ended.1.threads (.ended ended.2) n) := by
  have hleads := leads_whole
    { supervisor := .ofSettings s binary g, interruptions := i, clock } reason cs canWait
  obtain ⟨n, h⟩ := (hleads (asks_true _)).2.2 0
  exact ⟨n, h.mono fun _ _ => Threads.Granted.step⟩

/-- Every scripted run keeps to the lifecycle and leaves at most one prober behind. The registry
shows the supervisor's phase at its end, and a restart for every launch but the first. -/
theorem whole_keeps_lifecycle (hg : g.phase = .starting) :
    let r := (whole { supervisor := .ofSettings s binary g, interruptions := i, clock } reason cs
      canWait).1
    (Phase.starting :: r.journal.phases).IsChain Phase.Change ∧
      r.supervisor.registry.phase = r.supervisor.phase ∧
      r.supervisor.processes.countP (·.alive) ≤ 1 ∧
      r.supervisor.registry.restarts = g.restarts + (r.supervisor.launches - 1) := by
  obtain ⟨n, h⟩ := reachable_whole s binary g clock i reason cs canWait
  have hl := Threads.lifecycle_of_reachable hg h
  have ha := Threads.attended_of_reachable h
  exact ⟨hl.chain, hl.phase_eq (phaseFree_threads rfl), ha.countP_alive_le_one,
    ha.restarts_eq (proberFree_threads rfl)⟩

end

end Run

end EchoMetrics.Supervision
