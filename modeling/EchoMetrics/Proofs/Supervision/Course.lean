import EchoMetrics.Proofs.Binary.Arithmetic
import EchoMetrics.Proofs.Supervision.Schedule
import EchoMetrics.Supervision.Run

/-! # Runs follow their schedule

A supervisor that nobody stops does what the lifetimes of its probers say. The retries that it has
used are carried from exit to exit, while the schedule reads them off the list of all lifetimes; the
invariant of the loop ties the two together. -/

namespace EchoMetrics.Supervision

namespace Run

/-! ## What output leaves alone -/

/-- Everything that the course of a run depends on is the same. -/
structure Frame (r r' : Run) : Prop where
  settings : r'.supervisor.settings = r.supervisor.settings
  command : r'.supervisor.command = r.supervisor.command
  stopping : r'.supervisor.stopping = r.supervisor.stopping
  backoff : r'.supervisor.backoff = r.supervisor.backoff
  launches : r'.supervisor.launches = r.supervisor.launches
  restarts : r'.supervisor.registry.restarts = r.supervisor.registry.restarts
  interruptions : r'.interruptions = r.interruptions
  clock : r'.clock = r.clock
  conduct : r'.conduct = r.conduct
  moves : r'.journal.moves = r.journal.moves

namespace Frame

variable {r r' r'' : Run}

theorem refl (r : Run) : Frame r r := ⟨rfl, rfl, rfl, rfl, rfl, rfl, rfl, rfl, rfl, rfl⟩

theorem trans (h : Frame r r') (h' : Frame r' r'') : Frame r r'' :=
  ⟨h'.settings.trans h.settings, h'.command.trans h.command, h'.stopping.trans h.stopping,
    h'.backoff.trans h.backoff, h'.launches.trans h.launches, h'.restarts.trans h.restarts,
    h'.interruptions.trans h.interruptions, h'.clock.trans h.clock, h'.conduct.trans h.conduct,
    h'.moves.trans h.moves⟩

end Frame

theorem moves_append (j j' : Journal) : Journal.moves (j ++ j') = j.moves ++ j'.moves :=
  List.filterMap_append

theorem frame_emit (r : Run) {e : Event} (h : Journal.moves [e] = []) : Frame r (r.emit e) := by
  refine ⟨rfl, rfl, rfl, rfl, rfl, rfl, rfl, rfl, rfl, ?_⟩
  show Journal.moves (r.journal ++ [e]) = _
  rw [moves_append, h, List.append_nil]

theorem frame_publish (r : Run) (p : Phase) : Frame r (r.publish p) := by
  have hf : Run.Frame r { r with supervisor := r.supervisor.publish p } := by
    refine ⟨?_, ?_, r.supervisor.stopping_publish p, ?_, r.supervisor.launches_publish p, ?_, rfl,
      rfl, rfl, rfl⟩
    all_goals
      simp only [Supervisor.publish]
      split <;> rfl
  rw [publish]
  split
  · exact hf.trans (frame_emit _ rfl)
  · exact hf

theorem frame_shutdownIf (r : Run) {b : Bool} (h : b = false) : Frame r (r.shutdownIf b) := by
  rw [h]
  exact .refl r

theorem frame_registry (r : Run) {g : Registry}
    (h : g.restarts = r.supervisor.registry.restarts) (lines : Nat) :
    Frame r { r with supervisor := { r.supervisor with registry := g }, lines } :=
  ⟨rfl, rfl, rfl, rfl, rfl, h, rfl, rfl, rfl, rfl⟩

/-- Lines change what is known of the targets only. -/
theorem frame_ingest {r : Run} (h : r.interruptions = {}) (stream : Stream) (text : String) :
    Frame r (r.ingest stream text) := by
  have hwrite (r : Run) :=
    frame_registry r (r.supervisor.registry.restarts_ingest r.clock text) (r.lines + 1)
  have hline (r : Run) (n m k : Nat) : Frame r (r.emit (.line stream n m k)) := frame_emit r rfl
  have hstop (r : Run) (h : r.interruptions = {}) (n : Nat) :
      decide (r.interruptions.afterLine = some n) = false := by
    rw [h]
    rfl
  have htake (r : Run) (h : r.interruptions = {}) (n m k : Nat) :=
    ((hwrite r).trans (hline _ n m k)).trans (frame_shutdownIf _ (hstop r h (r.lines + 1)))
  simp only [ingest]
  split
  · rename_i w _
    have hsaid := frame_emit r (e := .reported (.said w)) rfl
    exact hsaid.trans (htake (r.report (.said w)) h _ _ _)
  · exact htake r h _ _ _

theorem frame_drain {r : Run} (h : r.interruptions = {}) (i : Intake) (as : List Arrival) :
    Frame r (Intake.drain ingest i r as).2 :=
  Intake.drain_invariant
    (fun _ stream text hf => hf.trans (frame_ingest (hf.interruptions.trans h) stream text)) i
    (.refl r) as

/-- The running prober is gone at a later time. -/
def leave (r : Run) (now : Float) : Run :=
  { r with supervisor := r.supervisor.reap, clock := now }

theorem frame_leave {r r' : Run} (h : Frame r r') (now : Float) :
    Frame { r with clock := now } (r'.leave now) :=
  ⟨h.settings, h.command, h.stopping, h.backoff, h.launches, h.restarts, h.interruptions, rfl,
    h.conduct, h.moves⟩

/-- Nothing but the clock shows that a prober was watched to its end. -/
theorem frame_watch {r : Run} (h : r.interruptions = {}) (hc : r.conduct.untilStopped = false) :
    Frame { r with clock := r.conduct.exitTime r.clock } r.watch := by
  have h₁ := frame_drain h { pending := r.conduct.streams } r.conduct.arrivals
  simp only [watch, hc]
  generalize Intake.drain ingest { pending := r.conduct.streams } r r.conduct.arrivals = d at h₁ ⊢
  obtain ⟨i, r₁⟩ := d
  have hclock : r₁.clock = r.clock := h₁.clock
  have h₂ := frame_leave h₁ (r.conduct.exitTime r₁.clock)
  have h₃ := h₂.trans (frame_drain (h₂.interruptions.trans h) i r.conduct.ending)
  rw [← hclock]
  simp only [leave] at h₃
  simp only [shutdownIf, Bool.false_eq_true, if_false]
  split
  · exact h₃.trans (frame_emit _ (e := .reported (.abandoned _ _)) rfl)
  · exact h₃

/-! ## Launching and waiting -/

theorem frame_announce {r : Run} (h : r.interruptions = {}) : Frame r r.announce := by
  have hp := frame_publish r .starting
  simp only [announce]
  split
  · have hcount (r : Run) (n : Nat) : Frame r { r with relaunches := n } :=
      ⟨rfl, rfl, rfl, rfl, rfl, rfl, rfl, rfl, rfl, rfl⟩
    refine (hp.trans (hcount _ _)).trans (frame_shutdownIf _ ?_)
    rw [hp.interruptions, h]
    rfl
  · exact hp

/-- A launch, as far as the course of a run depends on it. -/
def launched (r : Run) (c : Conduct) : Run :=
  { r with supervisor := r.supervisor.launch c.pid r.clock, conduct := c }

theorem frame_start {r : Run} (h : r.interruptions = {}) (c : Conduct) :
    Frame (r.launched c) (r.start c) := by
  have hp := frame_publish (r.launched c) .running
  exact hp.trans (frame_shutdownIf _ (congrArg Interruptions.onceStarted h))

theorem frame_backOff (r : Run) (b : Backoff) :
    Frame { r with supervisor := { r.supervisor with backoff := b } } (r.backOff b) :=
  frame_publish _ _

theorem frame_wait {r : Run} (h : r.interruptions = {}) (d : Float) :
    Frame { r with clock := r.clock + d, journal := r.journal ++ [.slept d] } (r.wait d) := by
  have hcount : Frame { r with clock := r.clock + d, journal := r.journal ++ [.slept d] }
      { r with clock := r.clock + d, sleeps := r.sleeps + 1, journal := r.journal ++ [.slept d] } :=
    ⟨rfl, rfl, rfl, rfl, rfl, rfl, rfl, rfl, rfl, rfl⟩
  refine hcount.trans (frame_shutdownIf _ ?_)
  show decide (r.interruptions.onSleep = _) = false
  rw [h]
  rfl

/-! ## One round -/

/-- From a launch to the judgement on the prober's exit. -/
def round (r : Run) (c : Conduct) : Run :=
  let started := (r.announce.emit (.spawned r.announce.supervisor.command)).start c
  let ended := started.watch
  let lifetime := ended.clock - started.clock
  let ended := ended.report (.exited c.code lifetime)
  { ended with supervisor := ended.supervisor.settle lifetime }

/-- A round in which a prober lived for so long. -/
structure Rounded (l : Float) (r r' : Run) : Prop where
  settings : r'.supervisor.settings = r.supervisor.settings
  command : r'.supervisor.command = r.supervisor.command
  stopping : r'.supervisor.stopping = r.supervisor.stopping
  backoff : r'.supervisor.backoff =
    if r.supervisor.settings.stabilityThreshold ≤ l then r.supervisor.backoff.reset
    else r.supervisor.backoff
  launches : r'.supervisor.launches = r.supervisor.launches + 1
  restarts : r'.supervisor.registry.restarts = r.supervisor.registry.restarts +
    if r.supervisor.launches = 0 then 0 else 1
  interruptions : r'.interruptions = r.interruptions
  moves : r'.journal.moves = r.journal.moves ++ [.spawn, .exit l]

theorem backoff_settle (s : Supervisor) (l : Float) :
    (s.settle l).backoff =
      if s.settings.stabilityThreshold ≤ l then s.backoff.reset else s.backoff := by
  rw [Supervisor.settle]
  split <;> rfl

theorem exists_rounded {r : Run} {c : Conduct} (h : r.interruptions = {})
    (hc : c.untilStopped = false) :
    ∃ now, Rounded (c.exitTime now - now) r (r.round c) := by
  have ha := frame_announce h
  rw [round]
  generalize r.announce = a at ha
  have hs := frame_start (r := a.emit (.spawned a.supervisor.command)) (ha.interruptions.trans h) c
  generalize (a.emit (.spawned a.supervisor.command)).start c = s at hs
  have hw := frame_watch (hs.interruptions.trans (ha.interruptions.trans h))
    (hs.conduct ▸ hc)
  generalize s.watch = w at hw
  have hlife : w.clock - s.clock = c.exitTime s.clock - s.clock := by
    rw [hw.clock, hs.conduct]
    rfl
  have hsettings : w.supervisor.settings = r.supervisor.settings :=
    hw.settings.trans (hs.settings.trans ha.settings)
  have hbackoff : w.supervisor.backoff = r.supervisor.backoff :=
    hw.backoff.trans (hs.backoff.trans ha.backoff)
  have hrestarts : w.supervisor.registry.restarts = r.supervisor.registry.restarts +
      if r.supervisor.launches = 0 then 0 else 1 := by
    rw [hw.restarts, ← ha.restarts, ← ha.launches]
    exact hs.restarts.trans (Supervisor.restarts_recordLaunch _ _)
  have hmoves : w.journal.moves = r.journal.moves ++ [.spawn] := by
    rw [hw.moves, ← ha.moves]
    exact hs.moves.trans (moves_append _ _)
  refine ⟨s.clock, ?_⟩
  simp only [hlife]
  rw [Supervisor.settle_eq]
  refine ⟨hsettings, hw.command.trans (hs.command.trans ha.command),
    hw.stopping.trans (hs.stopping.trans ha.stopping), ?_, hw.launches.trans (hs.launches.trans
      (congrArg (· + 1) ha.launches)), hrestarts,
    hw.interruptions.trans (hs.interruptions.trans ha.interruptions), ?_⟩
  · rw [← hsettings, ← hbackoff]
    exact backoff_settle _ _
  · show Journal.moves (w.journal ++ _) = _
    rw [moves_append, hmoves, List.append_assoc]
    rfl

/-- A launch that fails ends the run. -/
theorem supervise_nil {r : Run} (h : r.interruptions = {}) (hs : r.supervisor.stopping = false)
    (reason : String) (canWait : Float → Bool) :
    supervise reason [] r canWait = (r.announce.emit (.spawned r.announce.supervisor.command)).fail
      (.launch (.cannotStart (r.announce.supervisor.command.headD "") reason)) := by
  have ha := (frame_announce h).stopping.trans hs
  simp only [supervise, hs, ha, Bool.false_eq_true, if_false]
  rfl

/-- A prober that exits by itself is replaced or the last one, as the retries have it. -/
theorem supervise_cons {r : Run} (h : r.interruptions = {}) (hs : r.supervisor.stopping = false)
    (reason : String) {c : Conduct} (hc : c.untilStopped = false) (cs : List Conduct)
    (canWait : Float → Bool) :
    supervise reason (c :: cs) r canWait =
      match (r.round c).supervisor.backoff.next with
      | .error fault => (r.round c).fail (.backoff fault)
      | .ok (d, b) =>
        if canWait d then supervise reason cs (((r.round c).backOff b).wait d) canWait
        else ((r.round c).backOff b).fail (.wait d) := by
  obtain ⟨now, hr⟩ := exists_rounded h hc
  have ha := (frame_announce h).stopping.trans hs
  have hw : ((r.announce.emit (.spawned r.announce.supervisor.command)).start
      c).watch.supervisor.stopping = false := by
    refine Eq.trans ?_ (hr.stopping.trans hs)
    rw [round, Supervisor.settle_eq]
    rfl
  rw [supervise]
  refine (if_neg (ne_true_of_eq_false hs)).trans ?_
  refine (if_neg (ne_true_of_eq_false ha)).trans ?_
  exact (if_neg (ne_true_of_eq_false hw)).trans rfl

end Run

/-! ## The invariant of the loop -/

/-- A lifetime is what passes on the clock until the exit. -/
def Conduct.Measures (c : Conduct) (l : Float) : Prop := ∃ now, l = c.exitTime now - now

/-- The run has come as far as the schedule says for the probers that have exited so far. -/
structure Follows (b : Backoff) (s : Settings) (command : List String) (restarts : Nat)
    (cs : List Conduct) (ls : List Float) (r : Run) : Prop where
  settings : r.supervisor.settings = s
  stopping : r.supervisor.stopping = false
  interruptions : r.interruptions = {}
  backoff : r.supervisor.backoff =
    { b with attempts := Schedule.used s.stabilityThreshold ls }
  launches : r.supervisor.launches = ls.length
  restarts : r.supervisor.registry.restarts = restarts + (ls.length - 1)
  command : r.supervisor.command = command
  moves : r.journal.moves = Schedule.moves b s.stabilityThreshold ls
  measured : List.Forall₂ Conduct.Measures cs ls
  lastExit : Schedule.lastExit? b s.stabilityThreshold ls = none

namespace Schedule

variable {b : Backoff} {threshold : Float} {ls : List Float}

theorem used_le (h : lastExit? b threshold ls = none) : used threshold ls ≤ b.maxRetries := by
  rw [used]
  split
  · exact Nat.zero_le _
  · rename_i hn
    have hpos := List.length_pos_iff.2 hn
    have hlast := List.find?_eq_none.1 h ls.length (List.mem_range'.2 ⟨ls.length - 1, by omega⟩)
    simp only [decide_eq_true_eq] at hlast
    omega

theorem retries_le (h : lastExit? b threshold ls = none) (l : Float) :
    retries threshold (ls ++ [l]) (ls.length + 1) ≤ b.maxRetries := by
  rw [retries_append_length]
  split
  · exact Nat.zero_le _
  · exact used_le h

end Schedule

section

variable {b : Backoff} {s : Settings} {command : List String} {restarts : Nat}
  {done cs : List Conduct} {c : Conduct} {ls : List Float} {l : Float} {r r' : Run}

/-- The retries that are used at the next exit. -/
theorem Follows.attempts_round (h : Follows b s command restarts done ls r)
    (hr : Run.Rounded l r r') :
    r'.supervisor.backoff =
      { b with
        attempts := Schedule.retries s.stabilityThreshold (ls ++ [l]) (ls.length + 1) } := by
  rw [hr.backoff, h.settings, h.backoff, Schedule.retries_append_length]
  split <;> rfl

theorem Follows.restarts_round (h : Follows b s command restarts done ls r)
    (hr : Run.Rounded l r r') :
    r'.supervisor.registry.restarts = restarts + ((ls ++ [l]).length - 1) := by
  rw [hr.restarts, h.restarts, h.launches, List.length_append, List.length_singleton]
  split <;> omega

theorem Follows.next_eq_exhausted (h : Follows b s command restarts done ls r)
    (hr : Run.Rounded l r r')
    (hk : b.maxRetries ≤ Schedule.retries s.stabilityThreshold (ls ++ [l]) (ls.length + 1)) :
    r'.supervisor.backoff.next = .error (.exhausted (b.maxRetries + 1)) := by
  have hle := Schedule.retries_le h.lastExit l
  rw [h.attempts_round hr, ← Nat.le_antisymm hk hle]
  exact Backoff.next_eq_exhausted (Nat.le_refl _)

theorem Follows.next_eq_ok (hM : b.maxRetries ≤ 1024) (h : Follows b s command restarts done ls r)
    (hr : Run.Rounded l r r')
    (hk : Schedule.retries s.stabilityThreshold (ls ++ [l]) (ls.length + 1) < b.maxRetries) :
    r'.supervisor.backoff.next =
      .ok (b.delay (Schedule.retries s.stabilityThreshold (ls ++ [l]) (ls.length + 1)),
        { b with attempts := Schedule.used s.stabilityThreshold (ls ++ [l]) }) := by
  rw [h.attempts_round hr, Schedule.used_append]
  generalize Schedule.retries s.stabilityThreshold (ls ++ [l]) (ls.length + 1) = k at hk ⊢
  have hinf := Binary.isInf_floatOfNat_two_pow (k := k) (by omega)
  rw [Backoff.next, if_neg (Nat.not_le.2 hk), if_neg (ne_true_of_eq_false hinf)]
  rfl

/-- One more round and one more wait. -/
theorem Follows.wait (h : Follows b s command restarts done ls r) (hr : Run.Rounded l r r')
    (hl : c.Measures l)
    (hk : Schedule.retries s.stabilityThreshold (ls ++ [l]) (ls.length + 1) < b.maxRetries) :
    Follows b s command restarts (done ++ [c]) (ls ++ [l])
      ((r'.backOff { b with attempts := Schedule.used s.stabilityThreshold (ls ++ [l]) }).wait
        (b.delay (Schedule.retries s.stabilityThreshold (ls ++ [l]) (ls.length + 1)))) := by
  have hb := Run.frame_backOff r'
    { b with attempts := Schedule.used s.stabilityThreshold (ls ++ [l]) }
  have hi := hb.interruptions.trans (hr.interruptions.trans h.interruptions)
  have hw := Run.frame_wait hi
    (b.delay (Schedule.retries s.stabilityThreshold (ls ++ [l]) (ls.length + 1)))
  refine ⟨?_, ?_, hw.interruptions.trans hi, hw.backoff.trans hb.backoff, ?_, ?_, ?_, ?_, ?_, ?_⟩
  · exact hw.settings.trans (hb.settings.trans (hr.settings.trans h.settings))
  · exact hw.stopping.trans (hb.stopping.trans (hr.stopping.trans h.stopping))
  · rw [hw.launches, List.length_append, ← h.launches]
    exact hb.launches.trans hr.launches
  · have hres := h.restarts_round hr
    exact hw.restarts.trans (hb.restarts.trans hres)
  · exact hw.command.trans (hb.command.trans (hr.command.trans h.command))
  · rw [hw.moves, Schedule.moves_append, ← h.moves]
    show Journal.moves (_ ++ _) = _
    rw [Run.moves_append, hb.moves]
    show r'.journal.moves ++ _ = _
    rw [hr.moves, List.append_assoc]
    rfl
  · exact List.rel_append h.measured (.cons hl .nil)
  · rw [Schedule.lastExit?_append, h.lastExit, if_neg (Nat.not_le.2 hk)]
    rfl

end

/-! ## Whole runs -/

/-- How a run ends whose probers lived for so long: at the exit for which no retry is left, or at
the launch after the last prober. -/
structure Ends (b : Backoff) (s : Settings) (restarts : Nat) (failure : RunFault)
    (cs : List Conduct) (ls : List Float) (r : Run) (fault : Option RunFault) : Prop where
  phase : r.supervisor.phase = .fatal
  launches : r.supervisor.launches = ls.length
  restarts : r.supervisor.registry.restarts = restarts + (ls.length - 1)
  measured : List.Forall₂ Conduct.Measures (cs.take ls.length) ls
  outcome : match Schedule.lastExit? b s.stabilityThreshold ls with
    | some i => i = ls.length ∧ fault = some (.backoff (.exhausted (b.maxRetries + 1))) ∧
        r.journal.moves = (Schedule.moves b s.stabilityThreshold ls).dropLast
    | none => ls.length = cs.length ∧ fault = some failure ∧
        r.journal.moves = Schedule.moves b s.stabilityThreshold ls ++ [.spawn]

theorem Run.frame_fail (r : Run) {fault : RunFault} (h : fault.isForeseen = true) :
    Frame r (r.fail fault).1 := by
  rw [fail, if_pos h]
  exact (frame_emit r (e := .reported (.gaveUp fault)) rfl).trans (frame_publish _ _)

theorem Run.fault_fail (r : Run) (fault : RunFault) : (r.fail fault).2 = some fault := by
  rw [fail]
  split <;> rfl

theorem Run.supervisor_publish (r : Run) (p : Phase) :
    (r.publish p).supervisor = r.supervisor.publish p := by
  rw [publish]
  split <;> rfl

theorem Run.phase_fail (r : Run) {fault : RunFault} (h : fault.isForeseen = true) :
    (r.fail fault).1.supervisor.phase = .fatal := by
  rw [fail, if_pos h, supervisor_publish, Supervisor.phase_publish]
  exact if_neg (by simp)

section

variable {b : Backoff} {s : Settings} {command : List String} {restarts : Nat}
  {done cs : List Conduct} {c : Conduct} {ls : List Float} {l : Float} {r r' : Run}

/-- At the exit for which no retry is left, the run ends. -/
theorem Follows.ends_exhausted (h : Follows b s command restarts done ls r)
    (hr : Run.Rounded l r r') (hl : c.Measures l) (failure : RunFault) (cs : List Conduct)
    (hk : b.maxRetries ≤ Schedule.retries s.stabilityThreshold (ls ++ [l]) (ls.length + 1)) :
    Ends b s restarts failure (done ++ c :: cs) (ls ++ [l])
      (r'.fail (.backoff (.exhausted (b.maxRetries + 1)))).1
      (some (.backoff (.exhausted (b.maxRetries + 1)))) := by
  have hf : Run.Frame r' (r'.fail (.backoff (.exhausted (b.maxRetries + 1)))).1 := r'.frame_fail rfl
  refine ⟨r'.phase_fail rfl, ?_, hf.restarts.trans (h.restarts_round hr), ?_, ?_⟩
  · rw [hf.launches, hr.launches, h.launches, List.length_append, List.length_singleton]
  · have htake : (done ++ c :: cs).take (ls ++ [l]).length = done ++ [c] := by
      rw [List.length_append, ← h.measured.length_eq, List.length_singleton,
        List.take_length_add_append]
      rfl
    rw [htake]
    exact List.rel_append h.measured (.cons hl .nil)
  · rw [Schedule.lastExit?_append, h.lastExit, if_pos hk, Schedule.moves_append, hf.moves, hr.moves,
      h.moves]
    refine ⟨by simp, rfl, ?_⟩
    rw [List.dropLast_append_of_ne_nil (by simp)]
    rfl

theorem Follows.ends_launch (h : Follows b s command restarts done ls r) (reason : String)
    (canWait : Float → Bool) :
    Ends b s restarts (.launch (.cannotStart (command.headD "") reason)) done ls
      (Run.supervise reason [] r canWait).1 (Run.supervise reason [] r canWait).2 := by
  have ha := Run.frame_announce h.interruptions
  rw [Run.supervise_nil h.interruptions h.stopping, Run.fault_fail, ha.command, h.command]
  have hf : Run.Frame (r.announce.emit (.spawned command))
      ((r.announce.emit (.spawned command)).fail
        (.launch (.cannotStart (command.headD "") reason))).1 := Run.frame_fail _ rfl
  refine ⟨Run.phase_fail _ rfl, hf.launches.trans (ha.launches.trans h.launches),
    hf.restarts.trans (ha.restarts.trans h.restarts), ?_, ?_⟩
  · rw [← h.measured.length_eq, List.take_length]
    exact h.measured
  · rw [h.lastExit, ← h.moves, ← ha.moves]
    exact ⟨h.measured.length_eq.symm, rfl, hf.moves.trans (Run.moves_append _ _)⟩

theorem Follows.ends (hM : b.maxRetries ≤ 1024) {canWait : Float → Bool}
    (hw : ∀ k < b.maxRetries, canWait (b.delay k) = true) (reason : String) (cs : List Conduct)
    (hcs : ∀ c ∈ cs, c.untilStopped = false) (h : Follows b s command restarts done ls r) :
    ∃ ls', Ends b s restarts (.launch (.cannotStart (command.headD "") reason)) (done ++ cs) ls'
      (Run.supervise reason cs r canWait).1 (Run.supervise reason cs r canWait).2 := by
  induction cs generalizing r done ls with
  | nil =>
    rw [List.append_nil]
    exact ⟨ls, h.ends_launch reason canWait⟩
  | cons c cs ih =>
    have hc := hcs c List.mem_cons_self
    obtain ⟨now, hr⟩ := Run.exists_rounded h.interruptions hc
    have hl : c.Measures (c.exitTime now - now) := ⟨now, rfl⟩
    generalize c.exitTime now - now = l at hr hl
    rw [Run.supervise_cons h.interruptions h.stopping reason hc cs canWait]
    rcases Nat.lt_or_ge (Schedule.retries s.stabilityThreshold (ls ++ [l]) (ls.length + 1))
      b.maxRetries with hk | hk
    · rw [h.next_eq_ok hM hr hk]
      dsimp only
      rw [if_pos (hw _ hk)]
      have hf := ih (fun c' hc' => hcs c' (List.mem_cons_of_mem c hc')) (h.wait hr hl hk)
      rw [List.append_assoc] at hf
      exact hf
    · rw [h.next_eq_exhausted hr hk]
      refine ⟨ls ++ [l], ?_⟩
      have he := h.ends_exhausted hr hl (.launch (.cannotStart (command.headD "") reason)) cs hk
      rw [← Run.fault_fail (r.round c)] at he
      exact he

end

end EchoMetrics.Supervision
