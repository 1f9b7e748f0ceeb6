import EchoMetrics.Supervision.Intake
import EchoMetrics.Supervision.Journal
import EchoMetrics.Supervision.Supervisor

/-! # A supervised run

The whole life of a supervisor, given how each prober that it launches behaves and when it is asked
to shut down. -/

namespace EchoMetrics.Supervision

/-- How one prober behaves. -/
structure Conduct where
  pid : Nat := 0
  /-- Its lines, in the order in which they are read. -/
  output : List (Stream × String) := []
  code : Int := 1
  /-- How long it lives if it exits by itself. -/
  lifetime : Float := 0.0
  /-- It does not exit by itself; a shutdown comes once its output was taken. -/
  untilStopped : Bool := false
  /-- It has to be killed. -/
  stubborn : Bool := false
  /-- The processes below it, which are killed first. -/
  descendants : List String := []
  hasStderr : Bool := true
  /-- A stream that something else keeps open after the exit, and the lines that then come of it. -/
  held : Option Stream := none
  late : List String := []

namespace Conduct

/-- The streams that are read. -/
def streams (c : Conduct) : List Stream := if c.hasStderr then [.stdout, .stderr] else [.stdout]

/-- When it is gone. One that is stopped is gone at once. -/
def exitTime (c : Conduct) (now : Float) : Float :=
  if c.untilStopped then now else now + c.lifetime

/-- What arrives before the exit. -/
def arrivals (c : Conduct) : List Arrival :=
  (c.output.filter fun p => c.streams.contains p.1).map fun p => .line p.1 p.2

/-- What arrives from the exit on. -/
def ending (c : Conduct) : List Arrival :=
  .exited c.code :: (c.streams.filter (some · != c.held)).map .closed ++
    .silence :: (c.held.toList.flatMap fun s => c.late.map (.line s))

end Conduct

/-- When a shutdown is asked for; numbers count from one. -/
structure Interruptions where
  beforeRun : Bool := false
  afterRun : Bool := false
  onceStarted : Bool := false
  afterLine : Option Nat := none
  onSleep : Option Nat := none
  onRelaunch : Option Nat := none

structure Run where
  supervisor : Supervisor
  interruptions : Interruptions := {}
  clock : Float
  /-- The prober that was started last. -/
  conduct : Conduct := {}
  lines : Nat := 0
  sleeps : Nat := 0
  relaunches : Nat := 0
  /-- What was seen so far. -/
  journal : Journal := []

namespace Run

def emit (r : Run) (e : Event) : Run := { r with journal := r.journal ++ [e] }

def report (r : Run) (x : Report) : Run := r.emit (.reported x)

def publish (r : Run) (p : Phase) : Run :=
  let r' := { r with supervisor := r.supervisor.publish p }
  match r.supervisor.change? p with
  | some p => r'.emit (.phase p)
  | none => r'

/-- Ends the running prober: asks it first, and kills it and all below it if it does not listen. -/
def terminate (r : Run) : Run :=
  match r.supervisor.running? with
  | some p =>
    let r := { r.emit (.signal .term none) with supervisor := r.supervisor.reap }
    if r.conduct.stubborn then
      let r := r.report (.ignoredTerm p.pid r.supervisor.settings.shutdownGraceS)
      (r.conduct.descendants.foldl (fun r d => r.emit (.signal .kill (some d))) r).emit
        (.signal .kill none)
    else r
  | none => r

/-- Asks for an end, and ends the running prober. -/
def shutdown (r : Run) : Run :=
  ({ r with supervisor := r.supervisor.requestStop }.publish .shuttingDown).terminate

def shutdownIf (r : Run) (b : Bool) : Run := if b then r.shutdown else r

/-- Applies a line to the registry. -/
def ingest (r : Run) (stream : Stream) (text : String) : Run :=
  let r := match (Line.read (.float r.clock) text).warning? stream with
    | some w => r.report (.said w)
    | none => r
  let r := { r with supervisor := r.supervisor.ingest r.clock text, lines := r.lines + 1 }
  let g := r.supervisor.registry
  let r := r.emit (.line stream g.samplesIngested g.parseErrors g.targets.size)
  r.shutdownIf (r.interruptions.afterLine = some r.lines)

/-- Enters the phase of starting, which is seen before a relaunch only. -/
def announce (r : Run) : Run :=
  let seen := (r.supervisor.change? .starting).isSome
  let r := r.publish .starting
  if seen then
    let r := { r with relaunches := r.relaunches + 1 }
    r.shutdownIf (r.interruptions.onRelaunch = some r.relaunches)
  else r

def start (r : Run) (c : Conduct) : Run :=
  let r := { r with supervisor := r.supervisor.launch c.pid r.clock, conduct := c }
  (r.publish .running).shutdownIf r.interruptions.onceStarted

/-- Takes in the output of the running prober until its end. -/
def watch (r : Run) : Run :=
  let c := r.conduct
  let (i, r) := Intake.drain ingest { pending := c.streams } r c.arrivals
  let r := r.shutdownIf c.untilStopped
  let r := { r with supervisor := r.supervisor.reap, clock := c.exitTime r.clock }
  let (i, r) := Intake.drain ingest i r c.ending
  if i.abandoned then
    r.report (.abandoned c.pid ([Stream.stderr, .stdout].filter i.pending.contains))
  else r

/-- Enters the phase of backing off. -/
def backOff (r : Run) (b : Backoff) : Run :=
  { r with supervisor := { r.supervisor with backoff := b } }.publish .backingOff

def wait (r : Run) (delay : Float) : Run :=
  let r := { r with clock := r.clock + delay, sleeps := r.sleeps + 1 }
  (r.emit (.slept delay)).shutdownIf (r.interruptions.onSleep = some r.sleeps)

/-- The end of a run that was asked for. -/
def finish (r : Run) : Run × Option RunFault := (r.publish .shuttingDown, none)

/-- The end of a run that failed. -/
def fail (r : Run) (fault : RunFault) : Run × Option RunFault :=
  if fault.isForeseen then
    ((r.report (.gaveUp fault)).publish .fatal, some fault)
  else (r, some fault)

/-- Launches the given probers one after another, as long as retries are left and no shutdown is
asked for. A launch after the last of them fails for the given reason, a delay that is no possible
wait for its length. -/
def supervise (reason : String) (cs : List Conduct) (r : Run)
    (canWait : Float → Bool := fun _ => true) : Run × Option RunFault :=
  if r.supervisor.stopping then r.finish
  else
    let r := r.announce
    if r.supervisor.stopping then r.finish
    else
      let r := r.emit (.spawned r.supervisor.command)
      match cs with
      | [] => r.fail (.launch (.cannotStart (r.supervisor.command.headD "") reason))
      | c :: cs =>
        let r := r.start c
        let started := r.clock
        let r := r.watch
        if r.supervisor.stopping then r.finish
        else
          let lifetime := r.clock - started
          let r := r.report (.exited c.code lifetime)
          let r := { r with supervisor := r.supervisor.settle lifetime }
          match r.supervisor.backoff.next with
          | .error fault => r.fail (.backoff fault)
          | .ok (delay, b) =>
            let r := r.backOff b
            if canWait delay then supervise reason cs (r.wait delay) canWait
            else r.fail (.wait delay)

/-- A whole run, with the shutdowns before and after it. -/
def whole (r : Run) (reason : String) (cs : List Conduct)
    (canWait : Float → Bool := fun _ => true) : Run × Option RunFault :=
  let (r, fault) := supervise reason cs (r.shutdownIf r.interruptions.beforeRun) canWait
  (r.shutdownIf r.interruptions.afterRun, fault)

end Run

end EchoMetrics.Supervision
