import EchoMetrics.Steps
import EchoMetrics.Supervision.Journal
import EchoMetrics.Supervision.Supervisor

/-! # Supervision and shutdown as threads

One thread supervises, any number of others ask for a shutdown. They share the supervisor, its stop
flag and two locks: one is held while a phase is entered, the other while a prober is launched or
ended. A step is one access of one thread to what they share, or the exit of a prober. -/

namespace EchoMetrics.Supervision

/-- How far a thread is in entering a phase. It holds the lock once the phase is decided on. -/
inductive Entering
  | waiting
  | decided (p : Phase)
  | entered (p : Phase)
deriving DecidableEq, Repr

def Entering.holds : Entering → Bool
  | .waiting => false
  | .decided _ | .entered _ => true

/-- How far the supervising thread is in launching a prober. It holds the lock once it has stopped
waiting. -/
inductive Launch
  | waiting
  | checking
  | spawning
  | recording
  | counting
deriving DecidableEq, Repr

def Launch.holds : Launch → Bool
  | .waiting => false
  | .checking | .spawning | .recording | .counting => true

/-- What the supervising thread enters a phase for. -/
inductive Goal
  | launch
  | watch
  | rest (delay : Float)
  | fail (fault : RunFault)
  | finish
deriving DecidableEq

def Goal.phase : Goal → Phase
  | .launch => .starting
  | .watch => .running
  | .rest _ => .backingOff
  | .fail _ => .fatal
  | .finish => .shuttingDown

/-- How far the supervising thread is. -/
inductive Runner
  /-- It is about to look at the stop flag. -/
  | checking
  | entering (g : Goal) (e : Entering)
  | launching (l : Launch)
  /-- It takes in the output of the running prober. -/
  | watching
  /-- The prober has exited after so long, and the stop flag is about to be looked at. -/
  | judging (lifetime : Float)
  | sleeping (delay : Float)
  | ended (fault : Option RunFault)
deriving DecidableEq

/-- What comes after the phase was entered. -/
def Goal.next : Goal → Runner
  | .launch => .launching .waiting
  | .watch => .watching
  | .rest d => .sleeping d
  | .fail f => .ended (some f)
  | .finish => .ended none

/-- How far a thread is that asks for a shutdown. -/
inductive Stopper
  /-- It is about to set the stop flag. -/
  | flagging
  | entering (e : Entering)
  /-- It waits for the lock on the prober. -/
  | waiting
  /-- It holds the lock, and is about to end the prober if there is one. -/
  | ending
  /-- It holds the lock, and there is no running prober. -/
  | leaving
  | returned
deriving DecidableEq, Repr

def Runner.entersPhase : Runner → Bool
  | .entering _ e => e.holds
  | _ => false

def Stopper.entersPhase : Stopper → Bool
  | .entering e => e.holds
  | _ => false

def Runner.holdsProber : Runner → Bool
  | .launching l => l.holds
  | _ => false

def Stopper.holdsProber : Stopper → Bool
  | .ending | .leaving => true
  | _ => false

/-- All threads and what they share. -/
structure Threads where
  supervisor : Supervisor
  runner : Runner := .checking
  stoppers : List Stopper := []
  /-- The phases that the registry has shown, in their order. -/
  shown : List Phase := []

namespace Threads

/-- No thread is entering a phase. -/
def PhaseFree (t : Threads) : Prop :=
  t.runner.entersPhase = false ∧ ∀ s ∈ t.stoppers, s.entersPhase = false

/-- No thread is launching or ending a prober. -/
def ProberFree (t : Threads) : Prop :=
  t.runner.holdsProber = false ∧ ∀ s ∈ t.stoppers, s.holdsProber = false

/-- What becomes of the supervising thread once it has the lock on the phase. -/
def decide (t : Threads) (g : Goal) : Runner :=
  match t.supervisor.change? g.phase with
  | some p => .entering g (.decided p)
  | none => g.next

/-- What becomes of a stopping thread once it has the lock on the phase. -/
def decideStop (t : Threads) : Stopper :=
  match t.supervisor.change? .shuttingDown with
  | some p => .entering (.decided p)
  | none => .waiting

/-- Goes on after an exit that nobody asked for. -/
def judge (t : Threads) (lifetime : Float) : Threads :=
  let s := t.supervisor.settle lifetime
  match s.backoff.next with
  | .ok (d, b) =>
    { t with supervisor := { s with backoff := b }, runner := .entering (.rest d) .waiting }
  | .error f =>
    { t with
      supervisor := s
      runner := if (RunFault.backoff f).isForeseen then .entering (.fail (.backoff f)) .waiting
        else .ended (some (.backoff f)) }

/-- A step of the supervising thread. -/
inductive RunStep (t : Threads) : Threads → Prop
  | begin (h : t.runner = .checking) (hs : t.supervisor.stopping = false) :
      RunStep t { t with runner := .entering .launch .waiting }
  | quit (h : t.runner = .checking) (hs : t.supervisor.stopping = true) :
      RunStep t { t with runner := .entering .finish .waiting }
  | decide {g : Goal} (h : t.runner = .entering g .waiting) (hf : t.PhaseFree) :
      RunStep t { t with runner := t.decide g }
  | enter {g : Goal} {p : Phase} (h : t.runner = .entering g (.decided p)) :
      RunStep t { t with supervisor := t.supervisor.enter p, runner := .entering g (.entered p) }
  | expose {g : Goal} {p : Phase} (h : t.runner = .entering g (.entered p)) :
      RunStep t { t with
        supervisor := t.supervisor.expose p, runner := g.next, shown := t.shown ++ [p] }
  | lock (h : t.runner = .launching .waiting) (hf : t.ProberFree) :
      RunStep t { t with runner := .launching .checking }
  | allow (h : t.runner = .launching .checking) (hs : t.supervisor.stopping = false) :
      RunStep t { t with runner := .launching .spawning }
  | refuse (h : t.runner = .launching .checking) (hs : t.supervisor.stopping = true) :
      RunStep t { t with runner := .entering .finish .waiting }
  | spawn (pid : Nat) (h : t.runner = .launching .spawning) :
      RunStep t { t with supervisor := t.supervisor.spawn pid, runner := .launching .recording }
  | spawnFails (f : Prober.Fault) (h : t.runner = .launching .spawning) :
      RunStep t { t with runner := .entering (.fail (.launch f)) .waiting }
  | record (now : Float) (h : t.runner = .launching .recording) :
      RunStep t { t with
        supervisor := t.supervisor.recordLaunch now, runner := .launching .counting }
  | count (h : t.runner = .launching .counting) :
      RunStep t { t with
        supervisor := t.supervisor.countLaunch, runner := .entering .watch .waiting }
  | ingest (now : Float) (line : String) (h : t.runner = .watching) :
      RunStep t { t with supervisor := t.supervisor.ingest now line }
  | collect (lifetime : Float) (h : t.runner = .watching) (hr : t.supervisor.running? = none) :
      RunStep t { t with runner := .judging lifetime }
  | judge {lifetime : Float} (h : t.runner = .judging lifetime)
      (hs : t.supervisor.stopping = false) : RunStep t (t.judge lifetime)
  | excuse {lifetime : Float} (h : t.runner = .judging lifetime)
      (hs : t.supervisor.stopping = true) :
      RunStep t { t with runner := .entering .finish .waiting }
  /-- The delay is over. -/
  | wake {delay : Float} (h : t.runner = .sleeping delay) : RunStep t { t with runner := .checking }
  | rouse {delay : Float} (h : t.runner = .sleeping delay) (hs : t.supervisor.stopping = true) :
      RunStep t { t with runner := .entering .finish .waiting }
  /-- There is no waiting for so long. -/
  | sleepFails {delay : Float} (h : t.runner = .sleeping delay) :
      RunStep t { t with runner := .ended (some (.wait delay)) }

/-- A step of the stopping thread at a place. -/
inductive StopStep (t : Threads) (i : Nat) : Threads → Prop
  | flag (h : t.stoppers[i]? = some .flagging) :
      StopStep t i { t with
        supervisor := t.supervisor.requestStop, stoppers := t.stoppers.set i (.entering .waiting) }
  | decide (h : t.stoppers[i]? = some (.entering .waiting)) (hf : t.PhaseFree) :
      StopStep t i { t with stoppers := t.stoppers.set i t.decideStop }
  | enter {p : Phase} (h : t.stoppers[i]? = some (.entering (.decided p))) :
      StopStep t i { t with
        supervisor := t.supervisor.enter p, stoppers := t.stoppers.set i (.entering (.entered p)) }
  | expose {p : Phase} (h : t.stoppers[i]? = some (.entering (.entered p))) :
      StopStep t i { t with
        supervisor := t.supervisor.expose p, stoppers := t.stoppers.set i .waiting
        shown := t.shown ++ [p] }
  | lock (h : t.stoppers[i]? = some .waiting) (hf : t.ProberFree) :
      StopStep t i { t with stoppers := t.stoppers.set i .ending }
  | reap (h : t.stoppers[i]? = some .ending) :
      StopStep t i { t with
        supervisor := t.supervisor.reap, stoppers := t.stoppers.set i .leaving }
  | leave (h : t.stoppers[i]? = some .leaving) :
      StopStep t i { t with stoppers := t.stoppers.set i .returned }

/-- A step of what is under way. -/
inductive Work (t : Threads) : Threads → Prop
  | run {t' : Threads} (h : RunStep t t') : Work t t'
  | stop {t' : Threads} (i : Nat) (h : StopStep t i t') : Work t t'
  /-- The running prober exits. -/
  | exit {p : Process} (h : t.supervisor.running? = some p) :
      Work t { t with supervisor := t.supervisor.reap }

inductive Step (t : Threads) : Threads → Prop
  | work {t' : Threads} (h : Work t t') : Step t t'
  /-- Another thread asks for a shutdown. -/
  | call : Step t { t with stoppers := t.stoppers ++ [.flagging] }

/-- What can come of threads. -/
abbrev Reachable : Threads → Threads → Prop := Steps Step

end Threads

end EchoMetrics.Supervision
