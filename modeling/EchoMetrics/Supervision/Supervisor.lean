import EchoMetrics.Backoff
import EchoMetrics.Registry.Ingest
import EchoMetrics.Settings.Basic

/-! # The supervisor's state

What the supervising thread and the callers of a shutdown share. Every operation is one section
under a lock, or one access to the stop flag. -/

namespace EchoMetrics.Supervision

/-- A launched prober. -/
structure Process where
  pid : Nat
  alive : Bool := true
deriving DecidableEq, Repr

structure Supervisor where
  settings : Settings
  /-- The prober's command line. -/
  command : List String
  registry : Registry := {}
  phase : Phase := .starting
  stopping : Bool := false
  backoff : Backoff
  /-- How many probers were started. -/
  launches : Nat := 0
  /-- All probers that were started, the last one first. -/
  processes : List Process := []

namespace Supervisor

/-- A supervisor for settings. An empty path of the prober stands for the configured one. -/
def ofSettings (s : Settings) (binary : String) (registry : Registry) : Supervisor where
  settings := s
  command := s.command (if binary = "" then s.program else binary)
  registry
  backoff := { base := s.backoffBaseS, cap := s.backoffCapS, maxRetries := s.maxRestarts }

variable (s : Supervisor)

def requestStop : Supervisor := { s with stopping := true }

/-- The phase that is entered instead of the wanted one: after a stop was requested, there is only
the end. -/
def admitted (p : Phase) : Phase := if s.stopping && p != .fatal then .shuttingDown else p

/-- The phase that publishing one changes to; none if it is there already. -/
def change? (p : Phase) : Option Phase :=
  if s.admitted p = s.phase then none else some (s.admitted p)

def enter (p : Phase) : Supervisor := { s with phase := p }

/-- Shows a phase in the registry. -/
def expose (p : Phase) : Supervisor := { s with registry := s.registry.apply (.phase p) }

/-- Enters a phase, or the one that takes its place, and shows it. -/
def publish (p : Phase) : Supervisor :=
  match s.change? p with
  | none => s
  | some p => (s.enter p).expose p

def spawn (pid : Nat) : Supervisor := { s with processes := { pid } :: s.processes }

/-- Shows in the registry that a prober was started: the first one, or another one in its place. -/
def recordLaunch (now : Float) : Supervisor :=
  { s with registry := s.registry.apply (if s.launches = 0 then .start now else .restart now) }

def countLaunch : Supervisor := { s with launches := s.launches + 1 }

def launch (pid : Nat) (now : Float) : Supervisor := ((s.spawn pid).recordLaunch now).countLaunch

/-- The prober that was started last, while it runs. -/
def running? : Option Process := s.processes.head?.filter (·.alive)

/-- The prober that was started last has exited. -/
def reap : Supervisor :=
  { s with processes := s.processes.modifyHead fun p => { p with alive := false } }

/-- Applies a line of the prober's output. -/
def ingest (now : Float) (line : String) : Supervisor :=
  { s with registry := s.registry.ingest now line }

/-- Restores the budget of retries after a stable run. -/
def settle (lifetime : Float) : Supervisor :=
  if s.settings.stabilityThreshold ≤ lifetime then { s with backoff := s.backoff.reset } else s

@[simp] theorem stopping_publish (p : Phase) : (s.publish p).stopping = s.stopping := by
  simp only [publish]; split <;> rfl

@[simp] theorem phase_publish (p : Phase) : (s.publish p).phase = s.admitted p := by
  simp only [publish, change?]
  split
  · rename_i h
    split at h
    · rename_i h'
      exact h'.symm
    · simp at h
  · rename_i h
    split at h
    · simp at h
    · simpa [enter, expose] using h.symm

@[simp] theorem processes_publish (p : Phase) : (s.publish p).processes = s.processes := by
  simp only [publish]; split <;> rfl

@[simp] theorem launches_publish (p : Phase) : (s.publish p).launches = s.launches := by
  simp only [publish]; split <;> rfl

@[simp] theorem running?_reap : s.reap.running? = none := by
  rw [running?, reap, List.head?_modifyHead]
  cases s.processes.head? <;> rfl

theorem settle_eq (l : Float) : s.settle l = { s with backoff := (s.settle l).backoff } := by
  rw [settle]
  split <;> rfl

theorem restarts_recordLaunch (now : Float) :
    (s.recordLaunch now).registry.restarts =
      s.registry.restarts + if s.launches = 0 then 0 else 1 := by
  rw [recordLaunch]
  split <;> rfl

@[simp] theorem phase_recordLaunch (now : Float) :
    (s.recordLaunch now).registry.phase = s.registry.phase := by
  rw [recordLaunch]
  split <;> rfl

end Supervisor

end EchoMetrics.Supervision
