import EchoMetrics.Registry.Target

/-! # The registry

The latest measurements of every target and the counters of the whole exporter. It changes by writes
only, one at a time; everyone else looks at snapshots. -/

namespace EchoMetrics

/-- The lifecycle of the supervised prober. -/
inductive Phase
  | starting
  | running
  | backingOff
  | fatal
  | shuttingDown
deriving DecidableEq, Repr

namespace Phase

def name : Phase → String
  | .starting => "starting"
  | .running => "running"
  | .backingOff => "backing_off"
  | .fatal => "fatal"
  | .shuttingDown => "shutting_down"

def all : List Phase := [.starting, .running, .backingOff, .fatal, .shuttingDown]

def ofName? (s : String) : Option Phase := all.find? (·.name == s)

@[simp] theorem ofName?_name (p : Phase) : ofName? p.name = some p := by cases p <;> decide

theorem mem_all (p : Phase) : p ∈ all := by cases p <;> decide

end Phase

structure Registry where
  targets : Std.ExtTreeMap String TargetState := ∅
  samplesIngested : Nat := 0
  parseErrors : Nat := 0
  restarts : Nat := 0
  /-- When the running prober was launched, in seconds since the epoch. -/
  startedAt : Option Float := none
  phase : Phase := .starting
  version : Option String := none

/-- A change to the registry. -/
inductive Write
  | ingest (s : Sample)
  | error (target kind : String)
  | parseError
  | start (now : Float)
  | restart (now : Float)
  | phase (p : Phase)
  | version (v : String)
deriving DecidableEq

namespace Registry

/-- What is known of a target; nothing but its name at first. -/
def target (r : Registry) (name : String) : TargetState := r.targets[name]?.getD { name }

def update (r : Registry) (name : String) (f : TargetState → TargetState) : Registry :=
  { r with targets := r.targets.insert name (f (r.target name)) }

def apply (r : Registry) : Write → Registry
  | .ingest s =>
    let r := r.update s.target (·.ingest s)
    { r with samplesIngested := r.samplesIngested + 1 }
  | .error name kind => r.update name (·.countError kind)
  | .parseError => { r with parseErrors := r.parseErrors + 1 }
  | .start now => { r with startedAt := some now }
  | .restart now => { r with restarts := r.restarts + 1, startedAt := some now }
  | .phase p => { r with phase := p }
  | .version v => { r with version := some v }

/-- The registry after a history of writes. -/
def replay (r : Registry) (ws : List Write) : Registry := ws.foldl apply r

@[simp] theorem replay_nil (r : Registry) : r.replay [] = r := rfl
@[simp] theorem replay_cons (r : Registry) (w : Write) (ws : List Write) :
    r.replay (w :: ws) = (r.apply w).replay ws := rfl
@[simp] theorem replay_append (r : Registry) (ws ws' : List Write) :
    r.replay (ws ++ ws') = (r.replay ws).replay ws' := List.foldl_append ..

theorem target_update_self (r : Registry) (name : String) (f : TargetState → TargetState) :
    (r.update name f).target name = f (r.target name) := by
  simp [update, target]

end Registry

/-- The registry at one point in time. -/
structure Snapshot extends Registry where
  takenAt : Float

namespace Snapshot

/-- The targets with what is known of them, by name. -/
def targetList (s : Snapshot) : List (String × TargetState) := s.targets.toList

/-- What is known of the targets, in the order of the names that it is kept under. -/
def states (s : Snapshot) : List TargetState := s.targetList.map Prod.snd

theorem mem_states_iff {s : Snapshot} {t : TargetState} :
    t ∈ s.states ↔ ∃ name : String, s.targets[name]? = some t := by
  simp only [states, targetList, List.mem_map, Prod.exists, exists_eq_right,
    Std.ExtTreeMap.mem_toList_iff_getElem?_eq_some]

/-- How long the prober has been running; never negative, even if the clock was set back. -/
def uptime (s : Snapshot) : Float :=
  match s.startedAt with
  | none => 0.0
  | some started =>
    let d := s.takenAt - started
    if 0.0 < d then d else 0.0

end Snapshot

def Registry.snapshot (r : Registry) (now : Float) : Snapshot := { r with takenAt := now }

end EchoMetrics
