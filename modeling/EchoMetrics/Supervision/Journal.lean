import EchoMetrics.Backoff
import EchoMetrics.Decimal.Form
import EchoMetrics.Logging
import EchoMetrics.Prober.Fault
import EchoMetrics.Registry.Ingest

/-! # What can be seen of a run -/

namespace EchoMetrics.Supervision

/-- Why a run ends in failure. -/
inductive RunFault
  | launch (f : Prober.Fault)
  | backoff (f : Backoff.Fault)
  /-- There is no waiting for so long. -/
  | wait (delay : Float)
deriving DecidableEq

/-- What is said of a wait that is too long. -/
def waitRefusal : String := "timestamp too large to convert to C _PyTime_t"

def RunFault.message : RunFault → String
  | .launch f => f.message
  | .backoff f => f.message
  | .wait _ => waitRefusal

/-- Whether the supervisor gives up in an orderly way. -/
def RunFault.isForeseen : RunFault → Bool
  | .launch _ | .backoff (.exhausted _) => true
  | .backoff .factorTooLarge | .wait _ => false

/-- What a supervisor reports. -/
inductive Report
  /-- What the prober says, other than measurements. -/
  | said (text : String)
  | exited (code : Int) (lifetime : Float)
  /-- A prober is killed, since it did not end by itself. -/
  | ignoredTerm (pid : Nat) (grace : Float)
  /-- Streams that something else keeps open are given up. -/
  | abandoned (pid : Nat) (streams : List Stream)
  | gaveUp (fault : RunFault)
deriving DecidableEq

/-- How long the drain waits for output after the exit, in seconds. -/
def drainTimeout : Float := 1.0

namespace Report

def seconds (x : Float) : String := Decimal.writeFixed 1 x ++ "s"

def text : Report → String
  | .said text => text
  | .exited code lifetime =>
    "fping exited with code " ++ toString code ++ " after " ++ seconds lifetime
  | .ignoredTerm pid grace =>
    "fping (pid " ++ toString pid ++ ") ignored SIGTERM for " ++ seconds grace ++ ", killing it"
  | .abandoned pid streams =>
    "fping output still open " ++ seconds drainTimeout ++ " after exit, abandoning " ++
      ", ".intercalate (streams.map fun s => "fping-" ++ s.name ++ "-" ++ toString pid)
  | .gaveUp fault => "giving up on fping: " ++ fault.message

def severity : Report → Logging.Severity
  | .gaveUp _ => .error
  | .said _ | .exited _ _ | .ignoredTerm _ _ | .abandoned _ _ => .warning

def message (r : Report) : Logging.Message := ⟨r.severity, r.text⟩

end Report

inductive Signal
  | term
  | kill
deriving DecidableEq, Repr

def Signal.name : Signal → String
  | .term => "TERM"
  | .kill => "KILL"

inductive Event
  | spawned (command : List String)
  | phase (p : Phase)
  | line (stream : Stream) (samplesIngested parseErrors targets : Nat)
  | slept (delay : Float)
  | signal (s : Signal) (descendant : Option String)
  | reported (r : Report)
deriving DecidableEq

/-- The events of a run, in their order. -/
abbrev Journal := List Event

namespace Journal

/-- How often a launch was tried. -/
def spawns (j : Journal) : Nat := j.countP fun
  | .spawned _ => true
  | _ => false

/-- The delays that were slept through. -/
def delays (j : Journal) : List Float := j.filterMap fun
  | .slept d => some d
  | _ => none

/-- How long the probers lived whose exit was not asked for. -/
def lifetimes (j : Journal) : List Float := j.filterMap fun
  | .reported (.exited _ l) => some l
  | _ => none

/-- The phases that were entered. -/
def phases (j : Journal) : List Phase := j.filterMap fun
  | .phase p => some p
  | _ => none

end Journal

end EchoMetrics.Supervision
