import EchoMetrics.Registry.Basic

/-! # Registries, told from their history

What a registry holds after a list of writes, read off the list as a whole: last entries, counts,
and sums from left to right. -/

namespace EchoMetrics

/-- Writes in the order in which they were made. -/
abbrev History := List Write

/-- The target that a write says something about. -/
def Write.target? : Write → Option String
  | .ingest s => some s.target
  | .error name _ => some name
  | .parseError | .start _ | .restart _ | .phase _ | .version _ => none

namespace History

variable (ws : History) (name : String)

/-- The samples of a target. -/
def samples : List Sample := ws.filterMap fun
  | .ingest s => if s.target = name then some s else none
  | _ => none

def summaries : List Sample := (ws.samples name).filter (·.source = .summary)

def probes : List Sample := (ws.samples name).filter (·.source = .probe)

/-- The round-trip times of single replies, in milliseconds. -/
def replies : List Float := (ws.probes name).filterMap fun s => s.rtt.map (·.avg)

/-- How much each reply differs from the one before. -/
def variations : List Float :=
  (ws.replies name).zipWith (fun last ms => (ms - last).abs) ((ws.replies name).drop 1)

def total (ns : List Nat) : Nat := ns.foldl (· + ·) 0

/-- The sum of durations, in seconds. -/
def seconds (ms : List Float) : Float := ms.foldl (fun sum ms => sum + ms / 1000.0) 0.0

def tally (ms : List Float) : Tally := ⟨ms.length, seconds ms⟩

/-- The kind of each error of a target: the prober's own, and those that come with its probes. -/
def errorKinds : List String := ws.filterMap fun
  | .error name' kind => if name' = name then some kind else none
  | .ingest s =>
    if s.target = name ∧ s.source = .probe ∧ s.error.isSome then some TargetState.icmp else none
  | _ => none

def errors : ErrorCounts :=
  .ofList ((ws.errorKinds name).map fun kind => (kind, (ws.errorKinds name).count kind))

/-- The last address of a target that is not empty. -/
def addr : Option String := ((ws.samples name).filterMap fun s => s.addr.filter (· != "")).getLast?

/-- What is known of a target. -/
def state : TargetState where
  name := name
  addr := ws.addr name
  latest := (ws.samples name).getLast?
  lastSummary := (ws.summaries name).getLast?
  transmittedTotal := total ((ws.summaries name).map (·.transmitted))
  receivedTotal := total ((ws.summaries name).map (·.received))
  lastSeq := ((ws.probes name).filterMap (·.seq)).getLast?
  errors := ws.errors name
  roundTrip := tally (ws.replies name)
  variation := tally (ws.variations name)
  lastReplyMs := (ws.replies name).getLast?

def samplesIngested : Nat := ws.countP fun
  | .ingest _ => true
  | _ => false

def parseErrors : Nat := ws.countP fun
  | .parseError => true
  | _ => false

def restarts : Nat := ws.countP fun
  | .restart _ => true
  | _ => false

/-- When the prober was launched last. -/
def startedAt : Option Float := (ws.filterMap fun
  | .start now | .restart now => some now
  | _ => none).getLast?

def phase : Phase := (ws.filterMap fun
  | .phase p => some p
  | _ => none).getLast?.getD .starting

def version : Option String := (ws.filterMap fun
  | .version v => some v
  | _ => none).getLast?

/-- The registry that the history leads to. -/
def registry : Registry where
  targets := .ofList ((ws.filterMap (·.target?)).map fun name => (name, ws.state name))
  samplesIngested := ws.samplesIngested
  parseErrors := ws.parseErrors
  restarts := ws.restarts
  startedAt := ws.startedAt
  phase := ws.phase
  version := ws.version

end History

end EchoMetrics
