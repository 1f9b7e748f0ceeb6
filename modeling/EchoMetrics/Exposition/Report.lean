import EchoMetrics.Exposition.Family
import EchoMetrics.Registry.Basic

/-! # The families of a snapshot -/

namespace EchoMetrics.Exposition

/-- The labels that the series of a target have. -/
def hostLabels (t : TargetState) : List (String × String) :=
  [("addr", t.addr.getD ""), ("target", t.name)]

/-- A gauge or counter of each target that has a value for it. -/
def perTarget (kind : Kind) (name help : String) (value : TargetState → Option Value)
    (targets : List TargetState) : Family :=
  { kind, name, help
    series := targets.filterMap fun t =>
      (value t).map fun value =>
        { name := name ++ kind.suffix, labels := hostLabels t, value } }

/-- A histogram with a single bucket of each target that has durations. -/
def durations (name help : String) (tally : TargetState → Tally)
    (targets : List TargetState) : Family :=
  { kind := .histogram, name, help
    series := targets.flatMap fun t =>
      if t.current.isNone || (tally t).count = 0 then []
      else
        let labels := hostLabels t
        [ { name := name ++ "_bucket"
            labels := [("addr", t.addr.getD ""), ("le", "+Inf"), ("target", t.name)]
            value := .count (tally t).count },
          { name := name ++ "_count", labels, value := .count (tally t).count },
          { name := name ++ "_sum", labels, value := .real (tally t).seconds } ] }

/-- The round-trip times of the current sample of each target, in seconds. -/
def roundTrips (targets : List TargetState) : Family :=
  let name := "fping_target_rtt_seconds"
  { kind := .gauge, name
    help := "Round-trip time of the latest interval summary, absent when nothing was received"
    series := targets.flatMap fun t =>
      match t.current.bind (·.rtt) with
      | none => []
      | some rtt =>
        [("min", rtt.min), ("avg", rtt.avg), ("max", rtt.max)].map fun (stat, ms) =>
          { name, labels := [("addr", t.addr.getD ""), ("stat", stat), ("target", t.name)]
            value := .real (ms / 1000.0) } }

def errors (targets : List TargetState) : Family :=
  let name := "fping_errors"
  { kind := .counter, name, help := "Errors reported by fping, by type (fping or icmp)"
    series := targets.flatMap fun t =>
      t.errors.toList.map fun (kind, n) =>
        { name := name ++ "_total", labels := [("target", t.name), ("type", kind)]
          value := .count n } }

/-- What of a target is exposed only once it has a sample. -/
def sampled (f : TargetState → Option Value) (t : TargetState) : Option Value :=
  t.current.bind fun _ => f t

def targetFamilies (targets : List TargetState) : List Family :=
  [ perTarget .gauge "fping_target_transmitted"
      "ICMP echo requests in the latest interval summary for this target"
      (fun t => t.current.map fun s => .count s.transmitted) targets,
    perTarget .gauge "fping_target_received"
      "ICMP echo replies in the latest interval summary for this target"
      (fun t => t.current.map fun s => .count s.received) targets,
    perTarget .gauge "fping_target_loss_ratio"
      "Packet loss ratio (0-1) of the latest interval summary for this target"
      (fun t => t.current.map fun s => .real s.loss) targets,
    roundTrips targets,
    perTarget .counter "fping_icmp_request"
      "ICMP ECHO REQUEST sent, summed over fping interval summaries"
      (sampled fun t => some (.count t.transmittedTotal)) targets,
    perTarget .counter "fping_icmp_reply"
      "ICMP ECHO REPLY received, summed over fping interval summaries"
      (sampled fun t => some (.count t.receivedTotal)) targets,
    perTarget .gauge "fping_last_observed_sequence"
      "Last ICMP sequence number returned by fping"
      (sampled fun t => t.lastSeq.map .count) targets,
    durations "fping_icmp_round_trip_time_seconds"
      "ICMP echo round-trip time of single probe replies" (·.roundTrip) targets,
    durations "fping_instantaneous_packet_delay_variation_seconds"
      "Packet delay variation between two successive probe replies" (·.variation) targets,
    errors targets ]

/-- A family with a single series and no labels. -/
def single (kind : Kind) (name help : String) (value : Value) : Family :=
  { kind, name, help, series := [{ name := name ++ kind.suffix, value }] }

/-- When the prober was started, or zero if it was not. A negative zero counts as zero. -/
def startTime (s : Snapshot) : Float :=
  match s.startedAt with
  | some x => if x == 0.0 then 0.0 else x
  | none => 0.0

def exporterFamilies (s : Snapshot) : List Family :=
  [ single .counter "fping_exporter_samples_ingested"
      "Samples parsed from fping output and applied to the registry" (.count s.samplesIngested),
    single .counter "fping_exporter_parse_errors"
      "fping output lines that could not be parsed" (.count s.parseErrors),
    single .counter "fping_exporter_prober_restarts"
      "Times the fping process was restarted after exiting" (.count s.restarts),
    single .gauge "fping_exporter_prober_start_time_seconds"
      "Unix time the current fping process was started" (.real (startTime s)),
    single .gauge "fping_exporter_prober_uptime_seconds"
      "Seconds the current fping process has been running" (.real s.uptime),
    { kind := .gauge, name := "fping_exporter_prober_state"
      help := "Lifecycle state of the fping process (1 for the current state)"
      series := Phase.all.map fun p =>
        { name := "fping_exporter_prober_state", labels := [("state", p.name)]
          value := .real (if p = s.phase then 1.0 else 0.0) } } ] ++
  (s.version.toList.map fun v =>
    { kind := .info, name := "fping_exporter_prober", help := "Version of the fping binary in use"
      series := [{ name := "fping_exporter_prober_info", labels := [("version", v)]
                   value := .real 1.0 }] })

def families (s : Snapshot) : List Family := targetFamilies s.states ++ exporterFamilies s

/-- Why a snapshot is not rendered. Only the first kind is foreseen. -/
inductive RenderFault
  | refused (reason : String)
  | unforeseen (cause : EncodingFault)
deriving DecidableEq, Repr

def RenderFault.message : RenderFault → String
  | .refused reason => "failed to render metrics: " ++ reason
  | .unforeseen cause => cause.message

def RenderFault.ofEncoding : EncodingFault → RenderFault
  | .invalidValue reason | .invalidType reason => .refused reason
  | cause => .unforeseen cause

/-- The exposition of a snapshot, written by a given encoder. -/
def renderWith (encoder : List Family → Except EncodingFault String) (s : Snapshot) :
    Except RenderFault String :=
  (encoder (families s)).mapError .ofEncoding

def render (s : Snapshot) : Except RenderFault String := renderWith encode s

end EchoMetrics.Exposition
