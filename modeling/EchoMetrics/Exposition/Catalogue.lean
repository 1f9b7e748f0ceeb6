import EchoMetrics.Exposition.Reader
import EchoMetrics.Exposition.Report

/-! # Which series there are

The series of a snapshot, told from what is known of each target and not from the families, and the
order of the lines that head them. -/

namespace EchoMetrics

namespace TargetState

/-- The histograms of a target, by the names of their families. -/
def histograms (t : TargetState) : List (String × Tally) :=
  [ ("fping_icmp_round_trip_time_seconds", t.roundTrip),
    ("fping_instantaneous_packet_delay_variation_seconds", t.variation) ]

/-- The metric names and labels of the series of a target. -/
inductive Exposes (target : String) (t : TargetState) : String → List (String × String) → Prop
  /-- One of each with the current sample. -/
  | sampled {metric : String} (h : t.current.isSome)
      (hm : metric ∈ ["fping_target_transmitted", "fping_target_received",
        "fping_target_loss_ratio", "fping_icmp_request_total", "fping_icmp_reply_total"]) :
      Exposes target t metric [("addr", t.addr.getD ""), ("target", target)]
  | roundTrip {s : Sample} {stat : String} (h : s ∈ t.current) (hr : s.rtt.isSome)
      (hs : stat ∈ ["min", "avg", "max"]) :
      Exposes target t "fping_target_rtt_seconds"
        [("addr", t.addr.getD ""), ("stat", stat), ("target", target)]
  | sequence (h : t.lastSeq.isSome) :
      Exposes target t "fping_last_observed_sequence"
        [("addr", t.addr.getD ""), ("target", target)]
  | bucket {family : String} {tally : Tally} (h : (family, tally) ∈ t.histograms)
      (hc : tally.count ≠ 0) :
      Exposes target t (family ++ "_bucket")
        [("addr", t.addr.getD ""), ("le", "+Inf"), ("target", target)]
  | histogram {family suffix : String} {tally : Tally} (h : (family, tally) ∈ t.histograms)
      (hc : tally.count ≠ 0) (hs : suffix ∈ ["_count", "_sum"]) :
      Exposes target t (family ++ suffix) [("addr", t.addr.getD ""), ("target", target)]
  | error {kind : String} (h : kind ∈ t.errors) :
      Exposes target t "fping_errors_total" [("target", target), ("type", kind)]

end TargetState

/-- The metric names and labels of the series of a snapshot. -/
inductive Snapshot.Exposes (x : Snapshot) : String → List (String × String) → Prop
  | target {name : String} {t : TargetState} {metric : String} {labels : List (String × String)}
      (h : x.targets[name]? = some t) (ht : t.Exposes name metric labels) :
      Exposes x metric labels
  | exporter {metric : String}
      (h : metric ∈ ["fping_exporter_samples_ingested_total", "fping_exporter_parse_errors_total",
        "fping_exporter_prober_restarts_total", "fping_exporter_prober_start_time_seconds",
        "fping_exporter_prober_uptime_seconds"]) :
      Exposes x metric []
  | phase (p : Phase) : Exposes x "fping_exporter_prober_state" [("state", p.name)]
  | version {v : String} (h : x.version = some v) :
      Exposes x "fping_exporter_prober_info" [("version", v)]

namespace Exposition

/-! ## Series -/

namespace Series

/-- What a series is about: its metric and its labels, whatever the address is. -/
def about (s : Series) : String × List (String × String) :=
  (s.name, s.labels.filter fun l => l.1 != "addr")

/-- The target that a series is about. -/
def target? (s : Series) : Option String := s.labels.lookup "target"

/-- What a series keeps count of: its metric, its target and its kind of errors. -/
def subject (s : Series) : String × Option String × Option String :=
  (s.name, s.target?, s.labels.lookup "type")

end Series

/-- All series of a snapshot. -/
def allSeries (x : Snapshot) : List Series := (families x).flatMap (·.series)

/-- The series of a snapshot that keep count of something. -/
def seriesOn (x : Snapshot) (subject : String × Option String × Option String) : List Series :=
  (allSeries x).filter (·.subject = subject)

/-- Whether the series of a family keep count of all that happened. -/
def Kind.accumulates : Kind → Bool
  | .counter | .histogram => true
  | .gauge | .info => false

/-- The metrics that every target has as soon as it has gauges. -/
def summaryNames : List String :=
  ["fping_target_transmitted", "fping_target_received", "fping_target_loss_ratio"]

/-- The gauges that show a sample. -/
def gauges (s : Sample) (addr target : String) : List Series :=
  let labels := [("addr", addr), ("target", target)]
  [ { name := "fping_target_transmitted", labels, value := .count s.transmitted },
    { name := "fping_target_received", labels, value := .count s.received },
    { name := "fping_target_loss_ratio", labels, value := .real s.loss } ] ++
  s.rtt.toList.flatMap fun rtt =>
    [("min", rtt.min), ("avg", rtt.avg), ("max", rtt.max)].map fun p =>
      { name := "fping_target_rtt_seconds"
        labels := [("addr", addr), ("stat", p.1), ("target", target)]
        value := .real (p.2 / 1000.0) }

/-- The metrics that gauges of samples have. -/
def gaugeNames : List String :=
  [ "fping_target_transmitted", "fping_target_received", "fping_target_loss_ratio",
    "fping_target_rtt_seconds" ]

/-! ## Lines -/

namespace Entry

/-- The metric name and the labels of a series. -/
def key? : Entry → Option (String × List (String × String))
  | .series name labels _ => some (name, labels)
  | .help _ _ | .type _ _ => none

/-- The family that a line is the help of. -/
def help? : Entry → Option String
  | .help name _ => some name
  | .type _ _ | .series _ _ _ => none

/-- The family that a line gives the type of. -/
def type? : Entry → Option String
  | .type name _ => some name
  | .help _ _ | .series _ _ _ => none

/-- Whether a line is a gauge of a sample of a target. -/
def isGaugeOf (target : String) : Entry → Bool
  | .series name labels _ => gaugeNames.contains name && labels.lookup "target" = some target
  | .help _ _ | .type _ _ => false

end Entry

/-- The families of every snapshot, in their order, by their exposed names and with their types. -/
def headings : List (String × String) :=
  [ ("fping_target_transmitted", "gauge"), ("fping_target_received", "gauge"),
    ("fping_target_loss_ratio", "gauge"), ("fping_target_rtt_seconds", "gauge"),
    ("fping_icmp_request_total", "counter"), ("fping_icmp_reply_total", "counter"),
    ("fping_last_observed_sequence", "gauge"),
    ("fping_icmp_round_trip_time_seconds", "histogram"),
    ("fping_instantaneous_packet_delay_variation_seconds", "histogram"),
    ("fping_errors_total", "counter"), ("fping_exporter_samples_ingested_total", "counter"),
    ("fping_exporter_parse_errors_total", "counter"),
    ("fping_exporter_prober_restarts_total", "counter"),
    ("fping_exporter_prober_start_time_seconds", "gauge"),
    ("fping_exporter_prober_uptime_seconds", "gauge"), ("fping_exporter_prober_state", "gauge") ]

/-- The family of a snapshot whose version is known. -/
def versionHeading : String × String := ("fping_exporter_prober_info", "gauge")

/-- The metric names that the series of a family may have. -/
def sampleNames (family kind : String) : List String :=
  if kind = "histogram" then [family ++ "_bucket", family ++ "_count", family ++ "_sum"]
  else [family]

/-- Every family has one line of help and one line with its type, and both stand in front of all its
series. -/
structure Headed (es : List Entry) : Prop where
  help_nodup : (es.filterMap Entry.help?).Nodup
  type_eq : es.filterMap Entry.type? = es.filterMap Entry.help?
  series (before after : List Entry) (metric : String) (labels : List (String × String))
    (value : String) (h : es = before ++ .series metric labels value :: after) :
    ∃ family text kind, .help family text ∈ before ∧ .type family kind ∈ before ∧
      metric ∈ sampleNames family kind

end Exposition

end EchoMetrics
