import EchoMetrics.Field.Check

/-! # Settings

How the prober is run, where its measurements are served and when its supervision gives up. -/

namespace EchoMetrics

structure Settings where
  /-- The prober: a path, or a name to look up. -/
  program : String := "fping"
  targets : List String := []
  periodMs : Nat := 1000
  summaryIntervalS : Nat := 10
  versionTimeoutS : Float := 2.0
  metricsHost : String := "0.0.0.0"
  metricsPort : Nat := 9775
  metricsPath : String := "/metrics"
  backoffBaseS : Float := 1.0
  backoffCapS : Float := 30.0
  /-- Unstable restarts in a row before supervision gives up. -/
  maxRestarts : Nat := 5
  stabilityThresholdS : Option Float := none
  shutdownGraceS : Float := 5.0
  shutdownTimeoutS : Float := 10.0
  runtimeLimitS : Option Float := none
  logLevel : String := "INFO"
deriving DecidableEq

namespace Settings

/-- The rules on targets and paths, and the one that relates two fields. -/
inductive Rule
  | invalidTarget (target : String)
  | flagTarget (target : String)
  | emptyPath
  | capBelowBase
deriving DecidableEq, Repr

def Rule.message : Rule → String
  | .invalidTarget t => "invalid target " ++ Text.quoted t
  | .flagTarget t => "target " ++ Text.quoted t ++ " would be read as an fping flag"
  | .emptyPath => "metrics_path must not be empty or '/'"
  | .capBelowBase => "backoff_cap_s must not be smaller than backoff_base_s"

abbrev Fault := EchoMetrics.Fault Rule

/-- What is wrong with a target. A dash in front would make the prober read it as a flag. -/
def targetFault? (t : String) : Option Rule :=
  if t = "" || t.toList.any Text.isBlank then some (.invalidTarget t)
  else if t.toList.head? = some '-' then some (.flagTarget t)
  else none

/-- The list itself, or what is wrong with the first target that has a fault. -/
def checkTargets (ts : List String) : Except Rule (List String) :=
  match ts.findSome? targetFault? with
  | some rule => .error rule
  | none => .ok ts

/-- The path with one slash in front of it and none behind. -/
def checkPath (path : String) : Except Rule String :=
  match Text.trimBy (· == '/') (Text.trimBy Text.isBlank path.toList) with
  | [] => .error .emptyPath
  | cs => .ok (String.ofList ('/' :: cs))

def checkBackoff (s : Settings) : Except Rule Settings :=
  if s.backoffCapS < s.backoffBaseS then .error .capBelowBase else .ok s

/-- Reads the fields, in the order in which their faults are reported. -/
def fields (r : Record) : Checked Rule Settings :=
  let positive := fun v => Check.float v >>= Check.positive
  let nonnegative := fun v => Check.float v >>= Check.nonnegative
  let default : Settings := {}
  Settings.mk <$> r.withDefault "fping_bin" default.program Check.text
    <*> r.texts "targets" checkTargets
    <*> r.withDefault "period_ms" default.periodMs (Check.count 1)
    <*> r.withDefault "summary_interval_s" default.summaryIntervalS (Check.count 1)
    <*> r.withDefault "version_timeout_s" default.versionTimeoutS positive
    <*> r.withDefault "metrics_host" default.metricsHost Check.text
    <*> r.withDefault "metrics_port" default.metricsPort
      (fun v => Check.int v >>= Check.atMost 65535 >>= Check.atLeast 1)
    <*> r.withDefault "metrics_path" default.metricsPath
      (fun v => Check.text v >>= fun p => (checkPath p).mapError .broken)
    <*> r.withDefault "backoff_base_s" default.backoffBaseS positive
    <*> r.withDefault "backoff_cap_s" default.backoffCapS positive
    <*> r.withDefault "max_restarts" default.maxRestarts (Check.count 0)
    <*> r.optional "stability_threshold_s" positive
    <*> r.withDefault "shutdown_grace_s" default.shutdownGraceS nonnegative
    <*> r.withDefault "shutdown_timeout_s" default.shutdownTimeoutS nonnegative
    <*> r.optional "runtime_limit_s" positive
    <*> r.withDefault "log_level" default.logLevel Check.text

/-- Builds settings from untyped fields, or reports every field that is refused. -/
def ofRecord (r : Record) : Except (List Fault) Settings :=
  ((fields r).andThen checkBackoff).toExcept

def toRecord (s : Settings) : Record :=
  [ ("fping_bin", .text s.program),
    ("targets", .list (s.targets.map .text)),
    ("period_ms", .int s.periodMs),
    ("summary_interval_s", .int s.summaryIntervalS),
    ("version_timeout_s", .float s.versionTimeoutS),
    ("metrics_host", .text s.metricsHost),
    ("metrics_port", .int s.metricsPort),
    ("metrics_path", .text s.metricsPath),
    ("backoff_base_s", .float s.backoffBaseS),
    ("backoff_cap_s", .float s.backoffCapS),
    ("max_restarts", .int s.maxRestarts),
    ("stability_threshold_s", .ofOption .float s.stabilityThresholdS),
    ("shutdown_grace_s", .float s.shutdownGraceS),
    ("shutdown_timeout_s", .float s.shutdownTimeoutS),
    ("runtime_limit_s", .ofOption .float s.runtimeLimitS),
    ("log_level", .text s.logLevel) ]

/-- How long a prober has to run to count as stable. -/
def stabilityThreshold (s : Settings) : Float := s.stabilityThresholdS.getD s.backoffCapS

/-- The prober's command line: loop mode with stamps and interval summaries, the targets last. -/
def command (s : Settings) (binary : String) : List String :=
  [binary, "-l", "-D", "-p", toString s.periodMs, "-Q", toString s.summaryIntervalS] ++ s.targets

end Settings

end EchoMetrics
