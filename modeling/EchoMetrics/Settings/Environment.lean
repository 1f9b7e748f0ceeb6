import EchoMetrics.Settings.Basic

/-! # Settings from the environment -/

namespace EchoMetrics

/-- The variables that are set; at most one value for each name. -/
abbrev Environment := List (String × String)

namespace Settings

/-- The field that each variable sets. -/
def fieldVariables : List (String × String) :=
  [ ("FPING_BIN", "fping_bin"),
    ("FPING_PERIOD_MS", "period_ms"),
    ("FPING_SUMMARY_INTERVAL_S", "summary_interval_s"),
    ("VERSION_TIMEOUT_S", "version_timeout_s"),
    ("METRICS_HOST", "metrics_host"),
    ("METRICS_PORT", "metrics_port"),
    ("METRICS_PATH", "metrics_path"),
    ("BACKOFF_BASE_S", "backoff_base_s"),
    ("BACKOFF_CAP_S", "backoff_cap_s"),
    ("MAX_RESTARTS", "max_restarts"),
    ("STABILITY_THRESHOLD_S", "stability_threshold_s"),
    ("SHUTDOWN_GRACE_S", "shutdown_grace_s"),
    ("SHUTDOWN_TIMEOUT_S", "shutdown_timeout_s"),
    ("RUNTIME_LIMIT_S", "runtime_limit_s"),
    ("LOG_LEVEL", "log_level") ]

/-- The pieces between commas, trimmed; blank pieces are left out. -/
def targetList (s : String) : List String :=
  ((Text.pieces (· == ',') s.toList).map (Text.trimBy Text.isBlank)).filterMap fun cs =>
    if cs.isEmpty then none else some (String.ofList cs)

/-- The fields that the environment sets. An empty variable sets nothing. -/
def recordOfEnvironment (env : Environment) : Record :=
  fieldVariables.filterMap (fun (name, field) =>
      match env.lookup name with
      | some s => if s = "" then none else some (field, .text s)
      | none => none) ++
    [("targets", .list ((targetList ((env.lookup "FPING_TARGETS").getD "")).map .text))]

def ofEnvironment (env : Environment) : Except (List Fault) Settings :=
  ofRecord (recordOfEnvironment env)

/-- Reads the environments one after another until one of them gives settings, which stay. -/
def cached : Option Settings → List Environment → List (Except (List Fault) Settings)
  | _, [] => []
  | some s, _ :: envs => .ok s :: cached (some s) envs
  | none, env :: envs =>
    let result := ofEnvironment env
    result :: cached result.toOption envs

end Settings

end EchoMetrics
