import EchoMetrics.Proofs.Field.Check
import EchoMetrics.Proofs.Text.Blank
import EchoMetrics.Settings.Load

/-! # What accepted settings satisfy

Main statement: accepted settings satisfy all rules on their fields. -/

namespace EchoMetrics

namespace Settings

variable {r : Record} {s : Settings}

/-- A path with one slash in front of it and none behind. -/
def Rooted (path : String) : Prop :=
  ∃ cs, path = String.ofList ('/' :: cs) ∧ (∀ c ∈ cs.head?, (c == '/') = false) ∧
    Text.EndsWithout (· == '/') cs

theorem rooted_of_checkPath {raw path : String} (h : checkPath raw = .ok path) : Rooted path := by
  rw [checkPath] at h
  split at h
  · cases h
  · rename_i hne
    obtain rfl := Except.ok.inj h
    exact ⟨_, rfl, fun _ => Text.not_head?_trimBy, Text.endsWithout_trimBy hne⟩

theorem targetFault?_of_checkTargets {ts ts' : List String} (h : checkTargets ts = .ok ts') :
    ∀ t ∈ ts', targetFault? t = none := by
  rw [checkTargets] at h
  split at h
  · cases h
  · rename_i hnone
    cases h
    exact List.findSome?_eq_none_iff.1 hnone

/-- The rules on settings. -/
structure Valid (s : Settings) : Prop where
  targets : ∀ t ∈ s.targets, targetFault? t = none
  period : 1 ≤ s.periodMs
  summaryInterval : 1 ≤ s.summaryIntervalS
  versionTimeout : 0.0 < s.versionTimeoutS
  one_le_port : 1 ≤ s.metricsPort
  port_le : s.metricsPort ≤ 65535
  path : Rooted s.metricsPath
  backoffBase : 0.0 < s.backoffBaseS
  backoffCap : 0.0 < s.backoffCapS
  stabilityThreshold : ∀ x ∈ s.stabilityThresholdS, 0.0 < x
  shutdownGrace : 0.0 ≤ s.shutdownGraceS
  shutdownTimeout : 0.0 ≤ s.shutdownTimeoutS
  runtimeLimit : ∀ x ∈ s.runtimeLimitS, 0.0 < x
  backoff : ¬ s.backoffCapS < s.backoffBaseS

theorem port_of_check {v : Value} {n : Nat}
    (h : (Check.int v >>= Check.atMost 65535 >>= Check.atLeast 1 : Check Rule Nat) = .ok n) :
    1 ≤ n ∧ n ≤ 65535 := by
  obtain ⟨m, hm, h⟩ := bind_eq_ok_iff.1 h
  obtain ⟨_, -, hm⟩ := bind_eq_ok_iff.1 hm
  obtain ⟨hn, rfl⟩ := Check.atLeast_eq_ok_iff.1 h
  obtain ⟨hle, rfl⟩ := Check.atMost_eq_ok_iff.1 hm
  exact ⟨hn, Int.ofNat_le.1 hle⟩

theorem rooted_of_check {v : Value} {path : String}
    (h : (Check.text v >>= fun p => (checkPath p).mapError .broken : Check Rule String) =
      .ok path) : Rooted path := by
  obtain ⟨_, -, h⟩ := bind_eq_ok_iff.1 h
  exact rooted_of_checkPath (mapError_eq_ok_iff.1 h)

/-- Where every field of the settings was read. -/
structure Reads (r : Record) (s : Settings) : Prop where
  program : r.withDefault "fping_bin" "fping" Check.text = (.valid s.program : Checked Rule _)
  targets : r.texts "targets" checkTargets = .valid s.targets
  period : r.withDefault "period_ms" 1000 (Check.count 1) = (.valid s.periodMs : Checked Rule _)
  summaryInterval : r.withDefault "summary_interval_s" 10 (Check.count 1) =
    (.valid s.summaryIntervalS : Checked Rule _)
  versionTimeout :
    r.withDefault "version_timeout_s" 2.0 (fun v => Check.float v >>= Check.positive) =
      (.valid s.versionTimeoutS : Checked Rule _)
  host : r.withDefault "metrics_host" "0.0.0.0" Check.text =
    (.valid s.metricsHost : Checked Rule _)
  port : r.withDefault "metrics_port" 9775
      (fun v => Check.int v >>= Check.atMost 65535 >>= Check.atLeast 1) =
    (.valid s.metricsPort : Checked Rule _)
  path : r.withDefault "metrics_path" "/metrics"
      (fun v => Check.text v >>= fun p => (checkPath p).mapError .broken) = .valid s.metricsPath
  backoffBase : r.withDefault "backoff_base_s" 1.0 (fun v => Check.float v >>= Check.positive) =
    (.valid s.backoffBaseS : Checked Rule _)
  backoffCap : r.withDefault "backoff_cap_s" 30.0 (fun v => Check.float v >>= Check.positive) =
    (.valid s.backoffCapS : Checked Rule _)
  maxRestarts : r.withDefault "max_restarts" 5 (Check.count 0) =
    (.valid s.maxRestarts : Checked Rule _)
  stabilityThreshold :
    r.optional "stability_threshold_s" (fun v => Check.float v >>= Check.positive) =
      (.valid s.stabilityThresholdS : Checked Rule _)
  shutdownGrace :
    r.withDefault "shutdown_grace_s" 5.0 (fun v => Check.float v >>= Check.nonnegative) =
      (.valid s.shutdownGraceS : Checked Rule _)
  shutdownTimeout :
    r.withDefault "shutdown_timeout_s" 10.0 (fun v => Check.float v >>= Check.nonnegative) =
      (.valid s.shutdownTimeoutS : Checked Rule _)
  runtimeLimit : r.optional "runtime_limit_s" (fun v => Check.float v >>= Check.positive) =
    (.valid s.runtimeLimitS : Checked Rule _)
  logLevel : r.withDefault "log_level" "INFO" Check.text = (.valid s.logLevel : Checked Rule _)

theorem reads_of_fields (h : fields r = .valid s) : Reads r s := by
  simp only [fields, Checked.seq_eq_valid_iff, Checked.map_eq_valid_iff] at h
  obtain ⟨level, _, hlevel, ⟨limit, _, hlimit, ⟨timeout, _, htimeout, ⟨grace, _, hgrace,
    ⟨threshold, _, hthreshold, ⟨restarts, _, hrestarts, ⟨cap, _, hcap, ⟨base, _, hbase,
    ⟨path, _, hpath, ⟨port, _, hport, ⟨host, _, hhost, ⟨wait, _, hwait, ⟨interval, _, hinterval,
    ⟨period, _, hperiod, ⟨targets, _, htargets, ⟨program, hprogram, rfl⟩, rfl⟩, rfl⟩, rfl⟩, rfl⟩,
    rfl⟩, rfl⟩, rfl⟩, rfl⟩, rfl⟩, rfl⟩, rfl⟩, rfl⟩, rfl⟩, rfl⟩, rfl⟩ := h
  exact ⟨hprogram, htargets, hperiod, hinterval, hwait, hhost, hport, hpath, hbase, hcap,
    hrestarts, hthreshold, hgrace, htimeout, hlimit, hlevel⟩

theorem Reads.valid (h : Reads r s) (hbackoff : ¬ s.backoffCapS < s.backoffBaseS) : s.Valid := by
  have hroot : checkPath "/metrics" = .ok "/metrics" := rfl
  have hports := Record.of_withDefault (P := fun n => 1 ≤ n ∧ n ≤ 65535) (by decide) port_of_check
    h.port
  exact {
    targets := Record.of_texts (P := fun ts => ∀ t ∈ ts, targetFault? t = none) nofun
      targetFault?_of_checkTargets h.targets
    period := Record.of_withDefault (by decide) Check.le_of_count h.period
    summaryInterval := Record.of_withDefault (by decide) Check.le_of_count h.summaryInterval
    versionTimeout := Record.of_withDefault (by decide +kernel) Check.pos_of_float h.versionTimeout
    one_le_port := hports.1
    port_le := hports.2
    path := Record.of_withDefault (rooted_of_checkPath hroot) rooted_of_check h.path
    backoffBase := Record.of_withDefault (by decide +kernel) Check.pos_of_float h.backoffBase
    backoffCap := Record.of_withDefault (by decide +kernel) Check.pos_of_float h.backoffCap
    stabilityThreshold := Record.of_optional Check.pos_of_float h.stabilityThreshold
    shutdownGrace :=
      Record.of_withDefault (by decide +kernel) Check.zero_le_of_float h.shutdownGrace
    shutdownTimeout :=
      Record.of_withDefault (by decide +kernel) Check.zero_le_of_float h.shutdownTimeout
    runtimeLimit := Record.of_optional Check.pos_of_float h.runtimeLimit
    backoff := hbackoff }

theorem reads_of_ofRecord (h : ofRecord r = .ok s) :
    Reads r s ∧ ¬ s.backoffCapS < s.backoffBaseS := by
  rw [ofRecord, Checked.toExcept_eq_ok_iff, Checked.andThen_eq_valid_iff] at h
  obtain ⟨s', hs', hcheck⟩ := h
  rw [checkBackoff] at hcheck
  split at hcheck
  · cases hcheck
  · rename_i hbackoff
    cases hcheck
    exact ⟨reads_of_fields hs', hbackoff⟩

theorem valid_of_ofRecord (h : ofRecord r = .ok s) : s.Valid := by
  obtain ⟨hreads, hbackoff⟩ := reads_of_ofRecord h
  exact hreads.valid hbackoff

/-- Accepted settings were read from the environment, or they are such settings with other targets;
and they have a target. -/
theorem cases_of_load {env : Environment} {args : List String} (h : load env args = .ok s) :
    s.targets ≠ [] ∧
      ∃ s', ofEnvironment env = .ok s' ∧ (s' = s ∨ ∃ ts, s'.withTargets ts = .ok s) := by
  have hkept {s' : Settings} (h : (if s'.targets.isEmpty then throw .noTargets else pure s' :
      Except LoadFault Settings) = .ok s) : s.targets ≠ [] ∧ s' = s := by
    split at h
    · cases h
    · rename_i hne
      cases h
      exact ⟨fun hnil => hne (List.isEmpty_iff.2 hnil), rfl⟩
  obtain ⟨ts, -, h⟩ := bind_eq_ok_iff.1 h
  obtain ⟨s', henv, h⟩ := bind_eq_ok_iff.1 (mapError_eq_ok_iff.1 h)
  have henv := mapError_eq_ok_iff.1 henv
  split at h
  · obtain ⟨hne, hs⟩ := hkept h
    exact ⟨hne, s', henv, .inl hs⟩
  · obtain ⟨s'', hwith, h⟩ := bind_eq_ok_iff.1 h
    obtain ⟨hne, rfl⟩ := hkept h
    exact ⟨hne, s', henv, .inr ⟨ts, mapError_eq_ok_iff.1 hwith⟩⟩

/-- Accepted settings satisfy all rules. -/
theorem valid_of_load {env : Environment} {args : List String} (h : load env args = .ok s) :
    s.Valid := by
  obtain ⟨-, s', henv, rfl | ⟨ts, hwith⟩⟩ := cases_of_load h
  · exact valid_of_ofRecord henv
  · exact valid_of_ofRecord hwith

/-- The delays of accepted settings are positive. -/
theorem pos_of_load {env : Environment} {args : List String} (h : load env args = .ok s) :
    0.0 < s.backoffBaseS ∧ 0.0 < s.backoffCapS :=
  ⟨(valid_of_load h).backoffBase, (valid_of_load h).backoffCap⟩

end Settings

end EchoMetrics
