import EchoMetrics.Proofs.Settings.Fields

/-! # Targets from the command line

Settings that are given other targets are checked again as a whole. Every field passes its check a
second time and stays as it is, but for the path: blanks in front of its last slashes come to stand
at its end once the slashes are trimmed, and are trimmed by the second check. Main statement: what
comes of accepted settings with the targets of the command line, and when only they differ. -/

namespace EchoMetrics

namespace Arguments

theorem scan_inside_of_targets {args : List String} (h : ∀ a ∈ args, classify a = .target)
    (targets : List String) : scan .inside targets [] args = .ok (targets ++ args) := by
  induction args generalizing targets with
  | nil => rw [scan, List.append_nil]; rfl
  | cons arg args ih =>
    obtain ⟨harg, hargs⟩ := List.forall_mem_cons.1 h
    simp only [scan, harg]
    rw [if_neg (by decide), ih hargs, List.append_assoc, List.singleton_append]

/-- Arguments that are all targets are the targets. -/
theorem targets_of_targets {args : List String} (h : ∀ a ∈ args, classify a = .target) :
    targets args = .ok args := by
  cases args with
  | nil => rfl
  | cons arg args =>
    obtain ⟨harg, hargs⟩ := List.forall_mem_cons.1 h
    simp only [targets, scan, harg]
    exact scan_inside_of_targets hargs [arg]

/-- Only a dash in front makes an option. -/
theorem classify_of_head? {arg : String} (h : arg.toList.head? ≠ some '-') :
    classify arg = .target := by
  rw [classify]
  split <;> simp_all

end Arguments

namespace Settings

variable {s : Settings} {ts : List String}

/-- The arguments do not stop the exporter. -/
theorem load_ne_stop {env : Environment} {args : List String}
    (h : ∀ a ∈ args, Arguments.classify a = .target) (s : Arguments.Stop) :
    load env args ≠ .error (.stop s) := by
  intro hload
  rcases bind_eq_error_iff.1 hload with htargets | ⟨_, -, hconfigure⟩
  · rw [Arguments.targets_of_targets h] at htargets
    cases htargets
  · obtain ⟨_, -, h⟩ := mapError_eq_error_iff.1 hconfigure
    cases h

theorem classify_of_targetFault? {t : String} (h : targetFault? t = none) :
    Arguments.classify t = .target := by
  refine Arguments.classify_of_head? ?_
  intro hdash
  rw [targetFault?, if_pos hdash] at h
  split at h <;> cases h

theorem checkTargets_of_targetFault? (h : ∀ t ∈ ts, targetFault? t = none) :
    checkTargets ts = .ok ts := by
  rw [checkTargets, List.findSome?_eq_none_iff.2 h]

/-! ## The path -/

/-- A path with one slash in front of it and none behind stays as it is if it does not end with a
blank, and only then. -/
theorem checkPath_eq_self_iff {path : String} (h : Rooted path) :
    checkPath path = .ok path ↔ Text.EndsWithout Text.isBlank path.toList := by
  obtain ⟨cs, rfl, hhead, hlast⟩ := h
  have hne : cs ≠ [] := by
    rintro rfl
    obtain ⟨front, c, hnil, -⟩ := hlast
    simp at hnil
  have hfront : ∀ c ∈ ('/' :: cs).head?, Text.isBlank c = false := by
    intro c hc
    cases Option.mem_some.1 hc
    decide
  have hroot : Text.EndsWithout Text.isBlank ['/'] := ⟨[], '/', rfl, hfront '/' rfl⟩
  have htrim : Text.trimBy Text.isBlank (['/'] ++ cs) = ['/'] ++ Text.trimEndBy Text.isBlank cs :=
    Text.trimBy_append cs hfront hroot
  rw [List.singleton_append, List.singleton_append] at htrim
  have hslash (ds : List Char) :
      Text.trimBy (· == '/') ('/' :: ds) = Text.trimBy (· == '/') ds := rfl
  rw [checkPath, String.toList_ofList, htrim, hslash]
  constructor
  · intro hok
    split at hok
    · cases hok
    · -- what is trimmed is part of the path, so nothing can have been lost
      have hcs : Text.trimBy (· == '/') (Text.trimEndBy Text.isBlank cs) = cs := by
        exact (List.cons.inj (String.ofList_injective (Except.ok.inj hok))).2
      have hprefix := Text.trimEndBy_isPrefix Text.isBlank cs
      have hsub := Text.trimBy_sublist (· == '/') (Text.trimEndBy Text.isBlank cs)
      rw [hcs] at hsub
      have hend : Text.trimEndBy Text.isBlank cs = cs := hprefix.eq_of_length_le hsub.length_le
      rw [← hend] at hne ⊢
      exact (Text.endsWithout_trimEndBy hne).cons '/'
  · intro hblank
    have hend : '/' :: Text.trimEndBy Text.isBlank cs = '/' :: cs := by
      rw [← htrim, Text.trimBy_eq_self hfront hblank]
    rw [List.cons.inj hend |>.2, Text.trimBy_eq_self hhead hlast]
    split
    · exact absurd rfl hne
    · rfl

/-! ## Other targets -/

theorem fields_set_targets (h : s.Valid) (hts : ∀ t ∈ ts, targetFault? t = none) :
    fields (s.toRecord.set "targets" (.list (ts.map .text))) =
      (fun path => { s with targets := ts, metricsPath := path }) <$>
        Checked.ofCheck "metrics_path" ((checkPath s.metricsPath).mapError .broken) := by
  have htext (t : String) : (Check.text (.text t) : Check Rule String) = .ok t := rfl
  have hpositive {x : Float} (hx : 0.0 < x) :
      (Check.float (.float x) >>= Check.positive : Check Rule Float) = .ok x :=
    Check.positive_eq_ok_iff.2 ⟨hx, rfl⟩
  have hnonnegative {x : Float} (hx : 0.0 ≤ x) :
      (Check.float (.float x) >>= Check.nonnegative : Check Rule Float) = .ok x :=
    Check.nonnegative_of_le hx
  have hport : (Check.int (.int s.metricsPort) >>= Check.atMost 65535 >>= Check.atLeast 1 :
      Check Rule Nat) = .ok s.metricsPort := by
    show Check.atMost 65535 (s.metricsPort : Int) >>= Check.atLeast 1 = _
    rw [Check.atMost_eq_ok_iff.2 ⟨Int.ofNat_le.2 h.port_le, rfl⟩]
    exact Check.atLeast_eq_ok_iff.2 ⟨h.one_le_port, rfl⟩
  have hoptional {o : Option Float} (ho : ∀ x ∈ o, 0.0 < x) :
      (Check.nullable (fun v => Check.float v >>= Check.positive) (.ofOption .float o) :
        Check Rule (Option Float)) = .ok o :=
    Check.nullable_ofOption (fun _ _ => nofun) fun x hx => hpositive (ho x hx)
  have htargets : Record.texts (s.toRecord.set "targets" (.list (ts.map .text))) "targets"
      checkTargets = .valid ts := by
    rw [Record.texts_of_lookup (Record.lookup_set_self ..), checkTargets_of_targetFault? hts]
    rfl
  have hpath : Record.withDefault (s.toRecord.set "targets" (.list (ts.map .text))) "metrics_path"
      ({} : Settings).metricsPath
        (fun v => Check.text v >>= fun p => (checkPath p).mapError .broken) =
      Checked.ofCheck "metrics_path" ((checkPath s.metricsPath).mapError .broken) := rfl
  rw [fields, htargets, hpath,
    Record.withDefault_of_lookup rfl (htext s.program),
    Record.withDefault_of_lookup rfl (Check.count_of_le h.period),
    Record.withDefault_of_lookup rfl (Check.count_of_le h.summaryInterval),
    Record.withDefault_of_lookup rfl (hpositive h.versionTimeout),
    Record.withDefault_of_lookup rfl (htext s.metricsHost),
    Record.withDefault_of_lookup rfl hport,
    Record.withDefault_of_lookup rfl (hpositive h.backoffBase),
    Record.withDefault_of_lookup rfl (hpositive h.backoffCap),
    Record.withDefault_of_lookup rfl (Check.count_of_le s.maxRestarts.zero_le),
    Record.optional, Record.withDefault_of_lookup rfl (hoptional h.stabilityThreshold),
    Record.withDefault_of_lookup rfl (hnonnegative h.shutdownGrace),
    Record.withDefault_of_lookup rfl (hnonnegative h.shutdownTimeout),
    Record.optional, Record.withDefault_of_lookup rfl (hoptional h.runtimeLimit),
    Record.withDefault_of_lookup rfl (htext s.logLevel)]
  cases checkPath s.metricsPath with
  | error rule => rfl
  | ok path => rfl

/-- Settings with other targets, whose path is checked once more. -/
def retargeted (s : Settings) (ts : List String) : Except Rule Settings :=
  (checkPath s.metricsPath).map fun path => { s with targets := ts, metricsPath := path }

theorem withTargets_eq (h : s.Valid) (hts : ∀ t ∈ ts, targetFault? t = none) :
    s.withTargets ts =
      (s.retargeted ts).mapError fun rule => [⟨.field "metrics_path", .broken rule⟩] := by
  rw [withTargets, ofRecord, fields_set_targets h hts, retargeted]
  cases checkPath s.metricsPath with
  | error rule => rfl
  | ok path =>
    have hbackoff : checkBackoff { s with targets := ts, metricsPath := path } =
        .ok { s with targets := ts, metricsPath := path } := if_neg h.backoff
    change (Checked.andThen (.valid _) checkBackoff).toExcept = _
    rw [Checked.andThen, hbackoff]
    rfl

theorem configure_eq {env : Environment} (henv : ofEnvironment env = .ok s) (hne : ts ≠ [])
    (hts : ∀ t ∈ ts, targetFault? t = none) :
    configure env ts =
      (s.retargeted ts).mapError fun rule => .invalid [⟨.field "metrics_path", .broken rule⟩] := by
  have hempty : ts.isEmpty = false := List.isEmpty_eq_false_iff.2 hne
  have hwith := withTargets_eq (valid_of_ofRecord henv) hts
  rw [configure, henv, hempty]
  change (s.withTargets ts).mapError LoadFault.invalid >>= _ = _
  rw [hwith, retargeted]
  cases checkPath s.metricsPath with
  | error rule => rfl
  | ok path => exact if_neg (ne_true_of_eq_false hempty)

/-- Targets from the command line replace those of the environment. The other fields stay, but for a
path that ends with a blank, which is trimmed once more and may be refused then. -/
theorem load_of_targets {env : Environment} (henv : ofEnvironment env = .ok s) (hne : ts ≠ [])
    (hts : ∀ t ∈ ts, targetFault? t = none) :
    load env ts =
      ((s.retargeted ts).mapError fun rule =>
        .fault (.invalid [⟨.field "metrics_path", .broken rule⟩])) ∧
    (load env ts = .ok { s with targets := ts } ↔
      Text.EndsWithout Text.isBlank s.metricsPath.toList) := by
  have hload : load env ts =
      (s.retargeted ts).mapError fun rule =>
        .fault (.invalid [⟨.field "metrics_path", .broken rule⟩]) := by
    rw [load, Arguments.targets_of_targets fun t ht => classify_of_targetFault? (hts t ht)]
    change (configure env ts).mapError _ = _
    rw [configure_eq henv hne hts]
    cases s.retargeted ts <;> rfl
  refine ⟨hload, ?_⟩
  rw [hload, ← checkPath_eq_self_iff (valid_of_ofRecord henv).path, retargeted]
  cases checkPath s.metricsPath with
  | error rule => exact ⟨nofun, nofun⟩
  | ok path =>
    constructor
    · intro h
      exact congrArg Except.ok (congrArg metricsPath (Except.ok.inj h))
    · intro h
      cases Except.ok.inj h
      rfl

theorem load_of_targets_set : ∃ s,
    ofEnvironment [("METRICS_PATH", "/m/"), ("FPING_TARGETS", "a")] = .ok s ∧
    s.targets = ["a"] ∧ s.metricsPath = "/m" ∧
    load [("METRICS_PATH", "/m/"), ("FPING_TARGETS", "a")] ["b", "c"] =
      .ok { s with targets := ["b", "c"] } := by
  refine ⟨{ targets := ["a"], metricsPath := "/m" }, rfl, rfl, rfl, ?_⟩
  exact (load_of_targets rfl (by decide) (by decide)).2.2 ⟨['/'], 'm', rfl, by decide⟩

/-- The first check leaves the blank that stands in front of the last slash, the second does not,
and may find that there is no path left. -/
theorem load_trims_path_again :
    (∃ s, ofEnvironment [("METRICS_PATH", "x /")] = .ok s ∧ s.metricsPath = "/x " ∧
      load [("METRICS_PATH", "x /")] ["a"] =
        .ok { s with targets := ["a"], metricsPath := "/x" } ∧
      load [("METRICS_PATH", "x /")] ["a"] ≠ .ok { s with targets := ["a"] }) ∧
    (∃ s, ofEnvironment [("METRICS_PATH", "/ /")] = .ok s ∧ s.metricsPath = "/ " ∧
      load [("METRICS_PATH", "/ /")] ["a"] =
        .error (.fault (.invalid [⟨.field "metrics_path", .broken .emptyPath⟩]))) := by
  refine ⟨⟨{ metricsPath := "/x " }, rfl, rfl, rfl, ?_⟩, ⟨{ metricsPath := "/ " }, rfl, rfl, rfl⟩⟩
  intro h
  have hload : load [("METRICS_PATH", "x /")] ["a"] =
      .ok { targets := ["a"], metricsPath := "/x" } := rfl
  rw [hload] at h
  exact absurd (congrArg metricsPath (Except.ok.inj h)) (by decide)

end Settings

end EchoMetrics
