import Mathlib.Data.List.Basic
import EchoMetrics.Proofs.Field.Faults
import EchoMetrics.Proofs.Settings.Load

/-! # Targets of the environment behind those of the command line

The targets of the environment are checked before those of the command line take their place. So
they leave no trace if they are accepted, and are refused like any other field if they are not, even
where nothing would come of them. Main statement: two environments that differ in these targets only
give the same configuration if the same target of theirs is at fault, or none in either; and only
then, if the targets of the command line are accepted. -/

namespace EchoMetrics

/-- No other variable than the named one is told apart. -/
def Environment.SameApart (name : String) (env env' : Environment) : Prop :=
  ∀ other, other ≠ name → env.lookup other = env'.lookup other

namespace Settings

/-- What is wrong with the first target of the environment that has a fault. -/
def environmentFault? (env : Environment) : Option Rule :=
  (targetList ((env.lookup "FPING_TARGETS").getD "")).findSome? targetFault?

/-! ## The fields of two records -/

section

variable {r r' : Record} {ts ts' : List String} {cause : Cause Rule}

theorem fields_eq_of_texts_eq (h : Record.SameApart "targets" r r')
    (ht : r.texts "targets" checkTargets = r'.texts "targets" checkTargets) :
    fields r = fields r' := by
  simp (disch := decide) only [fields, Record.optional, h.withDefault_eq, ht]

/-- Accepted targets have no part in what is found of the other fields. -/
theorem fields_eq_of_texts_valid (h : Record.SameApart "targets" r r')
    (ht : r.texts "targets" checkTargets = .valid ts)
    (ht' : r'.texts "targets" checkTargets = .valid ts') :
    fields r' = (fun s => { s with targets := ts' }) <$> fields r := by
  simp (disch := decide) only [fields, Record.optional, h.withDefault_eq, ht, ht',
    Checked.map_seq, Checked.map_map]
  -- Both sides now begin with the program, which stands in front of the targets.
  cases r'.withDefault "fping_bin" "fping" Check.text <;> rfl

/-- Targets are reported by their own field only. -/
theorem reports_fields_iff :
    (fields r).Reports ⟨.field "targets", cause⟩ ↔
      (r.texts "targets" checkTargets).Reports ⟨.field "targets", cause⟩ := by
  simp (disch := decide) only [fields, Record.optional, Checked.reports_seq_iff,
    Checked.reports_map_iff, Record.not_reports_withDefault, or_false, false_or]

end

/-! ## The fields of two environments -/

section

variable {env env' : Environment} {rule : Rule}

theorem lookup_targets (env : Environment) :
    (recordOfEnvironment env).lookup "targets" =
      some (.list ((targetList ((env.lookup "FPING_TARGETS").getD "")).map .text)) := by
  have hfields : ∀ p ∈ fieldVariables, p.2 ≠ "targets" := by decide
  rw [recordOfEnvironment, List.lookup_append, List.lookup_eq_none_iff.2]
  · rfl
  · intro q hq
    obtain ⟨⟨name, field⟩, hp, hq⟩ := List.mem_filterMap.1 hq
    simp only at hq
    split at hq
    · split at hq
      · cases hq
      · cases hq
        exact bne_iff_ne.2 (hfields _ hp).symm
    · cases hq

theorem texts_eq (env : Environment) :
    (recordOfEnvironment env).texts "targets" checkTargets =
      .ofCheck "targets"
        ((checkTargets (targetList ((env.lookup "FPING_TARGETS").getD ""))).mapError .broken) :=
  Record.texts_of_lookup (lookup_targets env)

theorem texts_of_environmentFault? (h : environmentFault? env = some rule) :
    (recordOfEnvironment env).texts "targets" checkTargets =
      .faulty [⟨.field "targets", .broken rule⟩] := by
  rw [environmentFault?] at h
  rw [texts_eq, checkTargets, h]
  rfl

theorem texts_of_environmentFault?_eq_none (h : environmentFault? env = none) :
    (recordOfEnvironment env).texts "targets" checkTargets =
      .valid (targetList ((env.lookup "FPING_TARGETS").getD "")) := by
  rw [environmentFault?] at h
  rw [texts_eq, checkTargets, h]
  rfl

theorem sameApart_recordOfEnvironment (h : env.SameApart "FPING_TARGETS" env') :
    Record.SameApart "targets" (recordOfEnvironment env) (recordOfEnvironment env') := by
  have hnames : ∀ p ∈ fieldVariables, p.1 ≠ "FPING_TARGETS" := by decide
  intro name hname
  have hname : (name == "targets") = false := beq_eq_false_iff_ne.2 hname
  simp only [recordOfEnvironment, List.lookup_append, List.lookup_cons, hname]
  rw [List.filterMap_congr fun p hp => ?_]
  simp only [h p.1 (hnames p hp)]

theorem reports_fields_recordOfEnvironment_iff {cause : Cause Rule} :
    (fields (recordOfEnvironment env)).Reports ⟨.field "targets", cause⟩ ↔
      ∃ rule, environmentFault? env = some rule ∧ cause = .broken rule := by
  rw [reports_fields_iff]
  cases h : environmentFault? env with
  | none =>
    rw [texts_of_environmentFault?_eq_none h]
    refine iff_of_false (Checked.not_reports_valid _) ?_
    rintro ⟨_, h, -⟩
    cases h
  | some rule =>
    rw [texts_of_environmentFault? h, Checked.reports_faulty_iff, List.mem_singleton]
    constructor
    · intro e
      exact ⟨rule, rfl, congrArg Fault.cause e⟩
    · rintro ⟨_, e, rfl⟩
      cases e
      rfl

theorem checkBackoff_targets (s : Settings) (ts : List String) :
    checkBackoff { s with targets := ts } =
      (checkBackoff s).map fun s => { s with targets := ts } := by
  rw [checkBackoff, checkBackoff]
  split <;> rfl

theorem ofEnvironment_eq_of_environmentFault? (h : env.SameApart "FPING_TARGETS" env')
    (hf : environmentFault? env = some rule) (hf' : environmentFault? env' = some rule) :
    ofEnvironment env = ofEnvironment env' := by
  have ht := (texts_of_environmentFault? hf).trans (texts_of_environmentFault? hf').symm
  rw [ofEnvironment, ofEnvironment, ofRecord, ofRecord,
    fields_eq_of_texts_eq (sameApart_recordOfEnvironment h) ht]

/-- Environments whose targets are accepted give settings that differ in the targets only. -/
theorem exists_ofEnvironment_eq_map (h : env.SameApart "FPING_TARGETS" env')
    (hf : environmentFault? env = none) (hf' : environmentFault? env' = none) :
    ∃ ts, ofEnvironment env' = (ofEnvironment env).map fun s => { s with targets := ts } := by
  refine ⟨targetList ((env'.lookup "FPING_TARGETS").getD ""), ?_⟩
  rw [ofEnvironment, ofEnvironment, ofRecord, ofRecord,
    fields_eq_of_texts_valid (sameApart_recordOfEnvironment h)
      (texts_of_environmentFault?_eq_none hf) (texts_of_environmentFault?_eq_none hf')]
  cases fields (recordOfEnvironment env) with
  | faulty es => rfl
  | valid s =>
    rw [Checked.map_valid, Checked.andThen, Checked.andThen, checkBackoff_targets]
    cases checkBackoff s <;> rfl

end

/-! ## Targets of the command line -/

section

variable {env env' : Environment} {args ts : List String} {rule : Rule}

theorem configure_of_ne_nil (hne : ts ≠ []) :
    configure env ts = (ofEnvironment env).mapError .invalid >>= fun s =>
      (s.withTargets ts).mapError .invalid >>= fun s =>
        if s.targets.isEmpty then throw .noTargets else pure s := by
  rw [configure, List.isEmpty_eq_false_iff.2 hne]
  rfl

theorem configure_eq_of_environmentFault?_eq (h : env.SameApart "FPING_TARGETS" env')
    (hf : environmentFault? env = environmentFault? env') (hne : ts ≠ []) :
    configure env ts = configure env' ts := by
  rw [configure_of_ne_nil hne, configure_of_ne_nil hne]
  cases henv : environmentFault? env with
  | some rule => rw [ofEnvironment_eq_of_environmentFault? h henv (hf ▸ henv)]
  | none =>
    obtain ⟨ts', hmap⟩ := exists_ofEnvironment_eq_map h henv (hf ▸ henv)
    rw [hmap]
    -- The targets of the first settings are replaced, whatever they are.
    cases ofEnvironment env <;> rfl

/-- The configuration is refused, and this is one of its faults. -/
def RefusedFor (env : Environment) (args : List String) (fault : Fault) : Prop :=
  ∃ faults, load env args = .error (.fault (.invalid faults)) ∧ fault ∈ faults

theorem load_of_targets_eq_ok (hargs : Arguments.targets args = .ok ts) :
    load env args = (configure env ts).mapError .fault := by
  rw [load, hargs]
  rfl

/-- Targets of the environment that have a fault are refused, whatever the command line names. -/
theorem refusedFor_of_environmentFault? (hargs : Arguments.targets args = .ok ts)
    (hf : environmentFault? env = some rule) :
    RefusedFor env args ⟨.field "targets", .broken rule⟩ := by
  obtain ⟨faults, hfaults, hmem⟩ := reports_fields_recordOfEnvironment_iff.2 ⟨rule, hf, rfl⟩
  refine ⟨faults, ?_, hmem⟩
  rw [load_of_targets_eq_ok hargs, configure, ofEnvironment, ofRecord, hfaults]
  rfl

/-- If the command line names accepted targets, only those of the environment are refused. -/
theorem environmentFault?_of_refusedFor (hargs : Arguments.targets args = .ok ts) (hne : ts ≠ [])
    (hts : ∀ t ∈ ts, targetFault? t = none)
    (h : RefusedFor env args ⟨.field "targets", .broken rule⟩) :
    environmentFault? env = some rule := by
  obtain ⟨faults, hload, hmem⟩ := h
  rw [load_of_targets_eq_ok hargs] at hload
  obtain ⟨_, hconfigure, hfault⟩ := mapError_eq_error_iff.1 hload
  cases hfault
  cases henv : ofEnvironment env with
  | ok s =>
    -- Only the path can be refused now.
    rw [configure_eq henv hne hts] at hconfigure
    obtain ⟨_, -, hfaults⟩ := mapError_eq_error_iff.1 hconfigure
    cases hfaults
    have hplace := congrArg Fault.place (List.mem_singleton.1 hmem)
    exact absurd (Place.field.inj hplace) (by decide)
  | error faults' =>
    rw [configure, henv] at hconfigure
    cases hconfigure
    rw [ofEnvironment, ofRecord] at henv
    cases hfields : fields (recordOfEnvironment env) with
    | faulty es =>
      rw [hfields] at henv
      cases henv
      obtain ⟨_, hrule, hcause⟩ := reports_fields_recordOfEnvironment_iff.1 ⟨_, hfields, hmem⟩
      cases hcause
      exact hrule
    | valid s =>
      rw [hfields, Checked.andThen] at henv
      split at henv
      · cases henv
      · cases henv
        cases List.mem_singleton.1 hmem

/-- Two environments that differ in their targets only give the same configuration, or the same
refusal of it, if they agree on the first of these targets that is at fault. Such a target is
refused even though the command line names others; so unless these are refused themselves,
environments give the same configuration only if they agree on it. -/
theorem load_eq_of_environmentFault?_eq (henv : env.SameApart "FPING_TARGETS" env')
    (hargs : Arguments.targets args ≠ .ok []) :
    (environmentFault? env = environmentFault? env' → load env args = load env' args) ∧
      ∀ ts, Arguments.targets args = .ok ts →
        (∀ rule, environmentFault? env = some rule →
          RefusedFor env args ⟨.field "targets", .broken rule⟩) ∧
        ((∀ t ∈ ts, targetFault? t = none) → load env args = load env' args →
          environmentFault? env = environmentFault? env') := by
  refine ⟨?_, ?_⟩
  · intro hf
    cases htargets : Arguments.targets args with
    | error stop =>
      rw [load, load, htargets]
      rfl
    | ok ts =>
      have hne : ts ≠ [] := fun hnil => hargs (hnil ▸ htargets)
      rw [load_of_targets_eq_ok htargets, load_of_targets_eq_ok htargets,
        configure_eq_of_environmentFault?_eq henv hf hne]
  · intro ts htargets
    refine ⟨fun rule => refusedFor_of_environmentFault? htargets, ?_⟩
    intro hts hload
    have hne : ts ≠ [] := fun hnil => hargs (hnil ▸ htargets)
    have hsame (rule : Rule) : RefusedFor env args ⟨.field "targets", .broken rule⟩ ↔
        RefusedFor env' args ⟨.field "targets", .broken rule⟩ := by
      rw [RefusedFor, RefusedFor, hload]
    refine Option.ext fun rule => ?_
    constructor
    · intro hrule
      exact environmentFault?_of_refusedFor htargets hne hts
        ((hsame rule).1 (refusedFor_of_environmentFault? htargets hrule))
    · intro hrule
      exact environmentFault?_of_refusedFor htargets hne hts
        ((hsame rule).2 (refusedFor_of_environmentFault? htargets hrule))

theorem load_eq_of_environmentFault?_eq_blank :
    load [("FPING_TARGETS", "a,-c b"), ("METRICS_PORT", "0")] ["dns"] =
      load [("METRICS_PORT", "0"), ("FPING_TARGETS", " -c b ,,x y")] ["dns"] ∧
    RefusedFor [("FPING_TARGETS", "a,-c b"), ("METRICS_PORT", "0")] ["dns"]
      ⟨.field "targets", .broken (.invalidTarget "-c b")⟩ := by
  have henv : Environment.SameApart "FPING_TARGETS"
      [("FPING_TARGETS", "a,-c b"), ("METRICS_PORT", "0")]
      [("METRICS_PORT", "0"), ("FPING_TARGETS", " -c b ,,x y")] := by
    intro name hname
    have hname : (name == "FPING_TARGETS") = false := beq_eq_false_iff_ne.2 hname
    simp only [List.lookup_cons, hname]
  have hargs : Arguments.targets ["dns"] ≠ .ok [] := by decide
  have hload := load_eq_of_environmentFault?_eq henv hargs
  exact ⟨hload.1 rfl, (hload.2 ["dns"] rfl).1 _ rfl⟩

/-- A bad target of the environment is refused although the command line names another one. -/
theorem load_refuses_overridden_target :
    Environment.SameApart "FPING_TARGETS" [] [("FPING_TARGETS", "-c")] ∧
    Arguments.targets ["a"] = .ok ["a"] ∧
    load [] ["a"] = .ok { targets := ["a"] } ∧
    load [("FPING_TARGETS", "-c")] ["a"] =
      .error (.fault (.invalid [⟨.field "targets", .broken (.flagTarget "-c")⟩])) := by
  refine ⟨?_, rfl, rfl, rfl⟩
  intro name hname
  have hname : (name == "FPING_TARGETS") = false := beq_eq_false_iff_ne.2 hname
  rw [List.lookup_cons, hname]

end

end Settings

end EchoMetrics
