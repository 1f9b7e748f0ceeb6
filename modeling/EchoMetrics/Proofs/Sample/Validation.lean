import EchoMetrics.Proofs.Binary.Difference
import EchoMetrics.Proofs.Field.Declaration
import EchoMetrics.Sample

/-! # Samples of untyped fields

A sample is built of whatever values stand in its fields, or everything that is wrong with them is
told. Main statement: what is built satisfies all rules and is built again of its own fields; what
is told are the faults of the single fields, each once and in their order, or, if no field is at
fault by itself, one rule that relates several of them. -/

namespace EchoMetrics

/-- Times that are not less than one that is not negative. -/
theorem RoundTrip.zero_le (t : RoundTrip) (h : 0.0 ≤ t.min) : 0.0 ≤ t.avg ∧ 0.0 ≤ t.max := by
  have havg := Binary.le_trans h t.min_le_avg
  exact ⟨havg, Binary.le_trans havg t.avg_le_max⟩

namespace Sample

variable {r : Record} {d : Draft} {s : Sample} {rule : Rule}

/-! ## Fields -/

/-- The fields in the order in which they are declared. -/
def declarations : List (Declaration Rule) :=
  let rtt := Check.nullable fun v => Check.float v >>= Check.nonnegative
  [ .withDefault "kind" (Check.choice [("sample", ())]),
    .required "target" (fun v => Check.text v >>= Check.nonempty),
    .withDefault "addr" (Check.nullable Check.text),
    .required "source" (Check.choice [("probe", Source.probe), ("summary", .summary)]),
    .required "transmitted" (Check.count 0),
    .required "received" (Check.count 0),
    .required "loss" (fun v => Check.float v >>= Check.atMostOne >>= Check.nonnegative),
    .withDefault "rtt_min_ms" rtt,
    .withDefault "rtt_avg_ms" rtt,
    .withDefault "rtt_max_ms" rtt,
    .withDefault "seq" (Check.nullable (Check.count 0)),
    .withDefault "error" (Check.nullable Check.text),
    .required "observed_at" Check.float ]

/-- The places of the fields, of which no two are the same. -/
def places : List Place := declarations.map fun f => .field f.name

theorem nodup_places : places.Nodup := by decide

/-- What is wrong with the fields of a record, taken one by one. -/
def fieldFaults (r : Record) : List Fault := declarations.filterMap (·.fault? r)

theorem finds_draft (r : Record) : (draft r).Finds (fieldFaults r) := by
  have hrequired {α : Type} (name : String) (check : Value → Check Rule α) :=
    r.finds_required name check
  have hdefault {α : Type} (name : String) (d : α) (check : Value → Check Rule α) :=
    r.finds_withDefault name check d
  rw [fieldFaults, List.filterMap_eq_flatMap_toList]
  simp only [declarations, List.flatMap_cons, List.flatMap_nil, List.append_nil,
    ← List.append_assoc]
  exact (hdefault "kind" () _).map _ |>.seq (hrequired "target" _) |>.seq (hdefault "addr" none _)
    |>.seq (hrequired "source" _) |>.seq (hrequired "transmitted" _)
    |>.seq (hrequired "received" _) |>.seq (hrequired "loss" _)
    |>.seq (hdefault "rtt_min_ms" none _) |>.seq (hdefault "rtt_avg_ms" none _)
    |>.seq (hdefault "rtt_max_ms" none _) |>.seq (hdefault "seq" none _)
    |>.seq (hdefault "error" none _) |>.seq (hrequired "observed_at" _)

/-- Where every field of a draft was read. -/
structure Reads (r : Record) (d : Draft) : Prop where
  kind : r.withDefault "kind" () (Check.choice [("sample", ())]) = (.valid () : Checked Rule Unit)
  target : r.required "target" (fun v => Check.text v >>= Check.nonempty) =
    (.valid d.target : Checked Rule _)
  addr : r.optional "addr" Check.text = (.valid d.addr : Checked Rule _)
  source : r.required "source" (Check.choice [("probe", .probe), ("summary", .summary)]) =
    (.valid d.source : Checked Rule _)
  transmitted : r.required "transmitted" (Check.count 0) =
    (.valid d.transmitted : Checked Rule _)
  received : r.required "received" (Check.count 0) = (.valid d.received : Checked Rule _)
  loss : r.required "loss" (fun v => Check.float v >>= Check.atMostOne >>= Check.nonnegative) =
    (.valid d.loss : Checked Rule _)
  rttMin : r.optional "rtt_min_ms" (fun v => Check.float v >>= Check.nonnegative) =
    (.valid d.rttMin : Checked Rule _)
  rttAvg : r.optional "rtt_avg_ms" (fun v => Check.float v >>= Check.nonnegative) =
    (.valid d.rttAvg : Checked Rule _)
  rttMax : r.optional "rtt_max_ms" (fun v => Check.float v >>= Check.nonnegative) =
    (.valid d.rttMax : Checked Rule _)
  seq : r.optional "seq" (Check.count 0) = (.valid d.seq : Checked Rule _)
  error : r.optional "error" Check.text = (.valid d.error : Checked Rule _)
  observedAt : r.required "observed_at" Check.float = (.valid d.observedAt : Checked Rule _)

theorem reads_of_draft (h : draft r = .valid d) : Reads r d := by
  simp only [draft, Checked.seq_eq_valid_iff, Checked.map_eq_valid_iff] at h
  obtain ⟨at_, _, hat, ⟨error, _, herror, ⟨seq, _, hseq, ⟨max, _, hmax, ⟨avg, _, havg,
    ⟨min, _, hmin, ⟨loss, _, hloss, ⟨received, _, hreceived, ⟨transmitted, _, htransmitted,
    ⟨source, _, hsource, ⟨addr, _, haddr, ⟨target, _, htarget, ⟨kind, hkind, rfl⟩, rfl⟩, rfl⟩,
    rfl⟩, rfl⟩, rfl⟩, rfl⟩, rfl⟩, rfl⟩, rfl⟩, rfl⟩, rfl⟩, rfl⟩ := h
  exact ⟨hkind, htarget, haddr, hsource, htransmitted, hreceived, hloss, hmin, havg, hmax, hseq,
    herror, hat⟩

theorem Reads.draft_eq (h : Reads r d) : draft r = .valid d := by
  have hmin := h.rttMin
  have havg := h.rttAvg
  have hmax := h.rttMax
  rw [Record.optional] at hmin havg hmax
  rw [draft, h.kind, h.target, h.addr, h.source, h.transmitted, h.received, h.loss, hmin, havg,
    hmax, h.seq, h.error, h.observedAt]
  rfl

/-! ## Rules on several fields -/

/-- The rule that a draft breaks first. -/
inductive Draft.Breaks (d : Draft) : Rule → Prop
  | receivedAboveTransmitted (h : d.transmitted < d.received) : Breaks d .receivedAboveTransmitted
  | partialRoundTrip (h : d.received ≤ d.transmitted)
      (hsome : d.rttMin.isSome ∨ d.rttAvg.isSome ∨ d.rttMax.isSome)
      (hnone : d.rttMin = none ∨ d.rttAvg = none ∨ d.rttMax = none) : Breaks d .partialRoundTrip
  | unorderedRoundTrip (h : d.received ≤ d.transmitted) {min avg max : Float}
      (hmin : d.rttMin = some min) (havg : d.rttAvg = some avg) (hmax : d.rttMax = some max)
      (hne : ¬ (min ≤ avg ∧ avg ≤ max)) : Breaks d .unorderedRoundTrip

/-- The fields that make the sample. -/
def toDraft (s : Sample) : Draft where
  target := s.target
  addr := s.addr
  source := s.source
  transmitted := s.transmitted
  received := s.received
  loss := s.loss
  rttMin := s.rtt.map (·.min)
  rttAvg := s.rtt.map (·.avg)
  rttMax := s.rtt.map (·.max)
  seq := s.seq
  error := s.error
  observedAt := s.observedAt

theorem ofOptions_map (rtt : Option RoundTrip) :
    RoundTrip.ofOptions (rtt.map (·.min)) (rtt.map (·.avg)) (rtt.map (·.max)) = .ok rtt := by
  cases rtt with
  | none => rfl
  | some t => exact dif_pos ⟨t.min_le_avg, t.avg_le_max⟩

theorem check_toDraft (s : Sample) : s.toDraft.check = .ok s := by
  rw [Draft.check]
  exact (dif_pos s.received_le).trans (congrArg (Except.map _) (ofOptions_map s.rtt))

/-- Three times in order are those of a round trip, as no times are those of none. -/
theorem ofOptions_cases (min avg max : Option Float) :
    (∃ rtt : Option RoundTrip,
        min = rtt.map (·.min) ∧ avg = rtt.map (·.avg) ∧ max = rtt.map (·.max)) ∨
      ((min.isSome ∨ avg.isSome ∨ max.isSome) ∧ (min = none ∨ avg = none ∨ max = none) ∧
        RoundTrip.ofOptions min avg max = .error .partialRoundTrip) ∨
      ∃ x y z, min = some x ∧ avg = some y ∧ max = some z ∧ ¬ (x ≤ y ∧ y ≤ z) ∧
        RoundTrip.ofOptions min avg max = .error .unorderedRoundTrip := by
  rcases min with _ | x <;> rcases avg with _ | y <;> rcases max with _ | z
  case none.none.none => exact .inl ⟨none, rfl, rfl, rfl⟩
  case some.some.some =>
    by_cases h : x ≤ y ∧ y ≤ z
    · exact .inl ⟨some ⟨x, y, z, h.1, h.2⟩, rfl, rfl, rfl⟩
    · exact .inr (.inr ⟨x, y, z, rfl, rfl, rfl, h, dif_neg h⟩)
  all_goals exact .inr (.inl ⟨by simp, by simp, rfl⟩)

/-- A draft is that of a sample, or it breaks a rule. -/
theorem Draft.cases_of_check (d : Draft) :
    (∃ s : Sample, d = s.toDraft) ∨ ∃ rule, d.Breaks rule ∧ d.check = .error rule := by
  by_cases hle : d.received ≤ d.transmitted
  · have herror {rule : Rule}
        (h : RoundTrip.ofOptions d.rttMin d.rttAvg d.rttMax = .error rule) :
        d.check = .error rule := by
      rw [Draft.check]
      exact (dif_pos hle).trans (congrArg (Except.map _) h)
    rcases ofOptions_cases d.rttMin d.rttAvg d.rttMax with
      ⟨rtt, hmin, havg, hmax⟩ | ⟨hsome, hnone, h⟩ | ⟨x, y, z, hmin, havg, hmax, hne, h⟩
    · refine .inl ⟨⟨d.target, d.addr, d.source, d.transmitted, d.received, hle, d.loss, rtt, d.seq,
        d.error, d.observedAt⟩, ?_⟩
      simp only [toDraft, ← hmin, ← havg, ← hmax]
    · exact .inr ⟨_, .partialRoundTrip hle hsome hnone, herror h⟩
    · exact .inr ⟨_, .unorderedRoundTrip hle hmin havg hmax hne, herror h⟩
  · exact .inr ⟨_, .receivedAboveTransmitted (not_le.1 hle), dif_neg hle⟩

/-! ## Samples -/

/-- The rules on samples. -/
structure Valid (s : Sample) : Prop where
  target : s.target ≠ ""
  received_le : s.received ≤ s.transmitted
  zero_le_loss : 0.0 ≤ s.loss
  loss_le_one : s.loss ≤ 1.0
  zero_le_min : ∀ t ∈ s.rtt, 0.0 ≤ t.min
  ordered : ∀ t ∈ s.rtt, t.min ≤ t.avg ∧ t.avg ≤ t.max
  isNaN : ∀ t ∈ s.rtt, t.min.isNaN = false ∧ t.avg.isNaN = false ∧ t.max.isNaN = false

theorem share_of_check {v : Value} {x : Float}
    (h : (Check.float v >>= Check.atMostOne >>= Check.nonnegative : Check Rule Float) = .ok x) :
    0.0 ≤ x ∧ x ≤ 1.0 := by
  obtain ⟨y, hy, h⟩ := bind_eq_ok_iff.1 h
  obtain ⟨hle, rfl⟩ := Check.nonnegative_eq_ok_iff.1 h
  obtain ⟨_, -, hy⟩ := bind_eq_ok_iff.1 hy
  obtain ⟨hone, rfl⟩ := ite_eq_ok_iff.1 hy
  exact ⟨hle, hone⟩

theorem ne_empty_of_check {v : Value} {t : String}
    (h : (Check.text v >>= Check.nonempty : Check Rule String) = .ok t) : t ≠ "" := by
  obtain ⟨u, -, h⟩ := bind_eq_ok_iff.1 h
  rw [Check.nonempty] at h
  split at h
  · cases h
  · rename_i hne
    cases h
    exact hne

theorem Reads.valid (h : Reads r s.toDraft) : s.Valid := by
  have hloss := Record.of_required share_of_check h.loss
  have hmin : ∀ t ∈ s.rtt, 0.0 ≤ t.min := by
    intro t ht
    exact Record.of_optional Check.zero_le_of_float h.rttMin t.min (Option.mem_map_of_mem _ ht)
  exact {
    target := Record.of_required (P := (· ≠ "")) ne_empty_of_check h.target
    received_le := s.received_le
    zero_le_loss := hloss.1
    loss_le_one := hloss.2
    zero_le_min := hmin
    ordered := fun t _ => ⟨t.min_le_avg, t.avg_le_max⟩
    isNaN := by
      intro t ht
      obtain ⟨havg, hmax⟩ := t.zero_le (hmin t ht)
      exact ⟨Binary.isNaN_of_zero_le (hmin t ht), Binary.isNaN_of_zero_le havg,
        Binary.isNaN_of_zero_le hmax⟩ }

/-- Every field of a sample passes its check a second time, and stays as it is. -/
theorem reads_toRecord (h : s.Valid) : Reads s.toRecord s.toDraft := by
  have hrtt {f : RoundTrip → Float} (hf : ∀ t ∈ s.rtt, 0.0 ≤ f t) :
      (Check.nullable (fun v => Check.float v >>= Check.nonnegative)
        (.ofOption .float (s.rtt.map f)) : Check Rule (Option Float)) = .ok (s.rtt.map f) :=
    Check.nullable_nonnegative (Option.forall_mem_map.2 hf)
  have hseq : (Check.nullable (Check.count 0) (.ofOption (fun n => .int n) (s.seq.map Int.ofNat)) :
      Check Rule (Option Nat)) = .ok s.seq := by
    rw [Value.ofOption_map]
    exact Check.nullable_count s.seq
  exact {
    kind := rfl
    target := Record.required_of_lookup rfl (Check.nonempty_of_ne h.target)
    addr := Record.withDefault_of_lookup rfl (Check.nullable_text s.addr)
    source := Record.required_of_lookup rfl s.source.choice_name
    transmitted := Record.required_of_lookup rfl (Check.count_of_le s.transmitted.zero_le)
    received := Record.required_of_lookup rfl (Check.count_of_le s.received.zero_le)
    loss := Record.required_of_lookup rfl (Check.share_of_le h.zero_le_loss h.loss_le_one)
    rttMin := Record.withDefault_of_lookup rfl (hrtt h.zero_le_min)
    rttAvg := Record.withDefault_of_lookup rfl
      (hrtt fun t ht => (t.zero_le (h.zero_le_min t ht)).1)
    rttMax := Record.withDefault_of_lookup rfl
      (hrtt fun t ht => (t.zero_le (h.zero_le_min t ht)).2)
    seq := Record.withDefault_of_lookup rfl hseq
    error := Record.withDefault_of_lookup rfl (Check.nullable_text s.error)
    observedAt := Record.required_of_lookup rfl rfl }

theorem ofRecord_of_reads (h : Reads r s.toDraft) : ofRecord r = .ok s := by
  rw [ofRecord, h.draft_eq, Checked.andThen, check_toDraft]
  rfl

/-- What untyped fields come to. A sample satisfies all rules, its fields are those that were read,
and its own fields give it again. Otherwise every field that is at fault by itself is told once, in
the order of the fields; and only if none is, the first rule on several fields that is broken. -/
theorem ofRecord_cases (r : Record) :
    (∃ s, ofRecord r = .ok s ∧ fieldFaults r = [] ∧ Reads r s.toDraft ∧ s.Valid ∧
        ofRecord s.toRecord = .ok s) ∨
      (∃ d rule, ofRecord r = .error [⟨.whole, .broken rule⟩] ∧ fieldFaults r = [] ∧ Reads r d ∧
        d.Breaks rule) ∨
      (ofRecord r = .error (fieldFaults r) ∧ fieldFaults r ≠ [] ∧
        ((fieldFaults r).map Fault.place).Sublist places ∧ places.Nodup) := by
  have hsublist := Declaration.map_place_sublist declarations r
  have hfinds := finds_draft r
  rw [← fieldFaults] at hsublist
  generalize hes : fieldFaults r = es at hfinds
  generalize hdraft : draft r = x at hfinds
  cases hfinds with
  | faults hne =>
    refine .inr (.inr ⟨?_, hne, hes ▸ hsublist, nodup_places⟩)
    rw [ofRecord, hdraft]
    rfl
  | nothing d =>
    have hreads := reads_of_draft hdraft
    rcases d.cases_of_check with ⟨s, rfl⟩ | ⟨rule, hbreaks, hcheck⟩
    · exact .inl ⟨s, ofRecord_of_reads hreads, rfl, hreads, hreads.valid,
        ofRecord_of_reads (reads_toRecord hreads.valid)⟩
    · refine .inr (.inl ⟨d, rule, ?_, rfl, hreads, hbreaks⟩)
      rw [ofRecord, hdraft, Checked.andThen, hcheck]
      rfl

end Sample

end EchoMetrics
