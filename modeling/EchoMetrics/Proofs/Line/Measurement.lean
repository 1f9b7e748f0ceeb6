import EchoMetrics.Line.Outcome
import EchoMetrics.Proofs.Decimal.Numeral
import EchoMetrics.Proofs.Field.Check

/-! # Samples of what was measured

A sample is built from the untyped fields of a measurement, each of which is checked again. Main
statement: where the numbers are in order, no check refuses them, and the sample holds the
measurement unchanged. -/

namespace EchoMetrics

/-! ## Measurements -/

namespace Line.Measurement

/-- The rules on the numbers of a sample. -/
structure Valid (m : Measurement) : Prop where
  target : m.host.target ≠ ""
  received_le : m.received ≤ m.transmitted
  zero_le_loss : 0.0 ≤ m.loss
  loss_le_one : m.loss ≤ 1.0
  zero_le_rtt : ∀ t ∈ m.rtt, 0.0 ≤ t.1 ∧ 0.0 ≤ t.2.1 ∧ 0.0 ≤ t.2.2
  ordered : ∀ t ∈ m.rtt, t.1 ≤ t.2.1 ∧ t.2.1 ≤ t.2.2

/-- The sample says what was measured, and when. -/
structure HeldBy (m : Measurement) (observedAt : Float) (s : Sample) : Prop where
  target : s.target = m.host.target
  addr : s.addr = m.host.addr
  source : s.source = m.source
  transmitted : s.transmitted = m.transmitted
  received : s.received = m.received
  loss : s.loss = m.loss
  rtt : s.rtt.map (fun t => (t.min, t.avg, t.max)) = m.rtt
  seq : s.seq = m.seq
  error : s.error = m.error
  observedAt : s.observedAt = observedAt

/-- The fields of a measurement once they are checked. -/
def draft (m : Measurement) (observedAt : Float) : Sample.Draft where
  target := m.host.target
  addr := m.host.addr
  source := m.source
  transmitted := m.transmitted
  received := m.received
  loss := m.loss
  rttMin := m.rtt.map (·.1)
  rttAvg := m.rtt.map (·.2.1)
  rttMax := m.rtt.map (·.2.2)
  seq := m.seq
  error := m.error
  observedAt

variable {m : Measurement}

theorem draft_toRecord (h : m.Valid) (observedAt : Float) :
    Sample.draft (m.toRecord (.float observedAt)) = .valid (m.draft observedAt) := by
  have htarget : (Check.text (.text m.host.target) >>= Check.nonempty :
      Check Sample.Rule String) = .ok m.host.target := Check.nonempty_of_ne h.target
  have hrtt (f : Float × Float × Float → Float) (hf : ∀ t ∈ m.rtt, 0.0 ≤ f t) :
      (Check.nullable (fun v => Check.float v >>= Check.nonnegative)
        (.ofOption .float (m.rtt.map f)) : Check Sample.Rule (Option Float)) = .ok (m.rtt.map f) :=
    Check.nullable_nonnegative (Option.forall_mem_map.2 hf)
  rw [Sample.draft, Record.withDefault_of_absent rfl, Record.required_of_lookup rfl htarget,
    Record.optional, Record.withDefault_of_lookup rfl (Check.nullable_text _),
    Record.required_of_lookup rfl m.source.choice_name,
    Record.required_of_lookup rfl (Check.count_of_le m.transmitted.zero_le),
    Record.required_of_lookup rfl (Check.count_of_le m.received.zero_le),
    Record.required_of_lookup rfl (Check.share_of_le h.zero_le_loss h.loss_le_one),
    Record.withDefault_of_lookup rfl (hrtt _ fun t ht => (h.zero_le_rtt t ht).1),
    Record.withDefault_of_lookup rfl (hrtt _ fun t ht => (h.zero_le_rtt t ht).2.1),
    Record.withDefault_of_lookup rfl (hrtt _ fun t ht => (h.zero_le_rtt t ht).2.2),
    Record.optional, Record.withDefault_of_lookup rfl (Check.nullable_count _),
    Record.optional, Record.withDefault_of_lookup rfl (Check.nullable_text _),
    Record.required_of_lookup rfl (a := observedAt) rfl]
  rfl

/-- Three times in order, or none, are taken together. -/
theorem ofOptions_draft (h : m.Valid) :
    ∃ rtt, RoundTrip.ofOptions (m.rtt.map (·.1)) (m.rtt.map (·.2.1)) (m.rtt.map (·.2.2)) = .ok rtt ∧
      rtt.map (fun t => (t.min, t.avg, t.max)) = m.rtt := by
  have ho := h.ordered
  cases hm : m.rtt with
  | none => exact ⟨none, rfl, rfl⟩
  | some t =>
    rw [hm] at ho
    exact ⟨some ⟨t.1, t.2.1, t.2.2, (ho t rfl).1, (ho t rfl).2⟩, dif_pos (ho t rfl), rfl⟩

/-- A measurement whose numbers are in order becomes a sample that holds them. -/
theorem ofRecord_toRecord (h : m.Valid) (observedAt : Float) :
    ∃ s, Sample.ofRecord (m.toRecord (.float observedAt)) = .ok s ∧ m.HeldBy observedAt s := by
  obtain ⟨rtt, hrtt, hm⟩ := ofOptions_draft h
  have hcheck : (m.draft observedAt).check = .ok
      { target := m.host.target, addr := m.host.addr, source := m.source
        transmitted := m.transmitted, received := m.received, received_le := h.received_le
        loss := m.loss, rtt, seq := m.seq, error := m.error, observedAt } := by
    rw [Sample.Draft.check]
    exact (dif_pos h.received_le).trans (congrArg (Except.map _) hrtt)
  rw [Sample.ofRecord, draft_toRecord h, Checked.andThen, hcheck]
  exact ⟨_, rfl, rfl, rfl, rfl, rfl, rfl, rfl, hm, rfl, rfl, rfl⟩

end Line.Measurement

/-! ## Numerals -/

namespace Line

theorem count_of_count {s : String} {n : Nat} (h : Numeral.Count s.toList n) : count s = .ok n := by
  rw [count, Numeral.count?_eq_some_iff.2 h]
  rfl

theorem measure_of_measure {s : String} {x : Float} (h : Numeral.Measure s.toList x) :
    measure s = .ok x := by
  rw [measure, Numeral.measure?_eq_some_iff.2 h]
  rfl

theorem count_cases (s : String) :
    (∃ n, count s = .ok n ∧ Numeral.Count s.toList n) ∨ count s = .error .invalidNumber := by
  rw [count]
  cases h : Numeral.count? s.toList with
  | none => exact .inr rfl
  | some n => exact .inl ⟨n, rfl, Numeral.count?_eq_some_iff.1 h⟩

theorem measure_cases (s : String) :
    (∃ x, measure s = .ok x ∧ Numeral.Measure s.toList x) ∨
      measure s = .error .invalidNumber := by
  rw [measure]
  cases h : Numeral.measure? s.toList with
  | none => exact .inr rfl
  | some x => exact .inl ⟨x, rfl, Numeral.measure?_eq_some_iff.1 h⟩

/-! ## Reading -/

variable {raw : String} {x : Shape}

theorem trim_ne_empty_of_shape? (hs : shape? (Text.trim raw).toList = some x) :
    Text.trim raw ≠ "" := by
  intro h
  have hnil : shape? [] = none := by decide
  rw [h] at hs
  exact absurd (hnil.symm.trans hs) nofun

/-- A line is refused for the reason that its shape is. -/
theorem read_of_error {fault : Fault} (hs : shape? (Text.trim raw).toList = some x)
    (hr : x.reading = .error fault) (observedAt : Value) :
    read observedAt raw = .unreadable fault (Text.trim raw) := by
  simp only [read, hs, hr]
  exact if_neg (trim_ne_empty_of_shape? hs)

/-- A line becomes a sample if the numbers in it are in order. -/
theorem read_of_measurement {m : Measurement} (hs : shape? (Text.trim raw).toList = some x)
    (hr : x.reading = .ok (.inr m)) (hm : m.Valid) (observedAt : Float) :
    ∃ s, read (.float observedAt) raw = .sample s ∧ m.HeldBy observedAt s := by
  obtain ⟨s, hrec, hheld⟩ := m.ofRecord_toRecord hm observedAt
  refine ⟨s, ?_, hheld⟩
  simp only [read, hs, hr, hrec]
  exact if_neg (trim_ne_empty_of_shape? hs)

end Line

end EchoMetrics
