import EchoMetrics.Line.Grammar
import EchoMetrics.Proofs.Line.Probe
import EchoMetrics.Proofs.Line.Summary

/-! # Where a sample comes from

The other direction of reading: what is known of a line by what it has become. Main statements: how
a line comes to its outcome; and a line that is a sample is written as one of the four shapes that
measure something, and the sample holds what that shape says and nothing else. -/

namespace EchoMetrics.Line

open Text

/-! ## What shapes measure -/

/-- A request that was not answered, but perhaps reported. -/
def Measurement.lost (h : Host) (error : Option String) : Measurement where
  host := h
  source := .probe
  transmitted := 1
  received := 0
  loss := 1.0
  rtt := none
  seq := none
  error

/-- What a shape measures, if its numbers are in order. The other shapes measure nothing. -/
inductive Shape.Measures : Shape → Measurement → Prop
  | summary {h : Host} {c : Summary} {x r : Nat} {p : Float}
      {rtt : Option (Float × Float × Float)} :
      c.Numbers x r p rtt → r ≤ x → ¬ 100.0 < p → (∀ t ∈ rtt, t.1 ≤ t.2.1 ∧ t.2.1 ≤ t.2.2) →
      Shape.Measures (.summary h c) (.summary h x r p rtt)
  | probe {h : Host} {seq : String} {rtt : Option String} {n : Nat} {t : Option Float} :
      Numeral.Count seq.toList n → ReplyTime rtt t →
      Shape.Measures (.probe h seq rtt) (.request h n t)
  | icmpError {h : Host} {error source : String} :
      Shape.Measures (.icmpError h error source) (.lost h (some (error ++ " from " ++ source)))
  | unreachable {h : Host} : Shape.Measures (.unreachable h) (.lost h none)

/-- What the reading of a shape comes to: what it says, or why its numbers are refused. -/
inductive Shape.ReadsAs : Shape → Except Fault (Notice ⊕ Measurement) → Prop
  | localTime : Shape.ReadsAs .localTime (.ok (.inl .localTime))
  | duplicate {h : Host} : Shape.ReadsAs (.duplicate h) (.ok (.inl (.duplicate h.target)))
  | proberError {target : String} :
      Shape.ReadsAs (.proberError target) (.ok (.inl (.proberError target)))
  | measured {x : Shape} {m : Measurement} : x.Measures m → Shape.ReadsAs x (.ok (.inr m))
  | refused {x : Shape} {fault : Fault} : fault ≠ .invalidSample → Shape.ReadsAs x (.error fault)

variable {x : Shape} {m : Measurement} {cs : List Char}

theorem readsAs_summary (h : Host) (c : Summary) :
    (Shape.summary h c).ReadsAs (Shape.summary h c).reading := by
  rw [Shape.reading]
  by_cases hn : ∃ x r p rtt, c.Numbers x r p rtt
  · obtain ⟨x, r, p, rtt, hn⟩ := hn
    rw [Summary.measurement_of_numbers h hn]
    split
    · exact .refused Fault.noConfusion
    · rename_i hgood
      obtain ⟨hx, hp⟩ := not_or.1 hgood
      split
      · rename_i ho
        exact .measured (.summary hn (Nat.not_lt.1 hx) hp ho)
      · exact .refused Fault.noConfusion
  · rw [Summary.measurement_of_not_numbers h fun x r p rtt h => hn ⟨x, r, p, rtt, h⟩]
    exact .refused Fault.noConfusion

theorem readsAs_probe (h : Host) (seq : String) (rtt : Option String) :
    (Shape.probe h seq rtt).ReadsAs (Shape.probe h seq rtt).reading := by
  by_cases hn : ∃ n t, Numeral.Count seq.toList n ∧ ReplyTime rtt t
  · obtain ⟨n, t, hn, ht⟩ := hn
    rw [reading_of_numbers hn ht]
    exact .measured (.probe hn ht)
  · rw [reading_of_not_numbers fun n t h h' => hn ⟨n, t, h, h'⟩]
    exact .refused Fault.noConfusion

theorem Shape.readsAs_reading (x : Shape) : x.ReadsAs x.reading := by
  cases x with
  | localTime => exact .localTime
  | duplicate => exact .duplicate
  | proberError => exact .proberError
  | summary h c => exact readsAs_summary h c
  | probe h seq rtt => exact readsAs_probe h seq rtt
  | icmpError => exact .measured .icmpError
  | unreachable => exact .measured .unreachable

theorem measures_of_reading (hr : x.reading = .ok (.inr m)) : x.Measures m := by
  have h := x.readsAs_reading
  rw [hr] at h
  cases h with
  | measured hm => exact hm

theorem ReplyTime.bounds {o : Option String} {rtt : Option Float} (h : ReplyTime o rtt) :
    ∀ v ∈ rtt, v.isFinite = true ∧ 0.0 ≤ v := by
  cases h with
  | absent => exact nofun
  | present hx =>
    intro v hv
    obtain rfl := Option.some.inj hv
    exact ⟨hx.finite, hx.nonneg⟩

theorem Shape.Measures.bounds (hm : x.Measures m) :
    ∀ t ∈ m.rtt, ∀ v ∈ [t.1, t.2.1, t.2.2], v.isFinite = true ∧ 0.0 ≤ v := by
  cases hm with
  | summary hn => exact hn.rtt.bounds
  | @probe _ _ _ _ v _ hrtt =>
    cases v with
    | none => exact nofun
    | some v =>
      intro t ht
      obtain rfl := Option.some.inj ht
      simpa using hrtt.bounds v rfl
  | icmpError | unreachable => exact nofun

theorem Measurement.HeldBy.mem_rtt {observedAt : Float} {s : Sample} {t : RoundTrip}
    (hheld : m.HeldBy observedAt s) (ht : t ∈ s.rtt) : (t.min, t.avg, t.max) ∈ m.rtt := by
  rw [← hheld.rtt, Option.mem_def.1 ht]
  rfl

/-! ## No measurement is refused -/

theorem Host.Written.word {h : Host} (hw : h.Written cs) : Word h.target.toList := by
  cases hw with
  | bare ht | addressed ht => exact ht

theorem Label.word {h : Host} (hl : Label h cs) : Word h.target.toList := by
  cases hl with
  | mk hw => exact hw.word

/-- What is measured is measured of a word. -/
theorem Shape.Written.word (hw : x.Written cs) (hm : x.Measures m) : Word m.host.target.toList := by
  cases hm with
  | summary =>
    cases hw with
    | summary _ hl => exact hl.word
  | @probe _ _ _ _ t =>
    cases hw with
    | probe _ hl => cases t <;> exact hl.word
  | icmpError =>
    cases hw with
    | icmpError _ _ _ _ hh => exact hh.word
  | unreachable =>
    cases hw with
    | unreachable hh => exact hh.word

theorem Shape.Written.target_ne (hw : x.Written cs) (hm : x.Measures m) : m.host.target ≠ "" := by
  intro h
  exact (hw.word hm).1 (by rw [h]; rfl)

theorem Measurement.valid_lost {h : Host} (ht : h.target ≠ "") (error : Option String) :
    (Measurement.lost h error).Valid :=
  ⟨ht, Nat.zero_le 1, (by decide +kernel : (0.0 : Float) ≤ 1.0),
    (by decide +kernel : (1.0 : Float) ≤ 1.0), nofun, nofun⟩

theorem Shape.Measures.valid (hm : x.Measures m) (ht : m.host.target ≠ "") : m.Valid := by
  cases hm with
  | summary hn hx hp ho =>
    exact Measurement.valid_summary hn ht (not_or.2 ⟨Nat.not_lt.2 hx, hp⟩) ho
  | @probe _ _ _ _ t hn hrtt =>
    have ht' := ht
    cases t <;> exact Measurement.valid_request hrtt ht' _
  | icmpError | unreachable => exact Measurement.valid_lost ht _

/-- What is reported without a measurement is reported of a word. -/
theorem Shape.Written.word_of_notice {notice : Notice} (hw : x.Written cs)
    (hr : x.reading = .ok (.inl notice)) : ∀ t ∈ notice.target?, Word t.toList := by
  intro t ht
  have h := x.readsAs_reading
  rw [hr] at h
  cases h with
  | localTime => cases ht
  | duplicate =>
    obtain rfl := Option.some.inj ht
    cases hw with
    | duplicate _ hl => exact hl.word
  | proberError =>
    obtain rfl := Option.some.inj ht
    cases hw with
    | proberError ht => exact ht

/-! ## Which shape it is -/

theorem Shape.Measures.source_eq_summary_iff (hm : x.Measures m) :
    m.source = .summary ↔ ∃ h c, x = .summary h c := by
  cases hm with
  | summary => exact ⟨fun _ => ⟨_, _, rfl⟩, fun _ => rfl⟩
  | @probe _ _ _ _ t => cases t <;> exact ⟨nofun, nofun⟩
  | icmpError | unreachable => exact ⟨nofun, nofun⟩

theorem Shape.Measures.isSome_seq_iff (hm : x.Measures m) :
    m.seq.isSome ↔ ∃ h seq rtt, x = .probe h seq rtt := by
  cases hm with
  | @probe _ _ _ _ t => cases t <;> exact ⟨fun _ => ⟨_, _, _, rfl⟩, fun _ => rfl⟩
  | summary | icmpError | unreachable => exact ⟨nofun, nofun⟩

theorem Shape.Measures.isSome_error_iff (hm : x.Measures m) :
    m.error.isSome ↔ ∃ h error source, x = .icmpError h error source := by
  cases hm with
  | icmpError => exact ⟨fun _ => ⟨_, _, _, rfl⟩, fun _ => rfl⟩
  | @probe _ _ _ _ t => cases t <;> exact ⟨nofun, nofun⟩
  | summary | unreachable => exact ⟨nofun, nofun⟩

/-! ## Lines -/

/-- What is measured in the shape of a line becomes a sample. -/
theorem read_of_reading {raw : String} (hx : shape? (trim raw).toList = some x)
    (hr : x.reading = .ok (.inr m)) (observedAt : Float) :
    ∃ s, read (.float observedAt) raw = .sample s ∧ m.HeldBy observedAt s := by
  have hm := measures_of_reading hr
  have hv := hm.valid ((Shape.written_of_shape? hx).target_ne hm)
  exact read_of_measurement hx hr hv observedAt

/-- How a line comes to its outcome. A sample is not refused once its numbers are in order. -/
inductive ReadsTo (observedAt : Float) (raw : String) : Outcome → Prop
  | empty : trim raw = "" → ReadsTo observedAt raw (.unreadable .empty raw)
  | unrecognized : shape? (trim raw).toList = none →
      ReadsTo observedAt raw (.unreadable .unrecognized (trim raw))
  | refused {x : Shape} {fault : Fault} : shape? (trim raw).toList = some x →
      x.reading = .error fault → fault ≠ .invalidSample →
      ReadsTo observedAt raw (.unreadable fault (trim raw))
  | ignored {x : Shape} {notice : Notice} : shape? (trim raw).toList = some x →
      x.reading = .ok (.inl notice) → ReadsTo observedAt raw (.ignored notice (trim raw))
  | sample {x : Shape} {m : Measurement} {s : Sample} : shape? (trim raw).toList = some x →
      x.reading = .ok (.inr m) → x.Measures m → m.HeldBy observedAt s →
      ReadsTo observedAt raw (.sample s)

theorem readsTo_read (observedAt : Float) (raw : String) :
    ReadsTo observedAt raw (read (.float observedAt) raw) := by
  by_cases hempty : trim raw = ""
  · simp only [read, if_pos hempty]
    exact .empty hempty
  · cases hx : shape? (trim raw).toList with
    | none =>
      simp only [read, hx, if_neg hempty]
      exact .unrecognized hx
    | some x =>
      have hreads := x.readsAs_reading
      generalize hr : x.reading = said at hreads
      cases hreads with
      | localTime | duplicate | proberError =>
        simp only [read, hx, hr, if_neg hempty]
        exact .ignored hx hr
      | measured hm =>
        obtain ⟨s, hs, hheld⟩ := read_of_reading hx hr observedAt
        rw [hs]
        exact .sample hx hr hm hheld
      | refused hne =>
        rw [read_of_error hx hr]
        exact .refused hx hr hne

section

variable {raw : String} {observedAt : Float} {s : Sample}

/-- A sample holds what is measured in the shape of its line. -/
theorem exists_measures_of_read (h : read (.float observedAt) raw = .sample s) :
    ∃ x m, shape? (trim raw).toList = some x ∧ x.Measures m ∧ m.HeldBy observedAt s := by
  have hreads := readsTo_read observedAt raw
  rw [h] at hreads
  cases hreads with
  | sample hx _ hm hheld => exact ⟨_, _, hx, hm, hheld⟩

theorem word_of_ignored {line : String} {notice : Notice}
    (h : read (.float observedAt) raw = .ignored notice line) :
    ∀ t ∈ notice.target?, Word t.toList := by
  have hreads := readsTo_read observedAt raw
  rw [h] at hreads
  cases hreads with
  | ignored hx hr => exact (Shape.written_of_shape? hx).word_of_notice hr

end

theorem endsWithout_trim {raw : String} (h : shape? (trim raw).toList = some x) :
    EndsWithout isBlank (trim raw).toList := by
  have hne := trim_ne_empty_of_shape? h
  rw [trim, String.toList_ofList]
  refine endsWithout_trimBy fun hnil => hne ?_
  rw [trim, hnil]

/-- A line is a sample only if, once trimmed, it is written as a summary, as what is said of one
request, as a report of an undeliverable request or as an unreachable host, with all its numbers in
order. The sample holds what is written there: its source tells summaries, its number in the
sequence tells requests and its error tells reports from the other shapes. -/
theorem read_sound {raw : String} {observedAt : Float} {s : Sample}
    (h : read (.float observedAt) raw = .sample s) :
    ∃ x m, Shape.Written x (trim raw).toList ∧ EndsWithout isBlank (trim raw).toList ∧
      x.Measures m ∧ m.HeldBy observedAt s ∧
      (s.source = .summary ↔ ∃ h c, x = .summary h c) ∧
      (s.seq.isSome ↔ ∃ h seq rtt, x = .probe h seq rtt) ∧
      (s.error.isSome ↔ ∃ h error source, x = .icmpError h error source) := by
  obtain ⟨x, m, hx, hm, hheld⟩ := exists_measures_of_read h
  refine ⟨x, m, Shape.written_of_shape? hx, endsWithout_trim hx, hm, hheld, ?_, ?_, ?_⟩
  · rw [hheld.source]
    exact hm.source_eq_summary_iff
  · rw [hheld.seq]
    exact hm.isSome_seq_iff
  · rw [hheld.error]
    exact hm.isSome_error_iff

/-- A report with a stamp, whose sender is part of its error. -/
theorem read_sound_report :
    ∃ s, read (.float 0.5) "[1] Lost from gw for ICMP Echo sent to dns (::1) " = .sample s ∧
      ∃ x m, Shape.Written x "[1] Lost from gw for ICMP Echo sent to dns (::1)".toList ∧
        x.Measures m ∧ m.HeldBy 0.5 s ∧ s.error = some "Lost from gw" := by
  let s : Sample :=
    { target := "dns", addr := some "::1", source := .probe, transmitted := 1, received := 0
      received_le := Nat.zero_le 1, loss := 1.0, error := some "Lost from gw", observedAt := 0.5 }
  have hs : read (.float 0.5) "[1] Lost from gw for ICMP Echo sent to dns (::1) " = .sample s := by
    decide +kernel
  have ht : trim "[1] Lost from gw for ICMP Echo sent to dns (::1) " =
      "[1] Lost from gw for ICMP Echo sent to dns (::1)" := by decide +kernel
  obtain ⟨x, m, hw, -, hm, hheld, -⟩ := read_sound hs
  rw [ht] at hw
  exact ⟨s, hs, x, m, hw, hm, hheld, rfl⟩

end EchoMetrics.Line
