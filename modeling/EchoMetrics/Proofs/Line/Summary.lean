import EchoMetrics.Proofs.Line.Measurement
import EchoMetrics.Proofs.Line.Prefix

/-! # Lines that sum up an interval -/

namespace EchoMetrics.Line

open Text Text.Scanner

/-! ## Numbers -/

/-- The numbers that are written for the round-trip times. -/
inductive RoundTripNumbers :
    Option (String × String × String) → Option (Float × Float × Float) → Prop
  | absent : RoundTripNumbers none none
  | present {min avg max : String} {a b c : Float} : Numeral.Measure min.toList a →
      Numeral.Measure avg.toList b → Numeral.Measure max.toList c →
      RoundTripNumbers (some (min, avg, max)) (some (a, b, c))

/-- The numbers that are written in a summary. -/
structure Summary.Numbers (c : Summary) (transmitted received : Nat) (lost : Float)
    (rtt : Option (Float × Float × Float)) : Prop where
  transmitted : Numeral.Count c.transmitted.toList transmitted
  received : Numeral.Count c.received.toList received
  lost : Numeral.Measure c.lost.toList lost
  rtt : RoundTripNumbers c.rtt rtt

/-- What is measured in a summary. -/
def Measurement.summary (h : Host) (transmitted received : Nat) (lost : Float)
    (rtt : Option (Float × Float × Float)) : Measurement where
  host := h
  source := .summary
  transmitted
  received
  loss := lost / 100.0
  rtt

section

variable {c : Summary} {x r : Nat} {p : Float} {rtt : Option (Float × Float × Float)}

theorem Summary.measurement_of_not_numbers (h : Host) (hn : ∀ x r p rtt, ¬ c.Numbers x r p rtt) :
    c.measurement h = .error .invalidNumber := by
  obtain ⟨cx, cr, cp, crtt⟩ := c
  rcases count_cases cx with ⟨x, hx, hx'⟩ | hx
  · rcases count_cases cr with ⟨r, hr, hr'⟩ | hr
    · rcases measure_cases cp with ⟨p, hp, hp'⟩ | hp
      · rcases crtt with _ | ⟨min, avg, max⟩
        · exact absurd ⟨hx', hr', hp', .absent⟩ (hn x r p none)
        · rcases measure_cases min with ⟨a, ha, ha'⟩ | ha
          · rcases measure_cases avg with ⟨b, hb, hb'⟩ | hb
            · rcases measure_cases max with ⟨d, hd, hd'⟩ | hd
              · exact absurd ⟨hx', hr', hp', .present ha' hb' hd'⟩ (hn x r p (some (a, b, d)))
              · simp only [Summary.measurement, hx, hr, hp, ha, hb, hd, bind, Except.bind]
            · simp only [Summary.measurement, hx, hr, hp, ha, hb, bind, Except.bind]
          · simp only [Summary.measurement, hx, hr, hp, ha, bind, Except.bind]
      · simp only [Summary.measurement, hx, hr, hp, bind, Except.bind]
    · simp only [Summary.measurement, hx, hr, bind, Except.bind]
  · simp only [Summary.measurement, hx, bind, Except.bind]

theorem Summary.measurement_of_numbers (h : Host) (hn : c.Numbers x r p rtt) :
    c.measurement h =
      if x < r ∨ 100.0 < p then .error .inconsistentCounts
      else if ∀ t ∈ rtt, t.1 ≤ t.2.1 ∧ t.2.1 ≤ t.2.2 then .ok (.summary h x r p rtt)
      else .error .unorderedRoundTrip := by
  obtain ⟨hx, hr, hp, hrtt⟩ := hn
  obtain ⟨cx, cr, cp, crtt⟩ := c
  have hx := count_of_count hx
  have hr := count_of_count hr
  have hp := measure_of_measure hp
  cases hrtt with
  | absent =>
    simp only [Summary.measurement, hx, hr, hp, bind, Except.bind, pure, Except.pure,
      Bool.or_eq_true, decide_eq_true_eq]
    by_cases hc : x < r ∨ 100.0 < p
    · rw [if_pos hc, if_pos hc]
      rfl
    · rw [if_neg hc, if_neg hc, if_pos (by simp)]
      rfl
  | @present _ _ _ a b d ha hb hd =>
    have ha := measure_of_measure ha
    have hb := measure_of_measure hb
    have hd := measure_of_measure hd
    simp only [Summary.measurement, hx, hr, hp, ha, hb, hd, bind, Except.bind, pure, Except.pure,
      Bool.or_eq_true, decide_eq_true_eq]
    by_cases hc : x < r ∨ 100.0 < p
    · rw [if_pos hc, if_pos hc]
      rfl
    · rw [if_neg hc, if_neg hc]
      by_cases ho : a ≤ b ∧ b ≤ d
      · rw [if_pos ho, if_pos (by simpa using ho)]
        rfl
      · rw [if_neg ho, if_neg (by simpa using ho)]
        rfl

end

/-! ## Samples -/

/-- Times on lines are numerals, so they are finite and not negative. -/
theorem RoundTripNumbers.bounds {o : Option (String × String × String)}
    {rtt : Option (Float × Float × Float)} (h : RoundTripNumbers o rtt) :
    ∀ t ∈ rtt, ∀ v ∈ [t.1, t.2.1, t.2.2], v.isFinite = true ∧ 0.0 ≤ v := by
  cases h with
  | absent => exact nofun
  | present ha hb hc =>
    intro t ht
    obtain rfl := Option.some.inj ht
    simp [ha.finite, hb.finite, hc.finite, ha.nonneg, hb.nonneg, hc.nonneg]

theorem RoundTripNumbers.nonneg {o : Option (String × String × String)}
    {rtt : Option (Float × Float × Float)} (h : RoundTripNumbers o rtt) :
    ∀ t ∈ rtt, 0.0 ≤ t.1 ∧ 0.0 ≤ t.2.1 ∧ 0.0 ≤ t.2.2 := by
  intro t ht
  have hbounds := h.bounds t ht
  exact ⟨(hbounds t.1 (by simp)).2, (hbounds t.2.1 (by simp)).2, (hbounds t.2.2 (by simp)).2⟩

/-- Summaries with numbers in order have a loss between zero and one. -/
theorem Measurement.valid_summary {h : Host} {c : Summary} {x r : Nat} {p : Float}
    {rtt : Option (Float × Float × Float)} (hn : c.Numbers x r p rtt) (ht : h.target ≠ "")
    (hc : ¬ (x < r ∨ 100.0 < p)) (ho : ∀ t ∈ rtt, t.1 ≤ t.2.1 ∧ t.2.1 ≤ t.2.2) :
    (Measurement.summary h x r p rtt).Valid := by
  obtain ⟨hx, hp⟩ := not_or.1 hc
  have h100 : (100.0 : Float).isFinite = true := by decide +kernel
  obtain ⟨h0, h1⟩ := Binary.div_mem_unit hn.lost.finite h100 hn.lost.nonneg (by decide +kernel)
    (Binary.le_of_not_lt hn.lost.finite h100 hp)
  exact ⟨ht, Nat.not_lt.1 hx, h0, h1, hn.rtt.nonneg, ho⟩

/-! ## Shape -/

section

variable {h : Host} {c : Summary} {st l cs : List Char}

theorem Summary.Written.head? (hc : c.Written cs) : cs.head? = some 'x' := by
  obtain ⟨⟨-, -⟩, -⟩ := hc
  rfl

theorem RoundTrips.endsWithout {t : Option (String × String × String)} {r : List Char}
    (hr : RoundTrips t r) : EndsWithout isBlank ('%' :: r) := by
  cases hr with
  | absent => exact ⟨[], '%', rfl, by decide⟩
  | @present ss g min avg max hs hg h₁ h₂ h₃ =>
    have htimes : EndsWithout isBlank (min.toList ++ '/' :: (avg.toList ++ '/' :: max.toList)) :=
      (((h₃.word.endsWithout.cons _).append _).cons _).append _
    exact (((htimes.append g).append ss).cons ',').cons '%'

theorem Summary.Written.endsWithout (hc : c.Written cs) : EndsWithout isBlank cs := by
  obtain ⟨-, -, -, -, hr⟩ := hc
  exact ((((hr.endsWithout.append _).cons _).append _).cons _ |>.append _).append _

/-- No other shape gets in front of a summary. -/
theorem shape?_of_summary (hst : Prefix h.target st) (hl : Label h l) (hc : c.Written cs) :
    shape? (st ++ (l ++ cs)) = some (.summary h c) := by
  have hcs : Unindented cs := by
    intro d hd
    rw [hc.head?] at hd
    obtain rfl := Option.some.inj hd
    decide
  have hother {rest : List Char}
      (hr : rest = cs ∨ rest.head? = some ':' ∨ rest.head? = some '(') {s : String}
      (hs : s.toList ≠ []) (hx : s.toList.head? ∉ [some 'x', some ':', some '(']) :
      lit s rest = none := by
    refine lit_of_head_ne hs fun e => hx ?_
    rcases hr with rfl | hr | hr
    · simp [← e, hc.head?]
    · simp [← e, hr]
    · simp [← e, hr]
  have hprobe : stamped probe (st ++ (l ++ cs)) = none :=
    stamped_of_none hst hl hcs fun _ _ hr => bind_of_none (hother hr (by decide) (by decide))
  have hduplicate : stamped duplicate (st ++ (l ++ cs)) = none :=
    stamped_of_none hst hl hcs fun _ _ hr => bind_of_none (hother hr (by decide) (by decide))
  have hsummary : stamped summary (st ++ (l ++ cs)) = some (.summary h c) := by
    have hcounts : counts (cs ++ []) = some (c, []) := counts_append hc nofun
    rw [List.append_nil] at hcounts
    refine stamped_of_some hst hl (?_ : Line.summary _ = some (_, []))
    rw [summary, bind_of_some (label_append hl hcs), bind_of_some hcounts]
    rfl
  rw [shape?, localTime_of_label hst hl cs, hprobe, hduplicate, hsummary]
  rfl

/-- A summary is refused for numerals that are none, then for counts that contradict each other,
then for round-trip times out of order; otherwise it is a sample of all its numbers. -/
theorem read_summary {raw : String} (hraw : raw.toList = st ++ (l ++ cs)) (hst : Prefix h.target st)
    (hl : Label h l) (hc : c.Written cs) (observedAt : Float) :
    ((∀ x r p rtt, ¬ c.Numbers x r p rtt) →
        read (.float observedAt) raw = .unreadable .invalidNumber raw) ∧
      ∀ x r p rtt, c.Numbers x r p rtt →
        (x < r ∨ 100.0 < p → read (.float observedAt) raw = .unreadable .inconsistentCounts raw) ∧
        (¬ (x < r ∨ 100.0 < p) → ¬ (∀ t ∈ rtt, t.1 ≤ t.2.1 ∧ t.2.1 ≤ t.2.2) →
          read (.float observedAt) raw = .unreadable .unorderedRoundTrip raw) ∧
        (¬ (x < r ∨ 100.0 < p) → (∀ t ∈ rtt, t.1 ≤ t.2.1 ∧ t.2.1 ≤ t.2.2) →
          ∃ s, read (.float observedAt) raw = .sample s ∧
            (Measurement.summary h x r p rtt).HeldBy observedAt s) := by
  have htrim : trim raw = raw := by
    have hun := hst.unindented hl cs
    have hlast := (hc.endsWithout.append l).append st
    rw [trim, hraw, trimBy_eq_self hun hlast, ← hraw, String.ofList_toList]
  have hshape : shape? (trim raw).toList = some (.summary h c) := by
    rw [htrim, hraw]
    exact shape?_of_summary hst hl hc
  have hrefused {fault : Fault} (e : c.measurement h = .error fault) :
      read (.float observedAt) raw = .unreadable fault raw := by
    have hreading : (Shape.summary h c).reading = .error fault := by rw [Shape.reading, e]; rfl
    rw [read_of_error hshape hreading, htrim]
  constructor
  · intro hn
    exact hrefused (Summary.measurement_of_not_numbers h hn)
  · intro x r p rtt hn
    have hm := Summary.measurement_of_numbers h hn
    refine ⟨?_, ?_, ?_⟩
    · intro hbad
      rw [if_pos hbad] at hm
      exact hrefused hm
    · intro hgood ho
      rw [if_neg hgood, if_neg ho] at hm
      exact hrefused hm
    · intro hgood ho
      rw [if_neg hgood, if_pos ho] at hm
      have hreading : (Shape.summary h c).reading = .ok (.inr (.summary h x r p rtt)) := by
        rw [Shape.reading, hm]
        rfl
      exact read_of_measurement hshape hreading
        (Measurement.valid_summary hn hl.target_ne hgood ho) observedAt

end

/-- All parts that a summary may have. -/
theorem read_summary_full :
    ∃ s, read (.float 0.5) "[1.5] dns (10.0.0.1) : xmt/rcv/%loss = 3/2/33%, min/avg/max = 1/2.5/4" =
        .sample s ∧
      (Measurement.summary ⟨"dns", some "10.0.0.1"⟩ 3 2 33.0 (some (1.0, 2.5, 4.0))).HeldBy
        0.5 s := by
  have hst : Prefix "dns" ('[' :: (['1', '.', '5'] ++ ']' :: [' '])) :=
    .present (by decide : WordWithout ']' ['1', '.', '5']).2 (by decide)
  have hb : Blanks [' '] := by decide
  have hl : Label ⟨"dns", some "10.0.0.1"⟩ _ :=
    .mk (.addressed (by decide) hb (by decide)) hb hb
  have hc : Summary.Written ⟨"3", "2", "33", some ("1", "2.5", "4")⟩ _ :=
    .mk (.mk hb.2 hb.2) (by decide) (by decide) (by decide)
      (.present hb.2 (.mk hb.2 hb.2) (by decide) (by decide)
        (by decide))
  have hn : Summary.Numbers ⟨"3", "2", "33", some ("1", "2.5", "4")⟩ 3 2 33.0
      (some (1.0, 2.5, 4.0)) :=
    ⟨Numeral.count?_eq_some_iff.1 (by decide), Numeral.count?_eq_some_iff.1 (by decide),
      Numeral.measure?_eq_some_iff.1 (by decide +kernel),
      .present (Numeral.measure?_eq_some_iff.1 (by decide +kernel))
        (Numeral.measure?_eq_some_iff.1 (by decide +kernel))
        (Numeral.measure?_eq_some_iff.1 (by decide +kernel))⟩
  exact ((read_summary (by decide +kernel) hst hl hc 0.5).2 3 2 33.0 _ hn).2.2
    (by decide +kernel) (by decide +kernel)

end EchoMetrics.Line
