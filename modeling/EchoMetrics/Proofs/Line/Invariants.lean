import EchoMetrics.Proofs.Line.Source

/-! # What a line can say

Main statements: a line that is a sample is a reply, a loss or a summary, each with its numbers in
order, and no line is refused because a sample cannot be built of it; and round-trip times come with
a reply, but for summaries that write times and no replies. -/

namespace EchoMetrics

/-! ## Kinds of samples -/

namespace Sample

/-- One request that was answered: nothing is lost, and its one time stands for all three. -/
structure IsReply (s : Sample) : Prop where
  source : s.source = .probe
  transmitted : s.transmitted = 1
  received : s.received = 1
  loss : s.loss = 0.0
  rtt : ∃ t, s.rtt = some t ∧ t.min = t.avg ∧ t.avg = t.max ∧ t.avg.isFinite ∧ 0.0 ≤ t.avg
  seq : s.seq.isSome
  error : s.error = none

/-- One request that was not answered. An error is told only where the request is not numbered. -/
structure IsLoss (s : Sample) : Prop where
  source : s.source = .probe
  transmitted : s.transmitted = 1
  received : s.received = 0
  loss : s.loss = 1.0
  rtt : s.rtt = none
  error : s.error.isSome → s.seq = none

/-- The requests of an interval. -/
structure IsSummary (s : Sample) : Prop where
  source : s.source = .summary
  received_le : s.received ≤ s.transmitted
  loss : 0.0 ≤ s.loss ∧ s.loss ≤ 1.0
  rtt : ∀ t ∈ s.rtt, 0.0 ≤ t.min ∧ t.min ≤ t.avg ∧ t.avg ≤ t.max ∧
    t.min.isFinite ∧ t.avg.isFinite ∧ t.max.isFinite
  seq : s.seq = none
  error : s.error = none

end Sample

namespace Line

open Text

/-- An outcome with its parts in order, and no refusal of a sample that was read. -/
def Outcome.WellFormed : Outcome → Prop
  | .sample s => s.IsReply ∨ s.IsLoss ∨ s.IsSummary
  | .ignored .localTime _ => True
  | .ignored (.duplicate target) _ | .ignored (.proberError target) _ => Word target.toList
  | .unreadable fault _ => fault ≠ .invalidSample

/-! ## Readings -/

section

variable {m : Measurement} {h : Host} {observedAt : Float} {s : Sample}

theorem isReply_of_heldBy {n : Nat} {v : String} {t : Float} (ht : Numeral.Measure v.toList t)
    (hheld : (Measurement.request h n (some t)).HeldBy observedAt s) : s.IsReply := by
  obtain ⟨r, hr, e⟩ := Option.map_eq_some_iff.1 hheld.rtt
  have hmin : r.min = t := congrArg (·.1) e
  have havg : r.avg = t := congrArg (·.2.1) e
  have hmax : r.max = t := congrArg (·.2.2) e
  refine ⟨hheld.source, hheld.transmitted, hheld.received, hheld.loss,
    ⟨r, hr, hmin.trans havg.symm, havg.trans hmax.symm, ?_, ?_⟩, ?_, hheld.error⟩
  · rw [havg]
    exact ht.finite
  · rw [havg]
    exact ht.nonneg
  · rw [hheld.seq]
    rfl

theorem isSummary_of_heldBy {c : Summary} {x r : Nat} {p : Float}
    {rtt : Option (Float × Float × Float)} (hn : c.Numbers x r p rtt)
    (hv : (Measurement.summary h x r p rtt).Valid)
    (hheld : (Measurement.summary h x r p rtt).HeldBy observedAt s) : s.IsSummary := by
  refine ⟨hheld.source, s.received_le, hheld.loss ▸ ⟨hv.zero_le_loss, hv.loss_le_one⟩, ?_,
    hheld.seq, hheld.error⟩
  intro t ht
  have hbounds := hn.rtt.bounds _ (hheld.mem_rtt ht)
  exact ⟨(hbounds t.min (by simp)).2, t.min_le_avg, t.avg_le_max, (hbounds t.min (by simp)).1,
    (hbounds t.avg (by simp)).1, (hbounds t.max (by simp)).1⟩

/-- The sample of a valid measurement is one of the three kinds. -/
theorem Shape.Measures.wellFormed {x : Shape} (hm : x.Measures m) (hv : m.Valid)
    (hheld : m.HeldBy observedAt s) : (Outcome.sample s).WellFormed := by
  cases hm with
  | probe hn hrtt =>
    cases hrtt with
    | absent =>
      refine .inr (.inl ⟨hheld.source, hheld.transmitted, hheld.received, hheld.loss,
        Option.map_eq_none_iff.1 hheld.rtt, fun he => ?_⟩)
      rw [hheld.error] at he
      cases he
    | present ht => exact .inl (isReply_of_heldBy ht hheld)
  | icmpError | unreachable =>
    exact .inr (.inl ⟨hheld.source, hheld.transmitted, hheld.received, hheld.loss,
      Option.map_eq_none_iff.1 hheld.rtt, fun _ => hheld.seq⟩)
  | summary hn => exact .inr (.inr (isSummary_of_heldBy hn hv hheld))

end

/-- Every line is a reply, a loss or a summary, or is said to be none of them for a reason of its
own: no sample that was read off a line is refused, and what is reported of a target names one. -/
theorem wellFormed_read (observedAt : Float) (raw : String) :
    (read (.float observedAt) raw).WellFormed := by
  have h := readsTo_read observedAt raw
  generalize read (.float observedAt) raw = o at h
  cases h with
  | empty | unrecognized => exact Fault.noConfusion
  | refused _ _ hne => exact hne
  | @ignored _ notice hx hr =>
    have hword := (Shape.written_of_shape? hx).word_of_notice hr
    cases notice with
    | localTime => trivial
    | duplicate target | proberError target => exact hword target rfl
  | sample hx _ hm hheld =>
    exact hm.wellFormed (hm.valid ((Shape.written_of_shape? hx).target_ne hm)) hheld

/-! ## Round-trip times without replies -/

/-- A summary of no replies that is written with round-trip times, all of its numbers in order. -/
inductive Shape.TimesWithoutReply : Shape → Prop
  | mk {h : Host} {c : Summary} {x : Nat} {p : Float} {t : Float × Float × Float} :
      c.Numbers x 0 p (some t) → ¬ 100.0 < p → t.1 ≤ t.2.1 → t.2.1 ≤ t.2.2 →
      Shape.TimesWithoutReply (.summary h c)

section

variable {x : Shape} {m : Measurement}

/-- Times are measured without replies only where they are written so. -/
theorem Shape.Measures.timesWithoutReply (hm : x.Measures m) (hrtt : m.rtt.isSome)
    (hreceived : m.received = 0) : x.TimesWithoutReply := by
  cases hm with
  | @summary h c _ _ p rtt hn _ hp ho =>
    obtain ⟨t, rfl⟩ := Option.isSome_iff_exists.1 hrtt
    obtain rfl := hreceived
    exact .mk hn hp (ho t rfl).1 (ho t rfl).2
  | @probe h seq rtt n t =>
    -- A request has a time only as a reply, and a reply is one that was received.
    cases t with
    | none => cases hrtt
    | some t => cases hreceived
  | icmpError | unreachable => cases hrtt

theorem Shape.TimesWithoutReply.exists_reading (hx : x.TimesWithoutReply) :
    ∃ m, x.reading = .ok (.inr m) ∧ m.rtt.isSome ∧ m.received = 0 := by
  cases hx with
  | @mk h c x p t hn hp hmin hmax =>
    have hm := Summary.measurement_of_numbers h hn
    have hgood : ¬ (x < 0 ∨ 100.0 < p) := not_or.2 ⟨Nat.not_lt_zero x, hp⟩
    have ho : ∀ u ∈ some t, u.1 ≤ u.2.1 ∧ u.2.1 ≤ u.2.2 := by
      intro u hu
      obtain rfl := Option.some.inj hu
      exact ⟨hmin, hmax⟩
    rw [if_neg hgood, if_pos ho] at hm
    exact ⟨.summary h x 0 p (some t), by rw [Shape.reading, hm]; rfl, rfl, rfl⟩

end

/-- Round-trip times come with a reply on every line but a summary that writes times and no replies,
which nothing refuses. -/
theorem one_le_received_iff (observedAt : Float) (raw : String) :
    (∀ s, read (.float observedAt) raw = .sample s → s.rtt.isSome → 1 ≤ s.received) ↔
      ∀ x, shape? (trim raw).toList = some x → ¬ x.TimesWithoutReply := by
  constructor
  · intro h x hx htimes
    obtain ⟨m, hr, hrtt, hreceived⟩ := htimes.exists_reading
    obtain ⟨s, hs, hheld⟩ := read_of_reading hx hr observedAt
    have hsome : s.rtt.isSome := by
      rw [← Option.isSome_map, hheld.rtt]
      exact hrtt
    have hone := h s hs hsome
    rw [hheld.received, hreceived] at hone
    exact absurd hone (by decide)
  · intro h s hs hsome
    obtain ⟨x, m, hx, hm, hheld⟩ := exists_measures_of_read hs
    refine Nat.one_le_iff_ne_zero.2 fun hreceived => h x hx (hm.timesWithoutReply ?_ ?_)
    · rw [← hheld.rtt, Option.isSome_map]
      exact hsome
    · rw [← hheld.received, hreceived]

/-- One request without an answer, and one time for none. -/
theorem times_without_reply :
    ∃ s, read (.float 0.5) "a : xmt/rcv/%loss = 1/0/100%, min/avg/max = 1/1/1" = .sample s ∧
      s.rtt.isSome ∧ s.received = 0 := by
  let s : Sample :=
    { target := "a", source := .summary, transmitted := 1, received := 0
      received_le := Nat.zero_le 1, loss := 1.0
      rtt := some ⟨1.0, 1.0, 1.0, by decide +kernel, by decide +kernel⟩, observedAt := 0.5 }
  have hs : read (.float 0.5) "a : xmt/rcv/%loss = 1/0/100%, min/avg/max = 1/1/1" = .sample s := by
    decide +kernel
  exact ⟨s, hs, rfl, rfl⟩

end Line

end EchoMetrics
