import EchoMetrics.Proofs.Line.Measurement
import EchoMetrics.Proofs.Line.Prefix

/-! # Lines about one request

What a line says of one request is decided by the host, the sequence number and the time of the
answer alone. The remark behind the answer may be any text on the same line, and may end in blanks,
which are trimmed before the line is read. -/

namespace EchoMetrics.Line

open Text Text.Scanner

/-! ## Remarks -/

theorem Remark.of_isPrefix {r r' : List Char} (hr : Remark r) (h : r' <+: r) : Remark r' := by
  obtain ⟨more, rfl⟩ := h
  cases r' with
  | nil => exact .absent
  | cons c cs =>
    cases hr with
    | present hc hn => exact .present hc fun d hd => hn d (List.mem_append_left more hd)

theorem Answer.endsWithout {rtt : Option String} {a : List Char} (h : Answer rtt a) :
    EndsWithout isBlank a := by
  cases h with
  | timedOut => exact ⟨"timed ou".toList, 't', rfl, rfl⟩
  | reply =>
    have hms : EndsWithout isBlank " ms".toList := ⟨" m".toList, 's', rfl, rfl⟩
    exact (((hms.append _).append _).append _).append _

/-! ## Shape -/

section

variable {h : Host} {seq : String} {rtt : Option String} {st l bs a r : List Char}

/-- A probe is the first shape that fits. -/
theorem shape?_of_probe (hst : Prefix h.target st) (hl : Label h l) (hs : Without ']' seq.toList)
    (hb : Blanks bs) (ha : Answer rtt a) (hr : Remark r) :
    shape? (st ++ (l ++ '[' :: (seq.toList ++ ']' :: ',' :: (bs ++ (a ++ r))))) =
      some (.probe h seq rtt) := by
  have hun : Unindented (a ++ r) := by
    cases ha with
    | timedOut => exact unindented_cons (by decide)
    | reply hsize =>
      rw [List.append_assoc]
      exact hsize.unindented _
  have hprobe : stamped probe (st ++ (l ++ '[' :: (seq.toList ++ ']' :: ',' :: (bs ++ (a ++ r))))) =
      some (.probe h seq rtt) := by
    refine stamped_of_some hst hl (?_ : probe _ = some (_, []))
    rw [probe, bind_of_some (label_append hl (unindented_cons (by decide))),
      bind_of_some (lit_cons rfl), bind_of_some (upTo_eq_some_iff.2 ⟨rfl, hs⟩),
      bind_of_some (lit_cons rfl), bind_of_some (blanks_append hb hun),
      bind_of_some (answer_append ha), bind_of_some (remark_of_written hr), String.ofList_toList]
    rfl
  rw [shape?, localTime_of_label hst hl, hprobe]
  rfl

/-! ## Samples -/

/-- The number that is written for the time of an answer. -/
inductive ReplyTime : Option String → Option Float → Prop
  | absent : ReplyTime none none
  | present {v : String} {x : Float} : Numeral.Measure v.toList x → ReplyTime (some v) (some x)

/-- What one request comes to: everything is received, in the time of the answer, or all is lost. -/
def Measurement.request (h : Host) (n : Nat) : Option Float → Measurement
  | some t =>
    { host := h, source := .probe, transmitted := 1, received := 1, loss := 0.0
      rtt := some (t, t, t), seq := some n, error := none }
  | none =>
    { host := h, source := .probe, transmitted := 1, received := 0, loss := 1.0, rtt := none
      seq := some n, error := none }

theorem Measurement.valid_request {t : Option Float} (hrtt : ReplyTime rtt t)
    (ht : h.target ≠ "") (n : Nat) : (Measurement.request h n t).Valid := by
  cases hrtt with
  | absent =>
    exact ⟨ht, Nat.zero_le 1, (by decide +kernel : (0.0 : Float) ≤ 1.0),
      (by decide +kernel : (1.0 : Float) ≤ 1.0), nofun, nofun⟩
  | @present v x hx =>
    refine ⟨ht, Nat.le_refl 1, (by decide +kernel : (0.0 : Float) ≤ 0.0),
      (by decide +kernel : (0.0 : Float) ≤ 1.0), ?_, ?_⟩
    · rintro t ⟨⟩
      exact ⟨hx.nonneg, hx.nonneg, hx.nonneg⟩
    · rintro t ⟨⟩
      exact ⟨Binary.le_self hx.finite, Binary.le_self hx.finite⟩

theorem reading_of_numbers {n : Nat} {t : Option Float} (hn : Numeral.Count seq.toList n)
    (ht : ReplyTime rtt t) :
    (Shape.probe h seq rtt).reading = .ok (.inr (.request h n t)) := by
  cases ht with
  | absent =>
    rw [Shape.reading, count_of_count hn]
    rfl
  | present hx =>
    rw [Shape.reading, count_of_count hn, Option.mapM_some, measure_of_measure hx]
    rfl

theorem reading_of_not_numbers
    (hn : ∀ n t, Numeral.Count seq.toList n → ¬ ReplyTime rtt t) :
    (Shape.probe h seq rtt).reading = .error .invalidNumber := by
  rcases count_cases seq with ⟨n, hc, hcount⟩ | hc
  · cases rtt with
    | none => exact absurd .absent (hn n none hcount)
    | some v =>
      rcases measure_cases v with ⟨x, -, hmeasure⟩ | hm
      · exact absurd (.present hmeasure) (hn n (some x) hcount)
      · rw [Shape.reading, hc, Option.mapM_some, hm]
        rfl
  · rw [Shape.reading, hc]
    rfl

/-- What is said of one request is told apart once the line is trimmed. -/
theorem shape?_trim_of_probe {raw : String}
    (hraw : raw.toList = st ++ (l ++ '[' :: (seq.toList ++ ']' :: ',' :: (bs ++ (a ++ r)))))
    (hst : Prefix h.target st) (hl : Label h l) (hs : Without ']' seq.toList) (hb : Blanks bs)
    (ha : Answer rtt a) (hr : Remark r) :
    shape? (trim raw).toList = some (.probe h seq rtt) := by
  have hlast : EndsWithout isBlank
      (st ++ (l ++ '[' :: (seq.toList ++ ']' :: ',' :: (bs ++ a)))) :=
    (((((ha.endsWithout.append bs).cons _).cons _).append _).cons _ |>.append _).append _
  have htrim := trimBy_append r (hst.unindented hl _) hlast
  simp only [List.append_assoc, List.cons_append] at htrim
  rw [trim, String.toList_ofList, hraw, htrim]
  exact shape?_of_probe hst hl hs hb ha (hr.of_isPrefix (trimEndBy_isPrefix isBlank r))

/-- What is said of one request is refused for numerals that are none; otherwise it is a sample of
the host, the sequence number and the time of the answer. -/
theorem read_probe {raw : String}
    (hraw : raw.toList = st ++ (l ++ '[' :: (seq.toList ++ ']' :: ',' :: (bs ++ (a ++ r)))))
    (hst : Prefix h.target st) (hl : Label h l) (hs : Without ']' seq.toList) (hb : Blanks bs)
    (ha : Answer rtt a) (hr : Remark r) (observedAt : Float) :
    ((∀ n t, Numeral.Count seq.toList n → ¬ ReplyTime rtt t) →
        read (.float observedAt) raw = .unreadable .invalidNumber (trim raw)) ∧
      ∀ n t, Numeral.Count seq.toList n → ReplyTime rtt t →
        ∃ s, read (.float observedAt) raw = .sample s ∧
          (Measurement.request h n t).HeldBy observedAt s := by
  have hshape := shape?_trim_of_probe hraw hst hl hs hb ha hr
  constructor
  · intro hn
    exact read_of_error hshape (reading_of_not_numbers hn) _
  · intro n t hn ht
    exact read_of_measurement hshape (reading_of_numbers hn ht)
      (Measurement.valid_request ht hl.target_ne n) observedAt

end

/-- An answer in time, with a remark that ends in a blank. -/
theorem read_probe_reply :
    ∃ s, read (.float 0.5) "[1.5] dns (10.0.0.1) : [9], 64 bytes, 0.25 ms (0.04 avg, 0% loss) " =
        .sample s ∧
      (Measurement.request ⟨"dns", some "10.0.0.1"⟩ 9 (some 0.25)).HeldBy 0.5 s := by
  have hst : Prefix "dns" ('[' :: (['1', '.', '5'] ++ ']' :: [' '])) :=
    .present (by decide : WordWithout ']' ['1', '.', '5']).2 (by decide)
  have hb : Blanks [' '] := by decide
  have hl : Label ⟨"dns", some "10.0.0.1"⟩ _ :=
    .mk (.addressed (by decide) hb (by decide)) hb hb
  have hs : Without ']' "9".toList := by decide
  have hw : Word "64".toList := by decide
  have ha : Answer (some "0.25") _ := .reply hw hb (by decide)
  have hr : Remark (' ' :: "(0.04 avg, 0% loss) ".toList) := .present (by decide) (by decide)
  have hn : Numeral.Count "9".toList 9 := Numeral.count?_eq_some_iff.1 (by decide)
  have ht : ReplyTime (some "0.25") (some 0.25) :=
    .present (Numeral.measure?_eq_some_iff.1 (by decide +kernel))
  exact (read_probe (by decide +kernel) hst hl hs hb ha hr 0.5).2 9 (some 0.25) hn ht

end EchoMetrics.Line
