import EchoMetrics.Proofs.Line.Report

/-! # Measurements behind a stamp

The same line with a stamp in front of it. Main statements: what is said of one request and what
sums up an interval has the same shape behind a stamp; a report of an undeliverable request has it
unless the stamp is taken for the target of another shape; and an unreachable host never has it. -/

namespace EchoMetrics.Line

open Text Text.Scanner

/-! ## The text behind a stamp -/

section

variable {raw raw' : String} {ts bs : List Char}

/-- A stamp in front of a line stays in front of it once the line is trimmed. -/
theorem exists_trim_behind (hne : trim raw ≠ "")
    (hraw' : raw'.toList = '[' :: (ts ++ ']' :: (bs ++ raw.toList))) (hbs : Blanks bs) :
    ∃ bs', Blanks bs' ∧ (trim raw').toList = '[' :: (ts ++ ']' :: (bs' ++ (trim raw).toList)) := by
  have hbody : trimBy isBlank raw.toList ≠ [] := by
    intro hnil
    exact hne (by rw [trim, hnil])
  obtain ⟨front, back, hfront, hback, hsplit⟩ := exists_append_trimBy_append isBlank raw.toList
  have hlast : EndsWithout isBlank
      ('[' :: (ts ++ ']' :: (bs ++ front ++ trimBy isBlank raw.toList))) :=
    ((((endsWithout_trimBy hbody).append _).cons _).append _).cons _
  have hline : raw'.toList =
      '[' :: (ts ++ ']' :: (bs ++ front ++ trimBy isBlank raw.toList)) ++ back :=
    calc raw'.toList = '[' :: (ts ++ ']' :: (bs ++ raw.toList)) := hraw'
      _ = '[' :: (ts ++ ']' :: (bs ++ (front ++ (trimBy isBlank raw.toList ++ back)))) := by
        rw [← hsplit]
      _ = _ := by simp
  refine ⟨bs ++ front, ⟨by simp [hbs.1], List.forall_mem_append.2 ⟨hbs.2, hfront⟩⟩, ?_⟩
  rw [trim, String.toList_ofList, hline, trimBy_append back (unindented_cons (by decide)) hlast,
    trimEndBy_of_forall hback, List.append_nil, trim, String.toList_ofList]

end

/-! ## Shapes behind a stamp -/

/-- The line is, from its first character on and without a stamp, what is said of one request, a
second answer or the summary of an interval. -/
def Labelled (line : List Char) : Prop :=
  (probe line).isSome ∨ (duplicate line).isSome ∨ (summary line).isSome

instance : DecidablePred Labelled := fun _ => inferInstanceAs (Decidable (_ ∨ _ ∨ _))

section

variable {line : List Char}

/-- Without a stamp, the whole line is tried last. -/
theorem eq_none_of_stamped {s : Scanner Shape} (h : stamped s line = none) : s line = none := by
  have hmem : line ∈ starts line := by
    rw [starts]
    split <;> simp
  simpa using List.findSome?_eq_none_iff.1 h line hmem

/-- A line is a report only where no shape that begins with a label fits. -/
theorem stamped_of_icmpError {h : Host} {error source : String}
    (e : shape? line = some (.icmpError h error source)) :
    stamped probe line = none ∧ stamped duplicate line = none ∧ stamped summary line = none ∧
      stamped icmpError line = some (.icmpError h error source) := by
  simp only [shape?, Option.orElse_eq_orElse, ← Option.or_eq_orElse, Option.or_eq_some_iff] at e
  rcases e with e | ⟨-, e | ⟨hp, e | ⟨hd, e | ⟨hs, e | ⟨-, e | ⟨-, e⟩⟩⟩⟩⟩⟩
  · obtain ⟨_, e⟩ := of_unstamped e
    simp [localTime, bind_eq_some_iff, map_eq_some_iff] at e
  · obtain ⟨_, _, _, -, -, e⟩ := of_stamped e
    simp [probe, bind_eq_some_iff, map_eq_some_iff] at e
  · obtain ⟨_, _, _, -, -, e⟩ := of_stamped e
    simp [duplicate, bind_eq_some_iff, map_eq_some_iff] at e
  · obtain ⟨_, _, _, -, -, e⟩ := of_stamped e
    simp [summary, bind_eq_some_iff, map_eq_some_iff] at e
  · exact ⟨hp, hd, hs, e⟩
  · obtain ⟨_, e⟩ := of_unstamped e
    simp [unreachable, bind_eq_some_iff, map_eq_some_iff] at e
  · obtain ⟨_, e⟩ := of_unstamped e
    simp only [proberError] at e
    split at e <;> simp at e

theorem not_labelled_of_icmpError {h : Host} {error source : String}
    (e : shape? line = some (.icmpError h error source)) : ¬ Labelled line := by
  obtain ⟨hp, hd, hs, -⟩ := stamped_of_icmpError e
  simp [Labelled, eq_none_of_stamped hp, eq_none_of_stamped hd, eq_none_of_stamped hs]

theorem exists_label_of_labelled (h : Labelled line) : ∃ p, label line = some p := by
  cases hl : label line with
  | some p => exact ⟨p, rfl⟩
  | none =>
    have hp : probe line = none := bind_of_none hl
    have hd : duplicate line = none := bind_of_none hl
    have hs : summary line = none := bind_of_none hl
    simp [Labelled, hp, hd, hs] at h

end

section

variable {ts bs body : List Char} {x : Shape} {m : Measurement}

/-- A stamp is taken for a target only where the text behind it begins with the colon of a label. -/
theorem words_of_labelled (hts : ∀ c ∈ ts, c ≠ ']' ∧ isBlank c = false) (hbs : Blanks bs)
    (h : Labelled ('[' :: (ts ++ ']' :: (bs ++ body)))) :
    ∃ ws, words body = [':'] :: ws ∨ ∃ a, words body = bracketed a :: [':'] :: ws := by
  obtain ⟨⟨h', rest⟩, hl⟩ := exists_label_of_labelled h
  have hwords := words_behind_stamp hts hbs body
  rcases words_of_label hl with e | ⟨a, e⟩
  · exact ⟨words rest, .inl (List.cons.inj (hwords.symm.trans e)).2⟩
  · exact ⟨words rest, .inr ⟨a, (List.cons.inj (hwords.symm.trans e)).2⟩⟩

theorem eq_nil_of_endsWithout {cs ss : List Char} (h : EndsWithout isBlank (cs ++ ss))
    (hss : Spaces ss) : ss = [] := by
  obtain ⟨front, c, e, hc⟩ := h
  rcases List.eq_nil_or_concat ss with rfl | ⟨ss, d, rfl⟩
  · rfl
  · rw [List.concat_eq_append, ← List.append_assoc] at e
    obtain rfl := List.singleton_inj.1 (List.append_inj' e rfl).2
    exact absurd (hss d (by simp)) (ne_true_of_eq_false hc)

/-- A report keeps its shape behind a stamp that is not taken for a target. -/
theorem shape?_of_icmpError_behind {h : Host} {error source : String}
    (hx : shape? body = some (.icmpError h error source)) (hhead : body.head? ≠ some '[')
    (hun : Unindented body) (hts : ∀ c ∈ ts, c ≠ ']' ∧ isBlank c = false) (hbs : Blanks bs)
    (hnot : ¬ Labelled ('[' :: (ts ++ ']' :: (bs ++ body)))) :
    shape? ('[' :: (ts ++ ']' :: (bs ++ body))) = some (.icmpError h error source) := by
  obtain ⟨hp, hd, hs, hicmp⟩ := stamped_of_icmpError hx
  simp only [Labelled, not_or, Option.not_isSome_iff_eq_none] at hnot
  have hts' : ∀ c ∈ ts, c ≠ ']' := fun c hc => (hts c hc).1
  rw [stamped_of_head_ne hhead] at hp hd hs hicmp
  have hnone {f : Host → Scanner Shape} (hbody : unstamped (label >>= f) body = none)
      (hline : (label >>= f) ('[' :: (ts ++ ']' :: (bs ++ body))) = none) :
      stamped (label >>= f) ('[' :: (ts ++ ']' :: (bs ++ body))) = none := by
    rw [stamped_label_behind hts' hbs hun, hbody, unstamped, hline]
    rfl
  have hp' : stamped probe ('[' :: (ts ++ ']' :: (bs ++ body))) = none := hnone hp hnot.1
  have hd' : stamped duplicate ('[' :: (ts ++ ']' :: (bs ++ body))) = none := hnone hd hnot.2.1
  have hs' : stamped summary ('[' :: (ts ++ ']' :: (bs ++ body))) = none := hnone hs hnot.2.2
  obtain ⟨rest, hicmp⟩ := of_unstamped hicmp
  rw [shape?, localTime_behind hts' hbs, hp', hd', hs', stamped_behind hts' hbs hun hicmp]
  rfl

/-- A measurement keeps its shape behind a stamp, if the shape can have one and the stamp is not
taken for a target. -/
theorem shape?_behind_stamp (hx : shape? body = some x) (hm : x.Measures m)
    (hhead : body.head? ≠ some '[') (hun : Unindented body) (hlast : EndsWithout isBlank body)
    (hts : ∀ c ∈ ts, c ≠ ']' ∧ isBlank c = false) (hbs : Blanks bs)
    (hreachable : ∀ h, x ≠ .unreachable h)
    (hlabelled : ¬ (m.error.isSome ∧ Labelled ('[' :: (ts ++ ']' :: (bs ++ body))))) :
    shape? ('[' :: (ts ++ ']' :: (bs ++ body))) = some x := by
  have hw := Shape.written_of_shape? hx
  cases hm with
  | unreachable => exact absurd rfl (hreachable _)
  | probe =>
    cases hw with
    | probe hst hl hseq hb ha hr =>
      cases hst with
      | present => exact absurd rfl hhead
      | absent => simpa using shape?_of_probe (.present hts hbs) hl hseq hb ha hr
  | summary =>
    cases hw with
    | summary hst hl hc hss =>
      cases hst with
      | present => exact absurd rfl hhead
      | absent =>
        rw [List.nil_append, ← List.append_assoc] at hlast
        obtain rfl := eq_nil_of_endsWithout hlast hss
        simpa using shape?_of_summary (.present hts hbs) hl hc
  | icmpError =>
    exact shape?_of_icmpError_behind hx hhead hun hts hbs fun h => hlabelled ⟨rfl, h⟩

/-! ## Samples behind a stamp -/

/-- Lines of the same shape are the same sample. -/
theorem read_of_shape?_eq {raw raw' : String} {observedAt : Float} {s : Sample}
    (h : read (.float observedAt) raw = .sample s)
    (he : shape? (trim raw').toList = shape? (trim raw).toList) :
    read (.float observedAt) raw' = .sample s := by
  have hreads := readsTo_read observedAt raw
  rw [h] at hreads
  cases hreads with
  | @sample x m _ hx hr =>
    have hx' := he.trans hx
    simp only [read, if_neg (trim_ne_empty_of_shape? hx), hx, hr] at h
    simp only [read, if_neg (trim_ne_empty_of_shape? hx'), hx', hr]
    cases hs : Sample.ofRecord (m.toRecord (.float observedAt)) with
    | ok s' => rwa [hs] at h
    | error faults =>
      rw [hs] at h
      cases h

/-- The target of an unreachable host stands in front. -/
theorem head?_of_unreachable {h : Host} (hw : (Shape.unreachable h).Written body) :
    body.head? = h.target.toList.head? := by
  cases hw with
  | unreachable hh =>
    cases hh with
    | bare ht => rw [List.head?_append_of_ne_nil _ ht.1]
    | addressed ht => rw [List.append_assoc, List.head?_append_of_ne_nil _ ht.1]

/-- Only another unreachable host of the same name gives the sample of an unreachable host. -/
theorem exists_unreachable_of_heldBy {observedAt : Float} {s : Sample} {x : Shape}
    {m m' : Measurement} {h : Host} (hm : (Shape.unreachable h).Measures m)
    (hheld : m.HeldBy observedAt s) (hm' : x.Measures m') (hheld' : m'.HeldBy observedAt s) :
    ∃ h', x = .unreachable h' ∧ h'.target = h.target := by
  cases hm
  cases hm' with
  | summary => exact absurd (hheld.source.symm.trans hheld'.source) nofun
  | @probe _ _ _ _ t => cases t <;> exact absurd (hheld.seq.symm.trans hheld'.seq) nofun
  | icmpError => exact absurd (hheld.error.symm.trans hheld'.error) nofun
  | unreachable => exact ⟨_, rfl, hheld'.target.symm.trans hheld.target⟩

end

section

variable {raw raw' : String} {ts bs : List Char} {observedAt : Float} {s : Sample}

/-- A line that is a sample is the same sample behind a stamp, with two exceptions: an unreachable
host, and a report of an undeliverable request in which the stamp is taken for the target of another
shape. That takes an error which begins with the colon of a label. -/
theorem read_behind_stamp (hs : read (.float observedAt) raw = .sample s)
    (hhead : (trim raw).toList.head? ≠ some '[')
    (hraw' : raw'.toList = '[' :: (ts ++ ']' :: (bs ++ raw.toList)))
    (hts : ∀ c ∈ ts, c ≠ ']' ∧ isBlank c = false) (hbs : Blanks bs) :
    (read (.float observedAt) raw' = .sample s ↔
      (∀ h, shape? (trim raw).toList ≠ some (.unreachable h)) ∧
        ¬ (s.error.isSome ∧ Labelled (trim raw').toList)) ∧
      (Labelled (trim raw').toList → ∃ ws, words (trim raw).toList = [':'] :: ws ∨
        ∃ a, words (trim raw).toList = bracketed a :: [':'] :: ws) := by
  obtain ⟨x, m, hx, hm, hheld⟩ := exists_measures_of_read hs
  obtain ⟨bs', hbs', hline⟩ := exists_trim_behind (trim_ne_empty_of_shape? hx) hraw' hbs
  have hun : Unindented (trim raw).toList := by
    intro c hc
    rw [trim, String.toList_ofList] at hc
    exact not_head?_trimBy hc
  refine ⟨⟨?_, ?_⟩, ?_⟩
  · intro hs'
    obtain ⟨x', m', hx', hm', hheld'⟩ := exists_measures_of_read hs'
    constructor
    · intro h e
      obtain rfl := Option.some.inj (hx.symm.trans e)
      obtain ⟨h', rfl, htarget⟩ := exists_unreachable_of_heldBy hm hheld hm' hheld'
      have htext := head?_of_unreachable (Shape.written_of_shape? hx)
      have hstamp := head?_of_unreachable (Shape.written_of_shape? hx')
      rw [htarget, ← htext, hline] at hstamp
      exact hhead hstamp.symm
    · rintro ⟨herror, hlabelled⟩
      obtain ⟨h, error, source, rfl⟩ := hm'.isSome_error_iff.1 (hheld'.error ▸ herror)
      exact not_labelled_of_icmpError hx' hlabelled
  · rintro ⟨hreachable, hlabelled⟩
    rw [hheld.error, hline] at hlabelled
    have hshape := shape?_behind_stamp hx hm hhead hun (endsWithout_trim hx) hts hbs'
      (fun h e => hreachable h (e ▸ hx)) hlabelled
    exact read_of_shape?_eq hs (by rw [hline, hshape, hx])
  · intro h
    rw [hline] at h
    exact words_of_labelled hts hbs' h

end

/-- A report behind a stamp, whose error begins with a colon that belongs to its first word. -/
theorem read_behind_stamp_report :
    ∃ s, read (.float 0.5) ":1 lost from gw for ICMP Echo sent to dns" = .sample s ∧
      read (.float 0.5) "[1.5] :1 lost from gw for ICMP Echo sent to dns" = .sample s := by
  let s : Sample :=
    { target := "dns", source := .probe, transmitted := 1, received := 0
      received_le := Nat.zero_le 1, loss := 1.0, error := some ":1 lost from gw"
      observedAt := 0.5 }
  have hs : read (.float 0.5) ":1 lost from gw for ICMP Echo sent to dns" = .sample s := by
    decide +kernel
  have hraw : "[1.5] :1 lost from gw for ICMP Echo sent to dns".toList =
      '[' :: (['1', '.', '5'] ++
        ']' :: ([' '] ++ ":1 lost from gw for ICMP Echo sent to dns".toList)) := by
    decide +kernel
  have hts : WordWithout ']' ['1', '.', '5'] := by decide
  have hreachable : ∀ h, shape? (trim ":1 lost from gw for ICMP Echo sent to dns").toList ≠
      some (.unreachable h) := by
    intro h e
    have hshape : shape? (trim ":1 lost from gw for ICMP Echo sent to dns").toList =
        some (.icmpError ⟨"dns", none⟩ ":1 lost" "gw") := by
      decide +kernel
    exact absurd (hshape.symm.trans e) nofun
  have hlabelled : ¬ Labelled (trim "[1.5] :1 lost from gw for ICMP Echo sent to dns").toList := by
    decide +kernel
  exact ⟨s, hs, (read_behind_stamp hs (by decide +kernel) hraw hts.2 (by decide)).1.2
    ⟨hreachable, fun h => hlabelled h.2⟩⟩

/-- An unreachable host is no longer recognized behind a stamp, and in front of an error that begins
with the colon of a label, the stamp becomes the target. -/
theorem stamp_changes_measurement :
    (∃ s, read (.float 0.5) "dns is unreachable" = .sample s ∧
      read (.float 0.5) "[1.5] dns is unreachable" =
        .unreadable .unrecognized "[1.5] dns is unreachable") ∧
    ∃ s s', read (.float 0.5) ": [1], timed out from gw for ICMP Echo sent to dns" = .sample s ∧
      read (.float 0.5) "[1.5] : [1], timed out from gw for ICMP Echo sent to dns" = .sample s' ∧
      s.target = "dns" ∧ s'.target = "[1.5]" := by
  let lost (target : String) (seq : Option Nat) (error : Option String) : Sample :=
    { target, source := .probe, transmitted := 1, received := 0, received_le := Nat.zero_le 1
      loss := 1.0, seq, error, observedAt := 0.5 }
  constructor
  · exact ⟨lost "dns" none none, by decide +kernel, by decide +kernel⟩
  · exact ⟨lost "dns" none (some ": [1], timed out from gw"), lost "[1.5]" (some 1) none,
      by decide +kernel, by decide +kernel, rfl, rfl⟩

end EchoMetrics.Line
