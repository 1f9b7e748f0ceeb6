import EchoMetrics.Proofs.Line.Source
import EchoMetrics.Proofs.Text.Words

/-! # Reports of undeliverable requests

The text of an error is the shortest one behind which a report can be read to the end of the line.
Main statements: no report begins inside a text that is followed by one, and a line that is written
as an error and a report is read as these two, whatever words the error has in common with a
report. -/

namespace EchoMetrics.Line

open Text Text.Scanner

/-! ## The words of a line -/

section

variable {h : Host} {cs rest : List Char}

theorem Word.words_append (hw : Word cs) (hrest : EndsWord rest) :
    words (cs ++ rest) = cs :: words rest := by
  rw [Text.words_append cs hrest, words_of_forall_not hw.1 hw.2]
  rfl

theorem Spaces.words_append (hs : Spaces cs) (rest : List Char) :
    words (cs ++ rest) = words rest := by
  induction cs with
  | nil => rfl
  | cons c cs ih =>
    rw [List.cons_append, words_cons _ (hs c List.mem_cons_self)]
    exact ih fun d hd => hs d (List.mem_cons_of_mem c hd)

/-- An address in its parentheses. -/
def bracketed (a : List Char) : List Char := '(' :: (a ++ [')'])

theorem word_bracketed {a : List Char} (ha : WordWithout ')' a) : Word (bracketed a) :=
  word_between (by decide) (by decide) fun c hc => (ha.2 c hc).2

/-- The words of a host are its target and, if it has one, its address. -/
theorem Host.Written.words_append (hw : h.Written cs) (hrest : EndsWord rest) :
    words (cs ++ rest) = h.target.toList :: words rest ∨
      ∃ a, words (cs ++ rest) = h.target.toList :: bracketed a :: words rest := by
  cases hw with
  | bare ht => exact .inl (ht.words_append hrest)
  | @addressed t a bs ht hb ha =>
    right
    refine ⟨a.toList, ?_⟩
    rw [List.append_assoc, List.append_assoc, ht.words_append (hb.endsWord _),
      Spaces.words_append hb.2]
    exact congrArg (t.toList :: ·) ((word_bracketed ha).words_append hrest)

/-- The words in front of which a label ends: a target, an address or none, and a colon. -/
theorem words_of_label (e : label cs = some (h, rest)) :
    words cs = h.target.toList :: [':'] :: words rest ∨
      ∃ a, words cs = h.target.toList :: bracketed a :: [':'] :: words rest := by
  obtain ⟨_, @⟨_, bs, bs', hw, hb, hb'⟩, rfl⟩ := label_of_label e
  have hcolon : Word [':'] := by decide
  have htail : words (bs ++ ':' :: (bs' ++ rest)) = [':'] :: words rest := by
    rw [Spaces.words_append hb.2]
    exact (hcolon.words_append (hb'.endsWord rest)).trans
      (congrArg ([':'] :: ·) (Spaces.words_append hb'.2 rest))
  rw [List.append_assoc, List.append_assoc, List.cons_append]
  have hwords := hw.words_append (hb.endsWord (':' :: (bs' ++ rest)))
  rwa [htail] at hwords

/-- A label has its colon among its first three words. -/
theorem label_eq_none {ws more : List (List Char)} {w : List Char}
    (e : words cs = ws ++ w :: more) (hws : ws ≠ []) (hcolon : [':'] ∉ ws) (hw : w ≠ [':'])
    (hw' : ∀ a, w ≠ bracketed a) : label cs = none := by
  cases hl : label cs with
  | none => rfl
  | some p =>
    exfalso
    obtain ⟨v, ws, rfl⟩ := List.exists_cons_of_ne_nil hws
    rcases words_of_label hl with hcs | ⟨a, hcs⟩ <;> rw [hcs] at e
    · cases ws with
      | nil =>
        simp only [List.cons_append, List.nil_append, List.cons.injEq] at e
        exact hw e.2.1.symm
      | cons v' ws =>
        simp only [List.cons_append, List.cons.injEq] at e
        exact hcolon (by simp [e.2.1])
    · match ws with
      | [] =>
        simp only [List.cons_append, List.nil_append, List.cons.injEq] at e
        exact hw' a e.2.1.symm
      | [v'] =>
        simp only [List.cons_append, List.nil_append, List.cons.injEq] at e
        exact hw e.2.2.1.symm
      | v' :: v'' :: ws =>
        simp only [List.cons_append, List.cons.injEq] at e
        exact hcolon (by simp [e.2.2.1])

end

/-! ## One report -/

/-- A report of an undeliverable request, as it is written behind the error. -/
def reported (source : String) (cs : List Char) : List Char :=
  " from ".toList ++ (source.toList ++ (" for ICMP Echo sent to ".toList ++ cs))

theorem reported_append (source : String) (cs ss : List Char) :
    reported source cs ++ ss = reported source (cs ++ ss) := by
  show " from ".toList ++ (source.toList ++ (" for ICMP Echo sent to ".toList ++ cs)) ++ ss = _
  rw [List.append_assoc, List.append_assoc, List.append_assoc]
  rfl

section

variable {h : Host} {source : String} {cs ss : List Char}

theorem Host.Written.endsWithout (hw : h.Written cs) : EndsWithout isBlank cs := by
  cases hw with
  | bare ht => exact ht.endsWithout
  | addressed =>
    have hbracket : EndsWithout isBlank [')'] := ⟨[], ')', rfl, by decide⟩
    exact (((hbracket.append _).cons _).append _).append _

theorem host_of_written (hw : h.Written cs) : host cs = some (h, []) := by
  have hend : EndsWord [] := nofun
  cases hw with
  | @bare t ht =>
    have hword := word_append ht hend
    rw [List.append_nil] at hword
    rw [host, bind_of_some hword, bind_of_some (maybe_of_none rfl), String.ofList_toList]
    rfl
  | addressed ht hb ha =>
    rw [host, bind_of_some (word_append ht (hb.endsWord _)),
      bind_of_some (maybe_of_some (address_append hb ha)), String.ofList_toList]
    rfl

theorem report_of_written (hs : Word source.toList) (hw : h.Written cs) :
    report (reported source cs) = some ((source, h), []) := by
  have hfor : EndsWord (" for ICMP Echo sent to ".toList ++ cs) := endsWord_cons (by decide)
  show report (" from ".toList ++ (source.toList ++ (" for ICMP Echo sent to ".toList ++ cs))) = _
  rw [report, bind_of_some (lit_append " from " _), bind_of_some (word_append hs hfor),
    bind_of_some (lit_append " for ICMP Echo sent to " _), bind_of_some (host_of_written hw),
    String.ofList_toList]
  rfl

theorem words_reported (hs : Word source.toList) (cs : List Char) :
    words (reported source cs) = "from".toList :: source.toList ::
      (["for".toList, "ICMP".toList, "Echo".toList, "sent".toList, "to".toList] ++ words cs) := by
  have hfor : EndsWord (" for ICMP Echo sent to ".toList ++ cs) := endsWord_cons (by decide)
  have hfrom := words_blank_append " from".toList (source.toList ++
    (" for ICMP Echo sent to ".toList ++ cs)) (c := ' ') (by decide)
  have hto := words_blank_append " for ICMP Echo sent to".toList cs (c := ' ') (by decide)
  rw [hs.words_append hfor] at hfrom
  exact hfrom.trans (congrArg (fun ws => "from".toList :: source.toList :: ws) hto)

/-- A host is one word or two. -/
theorem Host.Written.length_words (hw : h.Written cs) (hss : Spaces ss) :
    1 ≤ (words (cs ++ ss)).length ∧ (words (cs ++ ss)).length ≤ 2 := by
  have hend : EndsWord ss := fun c hc => hss c (List.mem_of_mem_head? hc)
  have hnil : words ss = [] := words_eq_nil_iff.2 hss
  rcases hw.words_append hend with e | ⟨a, e⟩ <;> simp [e, hnil]

/-- A report begins with one blank. -/
theorem eq_nil_of_append_reported {source' : String} {t cs' : List Char} (ht : Spaces t)
    (e : t ++ reported source cs = reported source' cs') : t = [] := by
  cases t with
  | nil => rfl
  | cons c t =>
    exfalso
    cases t with
    | nil =>
      have hblank : ' ' = 'f' := (List.cons.inj (List.cons.inj e).2).1
      exact absurd hblank (by decide)
    | cons d t =>
      have hd : d = 'f' := (List.cons.inj (List.cons.inj e).2).1
      exact absurd (ht d (by simp)) (by rw [hd]; decide)

/-- No report begins in front of another one. Counted in words, the first would have to end in the
words of the second. -/
theorem report_eq_none {t : List Char} (ht : t ≠ []) (hs : Word source.toList)
    (hw : h.Written cs) : report (t ++ reported source cs) = none := by
  cases hr : report (t ++ reported source cs) with
  | none => rfl
  | some p =>
    exfalso
    obtain ⟨⟨source', h'⟩, rest⟩ := p
    obtain ⟨cs', ss, hs', hw', hss, -, e⟩ := written_of_report hr
    change t ++ reported source cs = reported source' (cs' ++ ss) at e
    have hblank : ∀ c ∈ (reported source cs).head?, isBlank c = true :=
      endsWord_cons (c := ' ') (by decide)
    have hwords := congrArg words e
    rw [words_append t hblank, words_reported hs, words_reported hs'] at hwords
    have hlen := (hw.length_words (nofun : Spaces [])).1
    have hlen' := (hw'.length_words hss).2
    rw [List.append_nil] at hlen
    match hwt : words t with
    | [] => exact ht (eq_nil_of_append_reported (words_eq_nil_iff.1 hwt) e)
    | [w] =>
      rw [hwt] at hwords
      exact absurd (congrArg (·[3]?) hwords) (by simp)
    | w :: w' :: ws =>
      rw [hwt] at hwords
      have := congrArg List.length hwords
      simp only [List.length_append, List.length_cons] at this
      omega

end

/-! ## Lines -/

section

variable {h : Host} {error source : String} {st cs ss : List Char}

/-- No label is read where an error without a colon is followed by a report, nor in front of it. -/
theorem label_of_error {ws : List (List Char)} {line : List Char} (hs : Word source.toList)
    (he : error.toList ≠ []) (hun : Unindented error.toList) (hcolon : Without ':' error.toList)
    (hline : words line = ws ++ words (error.toList ++ reported source cs)) (hws : [':'] ∉ ws) :
    label line = none := by
  have hblank : ∀ c ∈ (reported source cs).head?, isBlank c = true :=
    endsWord_cons (c := ' ') (by decide)
  rw [words_append error.toList hblank, words_reported hs, ← List.append_assoc] at hline
  refine label_eq_none hline ?_ ?_ (by decide) ?_
  · intro hnil
    obtain ⟨c, e, hce⟩ := List.exists_cons_of_ne_nil he
    have hall := words_eq_nil_iff.1 (List.append_eq_nil_iff.1 hnil).2 c (by simp [hce])
    exact absurd hall (by rw [hun c (by simp [hce])]; decide)
  · rw [List.mem_append, not_or]
    exact ⟨hws, fun hmem => hcolon ':' (mem_of_mem_words hmem (by simp)) rfl⟩
  · intro a e
    simp [bracketed] at e

theorem icmpError_of_written (hne : error ≠ "") (hbreak : Without '\n' error.toList)
    (hs : Word source.toList) (hw : h.Written cs) :
    icmpError (error.toList ++ reported source cs) = some (.icmpError h error source, []) := by
  have hshortest : shortestBefore report (error.toList ++ reported source cs) =
      some ((error.toList, (source, h)), []) :=
    shortestBefore_eq_some_iff.2 ⟨reported source cs, rfl, by simpa using hne, hbreak,
      report_of_written hs hw, fun _ _ _ _ ht => report_eq_none ht hs hw⟩
  rw [icmpError, bind_of_some hshortest]
  show some (Shape.icmpError h (String.ofList error.toList) source, []) = _
  rw [String.ofList_toList]

/-- A stamp is a word of its own. -/
theorem words_behind_stamp {ts bs : List Char} (hts : ∀ c ∈ ts, c ≠ ']' ∧ isBlank c = false)
    (hbs : Blanks bs) (body : List Char) :
    words ('[' :: (ts ++ ']' :: (bs ++ body))) = ('[' :: (ts ++ [']'])) :: words body := by
  have hstamp : Word ('[' :: (ts ++ [']'])) :=
    word_between (by decide) (by decide) fun c hc => (hts c hc).2
  have hwords := hstamp.words_append (hbs.endsWord body)
  rw [Spaces.words_append hbs.2] at hwords
  simpa using hwords

theorem Prefix.words_append {t : String} (hst : Prefix t st) :
    ∃ ws, [':'] ∉ ws ∧ ∀ body, words (st ++ body) = ws ++ words body := by
  cases hst with
  | absent => exact ⟨[], List.not_mem_nil, fun _ => rfl⟩
  | @present ts bs hts hbs =>
    refine ⟨['[' :: (ts ++ [']'])], by simp, fun body => ?_⟩
    rw [List.cons_append, List.append_assoc, List.cons_append]
    exact words_behind_stamp hts hbs body

/-- No shape that begins with a label fits, and the error ends in front of the last report. -/
theorem shape?_of_icmpError (hst : Prefix error st) (hne : error ≠ "")
    (hun : Unindented error.toList) (hbreak : Without '\n' error.toList)
    (hcolon : Without ':' error.toList) (hs : Word source.toList) (hw : h.Written cs) :
    shape? (st ++ (error.toList ++ reported source cs)) = some (.icmpError h error source) := by
  have he : error.toList ≠ [] := by simpa using hne
  have hhead : (error.toList ++ reported source cs).head? = error.toList.head? :=
    List.head?_append_of_ne_nil _ he
  have hbody : Unindented (error.toList ++ reported source cs) := by
    rw [Unindented, hhead]
    exact hun
  obtain ⟨ws, hws, hwords⟩ := hst.words_append
  have hlabel : label (error.toList ++ reported source cs) = none :=
    label_of_error hs he hun hcolon (List.nil_append _).symm List.not_mem_nil
  have hlabel' : label (st ++ (error.toList ++ reported source cs)) = none :=
    label_of_error hs he hun hcolon (hwords _) hws
  have hnone (f : Host → Scanner Shape) :
      stamped (label >>= f) (st ++ (error.toList ++ reported source cs)) = none := by
    rw [hst.stamped_label hhead hbody, unstamped, unstamped, bind_of_none hlabel,
      bind_of_none hlabel']
    rfl
  have hprobe : stamped probe (st ++ (error.toList ++ reported source cs)) = none := hnone _
  have hduplicate : stamped duplicate (st ++ (error.toList ++ reported source cs)) = none :=
    hnone _
  have hsummary : stamped summary (st ++ (error.toList ++ reported source cs)) = none := hnone _
  rw [shape?, hst.localTime hhead, hprobe, hduplicate, hsummary,
    hst.stamped hhead hbody (icmpError_of_written hne hbreak hs hw)]
  rfl

/-- A report of an undeliverable request is a sample of a lost request to the host that it was sent
to. Its error is the whole text in front of the report and who reports it, and a stamp in front of
it does not matter. -/
theorem read_icmpError {raw : String}
    (hraw : raw.toList = st ++ (error.toList ++ (" from ".toList ++ (source.toList ++
      (" for ICMP Echo sent to ".toList ++ (cs ++ ss))))))
    (hst : Prefix error st) (hne : error ≠ "") (hun : ∀ c ∈ error.toList.head?, isBlank c = false)
    (hbreak : Without '\n' error.toList) (hcolon : Without ':' error.toList)
    (hs : Word source.toList) (hw : h.Written cs) (hss : Spaces ss) (observedAt : Float) :
    ∃ s, read (.float observedAt) raw = .sample s ∧
      ({ host := h, source := .probe, transmitted := 1, received := 0, loss := 1.0, rtt := none
         seq := none, error := some (error ++ " from " ++ source) } : Measurement).HeldBy
        observedAt s := by
  have he : error.toList ≠ [] := by simpa using hne
  have hhead : Unindented (st ++ (error.toList ++ reported source cs)) := by
    cases hst with
    | absent =>
      rw [List.nil_append, Unindented, List.head?_append_of_ne_nil _ he]
      exact hun
    | present => exact unindented_cons (by decide)
  have hlast : EndsWithout isBlank (st ++ (error.toList ++ reported source cs)) :=
    ((((hw.endsWithout.append _).append _).append _).append _).append _
  have hline : raw.toList = st ++ (error.toList ++ reported source cs) ++ ss := by
    rw [hraw, List.append_assoc, List.append_assoc, reported_append]
    rfl
  have htrim : (trim raw).toList = st ++ (error.toList ++ reported source cs) := by
    rw [trim, String.toList_ofList, hline, trimBy_append ss hhead hlast, trimEndBy_of_forall hss,
      List.append_nil]
  have hshape : shape? (trim raw).toList = some (.icmpError h error source) := by
    rw [htrim]
    exact shape?_of_icmpError hst hne hun hbreak hcolon hs hw
  have htarget : h.target ≠ "" := by
    intro e
    exact hw.word.1 (by rw [e]; rfl)
  exact read_of_measurement hshape rfl (Measurement.valid_lost htarget _) observedAt

end

/-- An error that itself ends like a report, behind a stamp. -/
theorem read_icmpError_nested :
    ∃ s, read (.float 0.5) ("[1.5] Lost from a for ICMP Echo sent to b from gw for ICMP Echo " ++
        "sent to dns (::1)") = .sample s ∧
      ({ host := ⟨"dns", some "::1"⟩, source := .probe, transmitted := 1, received := 0, loss := 1.0
         rtt := none, seq := none
         error := some ("Lost from a for ICMP Echo sent to b" ++ " from " ++ "gw") } :
        Measurement).HeldBy 0.5 s := by
  let error := "Lost from a for ICMP Echo sent to b"
  have hraw : ("[1.5] Lost from a for ICMP Echo sent to b from gw for ICMP Echo " ++
      "sent to dns (::1)").toList = '[' :: (['1', '.', '5'] ++ ']' :: [' ']) ++ (error.toList ++
        (" from ".toList ++ ("gw".toList ++ (" for ICMP Echo sent to ".toList ++
          (("dns".toList ++ ([' '] ++ '(' :: ("::1".toList ++ [')']))) ++ []))))) := by
    decide +kernel
  have hst : Prefix error ('[' :: (['1', '.', '5'] ++ ']' :: [' '])) :=
    .present (by decide : WordWithout ']' ['1', '.', '5']).2 (by decide)
  have hw : Host.Written ⟨"dns", some "::1"⟩
      ("dns".toList ++ ([' '] ++ '(' :: ("::1".toList ++ [')']))) :=
    .addressed (by decide) (by decide) (by decide)
  have hs : Word "gw".toList := by decide
  have hun : Unindented error.toList := by
    rw [show error.toList = 'L' :: error.toList.tail by decide +kernel]
    exact unindented_cons (by decide)
  have hbreak : Without '\n' error.toList := by decide +kernel
  have hcolon : Without ':' error.toList := by decide +kernel
  exact read_icmpError hraw hst (by decide) hun hbreak hcolon hs hw nofun 0.5

end EchoMetrics.Line
