import EchoMetrics.Line.Shape

/-! # The grammar of lines

Which texts a shape is written as, put together from parts. A text may be written for more than one
shape; the one that a line has is the first that fits. Main statement: a line that has a shape is
written for it. -/

namespace EchoMetrics.Line

open Text

/-- One blank or more. -/
def Blanks (cs : List Char) : Prop := cs ≠ [] ∧ ∀ c ∈ cs, isBlank c = true

/-- Any number of blanks. -/
def Spaces (cs : List Char) : Prop := ∀ c ∈ cs, isBlank c = true

/-- A nonempty text without blanks. -/
def Word (cs : List Char) : Prop := cs ≠ [] ∧ ∀ c ∈ cs, isBlank c = false

/-- A word in which a character does not occur. -/
def WordWithout (stop : Char) (cs : List Char) : Prop :=
  cs ≠ [] ∧ ∀ c ∈ cs, c ≠ stop ∧ isBlank c = false

def Without (stop : Char) (cs : List Char) : Prop := ∀ c ∈ cs, c ≠ stop

/-! The runs of a grammar can be checked character by character. -/

instance : DecidablePred Spaces := List.decidableBAll _

instance : DecidablePred Blanks := fun cs => @instDecidableAnd _ _ _ (List.decidableBAll _ cs)

instance : DecidablePred Word := fun cs => @instDecidableAnd _ _ _ (List.decidableBAll _ cs)

instance (stop : Char) : DecidablePred (WordWithout stop) := fun cs =>
  @instDecidableAnd _ _ _ (List.decidableBAll _ cs)

instance (stop : Char) : DecidablePred (Without stop) := List.decidableBAll _

/-- Nothing, or a stamp in brackets and blanks after it. -/
inductive Stamp : List Char → Prop
  | absent : Stamp []
  | present {ts bs : List Char} : Without ']' ts → Blanks bs → Stamp ('[' :: (ts ++ ']' :: bs))

inductive Host.Written : Host → List Char → Prop
  | bare {t : String} : Word t.toList → Host.Written { target := t } t.toList
  | addressed {t a : String} {bs : List Char} :
      Word t.toList → Blanks bs → WordWithout ')' a.toList →
      Host.Written { target := t, addr := some a } (t.toList ++ (bs ++ '(' :: (a.toList ++ [')'])))

/-- A host and a colon between blanks. -/
inductive Label (h : Host) : List Char → Prop
  | mk {cs bs bs' : List Char} :
      h.Written cs → Blanks bs → Blanks bs' → Label h (cs ++ (bs ++ ':' :: bs'))

/-- What is said of one request: that no answer came in time, or how long it took. -/
inductive Answer : Option String → List Char → Prop
  | timedOut : Answer none "timed out".toList
  | reply {size bs : List Char} {rtt : String} :
      Word size → Blanks bs → Word rtt.toList →
      Answer (some rtt) (size ++ (" bytes,".toList ++ (bs ++ (rtt.toList ++ " ms".toList))))

/-- Nothing, or a blank and a text on the same line. -/
inductive Remark : List Char → Prop
  | absent : Remark []
  | present {c : Char} {cs : List Char} : isBlank c = true → Without '\n' cs → Remark (c :: cs)

/-- The name of a group of numbers and its equals sign. -/
inductive Group (name : String) : List Char → Prop
  | mk {ss ss' : List Char} :
      Spaces ss → Spaces ss' → Group name (name.toList ++ (ss ++ '=' :: ss'))

/-- The round-trip times of a summary, if there are any. -/
inductive RoundTrips : Option (String × String × String) → List Char → Prop
  | absent : RoundTrips none []
  | present {ss g : List Char} {min avg max : String} :
      Spaces ss → Group "min/avg/max" g → WordWithout '/' min.toList → WordWithout '/' avg.toList →
      WordWithout '/' max.toList →
      RoundTrips (some (min, avg, max))
        (',' :: (ss ++ (g ++ (min.toList ++ '/' :: (avg.toList ++ '/' :: max.toList)))))

inductive Summary.Written (c : Summary) : List Char → Prop
  | mk {g rtts : List Char} :
      Group "xmt/rcv/%loss" g → WordWithout '/' c.transmitted.toList →
      WordWithout '/' c.received.toList → WordWithout '%' c.lost.toList → RoundTrips c.rtt rtts →
      Summary.Written c (g ++ (c.transmitted.toList ++ '/' :: (c.received.toList ++
        '/' :: (c.lost.toList ++ '%' :: rtts))))

inductive Shape.Written : Shape → List Char → Prop
  | localTime {ts : List Char} : Without ']' ts → Shape.Written .localTime ('[' :: (ts ++ [']']))
  | probe {h : Host} {seq : String} {rtt : Option String} {st l bs a r : List Char} :
      Stamp st → Label h l → Without ']' seq.toList → Blanks bs → Answer rtt a → Remark r →
      Shape.Written (.probe h seq rtt)
        (st ++ (l ++ '[' :: (seq.toList ++ ']' :: ',' :: (bs ++ (a ++ r)))))
  | duplicate {h : Host} {st l r : List Char} :
      Stamp st → Label h l →
      Shape.Written (.duplicate h) (st ++ (l ++ ("duplicate for [".toList ++ r)))
  | summary {h : Host} {c : Summary} {st l cs ss : List Char} :
      Stamp st → Label h l → c.Written cs → Spaces ss →
      Shape.Written (.summary h c) (st ++ (l ++ (cs ++ ss)))
  | icmpError {h : Host} {error source : String} {st cs ss : List Char} :
      Stamp st → error ≠ "" → Without '\n' error.toList → Word source.toList → h.Written cs →
      Spaces ss →
      Shape.Written (.icmpError h error source)
        (st ++ (error.toList ++ (" from ".toList ++ (source.toList ++
          (" for ICMP Echo sent to ".toList ++ (cs ++ ss))))))
  | unreachable {h : Host} {cs bs bs' ss : List Char} :
      h.Written cs → Blanks bs → Blanks bs' → Spaces ss →
      Shape.Written (.unreachable h) (cs ++ (bs ++ ("is".toList ++ (bs' ++
        ("unreachable".toList ++ ss)))))
  | proberError {t : String} {c : Char} {message : List Char} :
      Word t.toList → isBlank c = true → message ≠ [] → Without '\n' message →
      Shape.Written (.proberError t) (t.toList ++ ':' :: c :: message)

section

open Scanner

variable {cs rest : List Char}

theorem word_of_word {t : List Char} (h : Scanner.word cs = some (t, rest)) :
    Word t ∧ cs = t ++ rest := by
  obtain ⟨rfl, ht, hp, -⟩ := run_eq_some_iff.1 h
  exact ⟨⟨ht, fun c hc => by simpa using hp c hc⟩, rfl⟩

theorem blanks_of_blanks {u : Unit} (h : Scanner.blanks cs = some (u, rest)) :
    ∃ bs, Blanks bs ∧ cs = bs ++ rest := by
  simp only [Scanner.blanks, Option.map_eq_some_iff, Prod.mk.injEq, true_and] at h
  obtain ⟨⟨bs, rest'⟩, h, rfl⟩ := h
  obtain ⟨rfl, ht, hp, -⟩ := run_eq_some_iff.1 h
  exact ⟨bs, ⟨ht, hp⟩, rfl⟩

theorem spaces_of_spaces {u : Unit} (h : Scanner.spaces cs = some (u, rest)) :
    ∃ ss, Spaces ss ∧ cs = ss ++ rest := by
  simp only [Scanner.spaces, Option.some.injEq, Prod.mk.injEq, true_and] at h
  refine ⟨cs.takeWhile isBlank, List.all_eq_true.1 (List.all_takeWhile ..), ?_⟩
  rw [← h, List.takeWhile_append_dropWhile]

theorem wordWithout_of_run {stop : Char} {t : List Char}
    (h : run (fun c => c != stop && !isBlank c) cs = some (t, rest)) :
    WordWithout stop t ∧ cs = t ++ rest := by
  obtain ⟨rfl, ht, hp, -⟩ := run_eq_some_iff.1 h
  exact ⟨⟨ht, fun c hc => by simpa using hp c hc⟩, rfl⟩

theorem wordWithout_of_part {t : String} (h : part cs = some (t, rest)) :
    WordWithout '/' t.toList ∧ cs = t.toList ++ rest := by
  obtain ⟨t, hr, rfl⟩ := map_eq_some_iff.1 h
  simpa using wordWithout_of_run hr

theorem written_of_address {a : String} (h : address cs = some (a, rest)) :
    ∃ bs, Blanks bs ∧ WordWithout ')' a.toList ∧ cs = bs ++ '(' :: (a.toList ++ ')' :: rest) := by
  simp only [address, bind_eq_some_iff, lit_eq_some_iff, pure_eq_some_iff] at h
  obtain ⟨_, _, hb, _, _, rfl, a, _, ha, _, _, rfl, rfl, rfl⟩ := h
  obtain ⟨bs, hbs, rfl⟩ := blanks_of_blanks hb
  obtain ⟨ha', e⟩ := wordWithout_of_run ha
  exact ⟨bs, hbs, by simpa using ha', by simp [e]⟩

theorem written_of_host {h : Host} (e : host cs = some (h, rest)) :
    ∃ t, h.Written t ∧ cs = t ++ rest := by
  simp only [host, bind_eq_some_iff, maybe_eq_some_iff, pure_eq_some_iff] at e
  obtain ⟨t, _, ht, a, _, ha, rfl, rfl⟩ := e
  obtain ⟨ht', rfl⟩ := word_of_word ht
  rcases ha with ⟨a, ha, rfl⟩ | ⟨-, rfl, rfl⟩
  · obtain ⟨bs, hb, ha', rfl⟩ := written_of_address ha
    exact ⟨_, .addressed (by simpa using ht') hb ha', by simp⟩
  · exact ⟨_, .bare (by simpa using ht'), by simp⟩

theorem label_of_label {h : Host} (e : label cs = some (h, rest)) :
    ∃ l, Label h l ∧ cs = l ++ rest := by
  simp only [label, bind_eq_some_iff, lit_eq_some_iff, pure_eq_some_iff] at e
  obtain ⟨h, _, hh, _, _, hb, _, _, rfl, _, _, hb', rfl, rfl⟩ := e
  obtain ⟨t, ht, rfl⟩ := written_of_host hh
  obtain ⟨bs, hbs, rfl⟩ := blanks_of_blanks hb
  obtain ⟨bs', hbs', rfl⟩ := blanks_of_blanks hb'
  exact ⟨_, ⟨ht, hbs, hbs'⟩, by simp⟩

theorem answer_of_reply {rtt : String} (h : reply cs = some (rtt, rest)) :
    ∃ a, Answer (some rtt) a ∧ cs = a ++ rest := by
  simp only [reply, bind_eq_some_iff, lit_eq_some_iff, pure_eq_some_iff] at h
  obtain ⟨_, _, hs, _, _, rfl, _, _, hb, t, _, ht, _, _, rfl, rfl, rfl⟩ := h
  obtain ⟨hs', rfl⟩ := word_of_word hs
  obtain ⟨bs, hbs, rfl⟩ := blanks_of_blanks hb
  obtain ⟨ht', rfl⟩ := word_of_word ht
  exact ⟨_, .reply hs' hbs (by simpa using ht'), by simp⟩

theorem answer_of_answer {rtt : Option String} (h : answer cs = some (rtt, rest)) :
    ∃ a, Answer rtt a ∧ cs = a ++ rest := by
  rcases orElse_eq_some_iff.1 h with h | ⟨-, h⟩
  · change (lit "timed out" >>= fun _ => pure none) cs = _ at h
    simp only [bind_eq_some_iff, lit_eq_some_iff, pure_eq_some_iff] at h
    obtain ⟨_, _, rfl, rfl, rfl⟩ := h
    exact ⟨_, .timedOut, rfl⟩
  · obtain ⟨t, ht, rfl⟩ := map_eq_some_iff.1 h
    exact answer_of_reply ht

theorem remark_of_remark {u : Unit} (h : remark cs = some (u, rest)) : Remark cs ∧ rest = [] := by
  cases cs with
  | nil => exact ⟨.absent, by simpa [remark, eq_comm] using h⟩
  | cons c cs =>
    simp only [remark, Option.ite_none_right_eq_some, Bool.and_eq_true, Option.some.injEq,
      Prod.mk.injEq, true_and] at h
    exact ⟨.present h.1.1 fun d hd => by simpa using List.all_eq_true.1 h.1.2 d hd, h.2.symm⟩

theorem group_of_group {name : String} {u : Unit} (h : group name cs = some (u, rest)) :
    ∃ g, Group name g ∧ cs = g ++ rest := by
  simp only [group, bind_eq_some_iff, lit_eq_some_iff] at h
  obtain ⟨_, _, rfl, _, _, hs, _, _, rfl, hs'⟩ := h
  obtain ⟨ss, hss, rfl⟩ := spaces_of_spaces hs
  obtain ⟨ss', hss', rfl⟩ := spaces_of_spaces hs'
  exact ⟨_, ⟨hss, hss'⟩, by simp⟩

theorem roundTrips_of_roundTrips {t : String × String × String}
    (h : roundTrips cs = some (t, rest)) : ∃ r, RoundTrips (some t) r ∧ cs = r ++ rest := by
  simp only [roundTrips, bind_eq_some_iff, lit_eq_some_iff, pure_eq_some_iff] at h
  obtain ⟨_, _, rfl, _, _, hs, _, _, hg, _, _, h₁, _, _, rfl, _, _, h₂, _, _, rfl, _, _, h₃, rfl,
    rfl⟩ := h
  obtain ⟨ss, hss, rfl⟩ := spaces_of_spaces hs
  obtain ⟨g, hg', rfl⟩ := group_of_group hg
  obtain ⟨h₁', rfl⟩ := wordWithout_of_part h₁
  obtain ⟨h₂', e₂⟩ := wordWithout_of_part h₂
  obtain ⟨h₃', e₃⟩ := wordWithout_of_part h₃
  exact ⟨_, .present hss hg' h₁' h₂' h₃', by simp [e₂, e₃]⟩

theorem written_of_counts {c : Summary} (h : counts cs = some (c, rest)) :
    ∃ t, c.Written t ∧ cs = t ++ rest := by
  simp only [counts, bind_eq_some_iff, lit_eq_some_iff, maybe_eq_some_iff, pure_eq_some_iff] at h
  obtain ⟨_, _, hg, x, _, hx, _, _, rfl, r, _, hr, _, _, rfl, p, _, hp, _, _, rfl, rtt, _, ht, rfl,
    rfl⟩ := h
  obtain ⟨g, hg', rfl⟩ := group_of_group hg
  obtain ⟨hx', rfl⟩ := wordWithout_of_part hx
  obtain ⟨hr', e⟩ := wordWithout_of_part hr
  obtain ⟨hp', rfl⟩ := wordWithout_of_run hp
  have hp'' : WordWithout '%' (String.ofList p).toList := by simpa using hp'
  rcases ht with ⟨t, ht, rfl⟩ | ⟨-, rfl, rfl⟩
  · obtain ⟨rtts, ht', rfl⟩ := roundTrips_of_roundTrips ht
    exact ⟨_, ⟨hg', hx', hr', hp'', ht'⟩, by simp [e]⟩
  · exact ⟨_, ⟨hg', hx', hr', hp'', .absent⟩, by simp [e]⟩

theorem written_of_report {source : String} {h : Host}
    (e : report cs = some ((source, h), rest)) :
    ∃ t ss, Word source.toList ∧ h.Written t ∧ Spaces ss ∧ rest = [] ∧
      cs = " from ".toList ++ (source.toList ++
        (" for ICMP Echo sent to ".toList ++ (t ++ ss))) := by
  simp only [report, bind_eq_some_iff, lit_eq_some_iff, done_eq_some_iff, pure_eq_some_iff,
    Prod.mk.injEq] at e
  obtain ⟨_, _, rfl, s, _, hw, _, _, rfl, h, _, hh, _, _, hs, _, _, ⟨rfl, rfl⟩, ⟨rfl, rfl⟩,
    rfl⟩ := e
  obtain ⟨hw', e⟩ := word_of_word hw
  obtain ⟨t, ht, rfl⟩ := written_of_host hh
  obtain ⟨ss, hss, rfl⟩ := spaces_of_spaces hs
  exact ⟨t, ss, by simpa using hw', ht, hss, rfl, by simp [e]⟩

theorem mem_afterBlanks {cs rest : List Char} (h : rest ∈ afterBlanks cs) :
    ∃ bs, Blanks bs ∧ cs = bs ++ rest := by
  induction cs with
  | nil => simp [afterBlanks] at h
  | cons c cs ih =>
    simp only [afterBlanks] at h
    split at h
    · rename_i hc
      rcases List.mem_append.1 h with h | h
      · obtain ⟨bs, hb, rfl⟩ := ih h
        exact ⟨c :: bs, ⟨by simp, by simpa [hc] using hb.2⟩, rfl⟩
      · obtain rfl := List.mem_singleton.1 h
        exact ⟨[c], ⟨by simp, by simpa using hc⟩, rfl⟩
    · simp at h

/-- The text begins where a stamp ends. -/
theorem stamp_of_mem_starts {line cs : List Char} (h : cs ∈ starts line) :
    ∃ st, Stamp st ∧ line = st ++ cs := by
  simp only [starts] at h
  split at h
  · rename_i t rest hs
    rcases List.mem_append.1 h with h | h
    · obtain ⟨bs, hb, rfl⟩ := mem_afterBlanks h
      change (lit "[" >>= fun _ => upTo ']') line = _ at hs
      simp only [bind_eq_some_iff, lit_eq_some_iff, upTo_eq_some_iff] at hs
      obtain ⟨_, _, rfl, rfl, ht⟩ := hs
      exact ⟨_, .present ht hb, by simp⟩
    · obtain rfl := List.mem_singleton.1 h
      exact ⟨[], .absent, rfl⟩
  · obtain rfl := List.mem_singleton.1 h
    exact ⟨[], .absent, rfl⟩

theorem of_stamped {s : Scanner Shape} {line : List Char} {x : Shape}
    (h : stamped s line = some x) :
    ∃ st cs rest, Stamp st ∧ line = st ++ cs ∧ s cs = some (x, rest) := by
  obtain ⟨cs, hm, hs⟩ := List.exists_of_findSome?_eq_some h
  simp only [Option.map_eq_some_iff] at hs
  obtain ⟨⟨_, rest⟩, hs, rfl⟩ := hs
  obtain ⟨st, hst, e⟩ := stamp_of_mem_starts hm
  exact ⟨st, cs, rest, hst, e, hs⟩

theorem of_unstamped {s : Scanner Shape} {line : List Char} {x : Shape}
    (h : unstamped s line = some x) : ∃ rest, s line = some (x, rest) := by
  simp only [unstamped, Option.map_eq_some_iff] at h
  obtain ⟨⟨_, rest⟩, hs, rfl⟩ := h
  exact ⟨rest, hs⟩

end

namespace Shape

open Scanner

variable {line : List Char} {x : Shape}

theorem written_of_localTime (h : unstamped Line.localTime line = some x) : x.Written line := by
  obtain ⟨rest, hs⟩ := of_unstamped h
  simp only [Line.localTime, bind_eq_some_iff, lit_eq_some_iff, upTo_eq_some_iff, done_eq_some_iff,
    pure_eq_some_iff] at hs
  obtain ⟨_, _, rfl, t, _, ⟨rfl, ht⟩, _, _, ⟨rfl, rfl⟩, rfl, rfl⟩ := hs
  exact .localTime ht

theorem written_of_probe (h : stamped Line.probe line = some x) : x.Written line := by
  obtain ⟨st, cs, rest, hst, rfl, hs⟩ := of_stamped h
  simp only [Line.probe, bind_eq_some_iff, lit_eq_some_iff, upTo_eq_some_iff,
    pure_eq_some_iff] at hs
  obtain ⟨h, _, hl, _, _, rfl, seq, _, ⟨rfl, hseq⟩, _, _, rfl, _, _, hb, rtt, _, ha, _, _, hr, rfl,
    rfl⟩ := hs
  obtain ⟨l, hl', rfl⟩ := label_of_label hl
  obtain ⟨bs, hbs, rfl⟩ := blanks_of_blanks hb
  obtain ⟨hr', rfl⟩ := remark_of_remark hr
  obtain ⟨a, ha', rfl⟩ := answer_of_answer ha
  have hseq' : Without ']' (String.ofList seq).toList := by simpa [Without] using hseq
  simpa using Written.probe hst hl' hseq' hbs ha' hr'

theorem written_of_duplicate (h : stamped Line.duplicate line = some x) : x.Written line := by
  obtain ⟨st, cs, rest, hst, rfl, hs⟩ := of_stamped h
  simp only [Line.duplicate, bind_eq_some_iff, lit_eq_some_iff, pure_eq_some_iff] at hs
  obtain ⟨h, _, hl, _, _, rfl, rfl, rfl⟩ := hs
  obtain ⟨l, hl', rfl⟩ := label_of_label hl
  exact .duplicate hst hl'

theorem written_of_summary (h : stamped Line.summary line = some x) : x.Written line := by
  obtain ⟨st, cs, rest, hst, rfl, hs⟩ := of_stamped h
  simp only [Line.summary, bind_eq_some_iff, done_eq_some_iff, pure_eq_some_iff] at hs
  obtain ⟨h, _, hl, c, _, hc, _, _, hs, _, _, ⟨rfl, rfl⟩, rfl, rfl⟩ := hs
  obtain ⟨l, hl', rfl⟩ := label_of_label hl
  obtain ⟨t, ht, rfl⟩ := written_of_counts hc
  obtain ⟨ss, hss, rfl⟩ := spaces_of_spaces hs
  simpa using Written.summary hst hl' ht hss

theorem written_of_icmpError (h : stamped Line.icmpError line = some x) : x.Written line := by
  obtain ⟨st, cs, rest, hst, rfl, hs⟩ := of_stamped h
  simp only [Line.icmpError, bind_eq_some_iff, pure_eq_some_iff] at hs
  obtain ⟨⟨error, source, h⟩, _, hs, rfl, rfl⟩ := hs
  obtain ⟨_, rfl, hne, hl, hr, -⟩ := shortestBefore_eq_some_iff.1 hs
  obtain ⟨t, ss, hw, ht, hss, rfl, rfl⟩ := written_of_report hr
  have hl' : Without '\n' (String.ofList error).toList := by simpa [Without] using hl
  simpa using Written.icmpError hst (by simpa using hne) hl' hw ht hss

theorem written_of_unreachable (h : unstamped Line.unreachable line = some x) : x.Written line := by
  obtain ⟨rest, hs⟩ := of_unstamped h
  simp only [Line.unreachable, bind_eq_some_iff, lit_eq_some_iff, done_eq_some_iff,
    pure_eq_some_iff] at hs
  obtain ⟨h, _, hh, _, _, hb, _, _, rfl, _, _, hb', _, _, rfl, _, _, hs, _, _, ⟨rfl, rfl⟩, rfl,
    rfl⟩ := hs
  obtain ⟨t, ht, rfl⟩ := written_of_host hh
  obtain ⟨bs, hbs, rfl⟩ := blanks_of_blanks hb
  obtain ⟨bs', hbs', rfl⟩ := blanks_of_blanks hb'
  obtain ⟨ss, hss, rfl⟩ := spaces_of_spaces hs
  simpa using Written.unreachable ht hbs hbs' hss

theorem written_of_proberError (h : unstamped Line.proberError line = some x) :
    x.Written line := by
  obtain ⟨rest, hs⟩ := of_unstamped h
  simp only [Line.proberError] at hs
  split at hs
  · rename_i t c message hw
    simp only [Option.ite_none_right_eq_some, Bool.and_eq_true, decide_eq_true_eq,
      Option.some.injEq, Prod.mk.injEq] at hs
    obtain ⟨⟨⟨⟨hc, hlen⟩, hm⟩, hn⟩, rfl, rfl⟩ := hs
    obtain ⟨rfl, ht, hp, hb⟩ := run_eq_some_iff.1 hw
    obtain ⟨t, rfl⟩ := List.getLast?_eq_some_iff.1 hc
    have ht' : Word (String.ofList t).toList := by
      refine ⟨by rintro h; simp_all, fun d hd => ?_⟩
      simpa using hp d (by simp_all)
    have := Written.proberError (c := c) ht' (by simpa using hb) (by simpa using hm)
      (fun d hd => by simpa using List.all_eq_true.1 hn d hd)
    simpa using this
  · simp at hs

/-- A line that has a shape is written for it. -/
theorem written_of_shape? (h : shape? line = some x) : x.Written line := by
  simp only [shape?, Option.orElse_eq_orElse, ← Option.or_eq_orElse, Option.or_eq_some_iff] at h
  rcases h with h | ⟨-, h | ⟨-, h | ⟨-, h | ⟨-, h | ⟨-, h | ⟨-, h⟩⟩⟩⟩⟩⟩
  · exact written_of_localTime h
  · exact written_of_probe h
  · exact written_of_duplicate h
  · exact written_of_summary h
  · exact written_of_icmpError h
  · exact written_of_unreachable h
  · exact written_of_proberError h

end Shape

end EchoMetrics.Line
