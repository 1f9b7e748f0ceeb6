import EchoMetrics.Proofs.Line.Scanning

/-! # Lines behind a stamp

A line may begin with a stamp, behind which its text is tried first, then the same text with ever
more of the blanks in front of it, and last the whole line. Main statements: the text behind a stamp
is tried first, and no other reading of the line gets past the colon of a host to what this host is
labelled with. -/

namespace EchoMetrics.Line

open Text Text.Scanner

/-- Nothing, if the target does not look like a stamp, or a stamp without blanks in it. -/
inductive Prefix (target : String) : List Char → Prop
  | absent : target.toList.head? ≠ some '[' → Prefix target []
  | present {ts bs : List Char} : (∀ c ∈ ts, c ≠ ']' ∧ isBlank c = false) → Blanks bs →
      Prefix target ('[' :: (ts ++ ']' :: bs))

/-! ## Where the text may begin -/

theorem starts_of_head_ne {line : List Char} (h : line.head? ≠ some '[') :
    starts line = [line] := by
  have hlit : (lit "[" *> upTo ']') line = none := by
    change (lit "[" >>= fun _ => upTo ']') line = none
    exact bind_of_none (lit_of_head_ne (by decide) h)
  rw [starts, hlit]

theorem afterBlanks_of_unindented {cs : List Char} (h : Unindented cs) : afterBlanks cs = [] := by
  cases cs with
  | nil => rfl
  | cons c cs => exact if_neg (ne_true_of_eq_false (h c rfl))

/-- The text itself comes first, and then texts that begin with a blank. -/
theorem afterBlanks_append {bs body : List Char} (hb : Blanks bs) (h : Unindented body) :
    ∃ more, afterBlanks (bs ++ body) = body :: more ∧
      ∀ cs ∈ more, ∃ c ds, cs = c :: ds ∧ isBlank c = true := by
  induction bs with
  | nil => exact absurd rfl hb.1
  | cons b bs ih =>
    have hbb := hb.2 b List.mem_cons_self
    rw [List.cons_append, afterBlanks, if_pos hbb]
    cases bs with
    | nil =>
      rw [List.nil_append, afterBlanks_of_unindented h]
      exact ⟨[], rfl, fun _ hcs => absurd hcs List.not_mem_nil⟩
    | cons b' bs =>
      have hb' : Blanks (b' :: bs) := ⟨List.cons_ne_nil _ _, fun c hc =>
        hb.2 c (List.mem_cons_of_mem b hc)⟩
      obtain ⟨more, hm, hblank⟩ := ih hb'
      rw [hm]
      refine ⟨more ++ [b' :: bs ++ body], rfl, ?_⟩
      intro cs hcs
      rcases List.mem_append.1 hcs with hcs | hcs
      · exact hblank cs hcs
      · exact ⟨b', bs ++ body, List.mem_singleton.1 hcs, hb'.2 b' List.mem_cons_self⟩

theorem starts_of_stamp {ts bs body : List Char} (ht : ∀ c ∈ ts, c ≠ ']') :
    starts ('[' :: (ts ++ ']' :: (bs ++ body))) =
      afterBlanks (bs ++ body) ++ ['[' :: (ts ++ ']' :: (bs ++ body))] := by
  have hup : (lit "[" *> upTo ']') ('[' :: (ts ++ ']' :: (bs ++ body))) =
      some (ts, bs ++ body) := by
    change (lit "[" >>= fun _ => upTo ']') _ = _
    rw [bind_of_some (lit_cons rfl)]
    exact upTo_eq_some_iff.2 ⟨rfl, ht⟩
  rw [starts, hup]

theorem localTime_of_head_ne {line : List Char} (h : line.head? ≠ some '[') :
    unstamped localTime line = none := by
  rw [unstamped, Option.map_eq_none_iff]
  exact bind_of_none (lit_of_head_ne (by decide) h)

/-- A line that does not begin like a stamp is read from its front only. -/
theorem stamped_of_head_ne {s : Scanner Shape} {line : List Char} (h : line.head? ≠ some '[') :
    stamped s line = unstamped s line := by
  rw [stamped, starts_of_head_ne h, List.findSome?_cons, unstamped]
  cases s line <;> rfl

section

variable {ts bs body rest : List Char}

theorem localTime_behind (hts : ∀ c ∈ ts, c ≠ ']') (hbs : Blanks bs) (body : List Char) :
    unstamped localTime ('[' :: (ts ++ ']' :: (bs ++ body))) = none := by
  rw [unstamped, Option.map_eq_none_iff, localTime, bind_of_some (lit_cons rfl),
    bind_of_some (upTo_eq_some_iff.2 ⟨rfl, hts⟩)]
  cases bs with
  | nil => exact absurd rfl hbs.1
  | cons b bs => rfl

/-- A scanner that reads the text behind a stamp reads the line. -/
theorem stamped_behind {s : Scanner Shape} {x : Shape} (hts : ∀ c ∈ ts, c ≠ ']') (hbs : Blanks bs)
    (hbody : Unindented body) (hs : s body = some (x, rest)) :
    stamped s ('[' :: (ts ++ ']' :: (bs ++ body))) = some x := by
  obtain ⟨more, hmore, -⟩ := afterBlanks_append hbs hbody
  rw [stamped, starts_of_stamp hts, hmore, List.cons_append, List.findSome?_cons, hs]
  rfl

/-- Between the text behind a stamp and the whole line, there is no other place where a label may
begin. -/
theorem stamped_label_behind {f : Host → Scanner Shape} (hts : ∀ c ∈ ts, c ≠ ']')
    (hbs : Blanks bs) (hbody : Unindented body) :
    stamped (label >>= f) ('[' :: (ts ++ ']' :: (bs ++ body))) =
      (unstamped (label >>= f) body).or
        (unstamped (label >>= f) ('[' :: (ts ++ ']' :: (bs ++ body)))) := by
  obtain ⟨more, hmore, hblank⟩ := afterBlanks_append hbs hbody
  have hnone : (more.findSome? fun cs => ((label >>= f) cs).map Prod.fst) = none := by
    rw [List.findSome?_eq_none_iff]
    intro start hstart
    obtain ⟨c, ds, rfl, hc⟩ := hblank start hstart
    have hword : Scanner.word (c :: ds) = none := by simp [Scanner.word, run, hc]
    have hlabel : label (c :: ds) = none := bind_of_none (bind_of_none hword)
    rw [bind_of_none hlabel]
    rfl
  rw [stamped, starts_of_stamp hts, hmore, List.findSome?_append, List.findSome?_cons, unstamped,
    unstamped]
  cases (label >>= f) body with
  | some p => rfl
  | none =>
    rw [Option.map_none, hnone, List.findSome?_cons]
    cases (label >>= f) ('[' :: (ts ++ ']' :: (bs ++ body))) <;> rfl

variable {t : String} {st : List Char}

theorem Prefix.localTime (hst : Prefix t st) (hhead : body.head? = t.toList.head?) :
    unstamped localTime (st ++ body) = none := by
  cases hst with
  | absent hne => exact localTime_of_head_ne (by rwa [List.nil_append, hhead])
  | present hts hb =>
    rw [List.cons_append, List.append_assoc, List.cons_append]
    exact localTime_behind (fun c hc => (hts c hc).1) hb _

theorem Prefix.stamped {s : Scanner Shape} {x : Shape} (hst : Prefix t st)
    (hhead : body.head? = t.toList.head?) (hbody : Unindented body)
    (hs : s body = some (x, rest)) : stamped s (st ++ body) = some x := by
  cases hst with
  | absent hne =>
    rw [List.nil_append, stamped_of_head_ne (by rwa [hhead]), unstamped, hs]
    rfl
  | present hts hb =>
    rw [List.cons_append, List.append_assoc, List.cons_append]
    exact stamped_behind (fun c hc => (hts c hc).1) hb hbody hs

theorem Prefix.stamped_label {f : Host → Scanner Shape} (hst : Prefix t st)
    (hhead : body.head? = t.toList.head?) (hbody : Unindented body) :
    Line.stamped (label >>= f) (st ++ body) =
      (unstamped (label >>= f) body).or (unstamped (label >>= f) (st ++ body)) := by
  cases hst with
  | absent hne =>
    rw [List.nil_append, stamped_of_head_ne (by rwa [hhead]), Option.or_self]
  | present hts hb =>
    rw [List.cons_append, List.append_assoc, List.cons_append]
    exact stamped_label_behind (fun c hc => (hts c hc).1) hb hbody

end

/-! ## Other readings -/

section

variable {h h' : Host} {st l cs rest : List Char} {x : Shape}

/-- A label is the target, blanks, and either a colon with blanks behind it or an address. -/
theorem Label.split (hl : Label h l) :
    ∃ bs c tail, l = h.target.toList ++ (bs ++ c :: tail) ∧ Word h.target.toList ∧ Blanks bs ∧
      (c = ':' ∧ Blanks tail ∨ c = '(') := by
  obtain ⟨ht, hb, hb'⟩ := hl
  cases ht with
  | bare hw => exact ⟨_, _, _, rfl, hw, hb, .inl ⟨rfl, hb'⟩⟩
  | addressed hw hb₀ ha =>
    simp only [List.append_assoc, List.cons_append]
    exact ⟨_, _, _, rfl, hw, hb₀, .inr rfl⟩

theorem Label.target_ne (hl : Label h l) : h.target ≠ "" := by
  intro e
  obtain ⟨-, -, -, -, hw, -, -⟩ := hl.split
  exact hw.1 (by rw [e]; rfl)

theorem Label.unindented (hl : Label h l) (cs : List Char) : Unindented (l ++ cs) := by
  obtain ⟨bs, c, tail, rfl, hw, -, -⟩ := hl.split
  rw [List.append_assoc]
  exact hw.unindented _

theorem Label.head? (hl : Label h l) (cs : List Char) :
    (l ++ cs).head? = h.target.toList.head? := by
  obtain ⟨bs, c, tail, rfl, hw, -, -⟩ := hl.split
  rw [List.append_assoc, List.head?_append]
  cases ht : h.target.toList with
  | nil => exact absurd ht hw.1
  | cons c cs => rfl

theorem word_between {a b : Char} {cs : List Char} (ha : isBlank a = false)
    (hb : isBlank b = false) (h : ∀ c ∈ cs, isBlank c = false) : Word (a :: (cs ++ [b])) := by
  refine ⟨List.cons_ne_nil _ _, ?_⟩
  intro c hc
  rcases List.mem_cons.1 hc with rfl | hc
  · exact ha
  · rcases List.mem_append.1 hc with hc | hc
    · exact h c hc
    · obtain rfl := List.mem_singleton.1 hc
      exact hb

/-- With another word for the target, the label ends where it did, or in front of a colon or an
address. -/
theorem label_of_word {w bs : List Char} (hw : Word w) (hb : Blanks bs) (hl : Label h l)
    (hcs : Unindented cs) (e : label (w ++ (bs ++ (l ++ cs))) = some (h', rest)) :
    rest = cs ∨ rest.head? = some ':' ∨ rest.head? = some '(' := by
  have hun := hl.unindented cs
  obtain ⟨bs', c, tail, rfl, ht, hb', hc⟩ := hl.split
  rw [List.append_assoc, List.append_assoc, List.cons_append] at e hun
  have hcun (R : List Char) : Unindented (c :: R) := by
    rcases hc with ⟨rfl, -⟩ | rfl <;> exact unindented_cons (by decide)
  simp only [label, host, bind_eq_some_iff, maybe_eq_some_iff, pure_eq_some_iff, lit_eq_some_iff]
    at e
  obtain ⟨_, m₂, ⟨t, m₁, hword, a, m, ha, -, hm⟩, u, m₃, hm₃, _, m₄, rfl, _, _, hm₄, -, rfl⟩ := e
  rw [word_append hw (hb.endsWord _)] at hword
  obtain ⟨rfl, rfl⟩ := Prod.mk.inj (Option.some.inj hword)
  subst hm
  rcases ha with ⟨b, hadd, -⟩ | ⟨-, -, rfl⟩
  · -- the target is taken for an address
    obtain ⟨bs₀, hbs₀, hb₀, e⟩ := written_of_address hadd
    obtain ⟨bs₂, hbs₂, hm'⟩ := blanks_of_blanks hm₃
    have hend : EndsWord m := hm' ▸ hbs₂.endsWord _
    have h₁ := blanks_append hb hun
    rw [e, blanks_append hbs₀ (unindented_cons (by decide))] at h₁
    obtain ⟨-, h₁⟩ := Prod.mk.inj (Option.some.inj h₁)
    have hword' := word_between (a := '(') (b := ')') (by decide) (by decide)
      fun d hd => (hb₀.2 d hd).2
    have h₂ := word_append ht (hb'.endsWord (c :: (tail ++ cs)))
    rw [← h₁, show '(' :: (b.toList ++ ')' :: m) = '(' :: (b.toList ++ [')']) ++ m by simp,
      word_append hword' hend] at h₂
    obtain ⟨-, rfl⟩ := Prod.mk.inj (Option.some.inj h₂)
    rw [blanks_append hb' (hcun _)] at hm₃
    obtain ⟨-, hm₃⟩ := Prod.mk.inj (Option.some.inj hm₃)
    obtain ⟨rfl, rfl⟩ := List.cons.inj hm₃
    rcases hc with ⟨-, htail⟩ | hc
    · rw [blanks_append htail hcs] at hm₄
      exact .inl (Prod.mk.inj (Option.some.inj hm₄)).2.symm
    · exact absurd hc (by decide)
  · -- the target is taken for the colon
    rw [blanks_append hb hun] at hm₃
    obtain ⟨-, hm₃⟩ := Prod.mk.inj (Option.some.inj hm₃)
    cases htarget : h.target.toList with
    | nil => exact absurd htarget ht.1
    | cons d t =>
      rw [htarget] at hm₃
      obtain ⟨-, rfl⟩ := List.cons.inj hm₃
      cases t with
      | nil =>
        change Scanner.blanks (bs' ++ c :: (tail ++ cs)) = _ at hm₄
        rw [blanks_append hb' (hcun _)] at hm₄
        obtain ⟨-, rfl⟩ := Prod.mk.inj (Option.some.inj hm₄)
        rcases hc with ⟨rfl, -⟩ | rfl
        · exact .inr (.inl rfl)
        · exact .inr (.inr rfl)
      | cons d' t =>
        have hd' : isBlank d' = false := ht.2 d' (by rw [htarget]; simp)
        have hnone : Scanner.blanks (d' :: (t ++ (bs' ++ c :: (tail ++ cs)))) = none :=
          blanks_of_unindented (unindented_cons hd')
        exact absurd (hnone.symm.trans hm₄) nofun

theorem Prefix.unindented (hst : Prefix h.target st) (hl : Label h l) (cs : List Char) :
    Unindented (st ++ (l ++ cs)) := by
  cases hst with
  | absent => exact hl.unindented cs
  | present => exact unindented_cons (by decide)

/-- A line with text behind the stamp is no heading. -/
theorem localTime_of_label (hst : Prefix h.target st) (hl : Label h l) (cs : List Char) :
    unstamped localTime (st ++ (l ++ cs)) = none :=
  hst.localTime (hl.head? cs)

/-- A scanner that reads the text behind the stamp reads the line. -/
theorem stamped_of_some {s : Scanner Shape} (hst : Prefix h.target st) (hl : Label h l)
    (hs : s (l ++ cs) = some (x, rest)) : stamped s (st ++ (l ++ cs)) = some x :=
  hst.stamped (hl.head? cs) (hl.unindented cs) hs

/-- A scanner that fails behind the label, and in front of a colon or an address, does not read the
line. -/
theorem stamped_of_none {f : Host → Scanner Shape} (hst : Prefix h.target st) (hl : Label h l)
    (hcs : Unindented cs)
    (hf : ∀ h' rest, rest = cs ∨ rest.head? = some ':' ∨ rest.head? = some '(' → f h' rest = none) :
    stamped (label >>= f) (st ++ (l ++ cs)) = none := by
  have hbehind : unstamped (label >>= f) (l ++ cs) = none := by
    rw [unstamped, bind_of_some (label_append hl hcs), hf h cs (.inl rfl)]
    rfl
  rw [hst.stamped_label (hl.head? cs) (hl.unindented cs), hbehind, Option.none_or]
  cases hst with
  | absent => exact hbehind
  | @present ts bs hts hb =>
    have hw := word_between (a := '[') (b := ']') (by decide) (by decide)
      fun c hc => (hts c hc).2
    have hline : '[' :: (ts ++ ']' :: bs) ++ (l ++ cs) =
        '[' :: (ts ++ [']']) ++ (bs ++ (l ++ cs)) := by simp
    rw [unstamped, Option.map_eq_none_iff, hline]
    cases hlabel : label ('[' :: (ts ++ [']']) ++ (bs ++ (l ++ cs))) with
    | none => exact bind_of_none hlabel
    | some p =>
      rw [bind_of_some hlabel]
      exact hf p.1 p.2 (label_of_word hw hb hl hcs hlabel)

end

end EchoMetrics.Line
