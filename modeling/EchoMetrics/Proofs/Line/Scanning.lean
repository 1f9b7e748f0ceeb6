import EchoMetrics.Line.Grammar
import EchoMetrics.Proofs.Text.Blank

/-! # Scanners read what is written

Every part of a line that is written as the grammar says is read off in one piece, provided that
what follows cannot extend it. Runs are as long as they can be, so it only matters whether the text
behind a part begins with a blank. -/

namespace EchoMetrics.Line

open Text Text.Scanner

/-- A text that does not begin with a blank. -/
def Unindented (cs : List Char) : Prop := ∀ c ∈ cs.head?, isBlank c = false

/-- A text in front of which a word ends. -/
def EndsWord (cs : List Char) : Prop := ∀ c ∈ cs.head?, isBlank c = true

section

variable {α β : Type} {cs rest middle : List Char} {a : α}

theorem bind_of_some {s : Scanner α} {f : α → Scanner β} (h : s cs = some (a, middle)) :
    (s >>= f) cs = f a middle := by
  change (s cs >>= fun p => f p.1 p.2) = _
  rw [h]
  rfl

theorem bind_of_none {s : Scanner α} {f : α → Scanner β} (h : s cs = none) :
    (s >>= f) cs = none := by
  change (s cs >>= fun p => f p.1 p.2) = _
  rw [h]
  rfl

theorem maybe_of_some {s : Scanner α} (h : s cs = some (a, rest)) :
    maybe s cs = some (some a, rest) :=
  maybe_eq_some_iff.2 (.inl ⟨a, h, rfl⟩)

theorem maybe_of_none {s : Scanner α} (h : s cs = none) : maybe s cs = some (none, cs) :=
  maybe_eq_some_iff.2 (.inr ⟨h, rfl, rfl⟩)

theorem lit_cons {s : String} {c : Char} (h : s.toList = [c]) :
    lit s (c :: rest) = some ((), rest) :=
  lit_eq_some_iff.2 (by rw [h]; rfl)

theorem lit_of_head_ne {s : String} (hs : s.toList ≠ []) (h : cs.head? ≠ s.toList.head?) :
    lit s cs = none := by
  cases hl : s.toList with
  | nil => exact absurd hl hs
  | cons d ds =>
    cases cs with
    | nil => simp [lit, hl, after?]
    | cons c cs =>
      have hne : d ≠ c := by
        rintro rfl
        exact h (by rw [hl]; rfl)
      simp [lit, hl, after?, hne]

theorem unindented_cons {c : Char} (h : isBlank c = false) : Unindented (c :: cs) := by
  intro d hd
  obtain rfl := Option.some.inj hd
  exact h

theorem endsWord_cons {c : Char} (h : isBlank c = true) : EndsWord (c :: cs) := by
  intro d hd
  obtain rfl := Option.some.inj hd
  exact h

theorem Blanks.endsWord {bs : List Char} (h : Blanks bs) (rest : List Char) :
    EndsWord (bs ++ rest) := by
  intro c hc
  cases bs with
  | nil => exact absurd rfl h.1
  | cons b bs =>
    obtain rfl := Option.some.inj hc
    exact h.2 _ List.mem_cons_self

theorem Word.unindented {t : List Char} (h : Word t) (rest : List Char) :
    Unindented (t ++ rest) := by
  intro c hc
  cases t with
  | nil => exact absurd rfl h.1
  | cons b bs =>
    obtain rfl := Option.some.inj hc
    exact h.2 _ List.mem_cons_self

theorem Word.endsWithout {t : List Char} (ht : Word t) : EndsWithout isBlank t :=
  .of_forall ht.1 ht.2

theorem WordWithout.word {stop : Char} {t : List Char} (h : WordWithout stop t) : Word t :=
  ⟨h.1, fun c hc => (h.2 c hc).2⟩

/-! ## Runs -/

theorem word_append {t : List Char} (h : Word t) (hr : EndsWord rest) :
    Scanner.word (t ++ rest) = some (t, rest) := by
  rw [Scanner.word, run_eq_some_iff]
  refine ⟨rfl, h.1, ?_, ?_⟩
  · intro c hc
    rw [h.2 c hc]
    rfl
  · intro c hc
    rw [hr c hc]
    rfl

theorem blanks_append {bs : List Char} (h : Blanks bs) (hr : Unindented rest) :
    Scanner.blanks (bs ++ rest) = some ((), rest) := by
  rw [Scanner.blanks, run_eq_some_iff.2 ⟨rfl, h.1, h.2, hr⟩]
  rfl

theorem blanks_of_unindented (h : Unindented cs) : Scanner.blanks cs = none := by
  cases cs with
  | nil => rfl
  | cons c cs => simp [Scanner.blanks, run, h c rfl]

theorem spaces_append {ss : List Char} (h : Spaces ss) (hr : Unindented rest) :
    Scanner.spaces (ss ++ rest) = some ((), rest) := by
  rw [Scanner.spaces, List.dropWhile_append_of_pos h]
  cases rest with
  | nil => rfl
  | cons c rest => rw [List.dropWhile_cons_of_neg (ne_true_of_eq_false (hr c rfl))]

/-- A run up to a stop character or a blank. -/
theorem runWithout_append {stop : Char} {t : List Char} (h : WordWithout stop t)
    (hr : ∀ c ∈ rest.head?, c = stop ∨ isBlank c = true) :
    run (fun c => c != stop && !isBlank c) (t ++ rest) = some (t, rest) := by
  rw [run_eq_some_iff]
  refine ⟨rfl, h.1, ?_, ?_⟩
  · intro c hc
    obtain ⟨hs, hb⟩ := h.2 c hc
    simp [hs, hb]
  · intro c hc
    rcases hr c hc with rfl | hb
    · simp
    · simp [hb]

end

/-! ## Parts of a line -/

section

variable {rest : List Char}

theorem part_append {t : String} (h : WordWithout '/' t.toList)
    (hr : ∀ c ∈ rest.head?, c = '/' ∨ isBlank c = true) :
    part (t.toList ++ rest) = some (t, rest) :=
  map_eq_some_iff.2 ⟨t.toList, runWithout_append h hr, String.ofList_toList⟩

theorem address_append {a : String} {bs : List Char} (hb : Blanks bs)
    (ha : WordWithout ')' a.toList) :
    address (bs ++ '(' :: (a.toList ++ ')' :: rest)) = some (a, rest) := by
  have hr : ∀ c ∈ (')' :: rest).head?, c = ')' ∨ isBlank c = true := by
    intro c hc
    exact .inl (Option.some.inj hc).symm
  rw [address, bind_of_some (blanks_append hb (unindented_cons (by decide))),
    bind_of_some (lit_cons rfl), bind_of_some (runWithout_append ha hr),
    bind_of_some (lit_cons rfl), String.ofList_toList]
  rfl

theorem address_of_colon {bs : List Char} (hb : Blanks bs) :
    address (bs ++ ':' :: rest) = none := by
  rw [address, bind_of_some (blanks_append hb (unindented_cons (by decide)))]
  exact bind_of_none (lit_of_head_ne (by decide) (by simp))

/-- A host is read off in front of the colon. -/
theorem host_append {h : Host} {t bs : List Char} (ht : h.Written t) (hb : Blanks bs) :
    host (t ++ (bs ++ ':' :: rest)) = some (h, bs ++ ':' :: rest) := by
  cases ht with
  | @bare t hw =>
    rw [host, bind_of_some (word_append hw (hb.endsWord _)),
      bind_of_some (maybe_of_none (address_of_colon hb)), String.ofList_toList]
    rfl
  | @addressed t a bs' hw hb' ha =>
    rw [List.append_assoc, List.append_assoc, List.cons_append, List.append_assoc, host,
      bind_of_some (word_append hw (hb'.endsWord _))]
    rw [show [')'] ++ (bs ++ ':' :: rest) = ')' :: (bs ++ ':' :: rest) from rfl,
      bind_of_some (maybe_of_some (address_append hb' ha)), String.ofList_toList]
    rfl

theorem label_append {h : Host} {l : List Char} (hl : Label h l) (hr : Unindented rest) :
    label (l ++ rest) = some (h, rest) := by
  obtain ⟨ht, hb, hb'⟩ := hl
  rw [List.append_assoc, List.append_assoc, List.cons_append, label,
    bind_of_some (host_append ht hb),
    bind_of_some (blanks_append hb (unindented_cons (by decide))),
    bind_of_some (lit_cons rfl), bind_of_some (blanks_append hb' hr)]
  rfl

theorem group_append {name : String} {g : List Char} (hg : Group name g) (hr : Unindented rest) :
    group name (g ++ rest) = some ((), rest) := by
  obtain ⟨hs, hs'⟩ := hg
  rw [List.append_assoc, List.append_assoc, List.cons_append, group, bind_of_some (lit_append _ _),
    bind_of_some (spaces_append hs (unindented_cons (by decide))), bind_of_some (lit_cons rfl)]
  exact spaces_append hs' hr

theorem stop_cons {stop : Char} : ∀ c ∈ (stop :: rest).head?, c = stop ∨ isBlank c = true :=
  fun _ hc => .inl (Option.some.inj hc).symm

theorem EndsWord.stop {stop : Char} (h : EndsWord rest) :
    ∀ c ∈ rest.head?, c = stop ∨ isBlank c = true :=
  fun c hc => .inr (h c hc)

theorem roundTrips_append {t : String × String × String} {r : List Char}
    (h : RoundTrips (some t) r) (hr : EndsWord rest) : roundTrips (r ++ rest) = some (t, rest) := by
  cases h with
  | @present ss g min avg max hs hg h₁ h₂ h₃ =>
    simp only [List.append_assoc, List.cons_append]
    rw [roundTrips, bind_of_some (lit_cons rfl), bind_of_some (spaces_append hs ?_),
      bind_of_some (group_append hg (h₁.word.unindented _)),
      bind_of_some (part_append h₁ stop_cons),
      bind_of_some (lit_cons rfl), bind_of_some (part_append h₂ stop_cons),
      bind_of_some (lit_cons rfl), bind_of_some (part_append h₃ hr.stop)]
    · rfl
    · obtain ⟨-, -⟩ := hg
      exact unindented_cons (by decide)

theorem roundTrips_of_endsWord (h : EndsWord rest) : roundTrips rest = none := by
  refine bind_of_none (lit_of_head_ne (by decide) ?_)
  intro e
  exact absurd (h ',' e) (by decide)

theorem maybe_roundTrips_append {t : Option (String × String × String)} {r : List Char}
    (h : RoundTrips t r) (hr : EndsWord rest) : maybe roundTrips (r ++ rest) = some (t, rest) := by
  cases t with
  | none =>
    cases h
    exact maybe_of_none (roundTrips_of_endsWord hr)
  | some t => exact maybe_of_some (roundTrips_append h hr)

theorem counts_append {c : Summary} {cs : List Char} (h : c.Written cs) (hr : EndsWord rest) :
    counts (cs ++ rest) = some (c, rest) := by
  obtain ⟨hg, hx, hrec, hp, ht⟩ := h
  simp only [List.append_assoc, List.cons_append]
  rw [counts, bind_of_some (group_append hg (hx.word.unindented _)),
    bind_of_some (part_append hx stop_cons), bind_of_some (lit_cons rfl),
    bind_of_some (part_append hrec stop_cons), bind_of_some (lit_cons rfl),
    bind_of_some (runWithout_append hp stop_cons), bind_of_some (lit_cons rfl),
    bind_of_some (maybe_roundTrips_append ht hr), String.ofList_toList]
  rfl

theorem reply_append {rtt : String} {size bs : List Char} (hs : Word size) (hb : Blanks bs)
    (hr : Word rtt.toList) :
    reply (size ++ (" bytes,".toList ++ (bs ++ (rtt.toList ++ (" ms".toList ++ rest))))) =
      some (rtt, rest) := by
  rw [reply, bind_of_some (word_append hs ?_), bind_of_some (lit_append _ _),
    bind_of_some (blanks_append hb (hr.unindented _)), bind_of_some (word_append hr ?_),
    bind_of_some (lit_append _ _), String.ofList_toList]
  · rfl
  · exact endsWord_cons (by decide)
  · exact endsWord_cons (by decide)

/-- A size is not taken for the words of a request without an answer. -/
theorem timedOut_of_size {size : List Char} (hs : Word size) :
    lit "timed out" (size ++ (" bytes,".toList ++ rest)) = none := by
  cases h : lit "timed out" (size ++ (" bytes,".toList ++ rest)) with
  | none => rfl
  | some p =>
    have hblank (cs : List Char) : EndsWord (' ' :: cs) := endsWord_cons (by decide)
    have hout : size ++ (" bytes,".toList ++ rest) = "timed out".toList ++ p.2 :=
      lit_eq_some_iff.1 h
    have e : size ++ (" bytes,".toList ++ rest) = "timed".toList ++ (" out".toList ++ p.2) :=
      hout.trans (List.append_assoc "timed".toList " out".toList p.2)
    have h₁ := word_append hs (hblank ("bytes,".toList ++ rest))
    have htimed : Word "timed".toList := by decide
    have h₂ := word_append htimed (hblank ("out".toList ++ p.2))
    have h₃ : some (size, " bytes,".toList ++ rest) = some ("timed".toList, " out".toList ++ p.2) :=
      h₁.symm.trans ((congrArg Scanner.word e).trans h₂)
    simp at h₃

theorem answer_append {rtt : Option String} {a : List Char} (h : Answer rtt a) :
    answer (a ++ rest) = some (rtt, rest) := by
  refine orElse_eq_some_iff.2 ?_
  change (lit "timed out" >>= fun _ => pure none) _ = _ ∨
    (lit "timed out" >>= fun _ => pure none) _ = none ∧ _
  cases h with
  | timedOut =>
    left
    rw [bind_of_some (lit_append _ _)]
    rfl
  | reply hs hb hr =>
    right
    simp only [List.append_assoc]
    refine ⟨bind_of_none (timedOut_of_size hs), ?_⟩
    exact map_eq_some_iff.2 ⟨_, reply_append hs hb hr, rfl⟩

theorem remark_of_written {r : List Char} (h : Remark r) : remark r = some ((), []) := by
  cases h with
  | absent => rfl
  | present hc hn =>
    have hall : List.all _ (· != '\n') = true :=
      List.all_eq_true.2 fun d hd => by simpa using hn d hd
    simp [remark, hc, hall]

end

end EchoMetrics.Line
