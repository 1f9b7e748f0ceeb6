import EchoMetrics.Text.Blank

/-! # The words of a text

A text may be put together in several ways, with any blanks in between; its words are the same in
all of them. Main statements: the words of a text that is continued behind a blank, and that the
characters of the words are those of the text that are not blank. -/

namespace EchoMetrics.Text

section

variable {p : Char → Bool} {cs : List Char}

/-- A separator in a text separates the pieces in front of it from those behind it. -/
theorem pieces_append {c : Char} (cs ds : List Char) (hc : p c = true) :
    pieces p (cs ++ c :: ds) = pieces p cs ++ pieces p ds := by
  induction cs with
  | nil => exact if_pos hc
  | cons d cs ih =>
    rw [List.cons_append, pieces, pieces, ih]
    split
    · rfl
    · cases h : pieces p cs with
      | nil => exact absurd h (pieces_ne_nil p cs)
      | cons piece more => rfl

/-- A text without separators is one piece. -/
theorem pieces_of_forall_not (h : ∀ c ∈ cs, p c = false) : pieces p cs = [cs] := by
  induction cs with
  | nil => rfl
  | cons c cs ih =>
    rw [pieces, if_neg (ne_true_of_eq_false (h c List.mem_cons_self)),
      ih fun d hd => h d (List.mem_cons_of_mem c hd)]

theorem flatten_pieces (p : Char → Bool) (cs : List Char) :
    (pieces p cs).flatten = cs.filter (!p ·) := by
  induction cs with
  | nil => rfl
  | cons c cs ih =>
    rw [pieces, List.filter_cons]
    split
    · rename_i hc
      rw [List.flatten_cons, List.nil_append, ih, if_neg (by simp [hc])]
    · rename_i hc
      rw [if_pos (by simpa using hc), ← ih]
      cases h : pieces p cs with
      | nil => exact absurd h (pieces_ne_nil p cs)
      | cons piece more => rfl

end

/-- The pieces of a text between its blanks, without the empty ones. -/
def words (cs : List Char) : List (List Char) := (pieces isBlank cs).filter (!·.isEmpty)

variable {cs ds : List Char} {c : Char}

@[simp] theorem words_nil : words [] = [] := rfl

theorem words_append_cons (cs ds : List Char) (hc : isBlank c = true) :
    words (cs ++ c :: ds) = words cs ++ words ds := by
  rw [words, pieces_append cs ds hc, List.filter_append, words, words]

theorem words_cons (ds : List Char) (hc : isBlank c = true) : words (c :: ds) = words ds :=
  words_append_cons [] ds hc

/-- Words end in front of a blank. -/
theorem words_append (cs : List Char) (h : ∀ c ∈ ds.head?, isBlank c = true) :
    words (cs ++ ds) = words cs ++ words ds := by
  cases ds with
  | nil => simp
  | cons d ds => rw [words_append_cons cs ds (h d rfl), words_cons ds (h d rfl)]

/-- Words begin behind a blank. -/
theorem words_blank_append (cs ds : List Char) (hc : isBlank c = true) :
    words (cs ++ [c] ++ ds) = words (cs ++ [c]) ++ words ds := by
  rw [List.append_assoc, List.singleton_append, words_append_cons cs ds hc,
    words_append_cons cs [] hc, words_nil, List.append_nil]

theorem words_of_forall_not (hne : cs ≠ []) (h : ∀ c ∈ cs, isBlank c = false) :
    words cs = [cs] := by
  rw [words, pieces_of_forall_not h]
  cases cs with
  | nil => exact absurd rfl hne
  | cons c cs => rfl

theorem flatten_words (cs : List Char) : (words cs).flatten = cs.filter (!isBlank ·) := by
  rw [words, List.flatten_filter_not_isEmpty, flatten_pieces]

theorem mem_of_mem_words {w : List Char} (hw : w ∈ words cs) (hc : c ∈ w) : c ∈ cs := by
  have h : c ∈ (words cs).flatten := List.mem_flatten_of_mem hw hc
  rw [flatten_words] at h
  exact (List.mem_filter.1 h).1

theorem words_eq_nil_iff : words cs = [] ↔ ∀ c ∈ cs, isBlank c = true := by
  constructor
  · intro h c hc
    have hnil : cs.filter (!isBlank ·) = [] := by rw [← flatten_words, h]; rfl
    simpa using List.filter_eq_nil_iff.1 hnil c hc
  · intro h
    induction cs with
    | nil => rfl
    | cons c cs ih =>
      rw [words_cons cs (h c List.mem_cons_self)]
      exact ih fun d hd => h d (List.mem_cons_of_mem c hd)

end EchoMetrics.Text
