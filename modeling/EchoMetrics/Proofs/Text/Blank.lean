import EchoMetrics.Text.Blank

/-! # What trimming keeps

Main statement: a text that neither begins nor ends with a blank stays as it is, whatever is trimmed
behind it. -/

namespace EchoMetrics.Text

variable {p : Char → Bool} {cs ds rest : List Char}

/-- A text whose last character does not satisfy `p`. -/
def EndsWithout (p : Char → Bool) (cs : List Char) : Prop :=
  ∃ front c, cs = front ++ [c] ∧ p c = false

namespace EndsWithout

theorem append (h : EndsWithout p cs) (ds : List Char) : EndsWithout p (ds ++ cs) := by
  obtain ⟨front, c, rfl, hc⟩ := h
  exact ⟨ds ++ front, c, (List.append_assoc ..).symm, hc⟩

theorem cons (h : EndsWithout p cs) (c : Char) : EndsWithout p (c :: cs) := h.append [c]

theorem of_forall (hne : cs ≠ []) (h : ∀ c ∈ cs, p c = false) : EndsWithout p cs :=
  ⟨cs.dropLast, cs.getLast hne, (List.dropLast_concat_getLast hne).symm, h _ (List.getLast_mem hne)⟩

end EndsWithout

theorem dropWhile_append_of_head (hne : ds ≠ []) (h : ∀ c ∈ ds.head?, p c = false) :
    (cs ++ ds).dropWhile p = cs.dropWhile p ++ ds := by
  cases ds with
  | nil => exact absurd rfl hne
  | cons d ds =>
    rw [List.dropWhile_append]
    split
    · rename_i hnil
      rw [List.isEmpty_iff.1 hnil, List.dropWhile_cons_of_neg (ne_true_of_eq_false (h d rfl))]
      rfl
    · rfl

/-- Only what stands behind the last character that stays is trimmed. -/
theorem trimBy_append (rest : List Char) (h : ∀ c ∈ cs.head?, p c = false)
    (hlast : EndsWithout p cs) :
    trimBy p (cs ++ rest) = cs ++ trimEndBy p rest := by
  obtain ⟨front, c, rfl, hc⟩ := hlast
  have hfront : (front ++ [c] ++ rest).dropWhile p = front ++ [c] ++ rest := by
    cases front with
    | nil => exact List.dropWhile_cons_of_neg (ne_true_of_eq_false hc)
    | cons d front => exact List.dropWhile_cons_of_neg (ne_true_of_eq_false (h d rfl))
  rw [trimBy, hfront, List.reverse_append, dropWhile_append_of_head (by simp) (by simpa using hc),
    List.reverse_append, List.reverse_reverse]
  rfl

theorem trimEndBy_of_forall (h : ∀ c ∈ cs, p c = true) : trimEndBy p cs = [] := by
  have hall : ∀ c ∈ cs.reverse, p c = true := fun c hc => h c (List.mem_reverse.1 hc)
  have hdrop : (cs.reverse ++ []).dropWhile p = [] := List.dropWhile_append_of_pos hall
  rw [List.append_nil] at hdrop
  rw [trimEndBy, hdrop]
  rfl

theorem trimBy_of_forall (h : ∀ c ∈ cs, p c = true) : trimBy p cs = [] := by
  refine trimEndBy_of_forall ?_
  intro c hc
  exact h c ((List.dropWhile_sublist p).mem hc)

/-- What is trimmed may stand on both sides. -/
theorem trimBy_append_append {front back : List Char} (hfront : ∀ c ∈ front, p c = true)
    (hback : ∀ c ∈ back, p c = true) (hne : cs ≠ []) (h : ∀ c ∈ cs, p c = false) :
    trimBy p (front ++ (cs ++ back)) = cs := by
  have hhead : ∀ c ∈ cs.head?, p c = false := fun c hc => h c (List.mem_of_head? hc)
  calc trimBy p (front ++ (cs ++ back))
      = trimBy p (cs ++ back) := by
        rw [trimBy, List.dropWhile_append_of_pos hfront]
        rfl
    _ = cs ++ trimEndBy p back := trimBy_append back hhead (.of_forall hne h)
    _ = cs := by rw [trimEndBy_of_forall hback, List.append_nil]

theorem trimBy_eq_self (h : ∀ c ∈ cs.head?, p c = false) (hlast : EndsWithout p cs) :
    trimBy p cs = cs := by
  have := trimBy_append [] h hlast
  simpa [trimEndBy] using this

theorem endsWithout_trimEndBy (hne : trimEndBy p cs ≠ []) : EndsWithout p (trimEndBy p cs) := by
  have hhead := List.head?_dropWhile_not p cs.reverse
  rw [trimEndBy] at hne ⊢
  generalize cs.reverse.dropWhile p = ds at hhead hne ⊢
  cases ds with
  | nil => exact absurd rfl hne
  | cons c ds => exact ⟨ds.reverse, c, List.reverse_cons, hhead⟩

theorem endsWithout_trimBy (hne : trimBy p cs ≠ []) : EndsWithout p (trimBy p cs) :=
  endsWithout_trimEndBy hne

theorem trimEndBy_isPrefix (p : Char → Bool) (cs : List Char) : trimEndBy p cs <+: cs := by
  have := List.reverse_prefix.2 (List.dropWhile_suffix p (l := cs.reverse))
  rwa [List.reverse_reverse] at this

/-- What is trimmed stands in front of the rest or behind it. -/
theorem exists_append_trimBy_append (p : Char → Bool) (cs : List Char) :
    ∃ front back, (∀ c ∈ front, p c = true) ∧ (∀ c ∈ back, p c = true) ∧
      cs = front ++ (trimBy p cs ++ back) := by
  refine ⟨cs.takeWhile p, ((cs.dropWhile p).reverse.takeWhile p).reverse,
    List.all_eq_true.1 List.all_takeWhile, fun c hc => ?_, ?_⟩
  · exact List.all_eq_true.1 List.all_takeWhile c (List.mem_reverse.1 hc)
  · rw [trimBy, ← List.reverse_append, List.takeWhile_append_dropWhile, List.reverse_reverse,
      List.takeWhile_append_dropWhile]

theorem trimBy_sublist (p : Char → Bool) (cs : List Char) : (trimBy p cs).Sublist cs :=
  (trimEndBy_isPrefix p (cs.dropWhile p)).sublist.trans (List.dropWhile_sublist p)

/-- A trimmed text does not begin with what is trimmed. -/
theorem not_head?_trimBy {c : Char} (h : c ∈ (trimBy p cs).head?) : p c = false := by
  obtain ⟨rest, hrest⟩ := trimEndBy_isPrefix p (cs.dropWhile p)
  have hhead := List.head?_dropWhile_not p cs
  rw [← hrest, List.head?_append] at hhead
  change (trimEndBy p (cs.dropWhile p)).head? = some c at h
  rw [h] at hhead
  exact hhead

end EchoMetrics.Text
