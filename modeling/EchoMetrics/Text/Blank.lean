/-! # Blank characters and trimming -/

namespace EchoMetrics.Text

/-- The characters with the Unicode property `White_Space`. -/
def isWhiteSpace (c : Char) : Bool :=
  let n := c.toNat
  (0x09 ≤ n && n ≤ 0x0D) || n == 0x20 || n == 0x85 || n == 0xA0 || n == 0x1680 ||
    (0x2000 ≤ n && n ≤ 0x200A) || n == 0x2028 || n == 0x2029 || n == 0x202F ||
    n == 0x205F || n == 0x3000

/-- White space, or one of the four information separators. -/
def isBlank (c : Char) : Bool :=
  isWhiteSpace c || (0x1C ≤ c.toNat && c.toNat ≤ 0x1F)

/-- Drops the longest prefix and the longest suffix of characters satisfying `p`. -/
def trimBy (p : Char → Bool) (cs : List Char) : List Char :=
  ((cs.dropWhile p).reverse.dropWhile p).reverse

/-- Drops the longest suffix of characters satisfying `p`. -/
def trimEndBy (p : Char → Bool) (cs : List Char) : List Char :=
  (cs.reverse.dropWhile p).reverse

def trim (s : String) : String := String.ofList (trimBy isBlank s.toList)

def trimEnd (s : String) : String := String.ofList (trimEndBy isBlank s.toList)

@[simp] theorem trimBy_nil (p : Char → Bool) : trimBy p [] = [] := rfl

/-- The pieces of `cs` between the characters satisfying `p`; one more than there are such
characters. -/
def pieces (p : Char → Bool) : List Char → List (List Char)
  | [] => [[]]
  | c :: cs =>
    if p c then [] :: pieces p cs
    else match pieces p cs with
      | [] => [[c]]
      | piece :: pieces => (c :: piece) :: pieces

theorem pieces_ne_nil (p : Char → Bool) (cs : List Char) : pieces p cs ≠ [] := by
  induction cs with
  | nil => simp [pieces]
  | cons c cs ih =>
    rw [pieces]
    split
    · simp
    · split <;> simp

/-- A piece ends at the first separator. -/
theorem pieces_append_cons {p : Char → Bool} {piece : List Char} {c : Char} (rest : List Char)
    (h : ∀ d ∈ piece, p d = false) (hc : p c = true) :
    pieces p (piece ++ c :: rest) = piece :: pieces p rest := by
  induction piece with
  | nil => rw [List.nil_append, pieces, if_pos hc]
  | cons d ds ih =>
    rw [List.cons_append, pieces, if_neg (by simp [h d]), ih fun e he => h e (.tail _ he)]

/-- Every piece is free of separators. -/
theorem not_of_mem_pieces {p : Char → Bool} {cs piece : List Char} {c : Char}
    (hp : piece ∈ pieces p cs) (hc : c ∈ piece) : p c = false := by
  induction cs generalizing piece with
  | nil => simp_all [pieces]
  | cons d ds ih =>
    rw [pieces] at hp
    split at hp
    · rcases List.mem_cons.1 hp with rfl | hp
      · simp at hc
      · exact ih hp hc
    · rename_i hd
      split at hp
      · simp_all
      · rename_i first rest h
        rcases List.mem_cons.1 hp with rfl | hp
        · rcases List.mem_cons.1 hc with rfl | hc
          · simpa using hd
          · exact ih (h ▸ List.mem_cons_self ..) hc
        · exact ih (h ▸ List.mem_cons_of_mem _ hp) hc

end EchoMetrics.Text
