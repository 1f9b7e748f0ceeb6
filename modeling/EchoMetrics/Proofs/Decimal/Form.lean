import EchoMetrics.Decimal.Form

/-! # The characters of written numbers

However a float is written, there are only letters, digits, points and signs in it. -/

namespace EchoMetrics.Decimal

def numeralChar (c : Char) : Bool := c.isAlphanum || c == '.' || c == '-' || c == '+'

/-- A text of letters, digits, points and signs. -/
def Numeric (cs : List Char) : Prop := ∀ c ∈ cs, numeralChar c = true

namespace Numeric

variable {cs ds : List Char}

theorem append (h : Numeric cs) (h' : Numeric ds) : Numeric (cs ++ ds) :=
  List.forall_mem_append.2 ⟨h, h'⟩

theorem cons {c : Char} (hc : numeralChar c = true) (h : Numeric cs) : Numeric (c :: cs) :=
  List.forall_mem_cons.2 ⟨hc, h⟩

theorem take (h : Numeric cs) (n : Nat) : Numeric (cs.take n) :=
  fun c hc => h c (List.mem_of_mem_take hc)

theorem drop (h : Numeric cs) (n : Nat) : Numeric (cs.drop n) :=
  fun c hc => h c (List.mem_of_mem_drop hc)

theorem zeros (n : Nat) : Numeric (List.replicate n '0') := by
  intro c hc
  rw [List.eq_of_mem_replicate hc]
  rfl

theorem digits (n : Nat) : Numeric (Nat.toDigits 10 n) := by
  intro c hc
  have hd : c.isDigit = true := Nat.isDigit_of_mem_toDigits (by decide) (by decide) hc
  simp [numeralChar, Char.isAlphanum, hd]

theorem positional (h : Numeric cs) (lead : Int) : Numeric (positional cs lead) := by
  rw [Decimal.positional]
  split
  · exact .cons rfl (.cons rfl ((zeros _).append h))
  · refine ((h.take _).append (zeros _)).append (.cons rfl ?_)
    split
    · exact .cons rfl (zeros 0)
    · exact h.drop _

theorem scientific (h : Numeric cs) (lead : Int) : Numeric (scientific cs lead) := by
  refine ((h.take 1).append ?_).append (.cons rfl (.cons ?_ ((zeros _).append (digits _))))
  · split
    · exact zeros 0
    · exact .cons rfl (h.drop 1)
  · split <;> rfl

theorem write (f : Form) (d : Decimal) : Numeric (write f d).toList := by
  rw [Decimal.write, String.toList_ofList]
  split
  · exact (digits _).positional _
  · exact (digits _).scientific _

theorem sign {s : String} (h : Numeric s.toList) (negative : Bool) :
    Numeric (sign negative s).toList := by
  cases negative with
  | false => exact h
  | true =>
    rw [Decimal.sign, if_pos rfl, String.toList_append]
    exact .cons rfl h

theorem writeFloat {f : Form} (hinf : Numeric f.infinity.toList) (hnan : Numeric f.nan.toList)
    (x : Float) : Numeric (writeFloat f x).toList := by
  rw [Decimal.writeFloat]
  split
  · exact hnan
  · exact hinf.sign _
  · exact (Numeric.write f _).sign _
  · exact (Numeric.write f _).sign _

end Numeric

end EchoMetrics.Decimal
