/-! # Untyped values

What a field holds before it is checked: a text from the environment, or a value that an earlier
check already typed. -/

namespace EchoMetrics

inductive Value
  | null
  | bool (b : Bool)
  | int (n : Int)
  | float (x : Float)
  | text (s : String)
  | list (items : List Value)
  | record
deriving Inhabited, Repr

/-- Named values; a name that is absent is left to its default. -/
abbrev Record := List (String × Value)

namespace Value

def ofOption {α : Type} (f : α → Value) : Option α → Value
  | none => .null
  | some a => f a

@[simp] theorem ofOption_none {α : Type} (f : α → Value) : ofOption f none = .null := rfl
@[simp] theorem ofOption_some {α : Type} (f : α → Value) (a : α) : ofOption f (some a) = f a := rfl

end Value

namespace Record

/-- Gives a name a new value, in its place or at the end. -/
def set (r : Record) (name : String) (v : Value) : Record :=
  match r with
  | [] => [(name, v)]
  | (n, w) :: r => if n = name then (n, v) :: r else (n, w) :: set r name v

@[simp] theorem lookup_set_self (r : Record) (name : String) (v : Value) :
    (r.set name v).lookup name = some v := by
  induction r with
  | nil => simp [set]
  | cons p r ih =>
    obtain ⟨n, w⟩ := p
    rw [set]
    split
    · rename_i h
      rw [← h, List.lookup_cons_self]
    · rename_i h
      have : (name == n) = false := by simpa using Ne.symm h
      simp only [List.lookup_cons, this, ih]

end Record

end EchoMetrics
