/-! # Runs of a system

What a system that changes step by step can come to. -/

namespace EchoMetrics

/-- The second state can come of the first by any number of steps. -/
inductive Steps {σ : Type} (step : σ → σ → Prop) (a : σ) : σ → Prop
  | refl : Steps step a a
  | tail {b c : σ} (h : Steps step a b) (hs : step b c) : Steps step a c

namespace Steps

variable {σ : Type} {step : σ → σ → Prop} {a b c : σ}

theorem trans (h : Steps step a b) (h' : Steps step b c) : Steps step a c := by
  induction h' with
  | refl => exact h
  | tail _ hs ih => exact .tail ih hs

theorem mono {step' : σ → σ → Prop} (h : Steps step a b) (hs : ∀ a b, step a b → step' a b) :
    Steps step' a b := by
  induction h with
  | refl => exact .refl
  | tail _ h ih => exact .tail ih (hs _ _ h)

/-- What holds at first and is kept by every step holds for good. -/
theorem invariant {p : σ → Prop} (h : Steps step a b) (ha : p a)
    (hp : ∀ b c, p b → step b c → p c) : p b := by
  induction h with
  | refl => exact ha
  | tail _ hs ih => exact hp _ _ ih hs

end Steps

end EchoMetrics
