import EchoMetrics.Decimal.Basic

/-! # Restart delays

The delay doubles with every retry, up to a cap. Retries are limited until the prober has been
stable again. -/

namespace EchoMetrics

structure Backoff where
  base : Float
  cap : Float
  maxRetries : Nat
  /-- Retries since the last reset. -/
  attempts : Nat := 0
deriving DecidableEq

namespace Backoff

inductive Fault
  /-- All retries are used; the prober has exited so many times. -/
  | exhausted (exits : Nat)
  /-- The power of two is past the last finite float. -/
  | factorTooLarge
deriving DecidableEq, Repr

def Fault.message : Fault → String
  | .exhausted exits =>
    "fping exited " ++ toString exits ++ " times in a row without becoming stable"
  | .factorTooLarge => "int too large to convert to float"

/-- The product `base * 2 ^ attempts`, but not more than the cap. -/
def delay (b : Backoff) (attempts : Nat) : Float :=
  let d := b.base * floatOfNat (Nat.pow 2 attempts)
  if d < b.cap then d else b.cap

/-- Uses up a retry. -/
def next (b : Backoff) : Except Fault (Float × Backoff) :=
  if b.maxRetries ≤ b.attempts then .error (.exhausted (b.attempts + 1))
  else if (floatOfNat (Nat.pow 2 b.attempts)).isInf then .error .factorTooLarge
  else .ok (b.delay b.attempts, { b with attempts := b.attempts + 1 })

def reset (b : Backoff) : Backoff := { b with attempts := 0 }

@[simp] theorem attempts_reset (b : Backoff) : b.reset.attempts = 0 := rfl

theorem next_eq_exhausted {b : Backoff} (h : b.maxRetries ≤ b.attempts) :
    b.next = .error (.exhausted (b.attempts + 1)) := by
  simp [next, h]

/-- What the delays are asked for. -/
inductive Call
  | next
  | reset
deriving DecidableEq, Repr

/-- The answer to a call, and the state after it. A refused call changes nothing. -/
def answer (b : Backoff) : Call → Option (Except Fault Float) × Backoff
  | .reset => (none, b.reset)
  | .next =>
    match b.next with
    | .ok (d, b) => (some (.ok d), b)
    | .error f => (some (.error f), b)

/-- The answers to one call after another, each with the state after it. -/
def answers (b : Backoff) : List Call → List (Option (Except Fault Float) × Backoff)
  | [] => []
  | c :: cs => b.answer c :: (b.answer c).2.answers cs

@[simp] theorem length_answers (b : Backoff) (cs : List Call) :
    (b.answers cs).length = cs.length := by
  induction cs generalizing b with
  | nil => rfl
  | cons c cs ih => simp [answers, ih]

/-- A retry changes the number of attempts only. -/
theorem eq_of_next {b b' : Backoff} {d : Float} (h : b.next = .ok (d, b')) :
    d = b.delay b.attempts ∧ b' = { b with attempts := b.attempts + 1 } := by
  simp only [next] at h
  split at h
  · simp at h
  · split at h
    · simp at h
    · simp only [Except.ok.injEq, Prod.mk.injEq] at h
      exact ⟨h.1.symm, h.2.symm⟩

end Backoff

end EchoMetrics
