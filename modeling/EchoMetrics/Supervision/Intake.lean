import EchoMetrics.Registry.Ingest

/-! # Taking in a prober's output

The lines of both streams, the ends of the streams and the prober's exit arrive in one queue, in any
order that keeps each stream's own. The queue is taken from until both streams are closed and the
prober has exited, or until nothing comes for a while after the exit. -/

namespace EchoMetrics.Supervision

/-- A merge of two lists that keeps the order of each. -/
inductive Interleaving {α : Type} : List α → List α → List α → Prop
  | nil : Interleaving [] [] []
  | left {a : α} {as bs cs : List α} : Interleaving as bs cs → Interleaving (a :: as) bs (a :: cs)
  | right {b : α} {as bs cs : List α} : Interleaving as bs cs → Interleaving as (b :: bs) (b :: cs)

/-- What arrives from a prober, and that nothing arrives for as long as the drain waits. -/
inductive Arrival
  | line (stream : Stream) (text : String)
  | closed (stream : Stream)
  | exited (code : Int)
  | silence
deriving DecidableEq, Repr

/-- What is still to come: streams that are open, and an exit. -/
structure Intake where
  pending : List Stream
  code : Option Int := none
  abandoned : Bool := false
deriving DecidableEq, Repr

namespace Intake

/-- Nothing more is taken. -/
def finished (i : Intake) : Bool := i.abandoned || i.pending.isEmpty && i.code.isSome

/-- Silence counts only after the exit. -/
def take (i : Intake) : Arrival → Intake
  | .line _ _ => i
  | .closed stream => { i with pending := i.pending.filter (· != stream) }
  | .exited code => { i with code := some code }
  | .silence => if i.code.isSome then { i with abandoned := true } else i

/-- Takes arrivals in order, giving the lines to `ingest`. -/
def drain {σ : Type} (ingest : σ → Stream → String → σ) (i : Intake) (s : σ) :
    List Arrival → Intake × σ
  | [] => (i, s)
  | a :: as =>
    if i.finished then (i, s)
    else match a with
      | .line stream text => drain ingest i (ingest s stream text) as
      | a => drain ingest (i.take a) s as

/-- After the end, arrivals change nothing. -/
theorem drain_of_finished {σ : Type} (ingest : σ → Stream → String → σ) {i : Intake} (s : σ)
    (h : i.finished = true) (as : List Arrival) : drain ingest i s as = (i, s) := by
  cases as <;> simp [drain, h]

/-- What every line keeps is kept. -/
theorem drain_invariant {σ : Type} {ingest : σ → Stream → String → σ} {P : σ → Prop}
    (h : ∀ s stream text, P s → P (ingest s stream text)) (i : Intake) {s : σ} (hs : P s)
    (as : List Arrival) : P (drain ingest i s as).2 := by
  induction as generalizing i s with
  | nil => exact hs
  | cons a as ih =>
    cases a with
    | line stream text =>
      simp only [drain]
      split
      · exact hs
      · exact ih i (h s stream text hs)
    | closed _ | exited _ | silence =>
      simp only [drain]
      split
      · exact hs
      · exact ih _ hs

theorem drain_append {σ : Type} (ingest : σ → Stream → String → σ) (i : Intake) (s : σ)
    (as bs : List Arrival) :
    drain ingest i s (as ++ bs) =
      drain ingest (drain ingest i s as).1 (drain ingest i s as).2 bs := by
  induction as generalizing i s with
  | nil => simp [drain]
  | cons a as ih =>
    by_cases h : i.finished = true
    · simp [drain_of_finished ingest s h]
    · cases a <;> simp [drain, h, ih]

end Intake

end EchoMetrics.Supervision
