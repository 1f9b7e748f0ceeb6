import EchoMetrics.Supervision.Journal

/-! # When the prober is restarted

The course of a run that nobody interrupts, told from how long its probers have lived. Exits are
counted from one. -/

namespace EchoMetrics.Supervision

/-- What a supervisor does, and what happens to it, one after another. -/
inductive Move
  | spawn
  | exit (lifetime : Float)
  | sleep (delay : Float)
deriving DecidableEq

/-- The moves of a run. -/
def Journal.moves (j : Journal) : List Move := j.filterMap fun
  | .spawned _ => some .spawn
  | .reported (.exited _ l) => some (.exit l)
  | .slept d => some (.sleep d)
  | _ => none

namespace Schedule

/-- Whether the prober of an exit had been stable. -/
def stable (threshold : Float) (lifetimes : List Float) (i : Nat) : Bool :=
  lifetimes[i - 1]?.any (threshold ≤ ·)

/-- The last stable exit up to a given one, or the first exit if none was stable. -/
def anchor (threshold : Float) (lifetimes : List Float) (i : Nat) : Nat :=
  ((List.range' 1 i).reverse.find? (stable threshold lifetimes)).getD 1

/-- How many retries are used when a prober exits. -/
def retries (threshold : Float) (lifetimes : List Float) (i : Nat) : Nat :=
  i - anchor threshold lifetimes i

/-- The delay after every exit. -/
def delays (b : Backoff) (threshold : Float) (lifetimes : List Float) : List Float :=
  (List.range' 1 lifetimes.length).map fun i => b.delay (retries threshold lifetimes i)

/-- The exit at which no retry is left. -/
def lastExit? (b : Backoff) (threshold : Float) (lifetimes : List Float) : Option Nat :=
  (List.range' 1 lifetimes.length).find? fun i => b.maxRetries ≤ retries threshold lifetimes i

/-- A launch, an exit and a wait for each of the probers. -/
def moves (b : Backoff) (threshold : Float) (lifetimes : List Float) : List Move :=
  (lifetimes.zip (delays b threshold lifetimes)).flatMap fun (l, d) => [.spawn, .exit l, .sleep d]

example : retries 30.0 [40.0, 1.0, 2.0] 3 = 2 := by decide +kernel
example : retries 30.0 [1.0, 2.0, 3.0] 3 = 2 := by decide +kernel

end Schedule

end EchoMetrics.Supervision
