import EchoMetrics.Registry.Basic
import EchoMetrics.Steps

/-! # Looking at the registry while it changes

One thread writes, any number of others take snapshots. A write and the copy that a snapshot makes
are one step each, under the lock. The clock is read outside of it: before a write that needs the
time, and after the copy. -/

namespace EchoMetrics

/-- What a writer asks for. Launches are recorded with the time at which they are asked for. -/
inductive Job
  | ingest (s : Sample)
  | error (target kind : String)
  | parseError
  | start
  | restart
  | phase (p : Phase)
  | version (v : String)
deriving DecidableEq

/-- The write that is made of what is asked for at a time. -/
def Job.write (now : Float) : Job → Write
  | .ingest s => .ingest s
  | .error target kind => .error target kind
  | .parseError => .parseError
  | .start => .start now
  | .restart => .restart now
  | .phase p => .phase p
  | .version v => .version v

/-- How far a thread is that takes a snapshot. -/
inductive Looker
  | idle
  /-- It has begun; so many writes were made before. -/
  | waiting (before : Nat)
  /-- It has a copy of the registry, made after so many writes. -/
  | copied (before copiedAt : Nat) (copy : Registry)

/-- A snapshot, who took it, and how many writes there were when it was begun and when the copy was
made. -/
structure Look where
  looker : Nat
  before : Nat
  copiedAt : Nat
  snapshot : Snapshot

structure Access where
  clock : Float
  registry : Registry
  /-- The writes that were made. -/
  history : List Write := []
  /-- The writes that are still to be made. -/
  jobs : List Job
  /-- The write that waits for the lock. -/
  pending : Option Write := none
  lookers : List Looker := []
  /-- The snapshots that were taken. -/
  looks : List Look := []

namespace Access

inductive Step (a : Access) : Access → Prop
  | tick {now : Float} (h : a.clock ≤ now) : Step a { a with clock := now }
  | stamp {j : Job} {js : List Job} (h : a.jobs = j :: js) (hp : a.pending = none) :
      Step a { a with jobs := js, pending := some (j.write a.clock) }
  | write {w : Write} (h : a.pending = some w) :
      Step a { a with
        registry := a.registry.apply w, history := a.history ++ [w], pending := none }
  | join : Step a { a with lookers := a.lookers ++ [.idle] }
  | begin {i : Nat} (h : a.lookers[i]? = some .idle) :
      Step a { a with lookers := a.lookers.set i (.waiting a.history.length) }
  | copy {i before : Nat} (h : a.lookers[i]? = some (.waiting before)) :
      Step a { a with lookers := a.lookers.set i (.copied before a.history.length a.registry) }
  | finish {i before copiedAt : Nat} {r : Registry}
      (h : a.lookers[i]? = some (.copied before copiedAt r)) :
      Step a { a with
        lookers := a.lookers.set i .idle
        looks := a.looks ++ [⟨i, before, copiedAt, r.snapshot a.clock⟩] }

/-- What can come of a registry with writes to be made. -/
abbrev Reachable : Access → Access → Prop := Steps Step

end Access

end EchoMetrics
