import EchoMetrics.Steps
import EchoMetrics.Supervision.Intake

/-! # From the pipes to the queue

One thread reads each stream of a prober and another waits for its exit. They put what arrives into
a queue of limited length, from which the supervising thread takes until it has everything or has
waited for too long. A step is one access to the queue, or what makes one possible. Every prober of
a run has threads and a queue of its own, which may outlive the time in which it is watched. -/

namespace EchoMetrics.Supervision

namespace Arrival

/-- The line that is taken in with an arrival. -/
def line? : Arrival → Option (Stream × String)
  | .line s text => some (s, text)
  | .closed _ | .exited _ | .silence => none

/-- The stream that an arrival comes from. -/
def stream? : Arrival → Option Stream
  | .line s _ | .closed s => some s
  | .exited _ | .silence => none

def code? : Arrival → Option Int
  | .exited code => some code
  | .line _ _ | .closed _ | .silence => none

variable (s : Stream) (text : String) (code : Int)

@[simp] theorem line?_line : (line s text).line? = some (s, text) := rfl
@[simp] theorem line?_closed : (closed s).line? = none := rfl
@[simp] theorem line?_exited : (exited code).line? = none := rfl
@[simp] theorem line?_silence : silence.line? = none := rfl

@[simp] theorem stream?_line : (line s text).stream? = some s := rfl
@[simp] theorem stream?_closed : (closed s).stream? = some s := rfl
@[simp] theorem stream?_exited : (exited code).stream? = none := rfl
@[simp] theorem stream?_silence : silence.stream? = none := rfl

end Arrival

/-- How far the reader of a stream is. -/
inductive Reader
  /-- The lines that are still to come. -/
  | reading (lines : List String)
  /-- The stream has ended, which is to be told. -/
  | closing
  | done
deriving DecidableEq, Repr

/-- How far the prober and the thread are that waits for its exit. -/
inductive Waiter
  | waiting
  /-- The prober has exited, which is to be told. -/
  | exited
  | done
deriving DecidableEq, Repr

structure Pipeline where
  capacity : Nat
  /-- The code that the prober exits with. -/
  code : Int
  /-- The streams that are read. -/
  streams : List Stream
  /-- All lines that will ever be written to a stream. -/
  lines : Stream → List String
  readers : Stream → Reader
  waiter : Waiter := .waiting
  queue : List Arrival := []
  /-- What was taken from the queue, and at the end the silence if one was too long. -/
  taken : List Arrival := []

namespace Pipeline

/-- A prober that was just launched. -/
def start (capacity : Nat) (code : Int) (streams : List Stream) (lines : Stream → List String) :
    Pipeline where
  capacity
  code
  streams
  lines
  readers s := if s ∈ streams then .reading (lines s) else .done

/-- What the supervising thread still waits for. -/
def intake (p : Pipeline) : Intake := p.taken.foldl Intake.take { pending := p.streams }

/-- The lines of a stream, if it is read. -/
def written (p : Pipeline) (s : Stream) : List String := if s ∈ p.streams then p.lines s else []

/-- The lines that were taken in, in order. -/
def ingested (p : Pipeline) : List (Stream × String) := p.taken.filterMap Arrival.line?

/-- The lines of one stream that were taken in. -/
def ingestedOf (p : Pipeline) (s : Stream) : List String :=
  (p.ingested.filter (·.1 = s)).map Prod.snd

def HasRoom (p : Pipeline) : Prop := p.queue.length < p.capacity

def setReader (p : Pipeline) (s : Stream) (r : Reader) : Pipeline :=
  { p with readers := fun s' => if s' = s then r else p.readers s' }

def put (p : Pipeline) (a : Arrival) : Pipeline := { p with queue := p.queue ++ [a] }

inductive Step (p : Pipeline) : Pipeline → Prop
  | post {s : Stream} {line : String} {lines : List String}
      (h : p.readers s = .reading (line :: lines)) (hr : p.HasRoom) :
      Step p ((p.put (.line s line)).setReader s (.reading lines))
  | finish {s : Stream} (h : p.readers s = .reading []) : Step p (p.setReader s .closing)
  | close {s : Stream} (h : p.readers s = .closing) (hr : p.HasRoom) :
      Step p ((p.put (.closed s)).setReader s .done)
  /-- A reader stops once nothing is taken any more. -/
  | giveUp {s : Stream} (h : p.readers s ≠ .done) (ha : p.intake.abandoned = true) :
      Step p (p.setReader s .done)
  | exit (h : p.waiter = .waiting) : Step p { p with waiter := .exited }
  | report (h : p.waiter = .exited) (hr : p.HasRoom) :
      Step p { p.put (.exited p.code) with waiter := .done }
  | take {a : Arrival} {rest : List Arrival} (h : p.queue = a :: rest)
      (hf : p.intake.finished = false) :
      Step p { p with queue := rest, taken := p.taken ++ [a] }
  /-- Nothing has come for a while. -/
  | timeOut (h : p.queue = []) (hc : p.intake.code.isSome) (hf : p.intake.finished = false) :
      Step p { p with taken := p.taken ++ [.silence] }

/-- What can come of a pipeline. -/
abbrev Reachable : Pipeline → Pipeline → Prop := Steps Step

end Pipeline

/-- The probers of a run, the last one last, and all lines that were applied to the registry. -/
structure Watch where
  probers : List Pipeline := []
  applied : List (Stream × String) := []

namespace Watch

inductive Step (w : Watch) : Watch → Prop
  /-- Something happens to one of the probers; a line that is taken in is applied. -/
  | within {i : Nat} {p p' : Pipeline} (h : w.probers[i]? = some p) (hs : p.Step p') :
      Step w
        { probers := w.probers.set i p'
          applied := w.applied ++ p'.ingested.drop p.ingested.length }
  /-- The next prober is watched once the supervising thread is done with those before. -/
  | next (h : ∀ p ∈ w.probers, p.intake.finished = true) (capacity : Nat) (code : Int)
      (streams : List Stream) (lines : Stream → List String) :
      Step w { w with probers := w.probers ++ [.start capacity code streams lines] }

/-- What can come of a run. -/
abbrev Reachable : Watch → Watch → Prop := Steps Step

end Watch

end EchoMetrics.Supervision
