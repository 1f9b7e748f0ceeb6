import Std.Data.ExtTreeMap
import EchoMetrics.Sample

/-! # What is known of one target -/

namespace EchoMetrics

/-- A number of durations and their sum. -/
structure Tally where
  count : Nat := 0
  seconds : Float := 0.0
deriving DecidableEq

/-- Adds a duration in milliseconds. -/
def Tally.add (t : Tally) (ms : Float) : Tally := ⟨t.count + 1, t.seconds + ms / 1000.0⟩

/-- Counts by the kind of error. -/
abbrev ErrorCounts := Std.ExtTreeMap String Nat

def ErrorCounts.add (counts : ErrorCounts) (kind : String) : ErrorCounts :=
  counts.insert kind (counts[kind]?.getD 0 + 1)

structure TargetState where
  /-- The name of the target. -/
  name : String
  addr : Option String := none
  /-- The last sample; none while only errors were seen. -/
  latest : Option Sample := none
  lastSummary : Option Sample := none
  /-- Requests and replies, summed over all summaries. -/
  transmittedTotal : Nat := 0
  receivedTotal : Nat := 0
  lastSeq : Option Nat := none
  errors : ErrorCounts := ∅
  roundTrip : Tally := {}
  /-- How much successive round-trip times differ. -/
  variation : Tally := {}
  lastReplyMs : Option Float := none

namespace TargetState

/-- The last summary, or the last sample before the first summary. -/
def current (t : TargetState) : Option Sample := t.lastSummary <|> t.latest

def countError (t : TargetState) (kind : String) : TargetState :=
  { t with errors := t.errors.add kind }

/-- The kind of the errors that come with a sample. -/
def icmp : String := "icmp"

/-- The kind of the prober's own errors. -/
def prober : String := "fping"

/-- Takes the round-trip time of a reply, and its difference to the one before. -/
def reply (t : TargetState) (ms : Float) : TargetState :=
  { t with
    roundTrip := t.roundTrip.add ms
    variation := match t.lastReplyMs with
      | some last => t.variation.add (ms - last).abs
      | none => t.variation
    lastReplyMs := some ms }

def summarize (t : TargetState) (s : Sample) : TargetState :=
  { t with
    lastSummary := some s
    transmittedTotal := t.transmittedTotal + s.transmitted
    receivedTotal := t.receivedTotal + s.received }

def probe (t : TargetState) (s : Sample) : TargetState :=
  let t := { t with lastSeq := s.seq <|> t.lastSeq }
  let t := match s.rtt with
    | some rtt => t.reply rtt.avg
    | none => t
  if s.error.isSome then t.countError icmp else t

/-- The address of a sample, unless it names none or an empty one. -/
def newAddr (t : TargetState) (s : Sample) : Option String :=
  match s.addr with
  | some a => if a = "" then t.addr else some a
  | none => t.addr

/-- Takes a sample. -/
def ingest (t : TargetState) (s : Sample) : TargetState :=
  let t := { t with latest := some s, addr := t.newAddr s }
  match s.source with
  | .summary => t.summarize s
  | .probe => t.probe s

@[simp] theorem latest_ingest (t : TargetState) (s : Sample) : (t.ingest s).latest = some s := by
  simp only [ingest]
  split
  · rfl
  · simp only [probe]
    split <;> split <;> rfl

@[simp] theorem current_countError (t : TargetState) (kind : String) :
    (t.countError kind).current = t.current := rfl

end TargetState

end EchoMetrics
