import EchoMetrics.Line.Shape
import EchoMetrics.Sample
import EchoMetrics.Text.Quoted

/-! # What a line says

A line is a sample, or says something that is no measurement, or cannot be read. Unreadable lines
are values, since the prober's wording differs between versions. -/

namespace EchoMetrics

namespace Line

/-- Why a line cannot be read. -/
inductive Fault
  | empty
  | invalidNumber
  | inconsistentCounts
  | unorderedRoundTrip
  | invalidSample
  | unrecognized
deriving DecidableEq, Repr

def Fault.tag : Fault → String
  | .empty => "empty"
  | .invalidNumber => "invalid_number"
  | .inconsistentCounts => "inconsistent_counts"
  | .unorderedRoundTrip => "rtt_order"
  | .invalidSample => "invalid_sample"
  | .unrecognized => "unrecognized"

/-- What a line without a measurement says. -/
inductive Notice
  | localTime
  | duplicate (target : String)
  | proberError (target : String)
deriving DecidableEq, Repr

def Notice.tag : Notice → String
  | .localTime => "local_time"
  | .duplicate _ => "duplicate"
  | .proberError _ => "prober_error"

def Notice.target? : Notice → Option String
  | .localTime => none
  | .duplicate target | .proberError target => some target

/-- What a line says, with its text where it is no sample. -/
inductive Outcome
  | sample (s : Sample)
  | ignored (notice : Notice) (raw : String)
  | unreadable (fault : Fault) (raw : String)
deriving DecidableEq

/-- The numbers of a sample, before it is known when it was observed. -/
structure Measurement where
  host : Host
  source : Source := .probe
  transmitted : Nat := 1
  received : Nat := 0
  loss : Float := 1.0
  rtt : Option (Float × Float × Float) := none
  seq : Option Nat := none
  error : Option String := none

namespace Measurement

/-- A reply after `rtt` milliseconds, or none in time. -/
def probe (host : Host) (seq : Nat) : Option Float → Measurement
  | some rtt => { host, received := 1, loss := 0.0, rtt := some (rtt, rtt, rtt), seq := some seq }
  | none => { host, seq := some seq }

def toRecord (m : Measurement) (observedAt : Value) : Record :=
  [ ("target", .text m.host.target),
    ("addr", .ofOption .text m.host.addr),
    ("source", .text m.source.name),
    ("transmitted", .int m.transmitted),
    ("received", .int m.received),
    ("loss", .float m.loss),
    ("rtt_min_ms", .ofOption .float (m.rtt.map (·.1))),
    ("rtt_avg_ms", .ofOption .float (m.rtt.map (·.2.1))),
    ("rtt_max_ms", .ofOption .float (m.rtt.map (·.2.2))),
    ("seq", .ofOption (fun n => .int (Int.ofNat n)) m.seq),
    ("error", .ofOption .text m.error),
    ("observed_at", observedAt) ]

end Measurement

def count (s : String) : Except Fault Nat :=
  (Numeral.count? s.toList).elim (.error .invalidNumber) .ok

def measure (s : String) : Except Fault Float :=
  (Numeral.measure? s.toList).elim (.error .invalidNumber) .ok

/-- Reads the numbers of a summary: first each by itself, then against each other. -/
def Summary.measurement (host : Host) (c : Summary) : Except Fault Measurement := do
  let transmitted ← count c.transmitted
  let received ← count c.received
  let percent ← measure c.lost
  let rtt ← match c.rtt with
    | none => pure none
    | some (min, avg, max) => do
      let min ← measure min
      let avg ← measure avg
      let max ← measure max
      pure (some (min, avg, max))
  if transmitted < received || 100.0 < percent then throw .inconsistentCounts
  if let some (min, avg, max) := rtt then
    unless min ≤ avg ∧ avg ≤ max do throw .unorderedRoundTrip
  return { host, source := .summary, transmitted, received, loss := percent / 100.0, rtt }

/-- What a shape says, its numbers read. -/
def Shape.reading : Shape → Except Fault (Notice ⊕ Measurement)
  | .localTime => .ok (.inl .localTime)
  | .duplicate host => .ok (.inl (.duplicate host.target))
  | .proberError target => .ok (.inl (.proberError target))
  | .probe host seq rtt => do
    let seq ← count seq
    let rtt ← rtt.mapM measure
    return .inr (.probe host seq rtt)
  | .summary host counts => .inr <$> counts.measurement host
  | .icmpError host error source => .ok (.inr { host, error := some (error ++ " from " ++ source) })
  | .unreachable host => .ok (.inr { host })

/-- Reads a line that was observed at a time, which is checked only if a sample comes of it. -/
def read (observedAt : Value) (raw : String) : Outcome :=
  let line := Text.trim raw
  if line = "" then .unreadable .empty raw
  else match shape? line.toList with
    | none => .unreadable .unrecognized line
    | some shape =>
      match shape.reading with
      | .error fault => .unreadable fault line
      | .ok (.inl notice) => .ignored notice line
      | .ok (.inr m) =>
        match Sample.ofRecord (m.toRecord observedAt) with
        | .ok s => .sample s
        | .error _ => .unreadable .invalidSample line

end Line

end EchoMetrics
