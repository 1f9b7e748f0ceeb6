import EchoMetrics.Field.Check

/-! # Samples

One observation of one target. The rules that relate several fields are part of the type. -/

namespace EchoMetrics

/-- Where a sample comes from: the answer to one request, or the summary of an interval. -/
inductive Source
  | probe
  | summary
deriving DecidableEq, Repr

def Source.name : Source → String
  | .probe => "probe"
  | .summary => "summary"

theorem Source.choice_name {ρ : Type} (s : Source) :
    (Check.choice [("probe", .probe), ("summary", .summary)] (.text s.name) : Check ρ Source) =
      .ok s := by
  cases s <;> rfl

/-- Round-trip times in milliseconds. -/
structure RoundTrip where
  min : Float
  avg : Float
  max : Float
  min_le_avg : min ≤ avg
  avg_le_max : avg ≤ max
deriving DecidableEq

structure Sample where
  target : String
  addr : Option String := none
  source : Source
  transmitted : Nat
  received : Nat
  received_le : received ≤ transmitted
  loss : Float
  rtt : Option RoundTrip := none
  seq : Option Nat := none
  error : Option String := none
  /-- In seconds, on the clock that the reader of the line uses. -/
  observedAt : Float
deriving DecidableEq

/-- The rules that relate several fields. -/
inductive Sample.Rule
  | receivedAboveTransmitted
  | partialRoundTrip
  | unorderedRoundTrip
deriving DecidableEq, Repr

def Sample.Rule.message : Sample.Rule → String
  | .receivedAboveTransmitted => "received must not exceed transmitted"
  | .partialRoundTrip => "rtt min/avg/max must be given together"
  | .unorderedRoundTrip => "rtt values must satisfy min <= avg <= max"

/-- All three times in order, or none of them. -/
def RoundTrip.ofOptions (min avg max : Option Float) : Except Sample.Rule (Option RoundTrip) :=
  match min, avg, max with
  | none, none, none => .ok none
  | some min, some avg, some max =>
    if h : min ≤ avg ∧ avg ≤ max then .ok (some ⟨min, avg, max, h.1, h.2⟩)
    else .error .unorderedRoundTrip
  | _, _, _ => .error .partialRoundTrip

namespace Sample

abbrev Fault := EchoMetrics.Fault Rule

/-- A sample whose fields are checked one by one, but not against each other. -/
structure Draft where
  target : String
  addr : Option String
  source : Source
  transmitted : Nat
  received : Nat
  loss : Float
  rttMin : Option Float
  rttAvg : Option Float
  rttMax : Option Float
  seq : Option Nat
  error : Option String
  observedAt : Float

def Draft.check (d : Draft) : Except Rule Sample :=
  if h : d.received ≤ d.transmitted then
    (RoundTrip.ofOptions d.rttMin d.rttAvg d.rttMax).map fun rtt =>
      { target := d.target, addr := d.addr, source := d.source, transmitted := d.transmitted
        received := d.received, received_le := h, loss := d.loss, rtt, seq := d.seq
        error := d.error, observedAt := d.observedAt }
  else .error .receivedAboveTransmitted

/-- Reads the fields, in the order in which their faults are reported. -/
def draft (r : Record) : Checked Rule Draft :=
  let rtt := Check.nullable fun v => Check.float v >>= Check.nonnegative
  (fun (_ : Unit) => Draft.mk) <$> r.withDefault "kind" () (Check.choice [("sample", ())])
    <*> r.required "target" (fun v => Check.text v >>= Check.nonempty)
    <*> r.optional "addr" Check.text
    <*> r.required "source" (Check.choice [("probe", .probe), ("summary", .summary)])
    <*> r.required "transmitted" (Check.count 0)
    <*> r.required "received" (Check.count 0)
    <*> r.required "loss" (fun v => Check.float v >>= Check.atMostOne >>= Check.nonnegative)
    <*> r.withDefault "rtt_min_ms" none rtt
    <*> r.withDefault "rtt_avg_ms" none rtt
    <*> r.withDefault "rtt_max_ms" none rtt
    <*> r.optional "seq" (Check.count 0)
    <*> r.optional "error" Check.text
    <*> r.required "observed_at" Check.float

/-- Builds a sample from untyped fields, or reports every field that is refused. Only when none is,
the fields are checked against each other. -/
def ofRecord (r : Record) : Except (List Fault) Sample := ((draft r).andThen Draft.check).toExcept

/-- The sample's fields, from which the same sample is built again. -/
def toRecord (s : Sample) : Record :=
  [ ("kind", .text "sample"),
    ("target", .text s.target),
    ("addr", .ofOption .text s.addr),
    ("source", .text s.source.name),
    ("transmitted", .int s.transmitted),
    ("received", .int s.received),
    ("loss", .float s.loss),
    ("rtt_min_ms", .ofOption .float (s.rtt.map (·.min))),
    ("rtt_avg_ms", .ofOption .float (s.rtt.map (·.avg))),
    ("rtt_max_ms", .ofOption .float (s.rtt.map (·.max))),
    ("seq", .ofOption (fun n => .int n) (s.seq.map Int.ofNat)),
    ("error", .ofOption .text s.error),
    ("observed_at", .float s.observedAt) ]

end Sample

end EchoMetrics
