import EchoMetrics.Registry.Feed
import EchoMetrics.Registry.History

/-! # The account of a run

Every line of a run is counted in one place. What the lines say as a whole is told from their
outcomes; a registry accounts for them if its counters and the sums over its targets come to the
same. -/

namespace EchoMetrics

namespace Line.Outcome

def sample? : Outcome → Option Sample
  | .sample s => some s
  | .ignored _ _ | .unreadable _ _ => none

def isUnreadable : Outcome → Bool
  | .unreadable _ _ => true
  | .sample _ | .ignored _ _ => false

/-- The target that the prober complains of. -/
def complaint? : Outcome → Option String
  | .ignored (.proberError target) _ => some target
  | .ignored (.duplicate _) _ | .ignored .localTime _ | .sample _ | .unreadable _ _ => none

/-- The target that a line makes known. Headings, second answers and unreadable lines make none
known. -/
def known? : Outcome → Option String
  | .sample s => some s.target
  | .ignored (.proberError target) _ => some target
  | .ignored (.duplicate _) _ | .ignored .localTime _ | .unreadable _ _ => none

end Line.Outcome

/-- What the line says, if the feed is one. -/
def Feed.outcome? : Feed → Option Line.Outcome
  | .line now raw => some (Line.read (.float now) raw)
  | .start _ | .restart _ | .phase _ | .version _ => none

/-- How often errors of a kind were counted. -/
def TargetState.errorCount (kind : String) (t : TargetState) : Nat := t.errors[kind]?.getD 0

namespace Registry

/-- The sum of a number over all targets. -/
def sumOver (r : Registry) (f : TargetState → Nat) : Nat :=
  History.total (r.targets.toList.map fun p => f p.2)

/-- A registry counts every line once: a sample among the samples and, if it is a summary, in the
totals of its target or, if it has an error, among the target's errors; a complaint among the errors
of its target; an unreadable line among those. -/
structure AccountsFor (r : Registry) (os : List Line.Outcome) : Prop where
  samplesIngested : r.samplesIngested = (os.filterMap (·.sample?)).length
  parseErrors : r.parseErrors = os.countP (·.isUnreadable)
  complaints :
    r.sumOver (·.errorCount TargetState.prober) = (os.filterMap (·.complaint?)).length
  errors :
    r.sumOver (·.errorCount TargetState.icmp) =
      (os.filterMap (·.sample?)).countP (·.error.isSome)
  transmitted :
    r.sumOver (·.transmittedTotal) = History.total
      (((os.filterMap (·.sample?)).filter (·.source = .summary)).map (·.transmitted))
  received :
    r.sumOver (·.receivedTotal) = History.total
      (((os.filterMap (·.sample?)).filter (·.source = .summary)).map (·.received))
  /-- There are no other kinds of errors. -/
  kinds {name kind : String} {t : TargetState} (h : r.targets[name]? = some t)
    (hk : kind ∈ t.errors) : kind = TargetState.prober ∨ kind = TargetState.icmp
  targets (name : String) : name ∈ r.targets ↔ name ∈ os.filterMap (·.known?)
  names {name : String} (h : name ∈ r.targets) :
    name ≠ "" ∧ ∀ c ∈ name.toList, Text.isBlank c = false
  received_le {name : String} {t : TargetState} (h : r.targets[name]? = some t) :
    t.receivedTotal ≤ t.transmittedTotal

end Registry

end EchoMetrics
