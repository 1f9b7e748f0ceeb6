import EchoMetrics.Line.Outcome
import EchoMetrics.Registry.Basic

/-! # Applying lines to the registry -/

namespace EchoMetrics

/-- The two outputs of the prober. -/
inductive Stream
  | stdout
  | stderr
deriving DecidableEq, Repr

def Stream.name : Stream → String
  | .stdout => "stdout"
  | .stderr => "stderr"

namespace Line.Outcome

/-- What a line changes, if anything. -/
def write? : Outcome → Option Write
  | .sample s => some (.ingest s)
  | .unreadable _ _ => some .parseError
  | .ignored (.proberError target) _ => some (.error target TargetState.prober)
  | .ignored (.duplicate _) _ | .ignored .localTime _ => none

/-- What is passed on as a warning: the prober's own complaints, and what it writes among its errors
and cannot be read. -/
def warning? (stream : Stream) : Outcome → Option String
  | .unreadable _ raw => if stream = .stderr then some (Text.trimEnd raw) else none
  | .ignored (.proberError _) raw => some raw
  | .ignored (.duplicate _) _ | .ignored .localTime _ | .sample _ => none

end Line.Outcome

namespace Registry

/-- Applies a line that is read at a time. -/
def ingest (r : Registry) (now : Float) (line : String) : Registry :=
  ((Line.read (.float now) line).write?.map r.apply).getD r

section

variable (r : Registry) (now : Float) (line : String)

@[simp] theorem restarts_ingest : (r.ingest now line).restarts = r.restarts := by
  rw [ingest]
  generalize Line.read (.float now) line = o
  rcases o with s | ⟨_ | _ | _, _⟩ | _ <;> rfl

@[simp] theorem phase_ingest : (r.ingest now line).phase = r.phase := by
  rw [ingest]
  generalize Line.read (.float now) line = o
  rcases o with s | ⟨_ | _ | _, _⟩ | _ <;> rfl

end

/-- Applies lines, each with the time at which it is read. -/
def ingestAll (r : Registry) (lines : List (Float × String)) : Registry :=
  lines.foldl (fun r (now, line) => r.ingest now line) r

/-- What lines write. -/
def writesOf (lines : List (Float × String)) : List Write :=
  lines.filterMap fun (now, line) => (Line.read (.float now) line).write?

/-- Lines change a registry by what they write. -/
theorem ingestAll_eq_replay (r : Registry) (lines : List (Float × String)) :
    r.ingestAll lines = r.replay (writesOf lines) := by
  induction lines generalizing r with
  | nil => rfl
  | cons l lines ih =>
    change (r.ingest l.1 l.2).ingestAll lines = _
    rw [ih, ingest]
    simp only [writesOf, List.filterMap_cons]
    cases (Line.read (.float l.1) l.2).write? <;> rfl

end Registry

end EchoMetrics
