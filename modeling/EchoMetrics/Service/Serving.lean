import EchoMetrics.Service
import EchoMetrics.Supervision.Threads

/-! # The exporter while it serves

The prober is supervised while the server runs. An interruption, the runtime limit or the end of the
supervising thread tells the server to end; then a shutdown is asked for, and the exporter waits
until that has returned and the supervising thread has ended. What the exit code depends on is
written down as it happens. -/

namespace EchoMetrics.Service

open Supervision

/-- What happens when a prober is to be started, or started again. -/
inductive Occurrence
  | started
  | notStarted (f : Prober.Fault)
  /-- No retry is left; the prober has exited so many times. -/
  | exhausted (exits : Nat)
deriving DecidableEq

namespace Occurrence

def isFailure : Occurrence → Bool
  | .started => false
  | .notStarted _ | .exhausted _ => true

/-- What happens when the supervising thread gets from one place to another. -/
def between : Runner → Runner → Option Occurrence
  | .launching .spawning, .launching .recording => some .started
  | .launching .spawning, .entering (.fail (.launch f)) .waiting => some (.notStarted f)
  | .judging _, .entering (.fail (.backoff (.exhausted n))) .waiting => some (.exhausted n)
  | _, _ => none

end Occurrence

/-- What is seen of the exporter while it serves. -/
structure Sight where
  interrupted : Bool := false
  /-- The runtime limit was reached. -/
  expired : Bool := false
  occurrences : List Occurrence := []

structure Serving where
  threads : Threads
  sight : Sight := {}

namespace Serving

def start (s : Settings) (path version : String) : Serving where
  threads := { supervisor := .ofSettings s path (({} : Registry).apply (.version version)) }

/-- The server has been told to end. -/
def Leaves (v : Serving) : Prop :=
  v.sight.interrupted = true ∨ v.sight.expired = true ∨ ∃ fault, v.threads.runner = .ended fault

/-- The step of a thread or of a prober. -/
def work (v : Serving) (t : Threads) : Serving where
  threads := t
  sight :=
    { v.sight with
      occurrences := v.sight.occurrences ++
        (Occurrence.between v.threads.runner t.runner).toList }

inductive Step (v : Serving) : Serving → Prop
  /-- Only a wait that is too long fails. -/
  | work {t : Threads} (h : v.threads.Work t)
      (hw : ∀ d, t.runner = .ended (some (.wait d)) → canWait d = false) : Step v (v.work t)
  | interrupt : Step v { v with sight := { v.sight with interrupted := true } }
  | expire {limit : Float} (h : v.threads.supervisor.settings.runtimeLimitS = some limit) :
      Step v { v with sight := { v.sight with expired := true } }
  | shutdown (h : v.Leaves) :
      Step v { v with threads := { v.threads with stoppers := v.threads.stoppers ++ [.flagging] } }

/-- What can come of serving. -/
abbrev Reachable : Serving → Serving → Prop := Steps Step

/-- What is under way comes to an end, and then the supervising thread has failed and all shutdowns
have returned. -/
structure Concludes (v : Serving) : Prop where
  acc : Acc (fun t t' => Threads.Work t' t) v.threads
  ended {t : Threads} (h : Steps Threads.Work v.threads t) (hrest : ∀ t', ¬ t.Work t') :
    (∃ fault, t.runner = .ended (some fault)) ∧ ∀ st ∈ t.stoppers, st = .returned

/-- The supervising thread has ended in this way, and a shutdown has returned. -/
def Over (v : Serving) (fault : Option RunFault) : Prop :=
  v.threads.runner = .ended fault ∧ .returned ∈ v.threads.stoppers

end Serving

/-- Why the exporter stops once the supervising thread has ended after so many launches. -/
def Cause.ofEnd (launches : Nat) : Option RunFault → Cause
  | some fault => .run fault launches
  | none => .request

/-- Why the exporter may stop in given surroundings, with what is seen until then. -/
inductive Ends (w : Surroundings) : Cause → Sight → Prop
  | argument {s : Arguments.Stop}
      (h : Settings.load w.environment w.arguments = .error (.stop s)) : Ends w (.argument s) {}
  | configuration {f : Settings.LoadFault}
      (h : Settings.load w.environment w.arguments = .error (.fault f)) :
      Ends w (.configuration f) {}
  | prober {s : Settings} {f : Prober.VersionFault}
      (h : Settings.load w.environment w.arguments = .ok s) (hf : findProber w s = .error f) :
      Ends w (.prober f) {}
  | served {s : Settings} {path version : String} {v : Serving} {fault : Option RunFault}
      (h : Settings.load w.environment w.arguments = .ok s)
      (hf : findProber w s = .ok (path, version)) (hv : (Serving.start s path version).Reachable v)
      (ho : v.Over fault) (hj : canWait (s.shutdownGraceS + joinSlack) = true) :
      Ends w (.ofEnd v.threads.supervisor.launches fault) v.sight
  /-- There is no waiting for the supervising thread for so long. -/
  | unwaitable {s : Settings} {path version : String} {v : Serving}
      (h : Settings.load w.environment w.arguments = .ok s)
      (hf : findProber w s = .ok (path, version)) (hv : (Serving.start s path version).Reachable v)
      (hr : .returned ∈ v.threads.stoppers)
      (hj : canWait (s.shutdownGraceS + joinSlack) = false) : Ends w .unwaitable v.sight

/-- The script has the server interrupted, or a prober that exits only if it is told to. -/
def Surroundings.Interrupts (w : Surroundings) : Prop :=
  w.interrupted = true ∨ ∃ c ∈ w.probers, c.untilStopped = true

/-- The configuration or the prober is refused, or the very first launch fails. -/
def Surroundings.FailsToStart (w : Surroundings) (seen : Sight) : Prop :=
  (∃ f, Settings.load w.environment w.arguments = .error (.fault f)) ∨
    (∃ s f, Settings.load w.environment w.arguments = .ok s ∧
      findProber w s = .error (.prober f)) ∨
    ∃ f, seen.occurrences.head? = some (.notStarted f)

/-- A failure follows a launch. -/
def Sight.FailsLater (seen : Sight) : Prop :=
  ∃ o, o.isFailure = true ∧ [.started, o].Sublist seen.occurrences

/-- The call for the version of the prober that was found breaks off. -/
def Surroundings.CallBreaks (w : Surroundings) : Prop :=
  ∃ s path f, Settings.load w.environment w.arguments = .ok s ∧ w.lookUp s.program = some path ∧
    w.version path s.versionTimeoutS = .broken f

/-- The exit code tells why the exporter stopped. There is none if the call for the version broke
off. -/
structure Tells (w : Surroundings) (seen : Sight) (code? : Option Nat) : Prop where
  known : ∀ code ∈ code?, code = ok ∨ code = startupFailure ∨ code = runtimeFailure
  uncaught : code? = none ↔ w.CallBreaks
  startup : code? = some startupFailure ↔ w.FailsToStart seen
  runtime : code? = some runtimeFailure ↔ seen.FailsLater
  success : code? = some ok → (seen.interrupted = true ∨ seen.expired = true) ∧
    ∀ o ∈ seen.occurrences, o.isFailure = false

/-- Surroundings in which the arguments are targets, the metrics path is no template, no number of a
version is too long, the delays can be computed, and all waits for the supervisor are possible. The
call for the version may still break off, since nothing is asked of its timeout and its output. -/
structure Surroundings.Foreseen (w : Surroundings) : Prop where
  arguments : ∀ a ∈ w.arguments, Arguments.classify a = .target
  metricsPath (s : Settings) (h : Settings.load w.environment w.arguments = .ok s) :
    '\x7b' ∉ s.metricsPath.toList ∧ '\x7d' ∉ s.metricsPath.toList
  version (s : Settings) (path : String) (code : Int) (stdout stderr : String)
    (d : Prober.Version.Digits) (h : Settings.load w.environment w.arguments = .ok s)
    (hpath : w.lookUp s.program = some path)
    (ha : w.version path s.versionTimeoutS = .exited code stdout stderr)
    (hd : (Prober.announcedIn? stdout <|> Prober.announcedIn? stderr) = some d) :
    d.major.length ≤ Numeral.maxDigits ∧ d.minor.length ≤ Numeral.maxDigits ∧
      d.patch.length ≤ Numeral.maxDigits
  retries (s : Settings) (h : Settings.load w.environment w.arguments = .ok s) :
    s.maxRestarts ≤ 1024
  waits (s : Settings) (h : Settings.load w.environment w.arguments = .ok s) :
    canWait s.backoffCapS = true ∧ canWait (s.shutdownGraceS + joinSlack) = true

end EchoMetrics.Service
