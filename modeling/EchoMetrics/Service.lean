import EchoMetrics.Prober.Version
import EchoMetrics.Settings.Load
import EchoMetrics.Supervision.Run

/-! # The exporter as a program

From the environment and the arguments to an exit code, given what the exporter finds around it. -/

namespace EchoMetrics.Service

open Supervision Logging

/-- What the exporter finds when it starts, and what happens to it. -/
structure Surroundings where
  environment : Environment
  arguments : List String
  /-- The path that a look-up of the prober finds. -/
  lookUp : String → Option String
  fileExists : String → Bool
  /-- What comes of a call for the version, by the path and the time that is waited. -/
  version : String → Float → Prober.Answer
  probers : List Conduct := []
  clock : Float
  /-- Why no further prober can be launched. -/
  reason : String := ""
  /-- The server is interrupted once a prober was started; otherwise it serves until it is told to
  end. -/
  interrupted : Bool := false

/-- Why the exporter stopped. -/
inductive Cause
  | argument (s : Arguments.Stop)
  | configuration (f : Settings.LoadFault)
  | prober (f : Prober.VersionFault)
  | run (fault : RunFault) (launches : Nat)
  | request
  /-- The end of the supervisor would have to be waited for longer than is possible. -/
  | unwaitable
deriving DecidableEq

def ok : Nat := 0
def startupFailure : Nat := 2
def runtimeFailure : Nat := 3

/-- The code to exit with. A prober that never started is a failure to start, one that cannot be
started again or kept running a failure later on. That a call breaks off, or that a number or a wait
is too long, is not foreseen. -/
def Cause.exitCode? : Cause → Option Nat
  | .argument s => some s.exitCode
  | .configuration _ => some startupFailure
  | .prober (.prober _) => some startupFailure
  | .prober (.call _) | .prober (.tooManyDigits _) => none
  | .run (.launch _) 0 => some startupFailure
  | .run (.launch _) (_ + 1) => some runtimeFailure
  | .run (.backoff (.exhausted _)) _ => some runtimeFailure
  | .run (.backoff .factorTooLarge) _ | .run (.wait _) _ => some ok
  | .request => some ok
  | .unwaitable => none

structure Ending where
  cause : Cause
  log : List Message

/-- The path and version of the prober. -/
def findProber (w : Surroundings) (s : Settings) :
    Except Prober.VersionFault (String × String) := do
  let found := Prober.resolve s.program (w.lookUp s.program) (w.fileExists s.program)
  let path ← found.mapError .prober
  let version ←
    Prober.readVersion path s.versionTimeoutS (w.version path s.versionTimeoutS)
  return (path, version.text)

/-- The address at which metrics are published. -/
def address (s : Settings) : String :=
  "http://" ++ s.metricsHost ++ ":" ++ toString s.metricsPort ++ s.metricsPath

/-- Waits take less than 2^63 nanoseconds. -/
def canWait (seconds : Float) : Bool := seconds * 1000000000.0 < floatOfNat (Nat.pow 2 63)

/-- How long after the grace period the supervisor has to have ended. -/
def joinSlack : Float := 2.0

/-- The run of the supervisor under a server, and whether the time limit ended it. -/
def serve (w : Surroundings) (s : Settings) (path version : String) :
    Run × Option RunFault × Option Float :=
  let limit := if w.interrupted then none else s.runtimeLimitS
  let registry := ({} : Registry).apply (.version version)
  let start : Run :=
    { supervisor := .ofSettings s path registry
      clock := w.clock
      interruptions := { onceStarted := w.interrupted || limit.isSome, afterRun := true } }
  let (r, fault) := start.whole w.reason w.probers canWait
  (r, fault, if r.supervisor.launches = 0 then none else limit)

/-- Runs the exporter and tells why it stopped, with what it logs. -/
def run (w : Surroundings) : Ending :=
  match Settings.load w.environment w.arguments with
  | .error (.stop s) => ⟨.argument s, []⟩
  | .error (.fault f) => ⟨.configuration f, written defaultLevel [⟨.error, f.message⟩]⟩
  | .ok s =>
    let threshold := (Logging.Request.word s.logLevel).level
    match findProber w s with
    | .error (.prober f) => ⟨.prober (.prober f), written threshold [⟨.error, f.message⟩]⟩
    | .error f => ⟨.prober f, []⟩
    | .ok (path, version) =>
      let (r, fault, expired) := serve w s path version
      let log :=
        ⟨.info, "using fping " ++ version ++ " at " ++ path⟩ ::
        ⟨.info, "publishing metrics on " ++ address s⟩ ::
        expired.toList.map fun limit =>
          ⟨.info, "runtime limit of " ++ Decimal.writeFloat Decimal.plain limit ++
            "s reached, shutting down"⟩
      let cause :=
        if !canWait (s.shutdownGraceS + joinSlack) then Cause.unwaitable
        else match fault with
          | some fault => .run fault r.supervisor.launches
          | none => .request
      ⟨cause, written threshold log⟩

end EchoMetrics.Service
