import EchoMetrics.Settings.Arguments
import EchoMetrics.Settings.Environment

/-! # Settings from the environment and the command line -/

namespace EchoMetrics.Settings

/-- Why a configuration is refused. -/
inductive LoadFault
  | invalid (faults : List Fault)
  | noTargets
deriving DecidableEq

def LoadFault.message : LoadFault → String
  | .invalid _ => "invalid configuration"
  | .noTargets => "no targets configured; pass them as arguments or via FPING_TARGETS"

/-- Gives settings other targets; all fields are checked again. -/
def withTargets (s : Settings) (targets : List String) : Except (List Fault) Settings :=
  ofRecord (s.toRecord.set "targets" (.list (targets.map .text)))

/-- Settings from the environment, in which targets from the command line take precedence. -/
def configure (env : Environment) (targets : List String) : Except LoadFault Settings := do
  let s ← (ofEnvironment env).mapError .invalid
  let s ← if targets.isEmpty then pure s else (s.withTargets targets).mapError .invalid
  if s.targets.isEmpty then throw .noTargets
  return s

/-- Why there are no settings: the arguments stop the program, or the configuration is refused. -/
inductive Refusal
  | stop (s : Arguments.Stop)
  | fault (f : LoadFault)
deriving DecidableEq

/-- The arguments are read first. -/
def load (env : Environment) (args : List String) : Except Refusal Settings := do
  let targets ← (Arguments.targets args).mapError .stop
  (configure env targets).mapError .fault

end EchoMetrics.Settings
