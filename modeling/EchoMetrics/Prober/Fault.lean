import EchoMetrics.Decimal.Form
import EchoMetrics.Text.Quoted

/-! # Why the prober cannot be used -/

namespace EchoMetrics.Prober

/-- No fault of this kind is mended by trying again. -/
inductive Fault
  | notFound (program : String)
  | notExecutable (program : String)
  | cannotExecute (binary reason : String)
  | noAnswer (binary : String) (timeout : Float)
  | missingDependencies (binary complaint : String)
  | failed (binary : String) (code : Int)
  | noVersion (output : String)
  | cannotStart (program reason : String)
deriving DecidableEq

def Fault.message : Fault → String
  | .notFound program =>
    "fping binary " ++ Text.quoted program ++ " not found; install fping or point FPING_BIN at it"
  | .notExecutable program => program ++ " exists but is not executable"
  | .cannotExecute binary reason => "cannot execute " ++ binary ++ ": " ++ reason
  | .noAnswer binary timeout =>
    binary ++ " --version did not exit within " ++ Decimal.writeFloat Decimal.plain timeout ++
      "s; make sure FPING_BIN points to fping"
  | .missingDependencies binary complaint =>
    binary ++ " reports missing runtime dependencies: " ++ complaint
  | .failed binary code => binary ++ " --version failed with return code " ++ toString code
  | .noVersion output => "could not parse fping version from " ++ Text.quoted output
  | .cannotStart program reason => "cannot start " ++ program ++ ": " ++ reason

/-- The path of a program, given what a look-up finds and whether a file of that name exists. -/
def resolve (program : String) (found : Option String) (fileExists : Bool) : Except Fault String :=
  match found with
  | some path => .ok path
  | none => .error (if fileExists then .notExecutable program else .notFound program)

end EchoMetrics.Prober
