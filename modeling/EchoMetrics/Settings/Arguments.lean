import EchoMetrics.Text.Digit
import EchoMetrics.Text.Quoted

/-! # Command line arguments

The arguments are targets. The only option asks for help. -/

namespace EchoMetrics.Arguments

/-- Why the arguments give no targets. -/
inductive Stop
  | help
  /-- A text is attached to the option, which takes none. -/
  | attached (value : String)
  | unrecognized (arguments : List String)
deriving DecidableEq, Repr

def helpText : String :=
  "usage: fping-exporter [-h] [TARGET ...]\n\n" ++
  "Export fping loop-mode measurements as Prometheus metrics.\n\n" ++
  "positional arguments:\n" ++
  "  TARGET      hostname or ip address to ping\n\n" ++
  "options:\n" ++
  "  -h, --help  show this help message and exit\n"

namespace Stop

/-- What is said of wrong arguments. -/
def message : Stop → String
  | .help => ""
  | .attached value => "argument -h/--help: ignored explicit argument " ++ Text.quoted value
  | .unrecognized arguments => "unrecognized arguments: " ++ " ".intercalate arguments

/-- What is printed in answer to the arguments. -/
def output : Stop → String
  | .help => helpText
  | .attached _ | .unrecognized _ => ""

def exitCode : Stop → Nat
  | .help => 0
  | .attached _ | .unrecognized _ => 2

end Stop

/-- What an argument is, taken by itself. -/
inductive Kind
  | target
  | separator
  | help
  | attached (value : String)
  | unknown
deriving DecidableEq, Repr

/-- Whether a text is like `-1`, `-.5` or `-1.5`, in the digits of any script, and perhaps with a
line break behind it. -/
def isNegativeNumber (cs : List Char) : Bool :=
  let cs := if cs.getLast? = some '\n' then cs.dropLast else cs
  match cs with
  | '-' :: cs =>
    match cs.dropWhile Text.isDigit with
    | [] => !cs.isEmpty
    | '.' :: part => !part.isEmpty && part.all Text.isDigit
    | _ => false
  | _ => false

/-- Splits at the first equals sign. -/
def splitEquals (cs : List Char) : List Char × Option (List Char) :=
  match cs.dropWhile (· != '=') with
  | [] => (cs, none)
  | _ :: value => (cs.takeWhile (· != '='), some value)

/-- What follows `-h` in one argument: more letters `h` ask for help again, anything else is
attached. -/
def afterShort : List Char → Kind
  | [] => .help
  | 'h' :: cs => afterShort cs
  | cs => .attached (String.ofList cs)

/-- Whether a text is the long option or cut short from it. -/
def isLong (cs : List Char) : Bool := cs.isPrefixOf "--help".toList && "--".toList.isPrefixOf cs

def Kind.ofAttached : Option (List Char) → Kind
  | none => .help
  | some value => .attached (String.ofList value)

/-- Classifies an argument in front of the separator. An argument with a blank in it is no option
unless it begins like one. -/
def classify (arg : String) : Kind :=
  let cs := arg.toList
  let other := if isNegativeNumber cs || cs.contains ' ' then Kind.target else .unknown
  match cs with
  | ['-', '-'] => .separator
  | '-' :: '-' :: _ =>
    let (name, value) := splitEquals cs
    if isLong name then .ofAttached value else other
  | ['-', 'h', '='] => .attached ""
  | '-' :: 'h' :: '=' :: cs => afterShort cs
  | '-' :: 'h' :: cs => afterShort cs
  | '-' :: _ :: _ => other
  | _ => .target

/-- How far the targets were read: they are one run of arguments. -/
inductive Progress
  | before
  | inside
  | after
deriving DecidableEq

/-- Reads the arguments from left to right. Targets after the first run of them, and unknown
options, are collected; a call for help or an attached text ends the reading. -/
def scan (progress : Progress) (targets extras : List String) :
    List String → Except Stop (List String)
  | [] => if extras.isEmpty then .ok targets else .error (.unrecognized extras)
  | arg :: args =>
    match classify arg with
    | .help => .error .help
    | .attached value => .error (.attached value)
    | .unknown =>
      scan (if progress = .before then .before else .after) targets (extras ++ [arg]) args
    | .target =>
      if progress = .after then scan .after targets (extras ++ [arg]) args
      else scan .inside (targets ++ [arg]) extras args
    | .separator =>
      if progress = .after then .error (.unrecognized (extras ++ arg :: args))
      else if extras.isEmpty then .ok (targets ++ args)
      else .error (.unrecognized extras)

/-- The targets that the arguments name. -/
def targets (args : List String) : Except Stop (List String) := scan .before [] [] args

end EchoMetrics.Arguments
