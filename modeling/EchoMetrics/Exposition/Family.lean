import EchoMetrics.Decimal.Form
import EchoMetrics.Text.Quoted

/-! # Metric families and their text form

A family is a heading and a number of series. The text form has one line for each series, with its
labels and its value. -/

namespace EchoMetrics.Exposition

/-- The value of a series. Counts are exact until they are written. -/
inductive Value
  | count (n : Nat)
  | real (x : Float)
deriving DecidableEq

structure Series where
  name : String
  /-- By label name. -/
  labels : List (String × String) := []
  value : Value
deriving DecidableEq

inductive Kind
  | gauge
  | counter
  | histogram
  | info
deriving DecidableEq, Repr

structure Family where
  kind : Kind
  name : String
  help : String
  series : List Series
deriving DecidableEq

/-- Why families cannot be written. -/
inductive EncodingFault
  | invalidValue (reason : String)
  | invalidType (reason : String)
  | missingName (name : String)
  /-- A count is past the last finite float. -/
  | countTooLarge
deriving DecidableEq, Repr

def EncodingFault.message : EncodingFault → String
  | .invalidValue reason | .invalidType reason => reason
  | .missingName name => Text.quoted name
  | .countTooLarge => "int too large to convert to float"

namespace Kind

/-- What the exposed name of a family has behind its own. -/
def suffix : Kind → String
  | .gauge | .histogram => ""
  | .counter => "_total"
  | .info => "_info"

/-- The type that the heading gives. -/
def type : Kind → String
  | .gauge | .info => "gauge"
  | .counter => "counter"
  | .histogram => "histogram"

end Kind

/-- The float that is written for a value. -/
def Value.float : Value → Except EncodingFault Float
  | .real x => .ok x
  | .count n =>
    let x := floatOfNat n
    if x.isInf then .error .countTooLarge else .ok x

/-- Positive values of seven digits or more in front of the point have an exponent. -/
def form (x : Float) : Decimal.Form :=
  if 0.0 < x then { last := 5, infinity := "+Inf", nan := "NaN" }
  else { infinity := "Inf", nan := "NaN" }

def writeValue (x : Float) : String := Decimal.writeFloat (form x) x

def escapeLabel : Char → List Char
  | '\\' => ['\\', '\\']
  | '"' => ['\\', '"']
  | '\n' => ['\\', 'n']
  | c => [c]

def writeLabel (label : String × String) : List Char :=
  label.1.toList ++ '=' :: '"' :: label.2.toList.flatMap escapeLabel ++ ['"']

/-- Labels between braces, separated by commas; nothing if there are none. -/
def writeLabels : List (String × String) → List Char
  | [] => []
  | labels => '\x7b' :: (List.intercalate [','] (labels.map writeLabel)) ++ ['\x7d']

namespace Series

/-- The metric name and the labels, which tell a series from all others. -/
def key (s : Series) : List Char := s.name.toList ++ writeLabels s.labels

/-- The line of a series, its line break included. -/
def line (s : Series) : Except EncodingFault (List Char) :=
  s.value.float.map fun x => s.key ++ ' ' :: (writeValue x).toList ++ ['\n']

end Series

namespace Family

def exposedName (f : Family) : String := f.name ++ f.kind.suffix

def heading (f : Family) : List Char :=
  ("# HELP " ++ f.exposedName ++ " " ++ f.help ++ "\n" ++
    "# TYPE " ++ f.exposedName ++ " " ++ f.kind.type ++ "\n").toList

def text (f : Family) : Except EncodingFault (List Char) := do
  return f.heading ++ (← f.series.mapM Series.line).flatten

end Family

/-- The text form of families, in their order. -/
def encode (families : List Family) : Except EncodingFault String := do
  return String.ofList (← families.mapM Family.text).flatten

end EchoMetrics.Exposition
