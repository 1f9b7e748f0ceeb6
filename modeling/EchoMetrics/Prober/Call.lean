import EchoMetrics.Decimal.Basic

/-! # Calls for the version of the prober

A program is started, waited for and its output decoded. Each of the three can go wrong in a way
that has nothing to do with what the program is. -/

namespace EchoMetrics.Prober

/-- What a call can break off with. -/
inductive CallFault
  | nulInPath
  | timeoutNaN
  | timeoutTooLong (timeout : Float)
  | undecodable (reason : String)
deriving DecidableEq

/-- The longest wait that there is, in milliseconds. -/
def longestWait : Float := 2147483647.0

/-- Milliseconds beyond this cannot even be counted. -/
def longestTime : Float := 9223372036854.0

def CallFault.message : CallFault → String
  | .nulInPath => "embedded null byte"
  | .timeoutNaN => "cannot convert float NaN to integer"
  | .timeoutTooLong timeout =>
    if (timeout * 1000.0).isInf then "cannot convert float infinity to integer"
    else if longestTime < timeout * 1000.0 then "timestamp too large to convert to C _PyTime_t"
    else "timeout is too large"
  | .undecodable reason => reason

/-- How a call for the version ends. -/
inductive Answer
  | refused (reason : String)
  | silent
  | exited (code : Int) (stdout stderr : String)
  /-- Nothing comes of the call. -/
  | broken (f : CallFault)
deriving DecidableEq

/-- What a program does when it is called: it is not started, it does not exit as long as it is
waited for, or it does. What it writes is a text, with line feeds at the ends of its lines, or else
there is a reason why it is none. -/
inductive Behaviour
  | refused (reason : String)
  | silent
  | exited (code : Int) (stdout stderr : Except String String)

/-- What comes of waiting that long for what would come of waiting long enough. The time that has
passed when the wait begins is not counted. -/
def wait (timeout : Float) (a : Answer) : Answer :=
  if 0.0 < timeout then
    if timeout * 1000.0 ≤ longestWait then a else .broken (.timeoutTooLong timeout)
  else if timeout.isNaN then .broken .timeoutNaN
  else .silent

/-- The output is decoded whatever the code, and before the code is looked at. -/
def decoded (code : Int) : Except String String → Except String String → Answer
  | .ok stdout, .ok stderr => .exited code stdout stderr
  | .ok _, .error reason | .error reason, _ => .broken (.undecodable reason)

/-- A call of the program at a path, which is waited for that many seconds. -/
def call (binary : String) (timeout : Float) (b : Behaviour) : Answer :=
  if '\x00' ∈ binary.toList then .broken .nulInPath
  else match b with
    | .refused reason => .refused reason
    | .silent => wait timeout .silent
    | .exited code stdout stderr => wait timeout (decoded code stdout stderr)

end EchoMetrics.Prober
