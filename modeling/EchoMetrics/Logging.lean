/-! # Log levels and messages -/

namespace EchoMetrics.Logging

inductive Severity
  | debug
  | info
  | warning
  | error
  | critical
deriving DecidableEq, Repr

/-- How grave messages have to be to be written. -/
abbrev Level := Int

namespace Severity

def name : Severity → String
  | .debug => "DEBUG"
  | .info => "INFO"
  | .warning => "WARNING"
  | .error => "ERROR"
  | .critical => "CRITICAL"

def level : Severity → Level
  | .debug => 10
  | .info => 20
  | .warning => 30
  | .error => 40
  | .critical => 50

end Severity

/-- A message and how grave it is. -/
structure Message where
  severity : Severity
  text : String
deriving DecidableEq, Repr

/-- The messages that a level lets through, in order. -/
def written (threshold : Level) (ms : List Message) : List Message :=
  ms.filter fun m => threshold ≤ m.severity.level

/-- The level of everything that is not set otherwise. -/
def defaultLevel : Level := Severity.info.level

/-- The upper-case form of a letter that has an ASCII one: dotless `i` and long `s` have, too. -/
def upper (c : Char) : Char :=
  if c = 'ı' then 'I' else if c = 'ſ' then 'S' else c.toUpper

/-- The level that a word names, in letters of either case. -/
def named? (s : String) : Option Level :=
  [ ("CRITICAL", 50), ("FATAL", 50), ("ERROR", 40), ("WARN", 30), ("WARNING", 30), ("INFO", 20),
    ("DEBUG", 10), ("NOTSET", 0) ].lookup (String.ofList (s.toList.map upper))

/-- A level asked for by its number or by a word; words that name none ask for the default. -/
inductive Request
  | number (level : Level)
  | word (s : String)
deriving DecidableEq, Repr

def Request.level : Request → Level
  | .number level => level
  | .word s => (named? s).getD defaultLevel

/-- The level of the log and that of its one handler, once there is one. -/
structure Root where
  level : Level := Severity.warning.level
  handler : Option Level := none
deriving DecidableEq, Repr

/-- Sets the level. The first time, a handler is added, which keeps its level. -/
def Root.setUp (r : Root) (q : Request) : Root :=
  { level := q.level, handler := some (r.handler.getD q.level) }

/-- The states of the log after one request after another. -/
def Root.history (r : Root) : List Request → List Root
  | [] => []
  | q :: qs => r.setUp q :: (r.setUp q).history qs

@[simp] theorem Root.handler_setUp_setUp (r : Root) (q q' : Request) :
    ((r.setUp q).setUp q').handler = (r.setUp q).handler := rfl

end EchoMetrics.Logging
