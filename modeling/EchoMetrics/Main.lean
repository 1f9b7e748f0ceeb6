import EchoMetrics.Endpoint
import EchoMetrics.Settings.Load
import EchoMetrics.Supervision.Run

/-! # The command line

Reads the settings, then the prober's output from standard input, line by line; at its end the
metrics go to standard output. Messages go to standard error. -/

open EchoMetrics

namespace EchoMetrics.Main

/-- The variables that are set, of those that say something about the settings. -/
def environment : IO Environment := do
  let names := "FPING_TARGETS" :: Settings.fieldVariables.map Prod.fst
  let values ← names.mapM fun name => return (name, ← IO.getEnv name)
  return values.filterMap fun (name, value) => value.map (name, ·)

def write (threshold : Logging.Level) (m : Logging.Message) : IO Unit :=
  (Logging.written threshold [m]).forM fun m => IO.eprintln (m.severity.name ++ " " ++ m.text)

/-- Applies the lines of standard input to a registry. -/
partial def ingest (threshold : Logging.Level) (input : IO.FS.Stream) (g : Registry) :
    IO Registry := do
  let line ← input.getLine
  if line.isEmpty then return g
  let now := floatOfNat (← IO.monoMsNow) / 1000.0
  if let some w := (Line.read (.float now) line).warning? .stderr then
    write threshold ⟨.warning, w⟩
  ingest threshold input (g.ingest now line)

def serve (s : Settings) : IO UInt32 := do
  let threshold := (Logging.Request.word s.logLevel).level
  write threshold ⟨.info, "reading the output of " ++ " ".intercalate (s.command s.program)⟩
  let g ← ingest threshold (← IO.getStdin) (({} : Registry).apply (.phase .running))
  let now := floatOfNat (← IO.monoMsNow) / 1000.0
  match Exposition.render ((g.apply (.phase .shuttingDown)).snapshot now) with
  | .ok text => IO.print text; return 0
  | .error f => write threshold ⟨.error, f.message⟩; return 3

end EchoMetrics.Main

def main (args : List String) : IO UInt32 := do
  match Settings.load (← Main.environment) args with
  | .ok s => Main.serve s
  | .error (.stop s) =>
    IO.print s.output
    unless s.message = "" do IO.eprintln ("error: " ++ s.message)
    return UInt32.ofNat s.exitCode
  | .error (.fault f) =>
    Main.write Logging.defaultLevel ⟨.error, f.message⟩
    return 2
