import Std.Time
import LoxGraph.Command.Run

/-!
The program itself: it takes its arguments from the command line, its files
from the file system and its prompt from the standard input.

What it does is decided elsewhere; here the events of a run are carried out one
by one as they come.
-/

namespace LoxGraph.Command

/-- The time of day as log lines show it. -/
def timeOfDay : IO String := do
  return (← Std.Time.PlainDateTime.now).format "uuuu-MM-dd HH:mm:ss,SSS"

/-- What is said of a log file that cannot be written to. -/
def complaint (e : IO.Error) : String := "--- Logging error ---\n" ++ toString e ++ "\n"

/-- Writes a log line to its sink. -/
def deliver : Sink IO.FS.Handle × String → IO Unit
  | (.console, text) => do (← IO.getStderr).putStr text
  | (.file handle, text) => do
    try
      handle.putStr text
      handle.flush
    catch e => (← IO.getStderr).putStr (complaint e)

/-- Carries out an event. -/
def perform (logging : Logging IO.FS.Handle) : Event → IO Unit
  | .out text => do
    let out ← IO.getStdout
    out.putStr text
    out.flush
  | .err text => do (← IO.getStderr).putStr text
  | .log record => do (logging.deliveries (← timeOfDay) record).forM deliver

/-- The error number of a failed system call, as far as the program tells them
apart. -/
def errorNumber : IO.Error → Int
  | .noFileOrDirectory _ number _ => number.toNat
  | .inappropriateType _ number _ => number.toNat
  | .permissionDenied _ number _ => number.toNat
  | .alreadyExists _ number _ => number.toNat
  | .interrupted _ number _ => number.toNat
  | .resourceBusy number _ => number.toNat
  | .resourceVanished number _ => number.toNat
  | .timeExpired number _ => number.toNat
  | _ => 0

/-- The text of a file of the file system. -/
def readText (path : Path) : IO (Except FileFault String) := do
  try
    let handle ← IO.FS.Handle.mk path.text .read
    return FileSystem.decode (← handle.readBinToEnd)
  catch e => return .error (.ofErrorNumber (errorNumber e))

/-- Runs a file of the file system. -/
def runFile (logging : Logging IO.FS.Handle) (path : Path) (showTokens : Bool) : IO UInt32 := do
  perform logging (.log (Run.readingRecord path))
  let run := Run.ofRead path showTokens (← readText path)
  run.events.forM (perform logging)
  return run.status.toUInt32

/-- Runs the lines of the standard input until it ends. -/
partial def runPrompt (logging : Logging IO.FS.Handle) (showTokens : Bool) : IO UInt32 := do
  perform logging (.out Prompt.mark)
  let line ← (← IO.getStdin).getLine
  if line.isEmpty then
    perform logging (.out "\n")
    return 0
  (Prompt.lineEvents showTokens line.toList).forM (perform logging)
  runPrompt logging showTokens

/-- Sets the log up, and opens its file if the settings name one. -/
def Settings.openLog (settings : Settings) : IO (Logging IO.FS.Handle) := do
  match settings.logFile with
  | none => return .atLevel settings.level none
  | some "" => return .atLevel settings.level none
  | some name => return .atLevel settings.level (some (← IO.FS.Handle.mk name .append))

/-- Does what the arguments ask for, and gives the status of the program. -/
def serve (arguments : List String) : IO UInt32 := do
  match Request.ofArguments arguments with
  | .error misuse =>
    (← IO.getStderr).putStr (usage ++ "loxc: error: " ++ misuse.message ++ "\n")
    return 2
  | .ok .help =>
    (← IO.getStdout).putStr help
    return 0
  | .ok .version =>
    (← IO.getStdout).putStr version
    return 0
  | .ok (.run settings []) => do runPrompt (← settings.openLog) settings.showTokens
  | .ok (.run settings [script]) =>
    match Path.ofString? script with
    | some path => runFile (← settings.openLog) path settings.showTokens
    | none => throw (.userError Path.refusal)
  | .ok (.run _ _) =>
    (← IO.getStderr).putStr usage
    return 64

end LoxGraph.Command

/-- The program. -/
def main (arguments : List String) : IO UInt32 := LoxGraph.Command.serve arguments
