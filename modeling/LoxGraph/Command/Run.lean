import LoxGraph.Command.Arguments
import LoxGraph.Run.Prompt
import LoxGraph.Run.Requests

/-!
The command line: from arguments to a finished run.

Help, the version and mistakes in the arguments end the program at once. With
one script the script is run, with none a prompt; more than one are refused.
Before that the log is set up, in full with the verbose option and from
warnings on without it.
-/

namespace LoxGraph.Command

/-- How the program is called. -/
def usage : String :=
  "usage: loxc [-h] [--tokens] [-v] [--log-file LOG_FILE] [--version]\n            [script ...]\n"

/-- What the program says about itself. -/
def help : String := usage ++
  "\nScan and parse Lox expressions and print their syntax tree as a Graphviz graph\n\n" ++
  "positional arguments:\n" ++
  "  script               Source file to process (omit for a prompt)\n\n" ++
  "options:\n" ++
  "  -h, --help           show this help message and exit\n" ++
  "  --tokens             Print tokens instead of the syntax tree\n" ++
  "  -v, --verbose        Enable debug logging on stderr\n" ++
  "  --log-file LOG_FILE  Also write log records to this file\n" ++
  "  --version            show program's version number and exit\n\n" ++
  "Examples:\n" ++
  "    loxc                          # Interactive prompt\n" ++
  "    loxc expr.lox > expr.dot      # Render a file\n" ++
  "    loxc --tokens expr.lox        # Show the token stream\n" ++
  "        \n"

/-- The version of the program. -/
def version : String := "loxc 0.1.0\n"

/-- How the program ends: with a status of its own, or by the handling of its
arguments. -/
inductive Status where
  | returned (code : Nat)
  | exited (code : Nat)
deriving DecidableEq

/-- Why a run is broken off without a status: the log cannot be set up, or the script has a name
that is no path. -/
inductive Abort where
  | log (fault : LogFault)
  | noPath
deriving DecidableEq

/-- The path of a text, if it is one. -/
def pathOf (text : String) : Except Abort Path :=
  match Path.ofString? text with
  | some path => .ok path
  | none => .error .noPath

/-- From which severity on records are logged. -/
def Settings.level (settings : Settings) : Severity :=
  if settings.verbose then .debug else .warning

/-- What the prompt is fed: its input, and after how many lines the user
interrupts. -/
structure Input where
  text : String
  interruptAfter : Option Nat

variable {σ φ : Type} [FileSystem σ φ]

/-- Sets up the log as the settings say. -/
def Settings.setupLog (settings : Settings) (s : Surroundings σ φ) :
    Except Abort (Surroundings σ φ) :=
  match s.setupNamed settings.level settings.logFile with
  | (s, none) => .ok s
  | (_, some fault) => .error (.log fault)

/-- Runs a script, or a prompt if none is given. -/
def Settings.runScripts (settings : Settings) (input : Input) (s : Surroundings σ φ) :
    List String → Except Abort (Status × Surroundings σ φ)
  | [] => do
    let s ← settings.setupLog s
    let (s, status) := s.runPrompt input.text input.interruptAfter settings.showTokens
    pure (.returned status, s)
  | [script] => do
    let s ← settings.setupLog s
    let (s, status) := s.runFile (← pathOf script) settings.showTokens
    pure (.returned status, s)
  | _ => .ok (.returned 64, s.write .diagnostics usage)

/-- Runs the program with the given arguments. -/
def run (s : Surroundings σ φ) (arguments : List String) (input : Input) :
    Except Abort (Status × Surroundings σ φ) :=
  match Request.ofArguments arguments with
  | .error misuse =>
    .ok (.exited 2,
      (s.write .diagnostics usage).write .diagnostics
        ("loxc: error: " ++ misuse.message ++ "\n"))
  | .ok .help => .ok (.exited 0, s.write .out help)
  | .ok .version => .ok (.exited 0, s.write .out version)
  | .ok (.run settings scripts) => settings.runScripts input s scripts

end LoxGraph.Command
