import LoxGraph.Run.Transcript

/-!
Requests to the log.

Whoever uses the log sets it up, as often as wanted, and reports records to it. A file for the log
is asked for by its name; no name, or an empty one, asks for none. A name that is no path, or one
whose file cannot be opened, is a fault that the setup raises when the console is set up already.
-/

namespace LoxGraph

/-- Why the log is set up without the file that is asked for. -/
inductive LogFault where
  | noPath
  | unopened (fault : FileFault)
deriving DecidableEq

/-- What is asked of the log: to be set up anew, from a severity on and with a file or without, or
to take a record. -/
inductive LogRequest where
  | setup (level : Severity) (name : Option String)
  | record (r : LogRecord)
deriving DecidableEq

namespace Surroundings

variable {σ φ : Type} [FileSystem σ φ]

/-- Sets the log up with the file that has a name, if one is asked for. -/
def setupNamed (s : Surroundings σ φ) (level : Severity) :
    Option String → Surroundings σ φ × Option LogFault
  | none => ((s.setupLog level none).1, none)
  | some name =>
    if name = "" then ((s.setupLog level none).1, none)
    else match Path.ofString? name with
      | none => ((s.setupLog level none).1, some .noPath)
      | some path =>
        let (s, fault) := s.setupLog level (some path)
        (s, fault.map .unopened)

/-- Does what is asked of the log, and tells the fault that is raised. -/
def request (s : Surroundings σ φ) : LogRequest → Surroundings σ φ × Option LogFault
  | .setup level name => s.setupNamed level name
  | .record r => (s.perform (.log r), none)

/-- Does one after another what is asked of the log, and goes on after a fault. -/
def requestAll (s : Surroundings σ φ) (requests : List LogRequest) : Surroundings σ φ :=
  requests.foldl (fun s request => (s.request request).1) s

end Surroundings

end LoxGraph
