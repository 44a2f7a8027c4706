import LoxGraph.Run.Source

/-!
A prompt: source text that comes line by line.

Each line is asked for by a mark and run by itself, unless it is blank. At the
end of the input, or when the user interrupts, the last mark gets a line feed.
-/

namespace LoxGraph

namespace Prompt

/-- What asks for a line. -/
def mark : String := "loxc> "

/-- What the lines of a prompt are called in the log. -/
def sourceName : String := "<stdin>"

/-- The events of one line. -/
def lineEvents (showTokens : Bool) (line : List Char) : List Event :=
  if isBlankLine line then []
  else (Run.ofSource (String.ofList line) sourceName showTokens).events

/-- The lines that are read before an interrupt, if there is one. -/
def linesRead (input : String) (interruptAfter : Option Nat) : List (List Char) :=
  let lines := splitLines input.toList
  match interruptAfter with
  | none => lines
  | some n => lines.take n

/-- The events of a whole session. An interrupt takes the place of the read that
follows the given number of lines. -/
def events (input : String) (interruptAfter : Option Nat) (showTokens : Bool) : List Event :=
  (linesRead input interruptAfter).flatMap (fun line => .out mark :: lineEvents showTokens line) ++
    [.out mark, .out "\n"]

end Prompt

/-- Runs a session, which ends well whatever its lines hold. -/
def Surroundings.runPrompt {σ φ : Type} [FileSystem σ φ] (s : Surroundings σ φ) (input : String)
    (interruptAfter : Option Nat) (showTokens : Bool) : Surroundings σ φ × Nat :=
  (s.performAll (Prompt.events input interruptAfter showTokens), 0)

end LoxGraph
