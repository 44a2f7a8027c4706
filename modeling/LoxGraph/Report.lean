import LoxGraph.Text.Quoted

/-!
Reports: what is shown for a mistake in the source text.

A report names a line, a place on it, which may be empty, and what is wrong
there.
-/

namespace LoxGraph

/-- A message about a place in the source text. -/
structure Report where
  line : Int
  location : String
  message : String
deriving DecidableEq

namespace Report

/-- The line of text that shows a report. -/
def text (r : Report) : String :=
  "[" ++ toString r.line ++ "] Error " ++ r.location ++ ": " ++ r.message

/-- All three parts of a report. -/
def inspect (r : Report) : String :=
  "SourceError(" ++ toString r.line ++ ", " ++ quoted r.location ++ ", " ++ quoted r.message ++ ")"

end Report

end LoxGraph
