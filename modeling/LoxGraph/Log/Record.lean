/-!
Log records: what a logger reports, and how severe it is.

Severities are numbers; the usual ones have names. A record is written as one
line that starts with the time. Its text holds no lone surrogates.
-/

namespace LoxGraph

/-- How severe a record is. Zero stands for a severity that is not set. -/
structure Severity where
  rank : Int
deriving DecidableEq

namespace Severity

def notSet : Severity := ⟨0⟩
def debug : Severity := ⟨10⟩
def info : Severity := ⟨20⟩
def warning : Severity := ⟨30⟩
def error : Severity := ⟨40⟩
def critical : Severity := ⟨50⟩

/-- The severities that have names. -/
def named : List (String × Severity) :=
  [("NOTSET", notSet), ("DEBUG", debug), ("INFO", info), ("WARNING", warning), ("ERROR", error),
    ("CRITICAL", critical)]

/-- The severity with the given name. -/
def ofName? (name : String) : Option Severity := named.lookup name

/-- The name of a severity, or else its rank. -/
def name (s : Severity) : String :=
  ((named.find? (·.2 == s)).map (·.1)).getD ("Level " ++ toString s.rank)

/-- Whether a severity reaches a threshold. -/
def reaches (s threshold : Severity) : Bool := threshold.rank ≤ s.rank

/-- Whether records of a severity are logged at all, whatever the thresholds are. -/
def isEnabled (s : Severity) : Bool := notSet.rank < s.rank

end Severity

/-- A report of a logger. -/
structure LogRecord where
  severity : Severity
  logger : String
  text : String
deriving DecidableEq

namespace LogRecord

/-- The width that the name of a severity is filled up to. -/
def severityWidth : Nat := 7

/-- The line of text that shows a record, where `time` stands for the time. -/
def line (time : String) (r : LogRecord) : String :=
  let severity := r.severity.name
  let padding := String.ofList (List.replicate (severityWidth - severity.length) ' ')
  time ++ " " ++ severity ++ padding ++ " " ++ r.logger ++ ": " ++ r.text ++ "\n"

end LogRecord

end LoxGraph
