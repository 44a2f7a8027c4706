import LoxGraph.Command.Arguments

/-!
Options in front of the other arguments.

What the arguments ask for is worked out from the left, and options before all of them only change
what the others begin with. So the settings of such options lie under those that the rest makes
(`work_under`), and nothing else of the request depends on them.
-/

namespace LoxGraph.Command

/-- What comes of settings when others are made after them. A log file that is named later is the
one that counts. -/
def Settings.under (front settings : Settings) : Settings where
  showTokens := front.showTokens || settings.showTokens
  verbose := front.verbose || settings.verbose
  logFile := settings.logFile.or front.logFile

/-- The request with some settings under its own. -/
def Request.under (front : Settings) : Request → Request
  | .help => .help
  | .version => .version
  | .run settings scripts => .run (front.under settings) scripts

theorem Settings.under_under (front front' settings : Settings) :
    front.under (front'.under settings) = (front.under front').under settings := by
  simp [under, Bool.or_assoc, Option.or_assoc]

theorem Request.under_under (front front' : Settings) (request : Request) :
    (request.under front').under front = request.under (front.under front') := by
  cases request with
  | help => rfl
  | version => rfl
  | run settings scripts => simp only [under, Settings.under_under]

/-- Arguments worked through so far, with some settings under theirs. -/
def Progress.under (front : Settings) (p : Progress) : Progress :=
  { p with settings := front.under p.settings }

variable (front : Settings)

/-- Whether some words make some settings for whatever follows them, and nothing else. -/
def Fronts (words : List String) (front : Settings) : Prop :=
  ∀ arguments, Request.ofArguments (words ++ arguments) =
    (Request.ofArguments arguments).map (Request.under front)

theorem Fronts.append {words words' : List String} {front front' : Settings}
    (h : Fronts words front) (h' : Fronts words' front') :
    Fronts (words ++ words') (front.under front') := by
  intro arguments
  rw [List.append_assoc, h, h']
  cases Request.ofArguments arguments with
  | error misuse => rfl
  | ok request => exact congrArg Except.ok (request.under_under front front')

/-- What words in front of any others are taken for. -/
def Takes (words : List String) (parts : List (String × Role)) : Prop :=
  ∀ arguments, roles (words ++ arguments) = (roles arguments).map (parts ++ ·)

theorem Takes.cons {word : String} {role : Role} {words : List String}
    {parts : List (String × Role)} (h : Takes words parts) (hword : word ≠ "--")
    (hrole : roleOf word = .ok role) : Takes (word :: words) ((word, role) :: parts) := by
  intro arguments
  rw [List.cons_append, roles, if_neg hword, hrole, h]
  cases roles arguments <;> rfl

end LoxGraph.Command
