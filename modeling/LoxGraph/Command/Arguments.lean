import LoxGraph.Text.Letter
import LoxGraph.Text.Quoted

/-!
The arguments of the command line.

Every argument is first taken for an option or for a plain word, and a long
option may be shortened as long as only one option is meant. Then the
arguments are worked through from the left. Options that need no value may
share a dash; help and version are asked for at once, whatever follows. The
first run of plain words names the scripts, and all that is left over is an
error in the end. No argument holds a lone surrogate.
-/

namespace LoxGraph.Command

/-- The options of the command line. -/
inductive Switch where
  | help
  | tokens
  | verbose
  | logFile
  | version
deriving DecidableEq

namespace Switch

/-- The ways to write each option in full, in the order in which they are listed. -/
def spellings : List (String × Switch) :=
  [("-h", help), ("--help", help), ("--tokens", tokens), ("-v", verbose), ("--verbose", verbose),
    ("--log-file", logFile), ("--version", version)]

/-- The option that is written in full by the given word. -/
def ofWord? (word : String) : Option Switch := spellings.lookup word

/-- What an option is called in messages: all its spellings. -/
def title (s : Switch) : String :=
  "/".intercalate ((spellings.filter (·.2 == s)).map (·.1))

end Switch

/-- What is wrong with the arguments. -/
inductive Misuse where
  | ambiguous (word : String) (options : List String)
  | ignoredValue (option : Switch) (value : String)
  | missingValue (option : Switch)
  | unrecognized (words : List String)
deriving DecidableEq

/-- What a misuse is called. -/
def Misuse.message : Misuse → String
  | ambiguous word options =>
    "ambiguous option: " ++ word ++ " could match " ++ ", ".intercalate options
  | ignoredValue option value =>
    "argument " ++ option.title ++ ": ignored explicit argument " ++ quoted value
  | missingValue option => "argument " ++ option.title ++ ": expected one argument"
  | unrecognized words => "unrecognized arguments: " ++ " ".intercalate words

/-- What an argument is taken for. -/
inductive Role where
  | plain
  | separator
  | option (option : Switch) (long : Bool) (value : Option String)
  | unknown

/-- Whether a word after a dash is a number, so that the dash is a minus sign:
digits of any script, or a point with digits after it. A line feed may follow. -/
def isNumberWord (cs : List Char) : Bool :=
  let cs := if cs.getLast? = some '\n' then cs.dropLast else cs
  match cs.dropWhile isDecimalDigit with
  | [] => !cs.isEmpty
  | '.' :: fraction => !fraction.isEmpty && fraction.all isDecimalDigit
  | _ => false

/-- A word split at its first equals sign, if it has one. -/
def splitAtEquals (word : String) : String × Option String :=
  match word.toList.dropWhile (· != '=') with
  | [] => (word, none)
  | _ :: value => (String.ofList (word.toList.takeWhile (· != '=')), some (String.ofList value))

/-- The long options that a shortened one may stand for. -/
def candidates (stem : String) : List (String × Switch) :=
  Switch.spellings.filter fun entry => stem.toList.isPrefixOf entry.1.toList

/-- What one argument is taken for, if it does not come after a separator. -/
def roleOf (word : String) : Except Misuse Role :=
  match word.toList with
  | '-' :: second :: others =>
    let (stem, value) := splitAtEquals word
    if let some option := Switch.ofWord? word then .ok (.option option (second == '-') none)
    else if let (some option, true) := (Switch.ofWord? stem, value.isSome) then
      .ok (.option option (second == '-') value)
    else
      let short := Switch.ofWord? (String.ofList ['-', second])
      match (if second = '-' then candidates stem else []), short with
      | [(_, option)], _ => .ok (.option option true value)
      | first :: next :: more, _ => .error (.ambiguous word ((first :: next :: more).map (·.1)))
      | [], some option => .ok (.option option false (some (String.ofList others)))
      | [], none =>
        if isNumberWord (second :: others) ∨ ' ' ∈ others ∨ second = ' ' then .ok .plain
        else .ok .unknown
  | _ => .ok .plain

/-- What the arguments are taken for. After a separator all are plain words. -/
def roles : List String → Except Misuse (List (String × Role))
  | [] => .ok []
  | word :: words =>
    if word = "--" then .ok ((word, .separator) :: words.map (·, .plain))
    else do
      let role ← roleOf word
      let others ← roles words
      pure ((word, role) :: others)

/-- The settings that the arguments make. -/
structure Settings where
  showTokens : Bool
  verbose : Bool
  logFile : Option String
deriving DecidableEq

/-- The settings of an empty command line. -/
def Settings.plain : Settings := ⟨false, false, none⟩

/-- What the command line asks for. -/
inductive Request where
  | help
  | version
  | run (settings : Settings) (scripts : List String)
deriving DecidableEq

/-- The options that share a dash: the letters after the first one have to be
options without a value as well. -/
def cluster (option : Switch) : List Char → Except Misuse (List Switch)
  | [] => .ok [option]
  | c :: cs =>
    match Switch.ofWord? (String.ofList ['-', c]) with
    | some next => (cluster next cs).map (option :: ·)
    | none => .error (.ignoredValue option (String.ofList (c :: cs)))

/-- The options that are set by one argument which takes no value from the next. -/
def switchesOf (option : Switch) (long : Bool) : Option String → Except Misuse (List Switch)
  | none => .ok [option]
  | some value =>
    if long ∨ value = "" then .error (.ignoredValue option value)
    else cluster option value.toList

/-- Sets options one after another, until one asks for help or the version. -/
def applySwitches (settings : Settings) : List Switch → Settings ⊕ Request
  | [] => .inl settings
  | .help :: _ => .inr .help
  | .version :: _ => .inr .version
  | .tokens :: others => applySwitches { settings with showTokens := true } others
  | .verbose :: others => applySwitches { settings with verbose := true } others
  | .logFile :: others => applySwitches settings others

/-- How far the arguments have been worked through: the settings so far, the
words of the run that names the scripts, whether that run is over, and the
words left over. -/
structure Progress where
  settings : Settings
  scripts : List String
  scriptsDone : Bool
  leftOver : List String

namespace Progress

/-- Before the first argument. -/
def start : Progress := ⟨.plain, [], false, []⟩

/-- After a plain word or a separator: it names a script while the first run of
such words lasts, and is left over later. -/
def addWord (p : Progress) (word : String) : Progress :=
  if p.scriptsDone then { p with leftOver := p.leftOver ++ [word] }
  else { p with scripts := p.scripts ++ [word] }

/-- After an option, which ends a run of plain words. -/
def endRun (p : Progress) : Progress := { p with scriptsDone := p.scriptsDone || p.scripts != [] }

/-- After the last argument. A separator among the scripts is none of them. -/
def finish (p : Progress) : Except Misuse Request :=
  if p.leftOver = [] then .ok (.run p.settings (p.scripts.erase "--"))
  else .error (.unrecognized p.leftOver)

end Progress

/-- Works through arguments whose roles are known. -/
def work (p : Progress) : List (String × Role) → Except Misuse Request
  | [] => p.finish
  | (word, .plain) :: others => work (p.addWord word) others
  | (word, .separator) :: others => work (p.addWord word) others
  | (word, .unknown) :: others =>
    work { p.endRun with leftOver := p.endRun.leftOver ++ [word] } others
  | (_, .option .logFile _ (some value)) :: others =>
    work { p.endRun with settings := { p.settings with logFile := some value } } others
  | (_, .option .logFile _ none) :: (value, .plain) :: others =>
    work { p.endRun with settings := { p.settings with logFile := some value } } others
  | (_, .option .logFile _ none) :: _ => .error (.missingValue .logFile)
  | (_, .option option long value) :: others => do
    match applySwitches p.settings (← switchesOf option long value) with
    | .inr request => .ok request
    | .inl settings => work { p.endRun with settings := settings } others

/-- What a command line asks for. -/
def Request.ofArguments (arguments : List String) : Except Misuse Request := do
  work .start (← roles arguments)

end LoxGraph.Command
