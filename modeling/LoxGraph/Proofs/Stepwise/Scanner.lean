import LoxGraph.Cursor
import LoxGraph.Proofs.Stepwise.Action
import LoxGraph.Proofs.Text.Span

/-!
Scanning step by step.

The text is read by an index, with one more character looked at where a numeral may go
on behind a point. Behind the end of the text there is a character that is none.
-/

namespace LoxGraph.Stepwise

/-- Where the piece that is being read begins, where reading goes on, and the line
there. -/
structure Place where
  start : Nat
  current : Nat
  line : Int

abbrev Scanning := Action LexicalError Place

/-- What is looked at behind the end of a text. -/
def noCharacter : Char := '\x00'

/-- The characters of a text from one index up to another one. -/
def slice (text : List Char) (first last : Nat) : List Char := (text.drop first).take (last - first)

/-- Whether a text is digits, or digits, a point and digits. -/
def isNumeralText (cs : List Char) : Bool :=
  !(cs.takeWhile Char.isDigit).isEmpty &&
    match cs.dropWhile Char.isDigit with
    | [] => true
    | c :: fraction => c == '.' && !fraction.isEmpty && fraction.all Char.isDigit

section Actions

variable (text : List Char)

def charAt (index : Nat) : Scanning Char :=
  match text[index]? with
  | some c => pure c
  | none => throw (.mishap (.outOfRange index))

def atEnd : Scanning Bool := do
  let place ← get
  return decide (text.length ≤ place.current)

/-- Goes past the next character, which has to be there. -/
def takeChar : Scanning Char := do
  let place ← get
  let c ← charAt text place.current
  set { place with current := place.current + 1 }
  return c

/-- Goes past the next character if it is the expected one. -/
def takeIf (expected : Char) : Scanning Bool := do
  let done ← atEnd text
  if done then return false
  else
    let place ← get
    let c ← charAt text place.current
    if c = expected then
      set { place with current := place.current + 1 }
      return true
    else return false

def front : Scanning Char := do
  let done ← atEnd text
  if done then return noCharacter
  else
    let place ← get
    charAt text place.current

def second : Scanning Char := do
  let place ← get
  if text.length ≤ place.current + 1 then return noCharacter
  else charAt text (place.current + 1)

def newLine : Scanning Unit := modify fun place => { place with line := place.line + 1 }

def countLine (counting : Bool) (c : Char) : Scanning Unit :=
  if counting ∧ c = '\n' then newLine else pure ()

/-- Goes past the characters that pass a test. The clock bounds the number of rounds. -/
def skipWhile (goesOn : Char → Bool) : Nat → Scanning Unit
  | 0 => throw (.mishap .endlessLoop)
  | clock + 1 => do
    let c ← front text
    if goesOn c then
      let _ ← takeChar text
      skipWhile goesOn clock
    else return

/-- Goes to the next `stop` or to the end of the text. Lines are counted on the way where
they can end there. -/
def skipTo (stop : Char) (counting : Bool) : Nat → Scanning Unit
  | 0 => throw (.mishap .endlessLoop)
  | clock + 1 => do
    let c ← front text
    let done ← atEnd text
    if c = stop ∨ done then return
    else
      countLine counting c
      let _ ← takeChar text
      skipTo stop counting clock

/-- The token of what has been passed since the start of the piece. -/
def makeToken (kind : TokenKind) (literal : Value) : Scanning Token := do
  let place ← get
  return ⟨kind, String.ofList (slice text place.start place.current), literal, place.line⟩

/-- The number that a numeral writes; other texts must not come here. -/
def toDouble (lexeme : String) : Scanning Double :=
  match if isNumeralText lexeme.toList then Double.ofText? lexeme else none with
  | some d => pure d
  | none => throw (.mishap (.notANumeral lexeme))

/-- A string, after its opening quote. -/
def scanString : Scanning Token := do
  skipTo text '"' true (text.length + 1)
  let done ← atEnd text
  if done then
    let place ← get
    throw (.report ⟨place.line, .unterminatedString⟩)
  else
    let _ ← takeChar text
    let place ← get
    let body := slice text (place.start + 1) (place.current - 1)
    makeToken text .string (.text (String.ofList body))

/-- The token of the numeral that has been passed. -/
def makeNumber : Scanning Token := do
  let place ← get
  let d ← toDouble (String.ofList (slice text place.start place.current))
  makeToken text .number (.double d)

/-- A numeral, after its first digit. -/
def scanNumber : Scanning Token := do
  skipWhile text Char.isDigit (text.length + 1)
  let point ← front text
  let digit ← second text
  if point = '.' ∧ digit.isDigit then
    let _ ← takeChar text
    skipWhile text Char.isDigit (text.length + 1)
    makeNumber text
  else makeNumber text

/-- A name or a reserved word, after its first letter. -/
def scanName : Scanning Token := do
  skipWhile text isNameChar (text.length + 1)
  let place ← get
  let word := String.ofList (slice text place.start place.current)
  match TokenKind.ofWord? word with
  | some kind => makeToken text kind .none
  | none => makeToken text .identifier (.text word)

/-- A comment to the end of its line, or a division sign, after the slash. -/
def scanSlash : Scanning (Option Token) := do
  let comment ← takeIf text '/'
  if comment then
    skipTo text '\n' false (text.length + 1)
    return none
  else some <$> makeToken text .slash .none

/-- One piece of the text: a token, or nothing for a blank or a comment. -/
def scanPiece : Scanning (Option Token) := do
  let c ← takeChar text
  if let some kind := punctuation? c then some <$> makeToken text kind .none
  else if let some (alone, withEqual) := comparison? c then
    let equal ← takeIf text '='
    some <$> makeToken text (if equal then withEqual else alone) .none
  else if c = '/' then scanSlash text
  else if c = ' ' ∨ c = '\r' ∨ c = '\t' then return none
  else if c = '\n' then
    newLine
    return none
  else if c = '"' then some <$> scanString text
  else if c.isDigit then some <$> scanNumber text
  else if isLetter c then some <$> scanName text
  else
    let place ← get
    throw (.report ⟨place.line, .unknownCharacter c⟩)

/-- The tokens of the text from the current place on, after those met before. -/
def scanAll : Nat → List Token → Scanning (List Token)
  | 0, _ => throw (.mishap .endlessLoop)
  | clock + 1, met => do
    let done ← atEnd text
    if done then
      let place ← get
      return met ++ [Token.endOfText place.line]
    else
      modify fun place => { place with start := place.current }
      let piece ← scanPiece text
      scanAll clock (met ++ piece.toList)

end Actions

variable {text ahead : List Char} {place : Place} {c : Char} {cs : List Char}

theorem charAt_run {index : Nat} (h : text[index]? = some c) :
    (charAt text index).run place = .ok c place := by
  simp only [charAt, h]
  rfl

theorem getElem?_of_drop {index : Nat} (h : text.drop index = c :: cs) : text[index]? = some c := by
  rw [← List.head?_drop, h]
  rfl

theorem drop_succ {index : Nat} (h : text.drop index = c :: cs) : text.drop (index + 1) = cs := by
  rw [← List.drop_drop, h]
  rfl

theorem atEnd_run (h : text.drop place.current = ahead) :
    (atEnd text).run place = .ok ahead.isEmpty place := by
  have hlength := congrArg List.length h
  rw [List.length_drop] at hlength
  have hdone : decide (text.length ≤ place.current) = ahead.isEmpty := by
    cases ahead with
    | nil =>
      simp only [List.length_nil] at hlength
      simpa using Nat.le_of_sub_eq_zero hlength
    | cons c cs =>
      simp only [List.length_cons] at hlength
      simp only [List.isEmpty_cons, decide_eq_false_iff_not]
      omega
  rw [← hdone]
  rfl

theorem takeChar_run (h : text.drop place.current = c :: cs) :
    (takeChar text).run place = .ok c { place with current := place.current + 1 } := by
  rw [takeChar, Action.run_bind_get, Action.run_bind_of_ok (charAt_run (getElem?_of_drop h))]
  rfl

theorem takeIf_run_of_eq (h : text.drop place.current = c :: cs) :
    (takeIf text c).run place = .ok true { place with current := place.current + 1 } := by
  rw [takeIf, Action.run_bind_of_ok (atEnd_run h), List.isEmpty_cons, if_neg Bool.false_ne_true,
    Action.run_bind_get, Action.run_bind_of_ok (charAt_run (getElem?_of_drop h)), if_pos rfl]
  rfl

theorem takeIf_run_of_ne (h : text.drop place.current = ahead) {expected : Char}
    (hne : ∀ c ∈ ahead.head?, c ≠ expected) :
    (takeIf text expected).run place = .ok false place := by
  rw [takeIf, Action.run_bind_of_ok (atEnd_run h)]
  cases ahead with
  | nil => rfl
  | cons c cs =>
    rw [List.isEmpty_cons, if_neg Bool.false_ne_true, Action.run_bind_get,
      Action.run_bind_of_ok (charAt_run (getElem?_of_drop h)), if_neg (hne c rfl)]
    rfl

theorem front_run (h : text.drop place.current = ahead) :
    (front text).run place = .ok (ahead.headD noCharacter) place := by
  rw [front, Action.run_bind_of_ok (atEnd_run h)]
  cases ahead with
  | nil => rfl
  | cons c cs =>
    rw [List.isEmpty_cons, if_neg Bool.false_ne_true, Action.run_bind_get,
      charAt_run (getElem?_of_drop h)]
    rfl

theorem second_run (h : text.drop place.current = ahead) :
    (second text).run place = .ok (ahead.tail.headD noCharacter) place := by
  have hlength := congrArg List.length h
  rw [List.length_drop] at hlength
  rw [second, Action.run_bind_get]
  match ahead with
  | [] =>
    rw [if_pos (by simp only [List.length_nil] at hlength; omega)]
    rfl
  | [c] =>
    rw [if_pos (by simp only [List.length_singleton] at hlength; omega)]
    rfl
  | c :: d :: cs =>
    simp only [List.length_cons] at hlength
    rw [if_neg (by omega), charAt_run (getElem?_of_drop (drop_succ h))]
    rfl

/-- A loop over characters goes past the longest run of those that pass. -/
theorem skipWhile_run {goesOn : Char → Bool} (hnone : goesOn noCharacter = false)
    (h : text.drop place.current = ahead) {clock : Nat} (hclock : ahead.length ≤ clock) :
    (skipWhile text goesOn (clock + 1)).run place =
      .ok () { place with current := place.current + (ahead.takeWhile goesOn).length } := by
  induction ahead generalizing place clock with
  | nil =>
    rw [skipWhile, Action.run_bind_of_ok (front_run h), List.headD_nil, hnone,
      if_neg Bool.false_ne_true]
    rfl
  | cons c cs ih =>
    rw [skipWhile, Action.run_bind_of_ok (front_run h), List.headD_cons]
    by_cases hc : goesOn c
    · obtain ⟨clock, rfl⟩ : ∃ fewer, clock = fewer + 1 :=
        ⟨clock - 1, by simp only [List.length_cons] at hclock; omega⟩
      rw [if_pos hc, Action.run_bind_of_ok (takeChar_run h),
        ih (drop_succ h) (by simpa using hclock), List.takeWhile_cons_of_pos hc, List.length_cons,
        Nat.add_assoc, Nat.add_comm 1]
    · rw [if_neg hc, List.takeWhile_cons_of_neg hc]
      rfl

/-- The line feeds that are counted among some characters. -/
def linesCounted (counting : Bool) (cs : List Char) : Int :=
  if counting then cs.count '\n' else 0

theorem linesCounted_cons (counting : Bool) (c : Char) (cs : List Char) :
    linesCounted counting (c :: cs) = linesCounted counting [c] + linesCounted counting cs := by
  cases counting with
  | false => rfl
  | true =>
    have hcount : (c :: cs).count '\n' = [c].count '\n' + cs.count '\n' := by
      rw [← List.count_append, List.singleton_append]
    simp only [linesCounted, if_true, hcount, Int.natCast_add]

theorem countLine_run (counting : Bool) (c : Char) :
    (countLine counting c).run place =
      .ok () { place with line := place.line + linesCounted counting [c] } := by
  unfold countLine linesCounted
  cases counting with
  | false => simp
  | true =>
    by_cases hfeed : c = '\n'
    · subst hfeed
      rfl
    · simp [hfeed]

theorem skipTo_run {stop : Char} {counting : Bool} (h : text.drop place.current = ahead)
    {clock : Nat} (hclock : ahead.length ≤ clock) :
    (skipTo text stop counting (clock + 1)).run place =
      .ok () { place with
        current := place.current + (ahead.takeWhile (· != stop)).length
        line := place.line + linesCounted counting (ahead.takeWhile (· != stop)) } := by
  induction ahead generalizing place clock with
  | nil =>
    rw [skipTo, Action.run_bind_of_ok (front_run h), Action.run_bind_of_ok (atEnd_run h),
      if_pos (.inr rfl)]
    cases counting <;> simp [linesCounted]
  | cons c cs ih =>
    rw [skipTo, Action.run_bind_of_ok (front_run h), Action.run_bind_of_ok (atEnd_run h),
      List.headD_cons, List.isEmpty_cons]
    by_cases hstop : c = stop
    · rw [if_pos (.inl hstop), List.takeWhile_cons_of_neg (by simp [hstop])]
      cases counting <;> simp [linesCounted]
    · obtain ⟨clock, rfl⟩ : ∃ fewer, clock = fewer + 1 :=
        ⟨clock - 1, by simp only [List.length_cons] at hclock; omega⟩
      have hneither : ¬(c = stop ∨ false = true) := by simpa using hstop
      have htake : (takeChar text).run
          { place with line := place.line + linesCounted counting [c] } = .ok c
          { place with
            current := place.current + 1
            line := place.line + linesCounted counting [c] } := takeChar_run h
      rw [if_neg hneither, Action.run_bind_of_ok (countLine_run counting c),
        Action.run_bind_of_ok htake, ih (drop_succ h) (by simpa using hclock),
        List.takeWhile_cons_of_pos (by simpa using hstop),
        linesCounted_cons counting c (cs.takeWhile _), List.length_cons, Nat.add_assoc,
        Nat.add_comm 1, Int.add_assoc]

end LoxGraph.Stepwise
