import LoxGraph.Text.Letter
import LoxGraph.Token.Basic
import LoxGraph.Report

/-!
What lexemes are made of: the characters that begin and continue them, the
numbers that numerals write, and the faults of a text that holds none.
-/

namespace LoxGraph

/-- Why no lexeme stands at the front of a text. -/
inductive LexicalFault where
  | unterminatedString
  | unknownCharacter (c : Char)
deriving DecidableEq

/-- What a lexical fault is called. -/
def LexicalFault.message : LexicalFault → String
  | .unterminatedString => "unterminated string"
  | .unknownCharacter c => "unknown character: " ++ c.toString

/-- A lexical fault and the line on which the reading stopped. -/
structure LexicalError where
  line : Int
  fault : LexicalFault
deriving DecidableEq

/-- A lexical error is reported without a place. -/
def LexicalError.report (e : LexicalError) : Report := ⟨e.line, "", e.fault.message⟩

/-- A numeral: digits, and the digits after the point, of which there are none
when there is no point. -/
structure Numeral where
  whole : List Char
  fraction : List Char

/-- The number that a numeral writes, as the nearest double. -/
def Numeral.toDouble (n : Numeral) : Double :=
  Decimal.toDouble false ⟨digitsValue (n.whole ++ n.fraction), -(n.fraction.length : Int)⟩

/-- The blanks that may stand between lexemes. -/
def isBlank (c : Char) : Bool := c == ' ' || c == '\t' || c == '\r' || c == '\n'

/-- The characters that a name may go on with. -/
def isNameChar (c : Char) : Bool := isLetter c || isNumeric c || c == '_'

/-- The kind of a character that is a lexeme by itself. -/
def punctuation? : Char → Option TokenKind
  | '(' => some .leftParen
  | ')' => some .rightParen
  | '{' => some .leftBrace
  | '}' => some .rightBrace
  | ',' => some .comma
  | '.' => some .dot
  | '-' => some .minus
  | '+' => some .plus
  | ';' => some .semicolon
  | '*' => some .star
  | _ => none

/-- The kinds of a character that is a lexeme by itself and another one
together with an equals sign. -/
def comparison? : Char → Option (TokenKind × TokenKind)
  | '!' => some (.bang, .bangEqual)
  | '=' => some (.equal, .equalEqual)
  | '<' => some (.less, .lessEqual)
  | '>' => some (.greater, .greaterEqual)
  | _ => none

theorem punctuation?_ne_endOfText {c : Char} {kind : TokenKind}
    (h : punctuation? c = some kind) : kind ≠ .endOfText := by
  unfold punctuation? at h
  split at h <;> simp only [Option.some.injEq, reduceCtorEq] at h <;> subst h <;> decide

theorem comparison?_ne_endOfText {c : Char} {alone withEqual : TokenKind}
    (h : comparison? c = some (alone, withEqual)) :
    alone ≠ .endOfText ∧ withEqual ≠ .endOfText := by
  unfold comparison? at h
  split at h <;> simp only [Option.some.injEq, Prod.mk.injEq, reduceCtorEq] at h <;>
    obtain ⟨rfl, rfl⟩ := h <;> decide

end LoxGraph
