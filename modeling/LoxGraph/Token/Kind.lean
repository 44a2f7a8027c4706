/-!
The kinds of token of the Lox language.

A kind has a name, a number and, if all its tokens are written alike, that
text. `TokenKind.all` lists the kinds in the order of their numbers, which
start at one; names and numbers are distinct.
-/

namespace LoxGraph

/-- A kind of token: punctuation and operators, the three open classes of
lexemes, the reserved words, and the end of the text. -/
inductive TokenKind where
  | leftParen | rightParen | leftBrace | rightBrace | comma | dot | minus | plus | semicolon
  | slash | star
  | bang | bangEqual | equal | equalEqual | greater | greaterEqual | less | lessEqual
  | identifier | string | number
  | andWord | classWord | elseWord | falseWord | funWord | forWord | ifWord | nilWord | orWord
  | printWord | returnWord | superWord | thisWord | trueWord | varWord | whileWord
  | endOfText
deriving DecidableEq

namespace TokenKind

/-- All kinds, in the order of their numbers. -/
def all : List TokenKind :=
  [.leftParen, .rightParen, .leftBrace, .rightBrace, .comma, .dot, .minus, .plus, .semicolon,
   .slash, .star, .bang, .bangEqual, .equal, .equalEqual, .greater, .greaterEqual, .less,
   .lessEqual, .identifier, .string, .number, .andWord, .classWord, .elseWord, .falseWord,
   .funWord, .forWord, .ifWord, .nilWord, .orWord, .printWord, .returnWord, .superWord,
   .thisWord, .trueWord, .varWord, .whileWord, .endOfText]

/-- The number of a kind in the list of all; the first kind has number one. -/
def ordinal (kind : TokenKind) : Nat := all.idxOf kind + 1

/-- The name of a kind, in capitals. -/
def name : TokenKind → String
  | .leftParen => "LEFT_PAREN"
  | .rightParen => "RIGHT_PAREN"
  | .leftBrace => "LEFT_BRACE"
  | .rightBrace => "RIGHT_BRACE"
  | .comma => "COMMA"
  | .dot => "DOT"
  | .minus => "MINUS"
  | .plus => "PLUS"
  | .semicolon => "SEMICOLON"
  | .slash => "SLASH"
  | .star => "STAR"
  | .bang => "BANG"
  | .bangEqual => "BANG_EQUAL"
  | .equal => "EQUAL"
  | .equalEqual => "EQUAL_EQUAL"
  | .greater => "GREATER"
  | .greaterEqual => "GREATER_EQUAL"
  | .less => "LESS"
  | .lessEqual => "LESS_EQUAL"
  | .identifier => "IDENTIFIER"
  | .string => "STRING"
  | .number => "NUMBER"
  | .andWord => "AND"
  | .classWord => "CLASS"
  | .elseWord => "ELSE"
  | .falseWord => "FALSE"
  | .funWord => "FUN"
  | .forWord => "FOR"
  | .ifWord => "IF"
  | .nilWord => "NIL"
  | .orWord => "OR"
  | .printWord => "PRINT"
  | .returnWord => "RETURN"
  | .superWord => "SUPER"
  | .thisWord => "THIS"
  | .trueWord => "TRUE"
  | .varWord => "VAR"
  | .whileWord => "WHILE"
  | .endOfText => "EOF"

/-- The kind that has the given name, if there is one. -/
def ofName? (name : String) : Option TokenKind := all.find? (·.name == name)

/-- A kind is found again by its name. -/
theorem ofName?_name (kind : TokenKind) : ofName? kind.name = some kind := by
  cases kind <;> decide

/-- The reserved words, each with its kind. -/
def reserved : List (String × TokenKind) :=
  [("and", .andWord), ("class", .classWord), ("else", .elseWord), ("false", .falseWord),
   ("for", .forWord), ("fun", .funWord), ("if", .ifWord), ("nil", .nilWord), ("or", .orWord),
   ("print", .printWord), ("return", .returnWord), ("super", .superWord), ("this", .thisWord),
   ("true", .trueWord), ("var", .varWord), ("while", .whileWord)]

/-- The kind of a reserved word. -/
def ofWord? (word : String) : Option TokenKind := reserved.lookup word

/-- The kind of a reserved word stands in the list of them. -/
theorem mem_reserved_of_ofWord? {word : String} {kind : TokenKind}
    (h : ofWord? word = some kind) : (word, kind) ∈ reserved := by
  obtain ⟨before, after, hsplit, -⟩ := List.lookup_eq_some_iff.mp h
  simp [hsplit]

theorem ofWord?_ne_endOfText {word : String} {kind : TokenKind}
    (h : ofWord? word = some kind) : kind ≠ .endOfText := by
  have hall : ∀ entry ∈ reserved, entry.2 ≠ .endOfText := by decide
  exact hall _ (mem_reserved_of_ofWord? h)

/-- Whether tokens of this kind are reserved words. -/
def isReserved (kind : TokenKind) : Bool := reserved.any (·.2 == kind)

/-- Whether tokens of this kind are literals of the expression language. -/
def isLiteral : TokenKind → Bool
  | .number | .string | .trueWord | .falseWord | .nilWord => true
  | _ => false

/-- The text of punctuation and operators. -/
def operatorText? : TokenKind → Option String
  | .leftParen => some "("
  | .rightParen => some ")"
  | .leftBrace => some "\x7b"
  | .rightBrace => some "\x7d"
  | .comma => some ","
  | .dot => some "."
  | .minus => some "-"
  | .plus => some "+"
  | .semicolon => some ";"
  | .slash => some "/"
  | .star => some "*"
  | .bang => some "!"
  | .bangEqual => some "!="
  | .equal => some "="
  | .equalEqual => some "=="
  | .greater => some ">"
  | .greaterEqual => some ">="
  | .less => some "<"
  | .lessEqual => some "<="
  | _ => none

/-- The text that all tokens of this kind share, if they do. -/
def fixedText? (kind : TokenKind) : Option String :=
  kind.operatorText? <|> (reserved.find? (·.2 == kind)).map (·.1)

/-- The fixed text of a kind, or else its name. -/
def symbol (kind : TokenKind) : String := kind.fixedText?.getD kind.name

end TokenKind

end LoxGraph
