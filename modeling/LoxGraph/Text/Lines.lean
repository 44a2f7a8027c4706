import LoxGraph.Text.Ranges

/-!
Lines of text.

A line ends with a line feed, which belongs to it; only the last line may be
without one. Text files may end their lines with a carriage return, or with
both characters; `unifyLineEnds` makes every line end a line feed. A line is
blank when it holds white space alone. Lines hold no lone surrogates, as no
text does (`LoxGraph.Text.Ranges`).
-/

namespace LoxGraph

/-- Every `\r\n` and every other `\r` becomes `\n`. -/
def unifyLineEnds : List Char → List Char
  | [] => []
  | '\r' :: '\n' :: cs => '\n' :: unifyLineEnds cs
  | '\r' :: cs => '\n' :: unifyLineEnds cs
  | c :: cs => c :: unifyLineEnds cs

/-- The lines of a text, each with its line feed; no line is empty. -/
def splitLines : List Char → List (List Char)
  | [] => []
  | c :: cs =>
    if c = '\n' then [c] :: splitLines cs
    else match splitLines cs with
      | [] => [[c]]
      | line :: lines => (c :: line) :: lines

/-- The lines of a text make up the text. -/
theorem flatten_splitLines (cs : List Char) : (splitLines cs).flatten = cs := by
  induction cs with
  | nil => rfl
  | cons c cs ih =>
    rw [splitLines]
    split
    · simp [ih]
    · split <;> simp_all

/-- Code points of white space: the separators of words, lines and records. -/
def whiteSpaceRanges : List (Nat × Nat) :=
  [(0x9, 0xd), (0x1c, 0x20), (0x85, 0x85), (0xa0, 0xa0), (0x1680, 0x1680), (0x2000, 0x200a),
    (0x2028, 0x2029), (0x202f, 0x202f), (0x205f, 0x205f), (0x3000, 0x3000)]

/-- White space of every script. -/
def isWhiteSpace (c : Char) : Bool := inRanges whiteSpaceRanges c

/-- Whether a line holds nothing but white space. -/
def isBlankLine (line : List Char) : Bool := line.all isWhiteSpace

end LoxGraph
