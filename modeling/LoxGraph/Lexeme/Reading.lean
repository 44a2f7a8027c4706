import LoxGraph.Lexeme.Basic

/-!
Lexemes read one at a time from the front of a text.

`Reading.next` splits a text that is not empty into a piece and the rest. The
piece is a gap (a blank or a comment), a lexeme with its kind and the value it
carries, or a fault. Lexemes are as long as possible. A slash opens a comment
when another slash follows, a point belongs to a numeral only when a digit
follows it, and a quoted text runs to the next double quote, over any number
of lines. Whatever is found, nothing is lost and something is taken
(`next_taken_append_rest`, `next_taken_ne_nil`).
-/

namespace LoxGraph

/-- What a piece of text is. -/
inductive Piece where
  | gap
  | lexeme (kind : TokenKind) (literal : Value)
  | fault (fault : LexicalFault)

/-- What stands at the front of a text: the piece, its characters, and the
text after it. -/
structure Reading where
  piece : Piece
  taken : List Char
  rest : List Char

namespace Reading

/-- A comparison or a single sign, after its first character. -/
def comparison (c : Char) (alone withEqual : TokenKind) : List Char → Reading
  | '=' :: rest => ⟨.lexeme withEqual .none, [c, '='], rest⟩
  | rest => ⟨.lexeme alone .none, [c], rest⟩

/-- A comment to the end of the line, or a division sign. -/
def slash : List Char → Reading
  | '/' :: cs => ⟨.gap, '/' :: '/' :: cs.takeWhile (· != '\n'), cs.dropWhile (· != '\n')⟩
  | rest => ⟨.lexeme .slash .none, ['/'], rest⟩

/-- A quoted text, after its opening quote. -/
def quotation (cs : List Char) : Reading :=
  match cs.dropWhile (· != '"') with
  | [] => ⟨.fault .unterminatedString, '"' :: cs, []⟩
  | quote :: rest =>
    let body := cs.takeWhile (· != '"')
    ⟨.lexeme .string (.text (String.ofList body)), '"' :: (body ++ [quote]), rest⟩

/-- A numeral, after its first digit. -/
def numeral (c : Char) (cs : List Char) : Reading :=
  let whole := c :: cs.takeWhile Char.isDigit
  match cs.dropWhile Char.isDigit with
  | '.' :: d :: ds =>
    if d.isDigit then
      let fraction := d :: ds.takeWhile Char.isDigit
      ⟨.lexeme .number (.double (Numeral.toDouble ⟨whole, fraction⟩)), whole ++ '.' :: fraction,
        ds.dropWhile Char.isDigit⟩
    else ⟨.lexeme .number (.double (Numeral.toDouble ⟨whole, []⟩)), whole, '.' :: d :: ds⟩
  | rest => ⟨.lexeme .number (.double (Numeral.toDouble ⟨whole, []⟩)), whole, rest⟩

/-- A name or a reserved word, after its first letter. A name carries itself. -/
def name (c : Char) (cs : List Char) : Reading :=
  let taken := c :: cs.takeWhile isNameChar
  let word := String.ofList taken
  let piece := match TokenKind.ofWord? word with
    | some kind => .lexeme kind .none
    | none => .lexeme .identifier (.text word)
  ⟨piece, taken, cs.dropWhile isNameChar⟩

/-- What stands at the front of the text `c :: cs`. -/
def next (c : Char) (cs : List Char) : Reading :=
  if let some kind := punctuation? c then ⟨.lexeme kind .none, [c], cs⟩
  else if let some (alone, withEqual) := comparison? c then comparison c alone withEqual cs
  else if c = '/' then slash cs
  else if isBlank c then ⟨.gap, [c], cs⟩
  else if c = '"' then quotation cs
  else if c.isDigit then numeral c cs
  else if isLetter c then name c cs
  else ⟨.fault (.unknownCharacter c), [c], cs⟩

theorem comparison_taken_append_rest (c : Char) (alone withEqual : TokenKind) (cs : List Char) :
    (comparison c alone withEqual cs).taken ++ (comparison c alone withEqual cs).rest = c :: cs := by
  unfold comparison
  split <;> rfl

theorem slash_taken_append_rest (cs : List Char) :
    (slash cs).taken ++ (slash cs).rest = '/' :: cs := by
  unfold slash
  split <;> simp

theorem quotation_taken_append_rest (cs : List Char) :
    (quotation cs).taken ++ (quotation cs).rest = '"' :: cs := by
  unfold quotation
  split
  · simp
  · rename_i quote rest hdrop
    have hsplit := List.takeWhile_append_dropWhile (p := (· != '"')) (l := cs)
    rw [hdrop] at hsplit
    simpa using hsplit

theorem numeral_taken_append_rest (c : Char) (cs : List Char) :
    (numeral c cs).taken ++ (numeral c cs).rest = c :: cs := by
  have hsplit := List.takeWhile_append_dropWhile (p := Char.isDigit) (l := cs)
  unfold numeral
  split
  · rename_i d ds hdrop
    rw [hdrop] at hsplit
    have hdigits := List.takeWhile_append_dropWhile (p := Char.isDigit) (l := ds)
    split <;> simp [hdigits, hsplit]
  · simp [hsplit]

theorem name_taken_append_rest (c : Char) (cs : List Char) :
    (name c cs).taken ++ (name c cs).rest = c :: cs := by
  simp [name]

/-- A reading loses nothing and adds nothing. -/
theorem next_taken_append_rest (c : Char) (cs : List Char) :
    (next c cs).taken ++ (next c cs).rest = c :: cs := by
  unfold next
  split
  · rfl
  · split
    · exact comparison_taken_append_rest _ _ _ _
    · split
      · subst c
        exact slash_taken_append_rest _
      · split
        · rfl
        · split
          · subst c
            exact quotation_taken_append_rest _
          · split
            · exact numeral_taken_append_rest _ _
            · split
              · exact name_taken_append_rest _ _
              · rfl

/-- A reading takes the first character at least. -/
theorem next_taken_ne_nil (c : Char) (cs : List Char) : (next c cs).taken ≠ [] := by
  unfold next
  split
  · simp
  · split
    · unfold comparison
      split <;> simp
    · split
      · unfold slash
        split <;> simp
      · split
        · simp
        · split
          · unfold quotation
            split <;> simp
          · split
            · unfold numeral
              split
              · split <;> simp
              · simp
            · split <;> simp [name]

/-- What is left to read gets shorter. -/
theorem next_rest_length_lt (c : Char) (cs : List Char) :
    (next c cs).rest.length < (c :: cs).length := by
  have hsplit := congrArg List.length (next_taken_append_rest c cs)
  have htaken := List.length_pos_iff.mpr (next_taken_ne_nil c cs)
  rw [List.length_append] at hsplit
  omega

/-- No lexeme is of the kind that marks the end of a text. -/
theorem next_kind_ne_endOfText {c : Char} {cs : List Char} {kind : TokenKind} {literal : Value}
    (h : (next c cs).piece = .lexeme kind literal) : kind ≠ .endOfText := by
  unfold next at h
  split at h
  · rename_i found
    obtain ⟨rfl, -⟩ := Piece.lexeme.inj h
    exact punctuation?_ne_endOfText found
  · split at h
    · rename_i found
      have hkinds := comparison?_ne_endOfText found
      unfold comparison at h
      split at h <;> obtain ⟨rfl, -⟩ := Piece.lexeme.inj h
      · exact hkinds.2
      · exact hkinds.1
    · split at h
      · unfold slash at h
        split at h
        · cases h
        · obtain ⟨rfl, -⟩ := Piece.lexeme.inj h
          decide
      · split at h
        · cases h
        · split at h
          · unfold quotation at h
            split at h
            · cases h
            · obtain ⟨rfl, -⟩ := Piece.lexeme.inj h
              decide
          · split at h
            · unfold numeral at h
              split at h
              · split at h <;> obtain ⟨rfl, -⟩ := Piece.lexeme.inj h <;> decide
              · obtain ⟨rfl, -⟩ := Piece.lexeme.inj h
                decide
            · split at h
              · simp only [name] at h
                split at h <;> obtain ⟨rfl, -⟩ := Piece.lexeme.inj h
                · rename_i found
                  exact TokenKind.ofWord?_ne_endOfText found
                · decide
              · cases h

end Reading

end LoxGraph
