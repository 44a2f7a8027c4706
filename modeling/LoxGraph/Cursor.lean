import LoxGraph.Lexeme.Reading
import LoxGraph.Token.Stream

/-!
A cursor walks over a text and produces its tokens.

`Cursor.advance` passes gaps until it meets a token, a fault or the end of the
text; `Cursor.exhaust` advances until there is nothing left. `tokenize` does
this from the start of a text. Lines are counted from one, by the line feeds
that the cursor has passed.
-/

namespace LoxGraph

/-- A place in a text: where the piece last read begins and ends, the line, and
the text ahead. -/
structure Cursor where
  start : Nat
  current : Nat
  line : Int
  ahead : List Char

/-- What an advance of the cursor meets. -/
inductive Step where
  | token (t : Token)
  | ended (t : Token)
  | failed (e : LexicalError)

namespace Cursor

/-- The cursor in front of a text. -/
def atStart (text : List Char) : Cursor := ⟨0, 0, 1, text⟩

/-- The cursor behind the piece that a reading took. -/
def pass (cursor : Cursor) (reading : Reading) : Cursor :=
  { start := cursor.current
    current := cursor.current + reading.taken.length
    line := cursor.line + reading.taken.count '\n'
    ahead := reading.rest }

/-- Passes gaps, then one lexeme, and makes a token of it. At the end of the
text there is a token as well, and the cursor stays. -/
def advance (cursor : Cursor) : Step × Cursor :=
  match _hahead : cursor.ahead with
  | [] => (.ended (Token.endOfText cursor.line), cursor)
  | c :: cs =>
    let reading := Reading.next c cs
    let after := cursor.pass reading
    match reading.piece with
    | .gap => after.advance
    | .lexeme kind literal =>
      (.token ⟨kind, String.ofList reading.taken, literal, after.line⟩, after)
    | .fault fault => (.failed ⟨after.line, fault⟩, after)
termination_by cursor.ahead.length
decreasing_by
  rw [_hahead]
  exact Reading.next_rest_length_lt c cs

/-- A token is paid for with text. -/
theorem advance_ahead_length_lt {cursor next : Cursor} {t : Token}
    (h : cursor.advance = (.token t, next)) : next.ahead.length < cursor.ahead.length := by
  fun_induction advance cursor with
  | case1 cursor hahead => simp at h
  | case2 cursor c cs hahead reading after hgap ih =>
    have hlt : after.ahead.length < cursor.ahead.length := by
      rw [hahead]
      exact Reading.next_rest_length_lt c cs
    exact Nat.lt_trans (ih h) hlt
  | case3 cursor c cs hahead reading after kind literal hpiece =>
    obtain ⟨-, rfl⟩ := Prod.mk.inj h
    rw [hahead]
    exact Reading.next_rest_length_lt c cs
  | case4 cursor c cs hahead reading after fault hpiece => simp at h

/-- A token met before the end of the text does not mark an end. -/
theorem advance_kind_ne_endOfText {cursor next : Cursor} {t : Token}
    (h : cursor.advance = (.token t, next)) : t.kind ≠ .endOfText := by
  fun_induction advance cursor with
  | case1 cursor hahead => simp at h
  | case2 cursor c cs hahead reading after hgap ih => exact ih h
  | case3 cursor c cs hahead reading after kind literal hpiece =>
    obtain ⟨ht, -⟩ := Prod.mk.inj h
    rw [← Step.token.inj ht]
    exact Reading.next_kind_ne_endOfText hpiece
  | case4 cursor c cs hahead reading after fault hpiece => simp at h

/-- At the end of the text the token marks it. -/
theorem advance_ended_kind {cursor next : Cursor} {t : Token}
    (h : cursor.advance = (.ended t, next)) : t.kind = .endOfText := by
  fun_induction advance cursor with
  | case1 cursor hahead =>
    obtain ⟨ht, -⟩ := Prod.mk.inj h
    rw [← Step.ended.inj ht]
    rfl
  | case2 cursor c cs hahead reading after hgap ih => exact ih h
  | case3 cursor c cs hahead reading after kind literal hpiece => simp at h
  | case4 cursor c cs hahead reading after fault hpiece => simp at h

/-- Advances to the end of the text or the first fault. The tokens met so far
are handed on in reverse. -/
def exhaustAfter (met : List Token) (met_kind : ∀ t ∈ met, t.kind ≠ .endOfText)
    (cursor : Cursor) : Except LexicalError TokenStream × Cursor :=
  match hstep : cursor.advance with
  | (.token t, next) =>
    next.exhaustAfter (t :: met)
      (List.forall_mem_cons.mpr ⟨advance_kind_ne_endOfText hstep, met_kind⟩)
  | (.ended t, next) =>
    (.ok ⟨met.reverse, t, fun t ht => met_kind t (List.mem_reverse.mp ht),
      advance_ended_kind hstep⟩, next)
  | (.failed e, next) => (.error e, next)
termination_by cursor.ahead.length
decreasing_by exact advance_ahead_length_lt hstep

/-- The tokens ahead of the cursor, or the first fault; and where the cursor
stops. -/
def exhaust (cursor : Cursor) : Except LexicalError TokenStream × Cursor :=
  cursor.exhaustAfter [] (by simp)

end Cursor

/-- The tokens of a text, or its first fault. -/
def tokenize (text : String) : Except LexicalError TokenStream :=
  (Cursor.atStart text.toList).exhaust.1

end LoxGraph
