import LoxGraph.Cursor

/-!
Several walks over one text that share a cursor.

A walk moves the cursor to the start of the text when it takes its first step,
and from then on goes on from wherever the cursor is, whichever walk has moved
it there. A walk is over when it has met the end of the text or a fault; it
then moves nothing any more.
-/

namespace LoxGraph

/-- How far a walk has come. -/
inductive Walk where
  | fresh
  | running
  | over
deriving DecidableEq

/-- A text, the cursor on it, and the walks that share the cursor. -/
structure SharedCursor where
  text : List Char
  cursor : Cursor
  walks : List Walk

namespace SharedCursor

/-- A cursor in front of a text, with no walk over it. -/
def ofText (text : String) : SharedCursor := ⟨text.toList, .atStart text.toList, []⟩

/-- One more walk; walks are numbered from zero. -/
def addWalk (s : SharedCursor) : Nat × SharedCursor :=
  (s.walks.length, { s with walks := s.walks ++ [.fresh] })

/-- How far a walk has come after a step that met something. -/
def walkAfter : Step → Walk
  | .token _ => .running
  | .ended _ => .over
  | .failed _ => .over

/-- Advances the cursor for walk `i` from the given place. -/
private def stepFrom (s : SharedCursor) (i : Nat) (place : Cursor) : Step × SharedCursor :=
  let (step, cursor) := place.advance
  (step, { s with cursor := cursor, walks := s.walks.set i (walkAfter step) })

/-- The next step of walk `i`, or nothing if the walk is over. -/
def next (s : SharedCursor) (i : Nat) : Option Step × SharedCursor :=
  match s.walks[i]? with
  | some .fresh => (stepFrom s i (.atStart s.text)).map some id
  | some .running => (stepFrom s i s.cursor).map some id
  | some .over => (none, s)
  | none => (none, s)

/-- All tokens of the text, by a walk of its own from the start. -/
def scan (s : SharedCursor) : Except LexicalError TokenStream × SharedCursor :=
  let (tokens, cursor) := (Cursor.atStart s.text).exhaust
  (tokens, { s with cursor := cursor })

end SharedCursor

end LoxGraph
