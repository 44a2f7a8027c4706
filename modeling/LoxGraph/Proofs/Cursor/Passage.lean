import LoxGraph.SharedCursor

/-!
What a cursor passes.

A cursor passes tokens one after another until it meets the end of the text or
a fault, and reading to the end is this and nothing else (`Cursor.exhaust_eq_iff`). A
walk that no other walk disturbs meets the same (`SharedCursor.steps_of_passes`).
-/

namespace LoxGraph

namespace Cursor

/-- The tokens on the way from one place to another. -/
inductive Passes : Cursor → List Token → Cursor → Prop
  | here (cursor : Cursor) : Passes cursor [] cursor
  | token {cursor next last : Cursor} {t : Token} {tokens : List Token}
      (first : cursor.advance = (.token t, next)) (others : Passes next tokens last) :
      Passes cursor (t :: tokens) last

/-- Whether the next thing that a cursor meets is no token. -/
def Stops (cursor : Cursor) : Prop := ∀ t, cursor.advance.1 ≠ .token t

theorem stops_of_ended {cursor after : Cursor} {t : Token}
    (h : cursor.advance = (.ended t, after)) : cursor.Stops := by
  simp [Stops, h]

theorem stops_of_failed {cursor after : Cursor} {e : LexicalError}
    (h : cursor.advance = (.failed e, after)) : cursor.Stops := by
  simp [Stops, h]

/-- There is one way only to where a cursor stops. -/
theorem Passes.unique {cursor last last' : Cursor} {tokens tokens' : List Token}
    (h : cursor.Passes tokens last) (h' : cursor.Passes tokens' last') (hstops : last.Stops)
    (hstops' : last'.Stops) : tokens = tokens' ∧ last = last' := by
  induction h generalizing tokens' with
  | here cursor =>
    cases h' with
    | here => exact ⟨rfl, rfl⟩
    | token first others => exact absurd (by rw [first]) (hstops _)
  | token first others ih =>
    cases h' with
    | here => exact absurd (by rw [first]) (hstops' _)
    | token first' others' =>
      rw [first] at first'
      obtain ⟨ht, rfl⟩ := Prod.mk.inj first'
      obtain ⟨rfl, rfl⟩ := ih others' hstops
      exact ⟨by rw [Step.token.inj ht], rfl⟩

/-- What comes of reading on from a place, told by what is met there. -/
def Concludes (met : List Token) (last : Cursor) :
    Except LexicalError TokenStream × Cursor → Prop
  | (.ok stream, after) => stream.tokens = met ∧ last.advance = (.ended stream.ending, after)
  | (.error e, after) => last.advance = (.failed e, after)

theorem Concludes.stops {met : List Token} {last : Cursor}
    {result : Except LexicalError TokenStream × Cursor} (h : Concludes met last result) :
    last.Stops := by
  obtain ⟨result, after⟩ := result
  cases result with
  | ok stream => exact stops_of_ended h.2
  | error e => exact stops_of_failed h

theorem Concludes.unique {met : List Token} {last : Cursor}
    {result result' : Except LexicalError TokenStream × Cursor} (h : Concludes met last result)
    (h' : Concludes met last result') : result = result' := by
  obtain ⟨result, after⟩ := result
  obtain ⟨result', after'⟩ := result'
  cases result with
  | ok stream =>
    cases result' with
    | ok stream' =>
      obtain ⟨htokens, hended⟩ := h
      obtain ⟨htokens', hended'⟩ := h'
      cases stream
      cases stream'
      simp_all
    | error e' => exact nomatch h.2.symm.trans h'
  | error e =>
    cases result' with
    | ok stream' => exact nomatch h.symm.trans h'.2
    | error e' =>
      have hsame := h.symm.trans h'
      simp_all

theorem exhaustAfter_passes (met : List Token) (hmet : ∀ t ∈ met, t.kind ≠ .endOfText)
    (cursor : Cursor) : ∃ tokens last, cursor.Passes tokens last ∧
      Concludes (met.reverse ++ tokens) last (cursor.exhaustAfter met hmet) := by
  fun_induction exhaustAfter met hmet cursor with
  | case1 met hmet cursor t next hstep ih =>
    obtain ⟨tokens, last, hpasses, hends⟩ := ih
    exact ⟨t :: tokens, last, .token hstep hpasses, by simpa using hends⟩
  | case2 met hmet cursor t next hstep => exact ⟨[], cursor, .here cursor, by simp, hstep⟩
  | case3 met hmet cursor e next hstep => exact ⟨[], cursor, .here cursor, hstep⟩

theorem exhaust_passes (cursor : Cursor) : ∃ tokens last, cursor.Passes tokens last ∧
    Concludes tokens last cursor.exhaust :=
  exhaustAfter_passes [] (by simp) cursor

/-- Reading to the end passes tokens up to where the cursor stops, and tells what
is met there. -/
theorem exhaust_eq_iff {cursor : Cursor} {result : Except LexicalError TokenStream × Cursor} :
    cursor.exhaust = result ↔
      ∃ tokens last, cursor.Passes tokens last ∧ Concludes tokens last result := by
  obtain ⟨tokens, last, hpasses, hends⟩ := cursor.exhaust_passes
  constructor
  · rintro rfl
    exact ⟨tokens, last, hpasses, hends⟩
  · rintro ⟨tokens', last', hpasses', hends'⟩
    obtain ⟨rfl, rfl⟩ := hpasses.unique hpasses' hends.stops hends'.stops
    exact hends.unique hends'

end Cursor

theorem tokenize_eq_iff {text : String} {result : Except LexicalError TokenStream} :
    tokenize text = result ↔ ∃ tokens last after, (Cursor.atStart text.toList).Passes tokens last ∧
      Cursor.Concludes tokens last (result, after) := by
  constructor
  · rintro rfl
    obtain ⟨tokens, last, hpasses, hends⟩ := (Cursor.atStart text.toList).exhaust_passes
    exact ⟨tokens, last, _, hpasses, hends⟩
  · rintro ⟨tokens, last, after, hpasses, hends⟩
    exact congrArg Prod.fst (Cursor.exhaust_eq_iff.mpr ⟨tokens, last, hpasses, hends⟩)

namespace SharedCursor

variable {s : SharedCursor} {i : Nat}

/-- The cursor moved by walk `i`, which has met something there. -/
def moved (s : SharedCursor) (i : Nat) (step : Step) (cursor : Cursor) : SharedCursor :=
  { s with cursor := cursor, walks := s.walks.set i (walkAfter step) }

/-- Where the next step of walk `i` begins. -/
def StandsAt (s : SharedCursor) (i : Nat) (place : Cursor) : Prop :=
  s.walks[i]? = some .fresh ∧ place = .atStart s.text ∨
    s.walks[i]? = some .running ∧ place = s.cursor

theorem next_of_standsAt {place cursor : Cursor} {step : Step} (h : s.StandsAt i place)
    (hstep : place.advance = (step, cursor)) : s.next i = (some step, s.moved i step cursor) := by
  have hmoved : (some place.advance.1, s.moved i place.advance.1 place.advance.2) =
      (some step, s.moved i step cursor) := by rw [hstep]
  rcases h with ⟨hwalk, rfl⟩ | ⟨hwalk, rfl⟩
  · simp only [next, hwalk]
    exact hmoved
  · simp only [next, hwalk]
    exact hmoved

theorem next_over (h : s.walks[i]? = some .over) : s.next i = (none, s) := by
  simp only [next, h]

theorem StandsAt.walks_moved {place : Cursor} (h : s.StandsAt i place) (step : Step)
    (cursor : Cursor) : (s.moved i step cursor).walks[i]? = some (walkAfter step) := by
  have hlt : i < s.walks.length := by
    rcases h with ⟨hwalk, -⟩ | ⟨hwalk, -⟩ <;> exact (List.getElem?_eq_some_iff.mp hwalk).1
  exact List.getElem?_set_self hlt

/-- What the next steps of walk `i` meet when no other walk moves the cursor. -/
def steps (s : SharedCursor) (i : Nat) : Nat → List (Option Step)
  | 0 => []
  | n + 1 => (s.next i).1 :: (s.next i).2.steps i n

theorem steps_over (h : s.walks[i]? = some .over) (n : Nat) :
    s.steps i n = List.replicate n none := by
  induction n with
  | zero => rfl
  | succ n ih => rw [steps, next_over h, List.replicate_succ, ih]

/-- A walk meets the tokens that its place passes, then what stops it, and then
nothing any more. -/
theorem steps_of_passes {place last after : Cursor} {tokens : List Token} {step : Step}
    (h : s.StandsAt i place) (hpasses : place.Passes tokens last)
    (hlast : last.advance = (step, after)) (hover : walkAfter step = .over) (more : Nat) :
    s.steps i (tokens.length + (more + 1)) =
      tokens.map (some ∘ .token) ++ some step :: List.replicate more none := by
  induction hpasses generalizing s with
  | here place =>
    have hwalk := h.walks_moved step after
    rw [hover] at hwalk
    rw [List.length_nil, Nat.zero_add, steps, next_of_standsAt h hlast, steps_over hwalk]
    rfl
  | @token place next last t tokens first others ih =>
    have hnext : (s.moved i (.token t) next).StandsAt i next :=
      .inr ⟨h.walks_moved (.token t) next, rfl⟩
    rw [List.length_cons, Nat.add_right_comm, steps, next_of_standsAt h first, ih hnext hlast]
    rfl

end SharedCursor

end LoxGraph
