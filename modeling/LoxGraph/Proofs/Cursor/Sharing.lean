import LoxGraph.Proofs.Cursor.Layout
import LoxGraph.Proofs.Cursor.Passage

/-!
Walks that share a cursor, over any history.

A history is what was asked of a shared cursor and what it answered. A scan and
the first step of a walk answer as if nothing had gone before; any other step
answers as if the text began where the cursor is, with its lines counted on; and
a walk that is over moves nothing. On a text that has tokens, a step therefore
meets the token after the last one reached, whichever walk has reached it
(`SharedCursor.History.answered`).
-/

namespace LoxGraph

/-- A step met further down in a text. -/
def Step.shift (lines : Int) : Step → Step
  | token t => .token { t with line := t.line + lines }
  | ended t => .ended { t with line := t.line + lines }
  | failed e => .failed { e with line := e.line + lines }

namespace Cursor

/-- Whether a cursor stands in a text, just after the part `behind`. -/
structure On (text behind : List Char) (cursor : Cursor) : Prop where
  text_eq : text = behind ++ cursor.ahead
  current_eq : cursor.current = behind.length
  line_eq : cursor.line = lineAfter behind
  start_le : cursor.start ≤ cursor.current

variable {text behind : List Char} {cursor : Cursor}

theorem on_atStart (text : List Char) : (atStart text).On text [] :=
  ⟨rfl, rfl, rfl, Nat.le_refl 0⟩

theorem On.pass (h : cursor.On text behind) {reading : Reading}
    (hahead : cursor.ahead = reading.taken ++ reading.rest) :
    (cursor.pass reading).On text (behind ++ reading.taken) := by
  constructor
  · rw [h.text_eq, hahead, List.append_assoc]
    rfl
  · simp [Cursor.pass, h.current_eq]
  · rw [lineAfter_append, ← h.line_eq]
    rfl
  · exact Nat.le_add_right _ _

theorem On.advance (h : cursor.On text behind) :
    ∃ behind', cursor.advance.2.On text behind' := by
  fun_induction Cursor.advance cursor generalizing behind
  case case1 cursor hahead => exact ⟨behind, h⟩
  case case2 cursor c cs hahead reading after hgap ih =>
    exact ih (h.pass (hahead.trans (Reading.next_taken_append_rest c cs).symm))
  case case3 cursor c cs hahead reading after kind literal hpiece =>
    exact ⟨_, h.pass (hahead.trans (Reading.next_taken_append_rest c cs).symm)⟩
  case case4 cursor c cs hahead reading after fault hpiece =>
    exact ⟨_, h.pass (hahead.trans (Reading.next_taken_append_rest c cs).symm)⟩

theorem On.passes (h : cursor.On text behind) {tokens : List Token} {last : Cursor}
    (hpasses : cursor.Passes tokens last) : ∃ behind', last.On text behind' := by
  induction hpasses generalizing behind with
  | here cursor => exact ⟨behind, h⟩
  | token first others ih =>
    obtain ⟨behind', hnext⟩ := h.advance
    rw [first] at hnext
    exact ih hnext

theorem Concludes.advance_eq {met : List Token} {last : Cursor}
    {result : Except LexicalError TokenStream × Cursor} (h : Concludes met last result) :
    last.advance.2 = result.2 := by
  obtain ⟨result, after⟩ := result
  cases result with
  | ok stream => exact congrArg Prod.snd h.2
  | error e => exact congrArg Prod.snd h

theorem On.exhaust (h : cursor.On text behind) : ∃ behind', cursor.exhaust.2.On text behind' := by
  obtain ⟨tokens, last, hpasses, hends⟩ := cursor.exhaust_passes
  obtain ⟨behindLast, hlast⟩ := h.passes hpasses
  rw [← hends.advance_eq]
  exact hlast.advance

theorem On.drop_eq (h : cursor.On text behind) : text.drop cursor.current = cursor.ahead := by
  rw [h.text_eq, h.current_eq, List.drop_left]

theorem On.take_eq (h : cursor.On text behind) : text.take cursor.current = behind := by
  rw [h.text_eq, h.current_eq, List.take_left]

/-- What an advance meets depends on the text ahead alone; the lines and the
characters passed before are added to it. -/
theorem advance_of_ahead {cursor other : Cursor} (hahead : other.ahead = cursor.ahead) :
    other.advance.1 = cursor.advance.1.shift (other.line - cursor.line) ∧
      other.advance.2.current + cursor.current = other.current + cursor.advance.2.current ∧
      other.advance.2.line + cursor.line = other.line + cursor.advance.2.line := by
  fun_induction Cursor.advance cursor generalizing other
  case case1 cursor hnil =>
    rw [advance_nil (hahead.trans hnil)]
    refine ⟨?_, rfl, rfl⟩
    simp only [Step.shift, Token.endOfText]
    congr 2
    omega
  case case2 cursor c cs hcons reading after hgap ih =>
    have hbehind : (other.pass reading).ahead = after.ahead := rfl
    obtain ⟨hstep, hcurrent, hline⟩ := ih hbehind
    have hcurrentPass : after.current + other.current =
        (other.pass reading).current + cursor.current := by
      simp only [after, pass]
      omega
    have hlinePass : (other.pass reading).line - after.line = other.line - cursor.line := by
      simp only [after, pass]
      omega
    have hadvance : other.advance = (other.pass reading).advance := by
      rw [advance_cons (hahead.trans hcons) (show Reading.next c cs = reading from rfl), hgap]
    rw [hadvance, ← hlinePass]
    exact ⟨hstep, by omega, by omega⟩
  case case3 cursor c cs hcons reading after kind literal hpiece =>
    rw [advance_cons (hahead.trans hcons) (show Reading.next c cs = reading from rfl), hpiece]
    simp only [Step.shift, pass, after]
    refine ⟨?_, by omega, by omega⟩
    congr 2
    omega
  case case4 cursor c cs hcons reading after fault hpiece =>
    rw [advance_cons (hahead.trans hcons) (show Reading.next c cs = reading from rfl), hpiece]
    simp only [Step.shift, pass, after]
    refine ⟨?_, by omega, by omega⟩
    congr 2
    omega

/-- An advance goes as one from the start of the text ahead would. -/
theorem On.advance_eq (h : cursor.On text behind) :
    cursor.advance.1 = (atStart cursor.ahead).advance.1.shift (behind.count '\n') ∧
      cursor.advance.2.current = cursor.current + (atStart cursor.ahead).advance.2.current ∧
      cursor.advance.2.line = cursor.line + ((atStart cursor.ahead).advance.2.line - 1) := by
  obtain ⟨hstep, hcurrent, hline⟩ :=
    advance_of_ahead (show cursor.ahead = (atStart cursor.ahead).ahead from rfl)
  have hfirst : (atStart cursor.ahead).line = 1 := rfl
  have hlines : cursor.line - (atStart cursor.ahead).line = behind.count '\n' := by
    rw [hfirst, h.line_eq, lineAfter]
    omega
  rw [hlines] at hstep
  exact ⟨hstep, hcurrent, by omega⟩

/-- The place after a number of advances. -/
def nth (cursor : Cursor) : Nat → Cursor
  | 0 => cursor
  | k + 1 => cursor.advance.2.nth k

theorem nth_succ (cursor : Cursor) (k : Nat) : cursor.nth (k + 1) = (cursor.nth k).advance.2 := by
  induction k generalizing cursor with
  | zero => rfl
  | succ k ih =>
    rw [nth, ih]
    rfl

theorem nth_passes {last : Cursor} {tokens : List Token} (hpasses : cursor.Passes tokens last) :
    cursor.nth tokens.length = last := by
  induction hpasses with
  | here cursor => rfl
  | token first others ih => rw [List.length_cons, nth, first, ih]

theorem advance_nth_passes {last : Cursor} {tokens : List Token}
    (hpasses : cursor.Passes tokens last) {k : Nat} {t : Token} (hk : tokens[k]? = some t) :
    (cursor.nth k).advance.1 = .token t := by
  induction hpasses generalizing k with
  | here cursor => simp at hk
  | token first others ih =>
    cases k with
    | zero =>
      obtain rfl := Option.some.inj hk
      exact congrArg Prod.fst first
    | succ k =>
      rw [nth, first]
      exact ih hk

/-- Behind the end of a text there is nothing but the end. -/
theorem advance_after_ended {after : Cursor} {t : Token}
    (h : cursor.advance = (.ended t, after)) : after.advance = (.ended t, after) := by
  cases meets_of_advance h with
  | ended hgap hnext hline => exact advance_nil hnext

variable {last after : Cursor} {tokens : List Token} {t : Token}

theorem nth_past_end (hpasses : cursor.Passes tokens last)
    (hended : last.advance = (.ended t, after)) (k : Nat) :
    cursor.nth (tokens.length + 1 + k) = after := by
  induction k with
  | zero => rw [Nat.add_zero, nth_succ, nth_passes hpasses, hended]
  | succ k ih => rw [← Nat.add_assoc, nth_succ, ih, advance_after_ended hended]

end Cursor

/-- The token at a place in the list of all tokens, as a step meets it. The mark
stands at the end and at every place after it. -/
def TokenStream.stepAt (stream : TokenStream) (k : Nat) : Step :=
  match stream.tokens[k]? with
  | some t => .token t
  | none => .ended stream.ending

theorem TokenStream.stepAt_min (stream : TokenStream) (k : Nat) :
    stream.stepAt (min k stream.tokens.length) = stream.stepAt k := by
  rcases Nat.le_total k stream.tokens.length with hle | hge
  · rw [Nat.min_eq_left hle]
  · simp [stepAt, Nat.min_eq_right hge, List.getElem?_eq_none hge]

namespace SharedCursor

/-- What was asked of a shared cursor and what it answered. -/
inductive Answer where
  | walk (i : Nat)
  | met (i : Nat) (step : Option Step)
  | scanned (tokens : Except LexicalError TokenStream)

/-- The states that a shared cursor on a text may come to, with all answers on
the way, the latest first. -/
inductive History (text : String) : List Answer → SharedCursor → Prop
  | start : History text [] (ofText text)
  | addWalk {answers : List Answer} {s : SharedCursor} (earlier : History text answers s) :
      History text (.walk s.addWalk.1 :: answers) s.addWalk.2
  | next {answers : List Answer} {s : SharedCursor} {i : Nat} (earlier : History text answers s)
      (hwalk : i < s.walks.length) : History text (.met i (s.next i).1 :: answers) (s.next i).2
  | scan {answers : List Answer} {s : SharedCursor} (earlier : History text answers s) :
      History text (.scanned s.scan.1 :: answers) s.scan.2

/-- Whether walk `i` has been asked for a step. -/
def Began (i : Nat) (answers : List Answer) : Prop := ∃ step, .met i step ∈ answers

/-- Whether walk `i` has met the end of the text or a fault. -/
def Finished (i : Nat) (answers : List Answer) : Prop :=
  (∃ t, .met i (some (.ended t)) ∈ answers) ∨ ∃ e, .met i (some (.failed e)) ∈ answers

/-- How far a walk has come, told by the answers. -/
def Tells (i : Nat) (answers : List Answer) : Option Walk → Prop
  | none => ¬ Began i answers
  | some .fresh => ¬ Began i answers
  | some .running => Began i answers ∧ ¬ Finished i answers
  | some .over => Finished i answers

variable {text : String} {answers : List Answer} {s : SharedCursor} {i : Nat}

theorem tells_cons {a : Answer} (ha : ∀ step, a ≠ .met i step) (walk : Option Walk) :
    Tells i (a :: answers) walk ↔ Tells i answers walk := by
  have hne (step : Option Step) : .met i step ≠ a := (ha step).symm
  have hbegan : Began i (a :: answers) ↔ Began i answers := by simp [Began, hne]
  have hfinished : Finished i (a :: answers) ↔ Finished i answers := by simp [Finished, hne]
  match walk with
  | none => simp [Tells, hbegan]
  | some .fresh => simp [Tells, hbegan]
  | some .running => simp [Tells, hbegan, hfinished]
  | some .over => simp [Tells, hfinished]

theorem Finished.began (h : Finished i answers) : Began i answers := by
  rcases h with ⟨t, ht⟩ | ⟨e, he⟩
  · exact ⟨_, ht⟩
  · exact ⟨_, he⟩

theorem Tells.eq_fresh {walk : Walk} (h : Tells i answers (some walk))
    (hbegan : ¬ Began i answers) : walk = .fresh := by
  match walk with
  | .fresh => rfl
  | .running => exact absurd h.1 hbegan
  | .over => exact absurd h.began hbegan

theorem Tells.eq_running {walk : Option Walk} (h : Tells i answers walk)
    (hbegan : Began i answers) (hfinished : ¬ Finished i answers) : walk = some .running := by
  match walk with
  | none => exact absurd hbegan h
  | some .fresh => exact absurd hbegan h
  | some .running => rfl
  | some .over => exact absurd h hfinished

theorem Tells.eq_over {walk : Option Walk} (h : Tells i answers walk)
    (hfinished : Finished i answers) : walk = some .over := by
  match walk with
  | none => exact absurd hfinished.began h
  | some .fresh => exact absurd hfinished.began h
  | some .running => exact absurd hfinished h.2
  | some .over => rfl

/-- A walk that has met something is as far as that tells. -/
theorem tells_met (h : ¬ Finished i answers) (step : Step) :
    Tells i (.met i (some step) :: answers) (some (walkAfter step)) := by
  cases step with
  | token t =>
    refine ⟨⟨_, List.mem_cons_self⟩, ?_⟩
    simpa [Finished] using h
  | ended t => exact .inl ⟨t, List.mem_cons_self⟩
  | failed e => exact .inr ⟨e, List.mem_cons_self⟩

/-- A step moves the cursor, or the walk is over. -/
theorem next_cases (hwalk : i < s.walks.length) :
    (∃ place step cursor, s.StandsAt i place ∧ place.advance = (step, cursor) ∧
      s.next i = (some step, s.moved i step cursor)) ∨
    s.walks[i]? = some .over ∧ s.next i = (none, s) := by
  obtain ⟨walk, hget⟩ : ∃ walk, s.walks[i]? = some walk := ⟨_, List.getElem?_eq_getElem hwalk⟩
  match walk with
  | .fresh => exact .inl ⟨_, _, _, .inl ⟨hget, rfl⟩, rfl, next_of_standsAt (.inl ⟨hget, rfl⟩) rfl⟩
  | .running => exact .inl ⟨_, _, _, .inr ⟨hget, rfl⟩, rfl, next_of_standsAt (.inr ⟨hget, rfl⟩) rfl⟩
  | .over => exact .inr ⟨hget, next_over hget⟩

namespace History

theorem tells (h : History text answers s) (i : Nat) : Tells i answers s.walks[i]? := by
  induction h generalizing i with
  | start => simp [Tells, Began, ofText]
  | @addWalk answers s earlier ih =>
    rw [tells_cons (by simp)]
    have hi := ih i
    rcases Nat.lt_trichotomy i s.walks.length with hlt | rfl | hgt
    · have hsame : s.addWalk.2.walks[i]? = s.walks[i]? := List.getElem?_append_left hlt
      rwa [hsame]
    · simpa [SharedCursor.addWalk, Tells] using hi
    · have hnone : s.addWalk.2.walks[i]? = none := by simp [SharedCursor.addWalk]; omega
      rw [List.getElem?_eq_none (Nat.le_of_lt hgt)] at hi
      rwa [hnone]
  | @next answers s j earlier hwalk ih =>
    have hi := ih i
    by_cases hij : j = i
    · subst hij
      rcases next_cases hwalk with ⟨place, step, cursor, hstands, -, hnext⟩ | ⟨hover, hnext⟩
      · rw [hnext, hstands.walks_moved]
        apply tells_met
        rcases hstands with ⟨hfresh, -⟩ | ⟨hrunning, -⟩
        · rw [hfresh] at hi
          exact fun hfinished => hi hfinished.began
        · rw [hrunning] at hi
          exact hi.2
      · rw [hnext, hover]
        rw [hover] at hi
        simpa [Tells, Finished] using hi
    · rw [tells_cons (by simp [hij])]
      rcases next_cases hwalk with ⟨place, step, cursor, -, -, hnext⟩ | ⟨-, hnext⟩
      · rw [hnext]
        simpa only [moved, List.getElem?_set_ne hij] using hi
      · rw [hnext]
        exact hi
  | scan earlier ih =>
    rw [tells_cons (by simp)]
    exact ih i

theorem text_eq (h : History text answers s) : s.text = text.toList := by
  induction h with
  | start => rfl
  | addWalk earlier ih => exact ih
  | next earlier hwalk ih =>
    rcases next_cases hwalk with ⟨place, step, cursor, -, -, hnext⟩ | ⟨-, hnext⟩
    · rw [hnext]
      exact ih
    · rw [hnext]
      exact ih
  | scan earlier ih => exact ih

/-- Whatever was asked of it, the cursor stands in the text, on the line that the
text before it ends on. -/
theorem cursor_on (h : History text answers s) : ∃ behind, s.cursor.On text.toList behind := by
  induction h with
  | start => exact ⟨[], Cursor.on_atStart _⟩
  | addWalk earlier ih => exact ih
  | next earlier hwalk ih =>
    rcases next_cases hwalk with ⟨place, step, cursor, hstands, hstep, hnext⟩ | ⟨-, hnext⟩
    · have hplace : ∃ behind, place.On text.toList behind := by
        rcases hstands with ⟨-, rfl⟩ | ⟨-, rfl⟩
        · rw [earlier.text_eq]
          exact ⟨[], Cursor.on_atStart _⟩
        · exact ih
      obtain ⟨behind, hon⟩ := hplace
      rw [hnext]
      have hafter := hon.advance
      rw [hstep] at hafter
      exact hafter
    · rw [hnext]
      exact ih
  | @scan answers s earlier ih =>
    have hafter := (Cursor.on_atStart s.text).exhaust
    rw [earlier.text_eq] at hafter
    rw [SharedCursor.scan, earlier.text_eq]
    exact hafter

theorem standsAt_fresh (h : History text answers s) (hwalk : i < s.walks.length)
    (hbegan : ¬ Began i answers) : s.StandsAt i (.atStart text.toList) := by
  have hi := h.tells i
  rw [List.getElem?_eq_getElem hwalk] at hi
  refine .inl ⟨?_, by rw [h.text_eq]⟩
  rw [List.getElem?_eq_getElem hwalk, hi.eq_fresh hbegan]

theorem standsAt_running (h : History text answers s) (hbegan : Began i answers)
    (hfinished : ¬ Finished i answers) : s.StandsAt i s.cursor :=
  .inr ⟨(h.tells i).eq_running hbegan hfinished, rfl⟩

theorem next_finished (h : History text answers s) (hfinished : Finished i answers) :
    s.next i = (none, s) :=
  next_over ((h.tells i).eq_over hfinished)

end History

/-- Which token, in the list of all of them, the cursor has reached last. A first
step reaches the first one, whatever was reached before; any other step reaches
the next one, or the mark again; and a scan reaches the mark. -/
inductive Reached (stream : TokenStream) : List Answer → Nat → Prop
  | first {i : Nat} {step : Step} {earlier : List Answer} (hbegan : ¬ Began i earlier) :
      Reached stream (.met i (some step) :: earlier) 0
  | successor {i k : Nat} {step : Step} {earlier : List Answer} (hbegan : Began i earlier)
      (hlast : Reached stream earlier k) :
      Reached stream (.met i (some step) :: earlier) (min (k + 1) stream.tokens.length)
  | mark {tokens : Except LexicalError TokenStream} {earlier : List Answer} :
      Reached stream (.scanned tokens :: earlier) stream.tokens.length
  | nothing {i k : Nat} {earlier : List Answer} (hlast : Reached stream earlier k) :
      Reached stream (.met i none :: earlier) k
  | walk {i k : Nat} {earlier : List Answer} (hlast : Reached stream earlier k) :
      Reached stream (.walk i :: earlier) k

section Tokens

variable {stream : TokenStream}

/-- On a text that has tokens, advances from the start meet them in turn. -/
theorem advance_nth (htokenize : tokenize text = .ok stream) (k : Nat) :
    ((Cursor.atStart text.toList).nth k).advance.1 = stream.stepAt k := by
  obtain ⟨tokens, last, after, hpasses, rfl, hended⟩ := tokenize_eq_iff.mp htokenize
  unfold TokenStream.stepAt
  split
  case h_1 t ht => exact Cursor.advance_nth_passes hpasses ht
  case h_2 hnone =>
    obtain ⟨j, rfl⟩ := Nat.exists_eq_add_of_le (List.getElem?_eq_none_iff.mp hnone)
    cases j with
    | zero => rw [Nat.add_zero, Cursor.nth_passes hpasses, hended]
    | succ j =>
      have hpast : stream.tokens.length + (j + 1) = stream.tokens.length + 1 + j := by omega
      rw [hpast, Cursor.nth_past_end hpasses hended, Cursor.advance_after_ended hended]

/-- The place behind the mark is the last one. -/
theorem nth_min (htokenize : tokenize text = .ok stream) (k : Nat) :
    (Cursor.atStart text.toList).nth (k + 1) =
      (Cursor.atStart text.toList).nth (min k stream.tokens.length + 1) := by
  obtain ⟨tokens, last, after, hpasses, rfl, hended⟩ := tokenize_eq_iff.mp htokenize
  rcases Nat.le_total k stream.tokens.length with hle | hge
  · rw [Nat.min_eq_left hle]
  · obtain ⟨j, rfl⟩ := Nat.exists_eq_add_of_le hge
    have hlast := Cursor.nth_past_end hpasses hended 0
    rw [Nat.min_eq_right hge, Nat.add_right_comm, Cursor.nth_past_end hpasses hended, ← hlast]

namespace History

theorem cursor_reached (h : History text answers s) (htokenize : tokenize text = .ok stream)
    {k : Nat} (hk : Reached stream answers k) :
    s.cursor = (Cursor.atStart text.toList).nth (k + 1) := by
  induction h generalizing k with
  | start => cases hk
  | addWalk earlier ih =>
    cases hk with
    | walk hlast => exact ih hlast
  | @next answers s i earlier hwalk ih =>
    -- Only a walk that goes on takes the cursor from where the others have left it.
    by_cases hfinished : Finished i answers
    · rw [earlier.next_finished hfinished] at hk ⊢
      cases hk with
      | nothing hlast => exact ih hlast
    by_cases hbegan : Began i answers
    · rw [next_of_standsAt (earlier.standsAt_running hbegan hfinished) rfl] at hk ⊢
      cases hk with
      | first hnot => exact absurd hbegan hnot
      | @successor _ k _ _ _ hlast =>
        have hcursor : s.cursor.advance.2 = (Cursor.atStart text.toList).nth (k + 1 + 1) := by
          rw [ih hlast, ← Cursor.nth_succ]
        exact hcursor.trans (nth_min htokenize (k + 1))
    · rw [next_of_standsAt (earlier.standsAt_fresh hwalk hbegan) rfl] at hk ⊢
      cases hk with
      | first hnot => rfl
      | successor hbegan' hlast => exact absurd hbegan' hbegan
  | @scan answers s earlier ih =>
    obtain ⟨tokens, last, after, hpasses, rfl, hended⟩ := tokenize_eq_iff.mp htokenize
    have hexhaust : (Cursor.atStart text.toList).exhaust = (.ok stream, after) :=
      Cursor.exhaust_eq_iff.mpr ⟨stream.tokens, last, hpasses, rfl, hended⟩
    cases hk with
    | mark =>
      simp only [SharedCursor.scan, earlier.text_eq, hexhaust]
      exact (Cursor.nth_past_end hpasses hended 0).symm

theorem exists_reached (h : History text answers s) (stream : TokenStream)
    (hbegan : Began i answers) : ∃ k, Reached stream answers k := by
  induction h generalizing i with
  | start => simp [Began] at hbegan
  | addWalk earlier ih =>
    obtain ⟨k, hk⟩ := ih (by simpa [Began] using hbegan)
    exact ⟨k, .walk hk⟩
  | @next answers s j earlier hwalk ih =>
    by_cases hj : Began j answers
    · obtain ⟨k, hk⟩ := ih hj
      cases (s.next j).1 with
      | none => exact ⟨k, .nothing hk⟩
      | some step => exact ⟨_, .successor hj hk⟩
    · rw [next_of_standsAt (earlier.standsAt_fresh hwalk hj) rfl]
      exact ⟨0, .first hj⟩
  | scan earlier ih => exact ⟨_, .mark⟩

theorem next_successor (h : History text answers s) (htokenize : tokenize text = .ok stream)
    (hbegan : Began i answers) (hfinished : ¬ Finished i answers) :
    ∃ k, Reached stream answers k ∧ (s.next i).1 = some (stream.stepAt (k + 1)) := by
  obtain ⟨k, hk⟩ := h.exists_reached stream hbegan
  refine ⟨k, hk, ?_⟩
  rw [next_of_standsAt (h.standsAt_running hbegan hfinished) rfl, h.cursor_reached htokenize hk,
    advance_nth htokenize]

theorem met_reached (h : History text answers s) (htokenize : tokenize text = .ok stream)
    {step : Step} {before : List Answer} (hanswers : answers = .met i (some step) :: before) :
    ∃ k, Reached stream answers k ∧ step = stream.stepAt k := by
  cases h with
  | start => cases hanswers
  | addWalk earlier => cases hanswers
  | scan earlier => cases hanswers
  | @next answers s j earlier hwalk =>
    obtain ⟨hmet, rfl⟩ := List.cons.inj hanswers
    obtain ⟨rfl, hstep⟩ := Answer.met.inj hmet
    rw [hstep]
    by_cases hfinished : Finished j answers
    · rw [earlier.next_finished hfinished] at hstep
      cases hstep
    by_cases hbegan : Began j answers
    · obtain ⟨k, hk, hnext⟩ := earlier.next_successor htokenize hbegan hfinished
      refine ⟨_, .successor hbegan hk, ?_⟩
      rw [stream.stepAt_min]
      exact Option.some.inj (hstep.symm.trans hnext)
    · refine ⟨0, .first hbegan, ?_⟩
      rw [next_of_standsAt (earlier.standsAt_fresh hwalk hbegan) rfl] at hstep
      rw [← Option.some.inj hstep, ← advance_nth htokenize]
      rfl

end History

end Tokens

/-- Over any history of a shared cursor, a scan and the first step of a walk are
those of a cursor of their own. A walk that has begun and met neither the end
nor a fault goes on as a walk over the text ahead of the cursor would, with the
lines and characters before it added; a walk that has met either is over and
moves nothing. On a text that has tokens the answers are therefore its tokens
in turn: every step meets the token after the last one that the cursor has
reached, by whatever walk or scan. -/
theorem History.answered (h : History text answers s) :
    (s.scan.1 = (ofText text).scan.1 ∧ s.scan.2.cursor = (ofText text).scan.2.cursor) ∧
    (∀ i < s.walks.length, ¬ Began i answers →
      (s.next i).1 = ((ofText text).addWalk.2.next 0).1 ∧
      (s.next i).2.cursor = ((ofText text).addWalk.2.next 0).2.cursor) ∧
    (∀ i, Began i answers → ¬ Finished i answers →
      let behind := text.toList.take s.cursor.current
      let fresh := (ofText (String.ofList (text.toList.drop s.cursor.current))).addWalk.2.next 0
      (s.next i).1 = fresh.1.map (Step.shift (behind.count '\n')) ∧
      (s.next i).2.cursor.current = s.cursor.current + fresh.2.cursor.current ∧
      (s.next i).2.cursor.line = s.cursor.line + (fresh.2.cursor.line - 1)) ∧
    (∀ i, Finished i answers → s.next i = (none, s)) ∧
    ∀ stream, tokenize text = .ok stream →
      (∀ i step earlier, answers = .met i (some step) :: earlier →
        ∃ k, Reached stream answers k ∧ step = stream.stepAt k) ∧
      ∀ i, Began i answers → ¬ Finished i answers →
        ∃ k, Reached stream answers k ∧ (s.next i).1 = some (stream.stepAt (k + 1)) := by
  have hfresh (text : String) : (ofText text).addWalk.2.StandsAt 0 (.atStart text.toList) :=
    .inl ⟨rfl, rfl⟩
  refine ⟨?_, ?_, ?_, fun i => h.next_finished, ?_⟩
  · simp only [SharedCursor.scan, h.text_eq]
    exact ⟨rfl, rfl⟩
  · intro i hwalk hbegan
    rw [next_of_standsAt (h.standsAt_fresh hwalk hbegan) rfl, next_of_standsAt (hfresh text) rfl]
    exact ⟨rfl, rfl⟩
  · intro i hbegan hfinished
    obtain ⟨behind, hon⟩ := h.cursor_on
    rw [hon.take_eq, hon.drop_eq, next_of_standsAt (h.standsAt_running hbegan hfinished) rfl,
      next_of_standsAt (hfresh _) rfl, String.toList_ofList]
    obtain ⟨hstep, hcurrent, hline⟩ := hon.advance_eq
    exact ⟨congrArg some hstep, hcurrent, hline⟩
  · intro stream htokenize
    exact ⟨fun i step before => h.met_reached htokenize, fun i => h.next_successor htokenize⟩

/-- Two walks over three names. The second one starts over when the first one has
met a name, and the first one goes on from there. -/
def twoWalks : SharedCursor :=
  (((ofText "a b c").addWalk.2.addWalk.2.next 0).2.next 1).2

theorem twoWalks_answered : ∃ answers stream k, History "a b c" answers twoWalks ∧
    Began 0 answers ∧ ¬ Finished 0 answers ∧ tokenize "a b c" = .ok stream ∧
    Reached stream answers k ∧ (twoWalks.next 0).1 = some (stream.stepAt (k + 1)) := by
  have hwalks : History "a b c" [.walk 1, .walk 0] (ofText "a b c").addWalk.2.addWalk.2 :=
    .addWalk (.addWalk .start)
  have hhistory := (hwalks.next (show 0 < 2 by decide)).next (show 1 < 2 by decide)
  have hwalk : twoWalks.walks[0]? = some .running := by decide +kernel
  obtain ⟨hbegan, hrunning⟩ : Began 0 _ ∧ ¬ Finished 0 _ := hwalk ▸ hhistory.tells 0
  have hreadable : (tokenize "a b c").toBool = true := by decide +kernel
  cases htokenize : tokenize "a b c" with
  | error e => simp [htokenize, Except.toBool] at hreadable
  | ok stream =>
    obtain ⟨k, hk, hnext⟩ :=
      (hhistory.answered.2.2.2.2 stream htokenize).2 0 hbegan hrunning
    exact ⟨_, stream, k, hhistory, hbegan, hrunning, rfl, hk, hnext⟩

end SharedCursor

end LoxGraph
