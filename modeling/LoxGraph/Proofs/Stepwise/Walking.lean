import LoxGraph.Proofs.Cursor.Sharing
import LoxGraph.Proofs.Stepwise.Scanning

/-!
Walks of a scanner that goes by an index.

The walks share the index, the start of the last piece and the line. A walk that is asked for a
step scans pieces until one of them is a token, from the first index on if it is new; and lines
are counted one by one, where the line feeds are met. Whatever was asked before, this is what
the shared cursor does (`Walks.next_of`, `Walks.scan_of`). So the line is always that of the
characters before the index, and a token is what stands between the start and the index
(`SharedCursor.History.placed`).
-/

namespace LoxGraph

/-- The token that a step has met, be it the mark of the end. -/
def Step.token? : Step → Option Token
  | token t => some t
  | ended t => some t
  | failed _ => none

namespace Stepwise

/-- The next token from the current place on, or the mark at the end of the text. -/
def scanNext (text : List Char) : Nat → Scanning Step
  | 0 => throw (.mishap .endlessLoop)
  | clock + 1 => do
    let done ← atEnd text
    if done then
      let place ← get
      return .ended (Token.endOfText place.line)
    else
      modify fun place => { place with start := place.current }
      let piece ← scanPiece text
      match piece with
      | some t => return .token t
      | none => scanNext text clock

/-- A place in a text and the walks that share it. -/
structure Walks where
  place : Place
  walks : List Walk

namespace Walks

def addWalk (s : Walks) : Nat × Walks := (s.walks.length, { s with walks := s.walks ++ [.fresh] })

/-- Scans to the next token for walk `i` from the given place. -/
def stepFrom (text : List Char) (s : Walks) (i : Nat) (place : Place) :
    Except Mishap Step × Walks :=
  match (scanNext text (text.length + 1)).run place with
  | .ok step later => (.ok step, ⟨later, s.walks.set i (SharedCursor.walkAfter step)⟩)
  | .error (.report e) later =>
    (.ok (.failed e), ⟨later, s.walks.set i (SharedCursor.walkAfter (.failed e))⟩)
  | .error (.mishap mishap) later => (.error mishap, ⟨later, s.walks.set i .over⟩)

/-- The next step of walk `i`, or nothing if the walk is over. -/
def next (text : List Char) (s : Walks) (i : Nat) : Option (Except Mishap Step) × Walks :=
  match s.walks[i]? with
  | some .fresh => (s.stepFrom text i ⟨0, 0, 1⟩).map some id
  | some .running => (s.stepFrom text i s.place).map some id
  | some .over => (none, s)
  | none => (none, s)

/-- All tokens of the text, by a walk of its own from the first index on. -/
def scan (text : List Char) (s : Walks) :
    Except Mishap (Except LexicalError (List Token)) × Walks :=
  match (scanTokens text).run ⟨0, 0, 1⟩ with
  | .ok tokens later => (.ok (.ok tokens), { s with place := later })
  | .error (.report e) later => (.ok (.error e), { s with place := later })
  | .error (.mishap mishap) later => (.error mishap, { s with place := later })

/-- The place and the walks of a shared cursor. -/
def of (s : SharedCursor) : Walks := ⟨placeOf s.cursor, s.walks⟩

end Walks

variable {text : List Char}

/-- What comes of scanning to the next token, by what an advance of the cursor meets. -/
def stepResult : Step × Cursor → EStateM.Result (Raised LexicalError) Place Step
  | (.failed e, next) => .error (.report e) (placeOf next)
  | (step, next) => .ok step (placeOf next)

theorem scanNext_run_cons {cursor : Cursor} {c : Char} {cs : List Char}
    (h : text.drop cursor.current = c :: cs) (clock : Nat) :
    (scanNext text (clock + 1)).run (placeOf cursor) =
      (scanPiece text >>= fun piece => match piece with
        | some t => return .token t
        | none => scanNext text clock : Scanning Step).run
        ⟨cursor.current, cursor.current, cursor.line⟩ := by
  rw [scanNext, Action.run_bind_of_ok (@atEnd_run text _ (placeOf cursor) h)]
  rfl

/-- Scanning to the next token is an advance of the cursor. -/
theorem scanNext_run {cursor : Cursor} (hdrop : text.drop cursor.current = cursor.ahead)
    {clock : Nat} (hclock : cursor.ahead.length ≤ clock) :
    (scanNext text (clock + 1)).run (placeOf cursor) = stepResult cursor.advance := by
  fun_induction Cursor.advance cursor generalizing clock
  case case1 cursor hahead =>
    rw [hahead] at hdrop
    rw [scanNext, Action.run_bind_of_ok (@atEnd_run text _ (placeOf cursor) hdrop)]
    rfl
  case case2 cursor c cs hahead reading after hgap ih =>
    rw [hahead] at hdrop hclock
    obtain ⟨clock, rfl, hrest⟩ := exists_fewer_ticks hclock
    have hpiece : (scanPiece text).run ⟨cursor.current, cursor.current, cursor.line⟩ =
        .ok none (placeOf after) := by
      rw [scanPiece_run hdrop, pieceResult, show (Reading.next c cs).piece = .gap from hgap]
      rfl
    rw [scanNext_run_cons hdrop, Action.run_bind_of_ok hpiece]
    exact ih (drop_pass hdrop) hrest
  case case3 cursor c cs hahead reading after kind literal hpiece =>
    rw [hahead] at hdrop
    have htoken : (scanPiece text).run ⟨cursor.current, cursor.current, cursor.line⟩ =
        .ok (some ⟨kind, String.ofList reading.taken, literal, after.line⟩) (placeOf after) := by
      rw [scanPiece_run hdrop, pieceResult,
        show (Reading.next c cs).piece = .lexeme kind literal from hpiece]
      rfl
    rw [scanNext_run_cons hdrop, Action.run_bind_of_ok htoken]
    rfl
  case case4 cursor c cs hahead reading after fault hpiece =>
    rw [hahead] at hdrop
    have hfault : (scanPiece text).run ⟨cursor.current, cursor.current, cursor.line⟩ =
        .error (.report ⟨after.line, fault⟩) (placeOf after) := by
      rw [scanPiece_run hdrop, pieceResult,
        show (Reading.next c cs).piece = .fault fault from hpiece]
      rfl
    rw [scanNext_run_cons hdrop, Action.run_bind_of_error hfault]
    rfl

namespace Walks

variable {behind : List Char} {cursor : Cursor} {s : SharedCursor} {i : Nat}

/-- A step from a place in the text meets what the cursor meets there. -/
theorem stepFrom_of (h : cursor.On text behind) (s : SharedCursor) (i : Nat) :
    (of s).stepFrom text i (placeOf cursor) =
      (.ok cursor.advance.1, of (s.moved i cursor.advance.1 cursor.advance.2)) := by
  have hdrop : text.drop cursor.current = cursor.ahead := h.drop_eq
  have hrun := scanNext_run hdrop (length_le_of_drop hdrop)
  unfold stepFrom
  rw [hrun]
  obtain ⟨step, after⟩ := cursor.advance
  cases step <;> rfl

theorem next_of (h : s.cursor.On s.text behind) (i : Nat) :
    (of s).next s.text i = ((s.next i).1.map .ok, of (s.next i).2) := by
  have hwalk : (of s).walks[i]? = s.walks[i]? := rfl
  unfold next
  rw [hwalk]
  cases hcase : s.walks[i]? with
  | none => simp [SharedCursor.next, hcase]
  | some walk =>
    cases walk with
    | fresh =>
      have hstep := stepFrom_of (Cursor.on_atStart s.text) s i
      rw [SharedCursor.next_of_standsAt (.inl ⟨hcase, rfl⟩) rfl]
      exact congrArg (Prod.map some id) hstep
    | running =>
      have hstep := stepFrom_of h s i
      rw [SharedCursor.next_of_standsAt (.inr ⟨hcase, rfl⟩) rfl]
      exact congrArg (Prod.map some id) hstep
    | _ =>
      rw [SharedCursor.next_over hcase]
      rfl

theorem scan_of (s : SharedCursor) :
    (of s).scan s.text = (.ok (s.scan.1.map TokenStream.toList), of s.scan.2) := by
  unfold scan
  rw [scanTokens_run]
  unfold SharedCursor.scan
  obtain ⟨tokens, after⟩ := (Cursor.atStart s.text).exhaust
  cases tokens <;> rfl

end Walks

end Stepwise

namespace Cursor

variable {text behind : List Char} {cursor next : Cursor} {t : Token}

/-- A token that was met stands between the start and the place that the cursor has come to. -/
theorem On.advance_token (h : cursor.On text behind) (hstep : cursor.advance = (.token t, next)) :
    t.lexeme.toList = Stepwise.slice text next.start next.current ∧ t.lexeme ≠ "" ∧
      t.line = next.line := by
  fun_induction Cursor.advance cursor generalizing behind
  case case1 cursor hahead => simp at hstep
  case case2 cursor c cs hahead reading after hgap ih =>
    exact ih (h.pass (hahead.trans (Reading.next_taken_append_rest c cs).symm)) hstep
  case case3 cursor c cs hahead reading after kind literal hpiece =>
    obtain ⟨ht, rfl⟩ := Prod.mk.inj hstep
    obtain rfl := Step.token.inj ht
    have htaken : text.drop cursor.current = reading.taken ++ reading.rest :=
      h.drop_eq.trans (hahead.trans (Reading.next_taken_append_rest c cs).symm)
    refine ⟨?_, ?_, rfl⟩
    · rw [String.toList_ofList]
      exact (Stepwise.slice_eq htaken rfl).symm
    · intro hempty
      have hnil : reading.taken = [] := by simpa using hempty
      exact Reading.next_taken_ne_nil c cs hnil
  case case4 cursor c cs hahead reading after fault hpiece => simp at hstep

theorem On.current_le (h : cursor.On text behind) : cursor.current ≤ text.length := by
  rw [h.text_eq, h.current_eq, List.length_append]
  exact Nat.le_add_right _ _

theorem On.line_eq_count (h : cursor.On text behind) :
    cursor.line = 1 + ((text.take cursor.current).count '\n' : Int) := by
  rw [h.take_eq]
  exact h.line_eq

end Cursor

namespace SharedCursor

variable {text : String} {answers earlier : List Answer} {s : SharedCursor} {i : Nat}

/-- What a step has met last is where the cursor has come to. -/
theorem History.met_token {step : Step} {t : Token} (h : History text answers s)
    (hanswers : answers = .met i (some step) :: earlier) (htoken : step.token? = some t)
    (hkind : t.kind ≠ .endOfText) :
    t.lexeme.toList = Stepwise.slice text.toList s.cursor.start s.cursor.current ∧
      t.lexeme ≠ "" ∧ t.line = s.cursor.line := by
  cases h with
  | start => cases hanswers
  | addWalk earlier => cases hanswers
  | scan earlier => cases hanswers
  | @next answers s j earlier hwalk =>
    obtain ⟨hmet, rfl⟩ := List.cons.inj hanswers
    obtain ⟨rfl, hstep⟩ := Answer.met.inj hmet
    rcases next_cases hwalk with ⟨place, met, cursor, hstands, hadvance, hnext⟩ | ⟨-, hnext⟩
    · have hplace : ∃ behind, place.On text.toList behind := by
        rcases hstands with ⟨-, rfl⟩ | ⟨-, rfl⟩
        · rw [earlier.text_eq]
          exact ⟨[], Cursor.on_atStart _⟩
        · exact earlier.cursor_on
      obtain ⟨behind, hon⟩ := hplace
      rw [hnext] at hstep ⊢
      obtain rfl := Option.some.inj hstep
      cases met with
      | token met =>
        obtain rfl := Option.some.inj htoken
        exact hon.advance_token hadvance
      | ended met =>
        obtain rfl := Option.some.inj htoken
        exact absurd (Cursor.advance_ended_kind hadvance) hkind
      | failed e => cases htoken
    · rw [hnext] at hstep
      cases hstep

/-- Over any history of a shared cursor, its start, its place and the end of the text stand in
this order, and its line is that of the characters before its place. A token that a step has met
last is what stands between the start and the place, is not empty and is on the line of the
cursor. The scanner that goes by an index and counts the lines one by one does the same at every
point of the history. -/
theorem History.placed (h : History text answers s) :
    (s.cursor.start ≤ s.cursor.current ∧ s.cursor.current ≤ text.toList.length ∧
      s.cursor.line = 1 + ((text.toList.take s.cursor.current).count '\n' : Int)) ∧
    (∀ i step t earlier, answers = .met i (some step) :: earlier → step.token? = some t →
      t.kind ≠ .endOfText →
        t.lexeme.toList = Stepwise.slice text.toList s.cursor.start s.cursor.current ∧
          t.lexeme ≠ "" ∧ t.line = s.cursor.line) ∧
    (∀ i, (Stepwise.Walks.of s).next text.toList i =
      ((s.next i).1.map .ok, .of (s.next i).2)) ∧
    (Stepwise.Walks.of s).scan text.toList =
      (.ok (s.scan.1.map TokenStream.toList), .of s.scan.2) ∧
    (Stepwise.Walks.of s).addWalk = (s.addWalk.1, .of s.addWalk.2) := by
  obtain ⟨behind, hon⟩ := h.cursor_on
  refine ⟨⟨hon.start_le, hon.current_le, hon.line_eq_count⟩, ?_, ?_, ?_, rfl⟩
  · intro i step t earlier hanswers htoken hkind
    exact h.met_token hanswers htoken hkind
  · rw [← h.text_eq] at hon ⊢
    exact Stepwise.Walks.next_of hon
  · rw [← h.text_eq]
    exact Stepwise.Walks.scan_of s

/-- Two walks over a name, a string that spreads over two lines and a sign that is no lexeme.
The first walk has met the string after the second one had gone back to the name. -/
def spreadString : SharedCursor :=
  ((((ofText "a \"x\ny\" ?").addWalk.2.addWalk.2.next 0).2.next 1).2.next 0).2

theorem spreadString_placed : ∃ answers step t,
    History "a \"x\ny\" ?" (.met 0 (some step) :: answers) spreadString ∧
    step.token? = some t ∧ t.kind ≠ .endOfText ∧ spreadString.cursor.line = 2 ∧
    spreadString.cursor.line =
      1 + (("a \"x\ny\" ?".toList.take spreadString.cursor.current).count '\n' : Int) ∧
    t.lexeme.toList = Stepwise.slice "a \"x\ny\" ?".toList spreadString.cursor.start
      spreadString.cursor.current ∧
    t.line = spreadString.cursor.line := by
  have hwalks : History "a \"x\ny\" ?" [.walk 1, .walk 0]
      (ofText "a \"x\ny\" ?").addWalk.2.addWalk.2 := .addWalk (.addWalk .start)
  have hnames := (hwalks.next (show 0 < 2 by decide)).next (show 1 < 2 by decide)
  have hhistory := hnames.next (show 0 < 2 by decide)
  have hmet : (((((ofText "a \"x\ny\" ?").addWalk.2.addWalk.2.next 0).2.next 1).2.next 0).1.bind
      Step.token?).map Token.kind = some .string := by decide +kernel
  obtain ⟨t, htoken, hkind⟩ := Option.map_eq_some_iff.mp hmet
  obtain ⟨step, hstep, htoken⟩ := Option.bind_eq_some_iff.mp htoken
  rw [hstep] at hhistory
  have hkind' : t.kind ≠ .endOfText := by rw [hkind]; decide
  obtain ⟨⟨-, -, hline⟩, htokens, -⟩ := hhistory.placed
  obtain ⟨hlexeme, -, htokenLine⟩ := htokens 0 step t _ rfl htoken hkind'
  exact ⟨_, step, t, hhistory, htoken, hkind', by decide +kernel, hline, hlexeme, htokenLine⟩

end SharedCursor

end LoxGraph
