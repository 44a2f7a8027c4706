import LoxGraph.Proofs.Cursor.Fault
import LoxGraph.Proofs.Cursor.Sharing
import LoxGraph.Proofs.Cursor.Spacing

/-!
Texts joined by a line feed.

Whatever a text ends with, a line feed ends it as the end of the text does; only a string that
is not closed goes on. So of two texts that are joined the upper one is read as if nothing came
after it, and the lower one as if it stood alone, with the lines above it counted on
(`tokenize_lineBreak`).
-/

namespace LoxGraph

/-- A token met further down. -/
def Token.shift (lines : Int) (t : Token) : Token := { t with line := t.line + lines }

/-- A fault met further down. -/
def LexicalError.shift (lines : Int) (e : LexicalError) : LexicalError :=
  { e with line := e.line + lines }

/-- A gap is one as well when a line feed stands behind what follows it. -/
theorem Gap.lineFeed {after gap : List Char} (h : Gap after gap) (lower : List Char) :
    Gap (after ++ '\n' :: lower) gap := by
  induction h with
  | nil => exact .nil
  | blank hblank hgap ih => exact .blank hblank ih
  | @comment body gap hbody hends hgap ih =>
    refine .comment hbody ?_ ih
    rw [← List.append_assoc]
    cases hrest : gap ++ after with
    | nil => simp
    | cons c cs =>
      rw [hrest] at hends
      exact hends

namespace Cursor

/-- Whether a cursor has the same text ahead as another one, a number of lines further down. -/
structure Below (lines : Int) (cursor other : Cursor) : Prop where
  ahead_eq : other.ahead = cursor.ahead
  line_eq : other.line = cursor.line + lines

/-- Where an advance ends depends on the text ahead alone. -/
theorem ahead_advance {cursor other : Cursor} (hahead : other.ahead = cursor.ahead) :
    other.advance.2.ahead = cursor.advance.2.ahead := by
  fun_induction Cursor.advance cursor generalizing other
  case case1 cursor hnil =>
    rw [advance_nil (hahead.trans hnil)]
    exact hahead
  case case2 cursor c cs hcons reading after hgap ih =>
    rw [advance_cons (hahead.trans hcons) (show Reading.next c cs = reading from rfl), hgap]
    exact ih rfl
  case case3 cursor c cs hcons reading after kind literal hpiece =>
    rw [advance_cons (hahead.trans hcons) (show Reading.next c cs = reading from rfl), hpiece]
    rfl
  case case4 cursor c cs hcons reading after fault hpiece =>
    rw [advance_cons (hahead.trans hcons) (show Reading.next c cs = reading from rfl), hpiece]
    rfl

theorem Below.advance {lines : Int} {cursor other : Cursor} (h : Below lines cursor other) :
    other.advance.1 = cursor.advance.1.shift lines ∧
      Below lines cursor.advance.2 other.advance.2 := by
  obtain ⟨hstep, -, hline⟩ := advance_of_ahead h.ahead_eq
  have hlines := h.line_eq
  refine ⟨?_, ahead_advance h.ahead_eq, by omega⟩
  rw [hstep]
  congr 1
  omega

/-- Further down the same tokens are passed, with the lines above counted on. -/
theorem Below.passes {lines : Int} {cursor other last : Cursor} {tokens : List Token}
    (h : Below lines cursor other) (hpasses : cursor.Passes tokens last) :
    ∃ last', other.Passes (tokens.map (Token.shift lines)) last' ∧ Below lines last last' := by
  induction hpasses generalizing other with
  | here cursor => exact ⟨other, .here other, h⟩
  | @token cursor next last t tokens first others ih =>
    obtain ⟨hstep, hnext⟩ := h.advance
    rw [first] at hstep hnext
    obtain ⟨last', hpasses, hlast⟩ := ih hnext
    exact ⟨last', .token (Prod.ext hstep rfl) hpasses, hlast⟩

/-- Whether a cursor is at the same place as another one, in a text that goes on with a line
feed and the text `lower`. -/
structure Above (lower : List Char) (cursor joined : Cursor) : Prop where
  ahead_eq : joined.ahead = cursor.ahead ++ '\n' :: lower
  line_eq : joined.line = cursor.line

variable {lower : List Char} {cursor joined : Cursor}

theorem Above.advance_token {next : Cursor} {t : Token} (h : Above lower cursor joined)
    (hstep : cursor.advance = (.token t, next)) :
    ∃ next', joined.advance = (.token t, next') ∧ Above lower next next' := by
  cases meets_of_advance hstep with
  | @token gap text kind literal _ hahead hgap htext hmunch hline =>
    have hjoined : joined.ahead = gap ++ (text ++ (next.ahead ++ '\n' :: lower)) := by
      rw [h.ahead_eq, hahead]
      simp
    have hlonger : Gap (text ++ (next.ahead ++ '\n' :: lower)) gap := by
      rw [← List.append_assoc]
      exact hgap.lineFeed lower
    obtain ⟨next', hnext, haheadNext, hlineNext⟩ :=
      advance_lexeme hlonger htext (htext.munch_blank hmunch rfl lower) hjoined
    have hsame : next'.line = next.line := by rw [hlineNext, h.line_eq, hline]
    rw [hsame] at hnext
    exact ⟨next', hnext, haheadNext, hsame⟩

/-- Where the upper text ends, the lower one is read on. -/
theorem Above.advance_ended {after : Cursor} {t : Token} (h : Above lower cursor joined)
    (hstep : cursor.advance = (.ended t, after)) :
    ∃ place : Cursor, joined.advance = place.advance ∧ place.ahead = lower ∧
      place.line = t.line + 1 := by
  cases meets_of_advance hstep with
  | ended hgap hnil hline =>
    have hend : Gap ('\n' :: lower) cursor.ahead := hgap.lineFeed lower
    obtain ⟨behind, hadvance, hbehind, hlineBehind⟩ := advance_gap hend h.ahead_eq
    have hfeed : Gap lower ['\n'] := .blank rfl .nil
    obtain ⟨place, hplace, hlower, hlinePlace⟩ := advance_gap hfeed hbehind
    refine ⟨place, hadvance.trans hplace, hlower, ?_⟩
    rw [hlinePlace, hlineBehind, h.line_eq, ← hline]
    rfl

/-- A character that begins no token is one wherever the text ends. -/
theorem Above.advance_unknown {after : Cursor} {e : LexicalError} {c : Char}
    (h : Above lower cursor joined) (hstep : cursor.advance = (.failed e, after))
    (hfault : e.fault = .unknownCharacter c) :
    ∃ after', joined.advance = (.failed e, after') := by
  cases meets_of_advance hstep with
  | @failed gap text fault _ hahead hgap hfound hline =>
    obtain rfl : fault = .unknownCharacter c := hfault
    cases hfound with
    | unknown hblank hquote hnone =>
      have hnothing : BeginsNothing c := beginsNothing_of_found (.unknown hblank hquote hnone)
      have hjoined : joined.ahead = gap ++ ([c] ++ (after.ahead ++ '\n' :: lower)) := by
        rw [h.ahead_eq, hahead]
        simp
      have hlonger : Gap ([c] ++ (after.ahead ++ '\n' :: lower)) gap := hgap.lineFeed lower
      obtain ⟨after', hstep', -, hlineAfter⟩ := advance_fault hlonger (hnothing.found _) hjoined
      have hsame : after'.line = after.line := by rw [hlineAfter, h.line_eq, hline]
      rw [hsame] at hstep'
      exact ⟨after', hstep'⟩

/-- As far as the upper text has tokens, they are passed in the joined text. -/
theorem Above.passes {last : Cursor} {tokens : List Token} (h : Above lower cursor joined)
    (hpasses : cursor.Passes tokens last) :
    ∃ last', joined.Passes tokens last' ∧ Above lower last last' := by
  induction hpasses generalizing joined with
  | here cursor => exact ⟨joined, .here joined, h⟩
  | token first others ih =>
    obtain ⟨next, hstep, hnext⟩ := h.advance_token first
    obtain ⟨last', hothers, hlast⟩ := ih hnext
    exact ⟨last', .token hstep hothers, hlast⟩

theorem Passes.trans {cursor middle last : Cursor} {tokens tokens' : List Token}
    (h : cursor.Passes tokens middle) (h' : middle.Passes tokens' last) :
    cursor.Passes (tokens ++ tokens') last := by
  induction h with
  | here cursor => exact h'
  | token first others ih => exact .token first (ih h')

/-- Passing on from a place is passing on from any other from which the same is met. -/
theorem Passes.of_advance_eq {place : Cursor} {tokens : List Token} {last : Cursor}
    (h : place.Passes tokens last) (hadvance : cursor.advance = place.advance) :
    ∃ last', cursor.Passes tokens last' ∧ last'.advance = last.advance := by
  cases h with
  | here => exact ⟨cursor, .here cursor, hadvance⟩
  | token first others => exact ⟨last, .token (hadvance.trans first) others, rfl⟩

end Cursor

/-- The tokens of one stream, then all of another one further down. -/
def TokenStream.join (upper below : TokenStream) (lines : Int) : TokenStream where
  tokens := upper.tokens ++ below.tokens.map (Token.shift lines)
  ending := below.ending.shift lines
  tokens_kind := by
    intro t ht
    rcases List.mem_append.mp ht with hupper | hbelow
    · exact upper.tokens_kind t hupper
    · obtain ⟨t', ht', rfl⟩ := List.mem_map.mp hbelow
      exact below.tokens_kind t' ht'
  ending_kind := below.ending_kind

theorem TokenStream.toList_join (upper below : TokenStream) (lines : Int) :
    (upper.join below lines).toList = upper.tokens ++ below.toList.map (Token.shift lines) := by
  simp [toList, join]

/-- A cursor passes the tokens of the upper text, then those of the lower one, and meets what is
met behind them. -/
theorem Cursor.passes_lineBreak {upper lower : String} {stream : TokenStream}
    (hupper : tokenize upper = .ok stream) {tokens : List Token} {last : Cursor}
    (hpasses : (atStart lower.toList).Passes tokens last) :
    let lines := lineAfter upper.toList
    ∃ last', (atStart (upper ++ "\n" ++ lower).toList).Passes
        (stream.tokens ++ tokens.map (Token.shift lines)) last' ∧
      last'.advance.1 = last.advance.1.shift lines := by
  intro lines
  have hstart : Above lower.toList (atStart upper.toList)
      (atStart (upper ++ "\n" ++ lower).toList) := ⟨by simp [atStart], rfl⟩
  obtain ⟨tokensUpper, lastUpper, after, hpassesUpper, rfl, hended⟩ := tokenize_eq_iff.mp hupper
  obtain ⟨middle, hmiddle, habove⟩ := hstart.passes hpassesUpper
  obtain ⟨place, hplace, hahead, hline⟩ := habove.advance_ended hended
  have hbelow : Below lines (atStart lower.toList) place := by
    refine ⟨hahead, ?_⟩
    rw [hline, (tokenize_eq_ok_iff.mp hupper).2]
    exact Int.add_comm _ _
  obtain ⟨lastBelow, hpassesBelow, hlast⟩ := hbelow.passes hpasses
  obtain ⟨last', hrest, hadvance⟩ := hpassesBelow.of_advance_eq hplace
  refine ⟨last', hmiddle.trans hrest, ?_⟩
  rw [hadvance, hlast.advance.1]

/-- Texts are scanned line by line, but for strings over several lines. If the upper one of two
texts has tokens, then joined by a line feed they have its tokens and then those of the lower
one, or the fault of the lower one, with the lines above counted on. If the upper one has a
character in it that begins no token, this is the fault of the joined text, whatever the lower
one is. -/
theorem tokenize_lineBreak (upper lower : String) :
    (∀ stream, tokenize upper = .ok stream →
      let lines := 1 + (upper.toList.count '\n' : Int)
      (∀ below, tokenize lower = .ok below → ∃ joined,
        tokenize (upper ++ "\n" ++ lower) = .ok joined ∧
          joined.toList = stream.tokens ++ below.toList.map (Token.shift lines)) ∧
      ∀ e, tokenize lower = .error e →
        tokenize (upper ++ "\n" ++ lower) = .error (e.shift lines)) ∧
    ∀ e c, tokenize upper = .error e → e.fault = .unknownCharacter c →
      tokenize (upper ++ "\n" ++ lower) = .error e := by
  constructor
  · intro stream hupper lines
    constructor
    · intro below hlower
      obtain ⟨tokens, last, after, hpasses, rfl, hended⟩ := tokenize_eq_iff.mp hlower
      obtain ⟨last', hjoined, hstep⟩ := Cursor.passes_lineBreak hupper hpasses
      rw [hended] at hstep
      refine ⟨stream.join below lines, ?_, stream.toList_join below lines⟩
      exact tokenize_eq_iff.mpr ⟨_, last', _, hjoined, rfl, Prod.ext hstep rfl⟩
    · intro e hlower
      obtain ⟨tokens, last, after, hpasses, hfailed⟩ := tokenize_eq_iff.mp hlower
      obtain ⟨last', hjoined, hstep⟩ := Cursor.passes_lineBreak hupper hpasses
      rw [hfailed] at hstep
      exact tokenize_eq_iff.mpr ⟨_, last', _, hjoined, Prod.ext hstep rfl⟩
  · intro e c hupper hfault
    have hstart : Cursor.Above lower.toList (.atStart upper.toList)
        (.atStart (upper ++ "\n" ++ lower).toList) := ⟨by simp [Cursor.atStart], rfl⟩
    obtain ⟨tokens, last, after, hpasses, hfailed⟩ := tokenize_eq_iff.mp hupper
    obtain ⟨last', hpasses', hlast⟩ := hstart.passes hpasses
    obtain ⟨after', hfailed'⟩ := hlast.advance_unknown hfailed hfault
    exact tokenize_eq_iff.mpr ⟨tokens, last', after', hpasses', hfailed'⟩

/-- A point at the end of a line takes no digit from the next one, a string that is never closed
is a fault of its own line, and behind a character that begins no token nothing counts. -/
theorem pointAtLineEnd_tokenize :
    (∃ stream below joined, tokenize "!1." = .ok stream ∧ tokenize "=5" = .ok below ∧
      tokenize ("!1." ++ "\n" ++ "=5") = .ok joined ∧
      joined.toList = stream.tokens ++ below.toList.map (Token.shift 1)) ∧
    (∃ e, tokenize "\"x" = .error e ∧ tokenize ("!1." ++ "\n" ++ "\"x") = .error (e.shift 1)) ∧
    ∃ e, tokenize "@" = .error e ∧ e.fault = .unknownCharacter '@' ∧
      tokenize ("@" ++ "\n" ++ "\"x") = .error e := by
  obtain ⟨stream, hstream⟩ := exists_stream_of_toBool
    (show (tokenize "!1.").toBool = true by decide +kernel)
  obtain ⟨below, hbelow⟩ := exists_stream_of_toBool
    (show (tokenize "=5").toBool = true by decide +kernel)
  obtain ⟨e, hopen⟩ := exists_fault_of_toBool
    (show (tokenize "\"x").toBool = false by decide +kernel)
  obtain ⟨e', hcharacter⟩ := exists_fault_of_toBool
    (show (tokenize "@").toBool = false by decide +kernel)
  have hfault : e'.fault = .unknownCharacter '@' := by
    have hunknown : (((tokenize "@").map fun _ => false).tryCatch
        fun e => .ok (decide (e.fault = .unknownCharacter '@'))).toOption = some true := by
      decide +kernel
    simpa [hcharacter, Except.map, Except.tryCatch, Except.toOption] using hunknown
  obtain ⟨joined, hjoined, htokens⟩ :=
    ((tokenize_lineBreak "!1." "=5").1 stream hstream).1 below hbelow
  refine ⟨⟨stream, below, joined, hstream, hbelow, hjoined, htokens⟩, ⟨e, hopen, ?_⟩,
    e', hcharacter, hfault, ?_⟩
  · exact ((tokenize_lineBreak "!1." "\"x").1 stream hstream).2 e hopen
  · exact (tokenize_lineBreak "@" "\"x").2 e' '@' hcharacter hfault

end LoxGraph
