import LoxGraph.Proofs.Cursor.Layout
import LoxGraph.Proofs.Cursor.Passage

/-!
Where a text cannot be read on.

A text without tokens is laid out as gaps and longest lexemes up to a place at
which nothing matches. There a string begins that is never closed, or a
character stands that begins no token (`unreadable_iff`), and the fault is about
this place. A walk over the text meets the tokens before it, then the fault, and
then nothing (`tokenize_error_iff_halts`).
-/

namespace LoxGraph

/-- Whether nothing that a text consists of stands at its front: no blank, no
comment and no lexeme. -/
structure Unreadable (text : List Char) : Prop where
  ne_nil : text ≠ []
  not_blank : ∀ c ∈ text.head?, isBlank c = false
  not_comment : ¬ ['/', '/'] <+: text
  not_lexeme : ∀ lexeme kind literal, IsLexeme lexeme kind literal → ¬ lexeme <+: text

/-- Whether a character begins neither a gap nor a lexeme, whatever comes after it. -/
def BeginsNothing (c : Char) : Prop :=
  isBlank c = false ∧ ∀ cs kind literal, ¬ IsLexeme (c :: cs) kind literal

theorem beginsNothing_of_not_lexeme {c : Char} (hblank : isBlank c = false) (hquote : c ≠ '"')
    (hnone : ∀ kind literal, ¬ IsLexeme [c] kind literal) : BeginsNothing c := by
  have hopening : Opening.of c = .nothing := by
    apply Decidable.byContradiction
    intro hopens
    obtain ⟨kind, literal, hlexeme⟩ := isLexeme_singleton hblank hquote hopens
    exact hnone kind literal hlexeme
  refine ⟨hblank, ?_⟩
  intro cs kind literal hlexeme
  have hcontinues := isLexeme_cons_iff.mp hlexeme
  rw [hopening] at hcontinues
  exact hcontinues

theorem BeginsNothing.ne_quote {c : Char} (h : BeginsNothing c) : c ≠ '"' := by
  rintro rfl
  exact h.2 ['"'] _ _ (@IsLexeme.quotation [] (by simp))

/-- Nothing matches just in front of a string without an end, or of a character
that begins no token. -/
theorem unreadable_iff {text : List Char} :
    Unreadable text ↔ (∃ body, text = '"' :: body ∧ '"' ∉ body) ∨
      ∃ c cs, text = c :: cs ∧ BeginsNothing c := by
  constructor
  · intro h
    -- The piece that is read at the front says what the front is; all but the faults are excluded.
    obtain ⟨c, cs, rfl⟩ := List.exists_cons_of_ne_nil h.ne_nil
    have hsplit := Reading.next_taken_append_rest c cs
    have hfound := Reading.next_found c cs
    generalize Reading.next c cs = reading at hsplit hfound
    cases hfound with
    | blank hblank =>
      obtain ⟨rfl, rfl⟩ := List.cons.inj hsplit
      rw [h.not_blank _ rfl] at hblank
      exact absurd hblank Bool.false_ne_true
    | comment => exact absurd ⟨_, hsplit⟩ h.not_comment
    | lexeme htext hmunch => exact absurd ⟨_, hsplit⟩ (h.not_lexeme _ _ _ htext)
    | @openQuotation body hbody =>
      rw [List.append_nil] at hsplit
      exact .inl ⟨body, hsplit.symm, hbody⟩
    | unknown hblank hquote hnone =>
      obtain ⟨rfl, rfl⟩ := List.cons.inj hsplit
      refine .inr ⟨_, _, rfl, beginsNothing_of_not_lexeme hblank hquote ?_⟩
      intro kind literal hlexeme
      exact hnone _ kind literal hlexeme ⟨_, rfl⟩
  · rintro (⟨body, rfl, hbody⟩ | ⟨c, cs, rfl, hblank, hnone⟩)
    · refine ⟨by simp, by simp [isBlank], by simp, ?_⟩
      intro lexeme kind literal hlexeme hstart
      obtain ⟨c, cs, rfl, hcontinues⟩ := hlexeme.continues
      obtain ⟨rfl, hcs⟩ := List.cons_prefix_cons.mp hstart
      obtain ⟨closed, -, rfl, -⟩ := hcontinues
      exact hbody (hcs.subset (by simp))
    · refine ⟨by simp, by simpa using hblank, ?_, ?_⟩
      · intro hcomment
        obtain ⟨rfl, -⟩ := List.cons_prefix_cons.mp hcomment
        exact hnone [] .slash .none (.operator rfl)
      · intro lexeme kind literal hlexeme hstart
        obtain ⟨d, ds, rfl, -⟩ := hlexeme.continues
        obtain ⟨rfl, -⟩ := List.cons_prefix_cons.mp hstart
        exact hnone ds kind literal hlexeme

/-- What is said of a place at which nothing matches. The line of a string that
is never closed is that of the end of the text. -/
def FaultAt (behind rest : List Char) (e : LexicalError) : Prop :=
  (∃ body, rest = '"' :: body ∧ '"' ∉ body ∧
    e.report = ⟨lineAfter (behind ++ rest), "", "unterminated string"⟩) ∨
  ∃ c cs, rest = c :: cs ∧ BeginsNothing c ∧
    e.report = ⟨lineAfter behind, "", "unknown character: " ++ c.toString⟩

theorem BeginsNothing.found {c : Char} (h : BeginsNothing c) (rest : List Char) :
    Reading.Found ⟨.fault (.unknownCharacter c), [c], rest⟩ :=
  .unknown h.1 h.ne_quote (unreadable_iff.mpr (.inr ⟨c, rest, rfl, h⟩)).not_lexeme

theorem beginsNothing_of_found {c : Char} {taken rest : List Char}
    (h : Reading.Found ⟨.fault (.unknownCharacter c), taken, rest⟩) : BeginsNothing c := by
  cases h with
  | unknown hblank hquote hnone =>
    apply beginsNothing_of_not_lexeme hblank hquote
    intro kind literal hlexeme
    exact hnone [c] kind literal hlexeme ⟨rest, rfl⟩

theorem Unreadable.found {text : List Char} (h : Unreadable text) :
    ∃ fault taken rest, Reading.Found ⟨.fault fault, taken, rest⟩ ∧ taken ++ rest = text := by
  rcases unreadable_iff.mp h with ⟨body, rfl, hbody⟩ | ⟨c, cs, rfl, hnothing⟩
  · exact ⟨_, _, _, .openQuotation hbody, List.append_nil _⟩
  · exact ⟨_, [c], cs, hnothing.found cs, rfl⟩

theorem faultAt_of_found {fault : LexicalFault} {taken rest : List Char}
    (h : Reading.Found ⟨.fault fault, taken, rest⟩) (behind : List Char) :
    Unreadable (taken ++ rest) ∧
      FaultAt behind (taken ++ rest) ⟨lineAfter (behind ++ taken), fault⟩ := by
  cases h with
  | @openQuotation body hbody =>
    rw [List.append_nil]
    exact ⟨unreadable_iff.mpr (.inl ⟨body, rfl, hbody⟩), .inl ⟨body, rfl, hbody, rfl⟩⟩
  | @unknown c _ hblank hquote hnone =>
    have hnothing : BeginsNothing c := beginsNothing_of_found (.unknown hblank hquote hnone)
    have hfeed : c ≠ '\n' := by
      rintro rfl
      exact absurd hblank (by decide)
    have hline : lineAfter (behind ++ [c]) = lineAfter behind := by
      simp [lineAfter_append, hfeed]
    refine ⟨unreadable_iff.mpr (.inr ⟨c, rest, rfl, hnothing⟩), .inr ⟨c, rest, rfl, hnothing, ?_⟩⟩
    rw [hline]
    rfl

/-- Reading a text that stands behind another one passes gaps and longest lexemes
up to a place, `behind` which the text is read and at whose `rest` nothing matches. -/
inductive Halts : List Char → List Char → List Token → List Char → List Char → Prop
  | stuck {before gap rest : List Char} (hgap : Gap rest gap) (hrest : Unreadable rest) :
      Halts before (gap ++ rest) [] (before ++ gap) rest
  | token {before gap text ahead behind rest : List Char} {kind : TokenKind} {literal : Value}
      {tokens : List Token} (hgap : Gap (text ++ ahead) gap) (htext : IsLexeme text kind literal)
      (hmunch : Munch text ahead)
      (hrest : Halts (before ++ gap ++ text) ahead tokens behind rest) :
      Halts before (gap ++ (text ++ ahead))
        (⟨kind, String.ofList text, literal, lineAfter (before ++ gap ++ text)⟩ :: tokens)
        behind rest

theorem Halts.append_eq {before ahead behind rest : List Char} {tokens : List Token}
    (h : Halts before ahead tokens behind rest) : before ++ ahead = behind ++ rest := by
  induction h with
  | stuck hgap hrest => exact (List.append_assoc _ _ _).symm
  | token hgap htext hmunch hrest ih => simpa using ih

namespace Cursor

theorem halts_of_passes {cursor last after : Cursor} {tokens : List Token} {e : LexicalError}
    (hpasses : cursor.Passes tokens last) (hfailed : last.advance = (.failed e, after))
    {before : List Char} (hline : cursor.line = lineAfter before) :
    ∃ behind rest, Halts before cursor.ahead tokens behind rest ∧ FaultAt behind rest e := by
  induction hpasses generalizing before with
  | here cursor =>
    cases meets_of_advance hfailed with
    | @failed gap text fault _ hahead hgap hfault hnext =>
      have hplace : after.line = lineAfter (before ++ gap ++ text) := by
        rw [hnext, hline, List.append_assoc, lineAfter_append]
      obtain ⟨hunreadable, hfaultAt⟩ := faultAt_of_found hfault (before ++ gap)
      rw [hahead, hplace]
      exact ⟨before ++ gap, text ++ after.ahead, .stuck hgap hunreadable, hfaultAt⟩
  | @token cursor next last t tokens first others ih =>
    cases meets_of_advance first with
    | @token gap text kind literal _ hahead hgap htext hmunch hnext =>
      have hplace : next.line = lineAfter (before ++ gap ++ text) := by
        rw [hnext, hline, List.append_assoc, lineAfter_append]
      obtain ⟨behind, rest, hhalts, hfault⟩ := ih hfailed hplace
      refine ⟨behind, rest, ?_, hfault⟩
      rw [hahead, hplace]
      exact .token hgap htext hmunch hhalts

theorem passes_of_halts {before ahead behind rest : List Char} {tokens : List Token}
    (h : Halts before ahead tokens behind rest) {cursor : Cursor} (hahead : cursor.ahead = ahead)
    (hline : cursor.line = lineAfter before) :
    ∃ last e after, cursor.Passes tokens last ∧ last.advance = (.failed e, after) ∧
      FaultAt behind rest e := by
  induction h generalizing cursor with
  | @stuck before gap rest hgap hrest =>
    obtain ⟨fault, taken, ahead, hfound, rfl⟩ := hrest.found
    obtain ⟨after, hstep, -, hlineAfter⟩ := advance_fault hgap hfound hahead
    have hfault := (faultAt_of_found hfound (before ++ gap)).2
    rw [List.append_assoc, lineAfter_append, ← hline, ← hlineAfter] at hfault
    exact ⟨cursor, _, after, .here cursor, hstep, hfault⟩
  | @token before gap text ahead behind rest kind literal tokens hgap htext hmunch hrest ih =>
    obtain ⟨next, hstep, hnext, hlineNext⟩ := advance_lexeme hgap htext hmunch hahead
    have hlineText : next.line = lineAfter (before ++ gap ++ text) := by
      rw [hlineNext, hline, List.append_assoc, lineAfter_append]
    obtain ⟨last, e, after, hpasses, hfailed, hfault⟩ := ih hnext hlineText
    refine ⟨last, e, after, ?_, hfailed, hfault⟩
    rw [← hlineText]
    exact .token hstep hpasses

end Cursor

/-- A text has no tokens exactly if reading it comes to a place at which nothing
matches. The fault is then about this place, and a walk over the text meets the
tokens of the lexemes before it, the fault, and nothing from then on. -/
theorem tokenize_error_iff_halts (text : String) :
    ((∃ e, tokenize text = .error e) ↔
      ∃ tokens behind rest, Halts [] text.toList tokens behind rest) ∧
    ∀ tokens behind rest, Halts [] text.toList tokens behind rest →
      text.toList = behind ++ rest ∧ ∃ e, tokenize text = .error e ∧ FaultAt behind rest e ∧
        ∀ more, (SharedCursor.ofText text).addWalk.2.steps 0 (tokens.length + (more + 1)) =
          tokens.map (some ∘ .token) ++ some (.failed e) :: List.replicate more none := by
  have hline : (Cursor.atStart text.toList).line = lineAfter [] := rfl
  have hhalts (tokens : List Token) (behind rest : List Char)
      (h : Halts [] text.toList tokens behind rest) : ∃ e, tokenize text = .error e ∧
        FaultAt behind rest e ∧
        ∀ more, (SharedCursor.ofText text).addWalk.2.steps 0 (tokens.length + (more + 1)) =
          tokens.map (some ∘ .token) ++ some (.failed e) :: List.replicate more none := by
    obtain ⟨last, e, after, hpasses, hfailed, hfault⟩ := Cursor.passes_of_halts h rfl hline
    refine ⟨e, tokenize_eq_iff.mpr ⟨tokens, last, after, hpasses, hfailed⟩, hfault, ?_⟩
    exact SharedCursor.steps_of_passes (.inl ⟨rfl, rfl⟩) hpasses hfailed rfl
  constructor
  · constructor
    · rintro ⟨e, htokenize⟩
      obtain ⟨tokens, last, after, hpasses, hfailed⟩ := tokenize_eq_iff.mp htokenize
      obtain ⟨behind, rest, hhalts, -⟩ := Cursor.halts_of_passes hpasses hfailed hline
      exact ⟨tokens, behind, rest, hhalts⟩
    · rintro ⟨tokens, behind, rest, h⟩
      obtain ⟨e, htokenize, -⟩ := hhalts tokens behind rest h
      exact ⟨e, htokenize⟩
  · intro tokens behind rest h
    exact ⟨h.append_eq, hhalts tokens behind rest h⟩

/-- A number, a comment with a quote in it, and a string that is never closed. -/
def openString : String := "1 // \"\n \"a"

theorem halts_openString :
    Halts [] openString.toList [⟨.number, "1", .double (Numeral.toDouble ⟨['1'], []⟩), 1⟩]
      "1 // \"\n ".toList "\"a".toList := by
  have hnext : Reading.next '1' " // \"\n \"a".toList =
      ⟨.lexeme .number (.double (Numeral.toDouble ⟨['1'], []⟩)), ['1'],
        " // \"\n \"a".toList⟩ := rfl
  obtain ⟨htext, hmunch⟩ := (Reading.next_eq_iff.mp hnext).1.of_lexeme rfl
  have hfeed : ∀ c ∈ some '\n', c = '\n' := fun c hc => (Option.some.inj hc).symm
  have hgap : Gap "\"a".toList " // \"\n ".toList :=
    .blank rfl (@Gap.comment _ " \"".toList _ (by decide) hfeed (.blank rfl (.blank rfl .nil)))
  exact .token .nil htext hmunch (.stuck hgap (unreadable_iff.mpr (.inl ⟨['a'], rfl, by decide⟩)))

theorem openString_tokenize : ∃ e, tokenize openString = .error e ∧
    e.report = ⟨2, "", "unterminated string"⟩ ∧
    (SharedCursor.ofText openString).addWalk.2.steps 0 3 =
      [some (.token ⟨.number, "1", .double (Numeral.toDouble ⟨['1'], []⟩), 1⟩), some (.failed e),
        none] := by
  obtain ⟨-, e, htokenize, hfault, hsteps⟩ :=
    (tokenize_error_iff_halts openString).2 _ _ _ halts_openString
  refine ⟨e, htokenize, ?_, hsteps 1⟩
  rcases hfault with ⟨body, hrest, -, hreport⟩ | ⟨c, cs, hrest, hnothing, -⟩
  · exact hreport
  · obtain ⟨rfl, -⟩ := List.cons.inj hrest
    exact absurd rfl hnothing.ne_quote

end LoxGraph
