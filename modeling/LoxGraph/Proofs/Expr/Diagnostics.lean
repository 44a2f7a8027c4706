import Mathlib.Data.List.Forall2
import LoxGraph.Proofs.Cursor.Layout
import LoxGraph.Proofs.Expr.FirstParse

/-!
Mistakes come in the order of the text.

A reading goes over its tokens from left to right and finds each mistake at the token that it
stands before (`FoundOnWay`): at one that it then passes, at one that it leaves for what comes
after, or at the mark. So the mistakes of a parse point at tokens in their order, none of them
behind the first token left, and the lines of the reports of a text never fall.
-/

namespace LoxGraph

/-- The mistakes that are found on the way from some tokens to the last of them, each at the token
that comes next when it is found. `ending` comes next when no token is left. -/
inductive FoundOnWay (ending : Token) : List Token → List SyntaxError → List Token → Prop
  | here (tokens : List Token) : FoundOnWay ending tokens [] tokens
  | mistake {tokens rest : List Token} {e : SyntaxError} {errors : List SyntaxError}
      (place : e.token = tokens.headD ending) (others : FoundOnWay ending tokens errors rest) :
      FoundOnWay ending tokens (e :: errors) rest
  | pass {t : Token} {tokens rest : List Token} {errors : List SyntaxError}
      (others : FoundOnWay ending tokens errors rest) : FoundOnWay ending (t :: tokens) errors rest

namespace FoundOnWay

variable {ending : Token} {tokens between rest : List Token} {errors errors' : List SyntaxError}

theorem trans (h : FoundOnWay ending tokens errors between)
    (h' : FoundOnWay ending between errors' rest) :
    FoundOnWay ending tokens (errors ++ errors') rest := by
  induction h with
  | here tokens => exact h'
  | mistake place others ih => exact .mistake place (ih h')
  | pass others ih => exact .pass (ih h')

theorem rest_length_le (h : FoundOnWay ending tokens errors rest) :
    rest.length ≤ tokens.length := by
  induction h with
  | here tokens => exact Nat.le_refl _
  | mistake place others ih => exact ih
  | pass others ih => exact Nat.le_succ_of_le ih

/-- The places of mistakes, counted from the first token, rise, and none of them is behind the
first token left. -/
theorem exists_positions (h : FoundOnWay ending tokens errors rest) (after : List Token) :
    ∃ positions : List Nat, positions.Pairwise (· ≤ ·) ∧
      (∀ i ∈ positions, i + rest.length ≤ tokens.length) ∧
      List.Forall₂ (fun e i => (tokens ++ ending :: after)[i]? = some e.token) errors positions := by
  induction h with
  | here tokens => exact ⟨[], .nil, by simp, .nil⟩
  | @mistake tokens rest e errors place others ih =>
    obtain ⟨positions, hrises, hbelow, hfound⟩ := ih
    have hhead : (tokens ++ ending :: after)[0]? = some e.token := by
      rw [place]
      cases tokens <;> rfl
    have hlength := others.rest_length_le
    refine ⟨0 :: positions, List.pairwise_cons.mpr ⟨by simp, hrises⟩, ?_, .cons hhead hfound⟩
    rw [List.forall_mem_cons]
    exact ⟨by omega, hbelow⟩
  | @pass t tokens rest errors others ih =>
    obtain ⟨positions, hrises, hbelow, hfound⟩ := ih
    refine ⟨positions.map (· + 1), List.pairwise_map.mpr (hrises.imp Nat.succ_le_succ), ?_, ?_⟩
    · intro i hi
      obtain ⟨j, hj, rfl⟩ := List.mem_map.mp hi
      have hle := hbelow j hj
      simp only [List.length_cons]
      omega
    · rw [List.forall₂_map_right_iff]
      exact hfound

theorem token_mem (h : FoundOnWay ending tokens errors rest) :
    ∀ e ∈ errors, e.token ∈ tokens ++ [ending] := by
  induction h with
  | here tokens => simp
  | @mistake tokens rest e errors place others ih =>
    rw [List.forall_mem_cons, place]
    exact ⟨by cases tokens <;> simp, ih⟩
  | pass others ih => exact fun e he => List.mem_cons_of_mem _ (ih e he)

/-- Where the lines of tokens rise, those of mistakes do. -/
theorem lines_rise (h : FoundOnWay ending tokens errors rest)
    (hlines : (tokens ++ [ending]).Pairwise (·.line ≤ ·.line)) :
    errors.Pairwise (·.token.line ≤ ·.token.line) := by
  induction h with
  | here tokens => exact .nil
  | @mistake tokens rest e errors place others ih =>
    refine List.pairwise_cons.mpr ⟨?_, ih hlines⟩
    intro e' he'
    have hmem := others.token_mem e' he'
    rw [place]
    cases tokens with
    | nil => rw [List.mem_singleton.mp hmem]; exact Int.le_refl _
    | cons t tokens =>
      rcases List.mem_cons.mp hmem with hsame | hbehind
      · rw [hsame]; exact Int.le_refl _
      · exact (List.pairwise_cons.mp hlines).1 _ hbehind
  | pass others ih => exact ih (List.pairwise_cons.mp hlines).2

end FoundOnWay

/-- A reading finds its mistakes on its way. -/
theorem Reads.foundOnWay {ending : Token} {budget : Nat} {part : Part} {tokens : List Token}
    {outcome : Outcome Expr} (h : Reads ending budget part tokens outcome) :
    FoundOnWay ending tokens outcome.errors outcome.rest := by
  induction h with
  | chain first others ihFirst ihOthers =>
    rw [Outcome.errors_after, Outcome.rest_after]
    exact ihFirst.trans ihOthers
  | chainTooDeep first ih => exact ih
  | noLink stop => exact .here _
  | link here next others ihNext ihOthers =>
    rw [Outcome.errors_after, Outcome.rest_after]
    exact .pass (ihNext.trans ihOthers)
  | linkTooDeep here next ih => exact .pass ih
  | nothing => exact .mistake rfl (.here [])
  | literal here => exact .pass (.here _)
  | sign here inner ih => exact .pass ih
  | signTooDeep here inner ih => exact .pass ih
  | group here inner closed ih =>
    have hclosed := ih.trans (.pass (.here _))
    rw [List.append_nil] at hclosed
    exact .pass hclosed
  | openGroup here inner unclosed ih =>
    -- The token in place of the parenthesis is found wanting, but not passed.
    exact .pass (ih.trans (.mistake rfl (.here _)))
  | groupTooDeep here inner ih => exact .pass ih
  | pastLimit here => exact .mistake rfl (.pass (.here _))
  | unexpected noLiteral noSign noGroup => exact .mistake rfl (.pass (.here _))

/-- Whether the report of a mistake names a token: its line, and what it looks like there. -/
def SyntaxError.PointsAt (e : SyntaxError) (t : Token) : Prop :=
  e.report.line = t.line ∧
    e.report.location = if t.kind = .endOfText then "at end" else "at '" ++ t.lexeme ++ "'"

theorem SyntaxError.pointsAt_token (e : SyntaxError) : e.PointsAt e.token := ⟨rfl, rfl⟩

/-- The mistakes of the first parse of a list point at tokens in the order of the list, up to the
first token that is not consumed. -/
theorem firstParse?_errors_pointAt {ts : List Token} (h : EndsInMark ts) (limit : Int) :
    ∃ tree session positions, firstParse? ts limit = some (tree, session) ∧
      positions.Pairwise (· ≤ ·) ∧ (∀ i ∈ positions, i ≤ session.consumed) ∧
      List.Forall₂ (fun e i => ∃ t ∈ ts[i]?, e.PointsAt t) session.errors positions := by
  obtain ⟨stream, after, session, hts, hparse, herrors, hconsumed⟩ :=
    firstParse?_of_endsInMark h limit
  have hreads := Expr.reads_parse stream.ending limit.toNat stream.tokens
  obtain ⟨positions, hrises, hbelow, hfound⟩ := hreads.foundOnWay.exists_positions after
  rw [← hts, ← herrors] at hfound
  refine ⟨_, session, positions, hparse, hrises, ?_, ?_⟩
  · intro i hi
    have hle := hbelow i hi
    omega
  · exact hfound.imp fun e i ht => ⟨e.token, ht, e.pointsAt_token⟩

/-- The lines of the mistakes in a text rise, from the first line of the text to the last. -/
theorem TokenStream.parse_lines_rise {text : String} {stream : TokenStream}
    (h : tokenize text = .ok stream) :
    (stream.parse.errors.map (·.report.line)).Pairwise (· ≤ ·) ∧
      ∀ e ∈ stream.parse.errors, 1 ≤ e.report.line ∧ e.report.line ≤ stream.ending.line := by
  obtain ⟨hrises, hlines⟩ := tokenize_lines_rise h
  have hway :=
    (Expr.reads_parse stream.ending defaultNestingLimit.toNat stream.tokens).foundOnWay
  rw [stream.parse_eq]
  exact ⟨List.pairwise_map.mpr (hway.lines_rise hrises), fun e he => hlines _ (hway.token_mem e he)⟩

/-- Mistakes are reported in the order of the text. Those of the first parse of any list point at
tokens in the order of the list, none behind the first token that is not consumed. So the lines in
the reports of a text that has tokens never fall, and they are lines of the text. -/
theorem errors_in_order :
    (∀ ts, EndsInMark ts → ∀ limit, ∃ tree session positions,
      firstParse? ts limit = some (tree, session) ∧
      positions.Pairwise (· ≤ ·) ∧ (∀ i ∈ positions, i ≤ session.consumed) ∧
      List.Forall₂ (fun e i => ∃ t ∈ ts[i]?, e.PointsAt t) session.errors positions) ∧
    ∀ text stream, tokenize text = .ok stream → ∃ result, parseText text = .ok result ∧
      (result.errors.map (·.report.line)).Pairwise (· ≤ ·) ∧
      ∀ e ∈ result.errors, 1 ≤ e.report.line ∧ e.report.line ≤ stream.ending.line := by
  refine ⟨fun ts h limit => firstParse?_errors_pointAt h limit, ?_⟩
  intro text stream h
  exact ⟨stream.parse, by rw [parseText, h]; rfl, TokenStream.parse_lines_rise h⟩

/-- Two groups that nothing closes. -/
def openGroups : List Token :=
  [⟨.leftParen, "(", .none, 1⟩, ⟨.leftParen, "(", .none, 1⟩, ⟨.nilWord, "nil", .none, 1⟩,
   ⟨.comma, ",", .none, 2⟩, .endOfText 2]

/-- Both mistakes of the list are found at the comma, which is left. In the text, the second one is
found at a string that goes on to the second line. -/
theorem openGroups_errors_in_order :
    (EndsInMark openGroups ∧ ∃ session positions,
      firstParse? openGroups 50 = some (.error, session) ∧ session.consumed = 3 ∧
      session.errors = List.replicate 2 ⟨⟨.comma, ",", .none, 2⟩, .expectedClosing⟩ ∧
      positions = [3, 3] ∧
      List.Forall₂ (fun e i => ∃ t ∈ openGroups[i]?, e.PointsAt t) session.errors positions) ∧
    ∃ stream, tokenize "(+ \"a\n\" ,\n* " = .ok stream ∧ stream.ending.line = 3 ∧
      ∃ result, parseText "(+ \"a\n\" ,\n* " = .ok result ∧
        result.errors.map (·.report.line) = [1, 2] ∧
        (result.errors.map (·.report.line)).Pairwise (· ≤ ·) ∧
        ∀ e ∈ result.errors, 1 ≤ e.report.line ∧ e.report.line ≤ stream.ending.line := by
  obtain ⟨hlists, htexts⟩ := errors_in_order
  constructor
  · obtain ⟨tree, session, positions, hparse, -, hbelow, hfound⟩ :=
      hlists openGroups (by decide) 50
    have hread : firstParse? openGroups 50 = some (.error,
        { ahead := [⟨.comma, ",", .none, 2⟩], ending := .endOfText 2, limit := 50, consumed := 3
          nesting := 0
          errors := List.replicate 2 ⟨⟨.comma, ",", .none, 2⟩, .expectedClosing⟩ }) := by
      decide +kernel
    cases hparse.symm.trans hread
    -- Of the tokens up to the comma, it is the only one on the second line.
    have hcomma : ∀ i ≤ 3, (∃ t ∈ openGroups[i]?, (2 : Int) = t.line) → i = 3 := by decide
    refine ⟨by decide, _, positions, hread, rfl, rfl, ?_, hfound⟩
    rcases hfound with _ | ⟨⟨t, ht, hline, -⟩, _ | ⟨⟨t', ht', hline', -⟩, _ | _⟩⟩
    simp only [List.mem_cons, List.not_mem_nil, or_false, forall_eq_or_imp, forall_eq] at hbelow
    rw [hcomma _ hbelow.1 ⟨t, ht, hline⟩, hcomma _ hbelow.2 ⟨t', ht', hline'⟩]
  · obtain ⟨stream, hstream⟩ := exists_stream_of_toBool
      (show (tokenize "(+ \"a\n\" ,\n* ").toBool = true by decide +kernel)
    obtain ⟨result, hresult, hlines⟩ := htexts _ stream hstream
    have hending : (tokenize "(+ \"a\n\" ,\n* ").toOption.map (·.ending.line) = some 3 := by
      decide +kernel
    have hreports : (parseText "(+ \"a\n\" ,\n* ").toOption.map
        (fun result => result.errors.map (·.report.line)) = some [1, 2] := by decide +kernel
    rw [hstream] at hending
    rw [hresult] at hreports
    exact ⟨stream, hstream, Option.some.inj hending, result, hresult, Option.some.inj hreports,
      hlines⟩

end LoxGraph
