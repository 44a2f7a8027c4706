import LoxGraph.Expr.Session
import LoxGraph.Proofs.Expr.Reads

/-!
The first parse of a list of tokens.

A list that ends in a mark has a first parse, whatever else is in it
(`firstParse?_of_endsInMark`). What the parse leaves behind is told by one
reading of the tokens before the first mark.
-/

namespace LoxGraph

/-- Whether the last token of a list marks the end of a text. -/
def EndsInMark (ts : List Token) : Prop := ∃ t ∈ ts.getLast?, t.kind = .endOfText

instance (ts : List Token) : Decidable (EndsInMark ts) :=
  inferInstanceAs (Decidable (∃ t ∈ ts.getLast?, t.kind = .endOfText))

namespace TokenStream

/-- A stream is what stands in a list up to the first mark. -/
theorem ofTokens?_eq_some {ts : List Token} {stream : TokenStream}
    (h : ofTokens? ts = some stream) : ∃ after, ts = stream.tokens ++ stream.ending :: after := by
  unfold ofTokens? at h
  split at h
  · split at h
    · cases h
    · rename_i ending hfind
      obtain ⟨hending, before, after, hts, hbefore⟩ := List.find?_eq_some_iff_append.mp hfind
      cases h
      refine ⟨after, ?_⟩
      have htake : ts.takeWhile (·.kind != .endOfText) = before := by
        rw [hts, List.takeWhile_append_of_pos (by simpa [bne] using hbefore),
          List.takeWhile_cons_of_neg (by simpa using hending), List.append_nil]
      simpa only [htake] using hts
  · cases h

theorem ofTokens?_of_endsInMark {ts : List Token} (h : EndsInMark ts) :
    ∃ stream, ofTokens? ts = some stream := by
  obtain ⟨t, hlast, hkind⟩ := h
  unfold ofTokens?
  rw [if_pos (by simp [Option.mem_def.mp hlast, hkind])]
  split
  · rename_i hfind
    have hnone := List.find?_eq_none.mp hfind t (List.mem_of_getLast? hlast)
    simp [hkind] at hnone
  · exact ⟨_, rfl⟩

end TokenStream

/-- The signs and parentheses that an outcome leaves open: all that the budget allows and
one more, where the expression was given up. -/
def Outcome.leftOpen {α : Type} (budget : Nat) : Outcome α → Int
  | done _ _ _ => 0
  | tooDeep _ _ => budget + 1

namespace ParseSession

theorem parse_fst (s : ParseSession) :
    s.parse.1 = (Expr.parse s.ending s.budget s.ahead).tree := by
  unfold parse
  split <;> simp_all

theorem parse_ending (s : ParseSession) : s.parse.2.ending = s.ending := by
  unfold parse
  split <;> rfl

theorem parse_ahead (s : ParseSession) :
    s.parse.2.ahead = (Expr.parse s.ending s.budget s.ahead).rest := by
  unfold parse
  split <;> simp_all [proceed]

theorem parse_errors (s : ParseSession) :
    s.parse.2.errors = s.errors ++ (Expr.parse s.ending s.budget s.ahead).errors := by
  unfold parse
  split <;> simp_all [proceed]

theorem parse_consumed (s : ParseSession) :
    s.parse.2.consumed =
      s.consumed + (s.ahead.length - (Expr.parse s.ending s.budget s.ahead).rest.length) := by
  unfold parse
  split <;> simp_all [proceed]

theorem parse_nesting (s : ParseSession) :
    s.parse.2.nesting =
      s.nesting + (Expr.parse s.ending s.budget s.ahead).leftOpen s.budget := by
  unfold parse
  split <;> simp_all [proceed, Outcome.leftOpen, Int.add_assoc]

theorem budget_start (stream : TokenStream) (limit : Int) :
    (start stream limit).budget = limit.toNat := by
  simp [budget, start]

end ParseSession

/-- The parse of a stream is one reading of its tokens. -/
theorem TokenStream.parse_eq (stream : TokenStream) :
    let outcome := Expr.parse stream.ending defaultNestingLimit.toNat stream.tokens
    stream.parse = ⟨outcome.tree, outcome.errors⟩ := by
  have htree := ParseSession.parse_fst (.start stream defaultNestingLimit)
  have herrors := ParseSession.parse_errors (.start stream defaultNestingLimit)
  rw [ParseSession.budget_start] at htree herrors
  exact (ParseResult.mk.injEq ..).mpr ⟨htree, herrors⟩

/-- The first parse of a list of tokens under a limit on nesting: its tree, and
the session after it. -/
def firstParse? (ts : List Token) (limit : Int) : Option (Expr × ParseSession) :=
  (TokenStream.ofTokens? ts).map fun stream => (ParseSession.start stream limit).parse

/-- The first parse of a list is that of its stream. -/
theorem firstParse?_of_ofTokens? {ts : List Token} {stream : TokenStream}
    (h : TokenStream.ofTokens? ts = some stream) (limit : Int) :
    firstParse? ts limit = some ((ParseSession.start stream limit).parse.1,
      (ParseSession.start stream limit).parse.2) := by
  rw [firstParse?, h, Option.map_some]

/-- The first parse of a list that ends in a mark is a reading of the tokens
before its first mark, of which some are left. -/
theorem firstParse?_of_endsInMark {ts : List Token} (h : EndsInMark ts) (limit : Int) :
    ∃ (stream : TokenStream) (after : List Token) (session : ParseSession),
      ts = stream.tokens ++ stream.ending :: after ∧
      let outcome := Expr.parse stream.ending limit.toNat stream.tokens
      firstParse? ts limit = some (outcome.tree, session) ∧
      session.errors = outcome.errors ∧
      session.consumed + outcome.rest.length = stream.tokens.length := by
  obtain ⟨stream, hstream⟩ := TokenStream.ofTokens?_of_endsInMark h
  obtain ⟨after, hts⟩ := TokenStream.ofTokens?_eq_some hstream
  have hbudget := ParseSession.budget_start stream limit
  have hrest :=
    (Expr.reads_parse stream.ending limit.toNat stream.tokens).rest_suffix.length_le
  refine ⟨stream, after, (ParseSession.start stream limit).parse.2, hts, ?_, ?_, ?_⟩
  · simp only [firstParse?, hstream, Option.map_some, Option.some.injEq]
    ext1
    · rw [ParseSession.parse_fst, hbudget]
      rfl
    · rfl
  · rw [ParseSession.parse_errors, hbudget]
    rfl
  · rw [ParseSession.parse_consumed, hbudget]
    simp only [ParseSession.start]
    omega

end LoxGraph
