import LoxGraph.Proofs.Expr.Budget
import LoxGraph.Proofs.Text.Span

/-!
One token of look-ahead.

A reading takes tokens from the front and looks at the first one that it leaves, or at the mark
when it leaves none. Whatever comes behind that token may be exchanged: the same tokens are taken,
with the same tree and the same mistakes (`Reads.lookahead`). So two lists that agree up to the
first token that the first parse of one of them leaves have the same first parse.
-/

namespace LoxGraph

/-- Whether the same token comes next, the mark where no token is left. -/
def SameNext (ending : Token) (rest : List Token) (ending' : Token) (rest' : List Token) : Prop :=
  rest.head? = rest'.head? ∧ (rest = [] → ending = ending')

namespace SameNext

variable {ending ending' : Token} {rest rest' : List Token}

/-- What comes next is the same when the same tokens come before it. -/
theorem append (h : SameNext ending rest ending' rest') (front : List Token) :
    SameNext ending (front ++ rest) ending' (front ++ rest') := by
  cases front with
  | nil => exact h
  | cons t front => exact ⟨rfl, by simp⟩

theorem headD_eq (h : SameNext ending rest ending' rest') :
    rest'.headD ending' = rest.headD ending := by
  rw [List.headD_eq_head?_getD, List.headD_eq_head?_getD, ← h.1]
  cases rest with
  | nil => exact (h.2 rfl).symm
  | cons t rest => rfl

end SameNext

namespace Outcome

variable {α : Type}

/-- The same outcome with other tokens left. -/
def leaving (rest : List Token) : Outcome α → Outcome α
  | done value errors _ => done value errors rest
  | tooDeep errors _ => tooDeep errors rest

@[simp] theorem tree_leaving (rest : List Token) (o : Outcome Expr) :
    (o.leaving rest).tree = o.tree := by
  cases o <;> rfl

@[simp] theorem errors_leaving (rest : List Token) (o : Outcome α) :
    (o.leaving rest).errors = o.errors := by
  cases o <;> rfl

@[simp] theorem rest_leaving (rest : List Token) (o : Outcome α) :
    (o.leaving rest).rest = rest := by
  cases o <;> rfl

@[simp] theorem leftOpen_leaving (rest : List Token) (budget : Nat) (o : Outcome α) :
    (o.leaving rest).leftOpen budget = o.leftOpen budget := by
  cases o <;> rfl

theorem leaving_after (rest : List Token) (earlier : List SyntaxError) (o : Outcome α) :
    (o.after earlier).leaving rest = (o.leaving rest).after earlier := by
  cases o <;> rfl

end Outcome

/-- What a reading leaves may be exchanged for any other tokens that begin alike. -/
theorem Reads.lookahead {ending : Token} {budget : Nat} {part : Part} {tokens : List Token}
    {outcome : Outcome Expr} (h : Reads ending budget part tokens outcome) :
    ∃ front, tokens = front ++ outcome.rest ∧ ∀ ending' rest',
      SameNext ending outcome.rest ending' rest' →
      Reads ending' budget part (front ++ rest') (outcome.leaving rest') := by
  -- What a part leaves is what the next part takes and leaves, so the tokens that the next part
  -- takes come in front of those that are exchanged.
  induction h with
  | chain first others ihFirst ihOthers =>
    obtain ⟨front, rfl, hfirst⟩ := ihFirst
    obtain ⟨between, hbetween, hothers⟩ := ihOthers
    rw [Outcome.rest_done] at hfirst ⊢
    rw [Outcome.rest_after]
    refine ⟨front ++ between, by rw [hbetween, List.append_assoc], fun ending' rest' hnext => ?_⟩
    rw [List.append_assoc, Outcome.leaving_after]
    refine .chain (hfirst ending' (between ++ rest') ?_) (hothers ending' rest' hnext)
    rw [hbetween]
    exact hnext.append between
  | chainTooDeep first ih =>
    obtain ⟨front, htokens, hfirst⟩ := ih
    exact ⟨front, htokens, fun ending' rest' hnext => .chainTooDeep (hfirst ending' rest' hnext)⟩
  | noLink stop =>
    refine ⟨[], rfl, fun ending' rest' hnext => .noLink ?_⟩
    rw [List.nil_append, ← hnext.1]
    exact stop
  | link here next others ihNext ihOthers =>
    obtain ⟨front, rfl, hfirst⟩ := ihNext
    obtain ⟨between, hbetween, hothers⟩ := ihOthers
    rw [Outcome.rest_done] at hfirst ⊢
    rw [Outcome.rest_after]
    refine ⟨_ :: (front ++ between), by rw [hbetween, List.cons_append, List.append_assoc],
      fun ending' rest' hnext => ?_⟩
    rw [List.cons_append, List.append_assoc, Outcome.leaving_after]
    refine .link here (hfirst ending' (between ++ rest') ?_) (hothers ending' rest' hnext)
    rw [hbetween]
    exact hnext.append between
  | linkTooDeep here next ih =>
    obtain ⟨front, rfl, hnext'⟩ := ih
    exact ⟨_ :: front, rfl,
      fun ending' rest' hnext => .linkTooDeep here (hnext' ending' rest' hnext)⟩
  | nothing =>
    refine ⟨[], rfl, fun ending' rest' hnext => ?_⟩
    obtain rfl : rest' = [] := List.head?_eq_none_iff.mp hnext.1.symm
    obtain rfl := hnext.2 rfl
    exact .nothing
  | @literal budget t rest l here => exact ⟨[t], rfl, fun ending' rest' hnext => .literal here⟩
  | @sign budget t tokens child errors rest here inner ih =>
    obtain ⟨front, rfl, hinner⟩ := ih
    exact ⟨t :: front, rfl, fun ending' rest' hnext => .sign here (hinner ending' rest' hnext)⟩
  | @signTooDeep budget t tokens errors rest here inner ih =>
    obtain ⟨front, rfl, hinner⟩ := ih
    exact ⟨t :: front, rfl,
      fun ending' rest' hnext => .signTooDeep here (hinner ending' rest' hnext)⟩
  | @group budget t tokens inside errors close rest here inner closed ih =>
    obtain ⟨front, rfl, hinner⟩ := ih
    refine ⟨t :: (front ++ [close]), by simp, fun ending' rest' hnext => ?_⟩
    rw [List.cons_append, List.append_assoc]
    exact .group here (hinner ending' (close :: rest') ⟨rfl, by simp⟩) closed
  | @openGroup budget t tokens inside errors rest here inner unclosed ih =>
    obtain ⟨front, rfl, hinner⟩ := ih
    refine ⟨t :: front, rfl, fun ending' rest' hnext => ?_⟩
    have hhead : rest'.headD ending' = rest.headD ending := hnext.headD_eq
    rw [Outcome.leaving, ← hhead]
    refine .openGroup here (hinner ending' rest' hnext) ?_
    rw [← hnext.1]
    exact unclosed
  | @groupTooDeep budget t tokens errors rest here inner ih =>
    obtain ⟨front, rfl, hinner⟩ := ih
    exact ⟨t :: front, rfl,
      fun ending' rest' hnext => .groupTooDeep here (hinner ending' rest' hnext)⟩
  | @pastLimit t rest here => exact ⟨[t], rfl, fun ending' rest' hnext => .pastLimit here⟩
  | @unexpected budget t rest noLiteral noSign noGroup =>
    exact ⟨[t], rfl, fun ending' rest' hnext => .unexpected noLiteral noSign noGroup⟩

namespace TokenStream

variable {ts front : List Token} {stream : TokenStream}

/-- A list begins with the first tokens of its stream and what comes next. -/
theorem prefix_of_split (h : ofTokens? ts = some stream) {rest : List Token}
    (hsplit : stream.tokens = front ++ rest) : front ++ [rest.headD stream.ending] <+: ts := by
  obtain ⟨after, rfl⟩ := ofTokens?_eq_some h
  rw [hsplit, List.append_assoc, List.prefix_append_right_inj]
  cases rest with
  | nil => exact ⟨after, rfl⟩
  | cons t rest => exact ⟨rest ++ stream.ending :: after, rfl⟩

/-- Tokens that a list begins with are the first of its stream when none of them is a mark. -/
theorem split_of_prefix (h : ofTokens? ts = some stream) {next : Token}
    (hfront : ∀ t ∈ front, t.kind ≠ .endOfText) (hstart : front ++ [next] <+: ts) :
    ∃ rest, stream.tokens = front ++ rest ∧ rest.headD stream.ending = next := by
  obtain ⟨after, rfl⟩ := ofTokens?_eq_some h
  have hinside : front <+: stream.tokens := by
    rcases prefix_or_mem_of_prefix_append_cons ((List.prefix_append _ _).trans hstart) with
      hinside | hmem
    · exact hinside
    · exact absurd stream.ending_kind (hfront _ hmem)
  obtain ⟨rest, hrest⟩ := hinside
  refine ⟨rest, hrest.symm, ?_⟩
  rw [← hrest, List.append_assoc, List.prefix_append_right_inj] at hstart
  cases rest with
  | nil => exact (List.cons_prefix_cons.mp hstart).1.symm
  | cons t rest => exact (List.cons_prefix_cons.mp hstart).1.symm

end TokenStream

/-- No token before a mark is of its kind, so the next token tells whether any is left. -/
theorem SameNext.of_headD {ending ending' : Token} {rest rest' : List Token}
    (hending : ending.kind = .endOfText) (hending' : ending'.kind = .endOfText)
    (hrest : ∀ t ∈ rest, t.kind ≠ .endOfText) (hrest' : ∀ t ∈ rest', t.kind ≠ .endOfText)
    (h : rest'.headD ending' = rest.headD ending) : SameNext ending rest ending' rest' := by
  cases rest with
  | nil =>
    cases rest' with
    | nil => exact ⟨rfl, fun _ => h.symm⟩
    | cons t' rest' =>
      obtain rfl : t' = ending := h
      exact absurd hending (hrest' _ List.mem_cons_self)
  | cons t rest =>
    cases rest' with
    | nil =>
      obtain rfl : ending' = t := h
      exact absurd hending' (hrest _ List.mem_cons_self)
    | cons t' rest' =>
      obtain rfl : t' = t := h
      exact ⟨rfl, by simp⟩

/-- A front of a list is one of any other that agrees so far. -/
theorem prefix_of_agree {front ts ts' : List Token} (h : front <+: ts)
    (hagree : ∀ i < front.length, ts'[i]? = ts[i]?) : front <+: ts' := by
  rw [List.prefix_iff_getElem?] at h ⊢
  intro i hi
  rw [hagree i hi]
  exact h i hi

theorem Expr.parse_lookahead (ending : Token) (budget : Nat) (tokens : List Token) :
    let outcome := Expr.parse ending budget tokens
    ∃ front, tokens = front ++ outcome.rest ∧ ∀ ending' rest',
      SameNext ending outcome.rest ending' rest' →
      Expr.parse ending' budget (front ++ rest') = outcome.leaving rest' := by
  intro outcome
  obtain ⟨front, htokens, hreads⟩ := (Expr.reads_parse ending budget tokens).lookahead
  exact ⟨front, htokens, fun ending' rest' hnext => (hreads ending' rest' hnext).reader_eq⟩

/-- Nothing behind the first token that the first parse of a list leaves can influence it. If
another list has the same tokens up to that one, its first parse makes the same tree and the same
mistakes, and ends at the same place with as much left open. -/
theorem firstParse?_of_agree {ts ts' : List Token} (h : EndsInMark ts) (h' : EndsInMark ts')
    (limit : Int) :
    ∃ tree session tree' session', firstParse? ts limit = some (tree, session) ∧
      firstParse? ts' limit = some (tree', session') ∧ session.consumed < ts.length ∧
      ((∀ i ≤ session.consumed, ts'[i]? = ts[i]?) → tree' = tree ∧
        session'.errors = session.errors ∧ session'.consumed = session.consumed ∧
        session'.nesting = session.nesting) := by
  obtain ⟨stream, hstream⟩ := TokenStream.ofTokens?_of_endsInMark h
  obtain ⟨stream', hstream'⟩ := TokenStream.ofTokens?_of_endsInMark h'
  obtain ⟨htree, herrors, hconsumed, hnesting⟩ := ParseSession.parse_start stream limit
  obtain ⟨htree', herrors', hconsumed', hnesting'⟩ := ParseSession.parse_start stream' limit
  obtain ⟨front, hfront, hexchange⟩ :=
    Expr.parse_lookahead stream.ending limit.toNat stream.tokens
  refine ⟨_, _, _, _, firstParse?_of_ofTokens? hstream limit,
    firstParse?_of_ofTokens? hstream' limit, ?_⟩
  rw [htree, htree', herrors, herrors', hconsumed, hconsumed', hnesting, hnesting']
  generalize Expr.parse stream.ending limit.toNat stream.tokens = outcome at hfront hexchange ⊢
  have hplace : stream.tokens.length - outcome.rest.length = front.length := by
    rw [hfront, List.length_append, Nat.add_sub_cancel]
  have hstart := TokenStream.prefix_of_split hstream hfront
  have hlength : (front ++ [outcome.rest.headD stream.ending]).length = front.length + 1 :=
    List.length_append
  have hlast := hstart.length_le
  rw [hlength] at hlast
  rw [hplace]
  refine ⟨hlast, fun hagree => ?_⟩
  have hstart' : front ++ [outcome.rest.headD stream.ending] <+: ts' := by
    apply prefix_of_agree hstart
    intro i hi
    rw [hlength] at hi
    exact hagree i (Nat.le_of_lt_succ hi)
  have hkinds : ∀ t ∈ front ++ outcome.rest, t.kind ≠ .endOfText := hfront ▸ stream.tokens_kind
  rw [List.forall_mem_append] at hkinds
  obtain ⟨rest', hfront', hnext⟩ := TokenStream.split_of_prefix hstream' hkinds.1 hstart'
  have hkinds' : ∀ t ∈ front ++ rest', t.kind ≠ .endOfText := hfront' ▸ stream'.tokens_kind
  rw [List.forall_mem_append] at hkinds'
  have hsame : Expr.parse stream'.ending limit.toNat stream'.tokens = outcome.leaving rest' := by
    rw [hfront']
    exact hexchange _ _ (.of_headD stream.ending_kind stream'.ending_kind hkinds.2 hkinds'.2 hnext)
  rw [hsame, hfront']
  simp

/-- A group that a comma breaks off. -/
def brokenOff : List Token :=
  [⟨.leftParen, "(", .none, 1⟩, ⟨.nilWord, "nil", .none, 1⟩, ⟨.comma, ",", .none, 2⟩,
   ⟨.rightParen, ")", .none, 2⟩, .endOfText 2]

/-- The same up to the comma, and then a mark among other tokens. -/
def brokenOffElse : List Token :=
  [⟨.leftParen, "(", .none, 1⟩, ⟨.nilWord, "nil", .none, 1⟩, ⟨.comma, ",", .none, 2⟩,
   ⟨.star, "*", .none, 7⟩, .endOfText 7, ⟨.bang, "!", .none, 8⟩, .endOfText 9]

theorem brokenOff_agree : EndsInMark brokenOff ∧ EndsInMark brokenOffElse ∧
    ∃ tree session tree' session', firstParse? brokenOff 50 = some (tree, session) ∧
      firstParse? brokenOffElse 50 = some (tree', session') ∧
      session.consumed < brokenOff.length ∧
      (∀ i ≤ session.consumed, brokenOffElse[i]? = brokenOff[i]?) ∧ tree' = tree ∧
        session'.errors = session.errors ∧ session'.consumed = session.consumed ∧
        session'.nesting = session.nesting := by
  obtain ⟨tree, session, tree', session', hfirst, hfirst', hlt, hsame⟩ :=
    @firstParse?_of_agree brokenOff brokenOffElse (by decide) (by decide) 50
  have hconsumed : session.consumed = 2 := by
    have hplace : (firstParse? brokenOff 50).map (·.2.consumed) = some 2 := by decide
    rw [hfirst] at hplace
    exact Option.some.inj hplace
  have hagree : ∀ i ≤ session.consumed, brokenOffElse[i]? = brokenOff[i]? := by
    rw [hconsumed]
    decide
  exact ⟨by decide, by decide, tree, session, tree', session', hfirst, hfirst', hlt, hagree,
    hsame hagree⟩

end LoxGraph
