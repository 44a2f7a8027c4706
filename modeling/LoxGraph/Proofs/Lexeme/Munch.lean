import LoxGraph.Lexeme.Reading
import LoxGraph.Proofs.Lexeme.Grammar

/-!
Maximal munch.

What a reading finds at the front of a text is told by the grammar alone: a
blank, a comment, the longest lexeme, or a fault where nothing else stands
(`Reading.next_eq_iff`). A slash directly before another slash is never a
lexeme.
-/

namespace LoxGraph

/-- Whether a lexeme at the front of a text is taken there: no lexeme that
stands there is longer, and no comment does. -/
structure Munch (lexeme rest : List Char) : Prop where
  longest : ∀ longer kind literal, IsLexeme longer kind literal → longer <+: lexeme ++ rest →
    longer.length ≤ lexeme.length
  not_comment : ¬ ['/', '/'] <+: lexeme ++ rest

theorem munch_cons {c : Char} {ds rest : List Char} (hslash : Opening.of c ≠ .slash)
    (hlongest : ∀ cs kind literal, (Opening.of c).Continues c cs kind literal → cs <+: ds ++ rest →
      cs.length ≤ ds.length) : Munch (c :: ds) rest := by
  constructor
  · intro longer kind literal hlonger hstart
    obtain ⟨d, cs, rfl, hcontinues⟩ := hlonger.continues
    obtain ⟨rfl, hcs⟩ := List.cons_prefix_cons.mp hstart
    exact Nat.succ_le_succ (hlongest cs kind literal hcontinues hcs)
  · intro hcomment
    obtain ⟨rfl, -⟩ := List.cons_prefix_cons.mp hcomment
    exact hslash rfl

namespace Reading

/-- What may be found at the front of the text that a reading splits. -/
inductive Found : Reading → Prop
  | blank {c : Char} {rest : List Char} (hblank : isBlank c) : Found ⟨.gap, [c], rest⟩
  | comment {body rest : List Char} (hbody : '\n' ∉ body) (hrest : ∀ c ∈ rest.head?, c = '\n') :
      Found ⟨.gap, '/' :: '/' :: body, rest⟩
  | lexeme {text rest : List Char} {kind : TokenKind} {literal : Value}
      (htext : IsLexeme text kind literal) (hmunch : Munch text rest) :
      Found ⟨.lexeme kind literal, text, rest⟩
  | openQuotation {body : List Char} (hbody : '"' ∉ body) :
      Found ⟨.fault .unterminatedString, '"' :: body, []⟩
  | unknown {c : Char} {rest : List Char} (hblank : isBlank c = false) (hquote : c ≠ '"')
      (hnone : ∀ text kind literal, IsLexeme text kind literal → ¬ text <+: c :: rest) :
      Found ⟨.fault (.unknownCharacter c), [c], rest⟩

theorem Found.of_lexeme {r : Reading} {kind : TokenKind} {literal : Value} (h : Found r)
    (hpiece : r.piece = .lexeme kind literal) :
    IsLexeme r.taken kind literal ∧ Munch r.taken r.rest := by
  cases h with
  | lexeme htext hmunch =>
    obtain ⟨rfl, rfl⟩ := Piece.lexeme.inj hpiece
    exact ⟨htext, hmunch⟩
  | blank | comment | openQuotation | unknown => exact nomatch hpiece

theorem next_eq (c : Char) (cs : List Char) :
    next c cs = match Opening.of c with
      | .punctuation kind => ⟨.lexeme kind .none, [c], cs⟩
      | .comparison alone withEqual => comparison c alone withEqual cs
      | .slash => slash cs
      | .blank => ⟨.gap, [c], cs⟩
      | .quote => quotation cs
      | .digit => numeral c cs
      | .letter => name c cs
      | .nothing => ⟨.fault (.unknownCharacter c), [c], cs⟩ := by
  unfold next Opening.of
  repeat' split
  all_goals simp_all

/-- A lexeme is found if its first character opens none that is longer. -/
theorem found_of_opening {c : Char} {ds rest : List Char} {kind : TokenKind} {literal : Value}
    {opening : Opening} (hopening : Opening.of c = opening) (hslash : opening ≠ .slash)
    (htext : opening.Continues c ds kind literal)
    (hlongest : ∀ cs kind literal, opening.Continues c cs kind literal → cs <+: ds ++ rest →
      cs.length ≤ ds.length) : Found ⟨.lexeme kind literal, c :: ds, rest⟩ := by
  subst hopening
  exact .lexeme (isLexeme_of_continues htext) (munch_cons hslash hlongest)

theorem found_punctuation {c : Char} {kind : TokenKind} (h : Opening.of c = .punctuation kind)
    (cs : List Char) : Found ⟨.lexeme kind .none, [c], cs⟩ := by
  apply found_of_opening h (by simp)
  · exact ⟨rfl, rfl, rfl⟩
  · rintro longer - - ⟨rfl, -⟩ -
    exact Nat.le_refl 0

theorem found_comparison {c : Char} {alone withEqual : TokenKind}
    (h : Opening.of c = .comparison alone withEqual) (cs : List Char) :
    Found (comparison c alone withEqual cs) := by
  unfold comparison
  split
  · rename_i rest
    apply found_of_opening h (by simp)
    · exact ⟨.inr ⟨rfl, rfl⟩, rfl⟩
    · rintro longer - - ⟨⟨rfl, -⟩ | ⟨rfl, -⟩, -⟩ - <;> simp
  · rename_i hequal
    apply found_of_opening h (by simp)
    · exact ⟨.inl ⟨rfl, rfl⟩, rfl⟩
    · rintro longer - - ⟨⟨rfl, -⟩ | ⟨rfl, -⟩, -⟩ hstart
      · simp
      · obtain ⟨rest, hrest⟩ := hstart
        exact absurd hrest.symm (hequal rest)

theorem found_slash (cs : List Char) : Found (slash cs) := by
  unfold slash
  split
  · rename_i rest
    apply Found.comment (not_mem_takeWhile_bne '\n' rest)
    intro c hc
    simpa using head?_dropWhile_fails (· != '\n') rest c hc
  · rename_i hslash
    apply Found.lexeme (.operator rfl)
    constructor
    · intro longer kind literal hlonger hstart
      obtain ⟨d, ds, rfl, hcontinues⟩ := hlonger.continues
      obtain ⟨rfl, -⟩ := List.cons_prefix_cons.mp hstart
      obtain ⟨rfl, -⟩ : ds = [] ∧ _ := hcontinues
      exact Nat.le_refl 1
    · intro hcomment
      obtain ⟨rest, hrest⟩ := (List.cons_prefix_cons.mp hcomment).2
      exact hslash rest hrest.symm

theorem found_quotation (cs : List Char) : Found (quotation cs) := by
  have hbody : '"' ∉ cs.takeWhile (· != '"') := not_mem_takeWhile_bne '"' cs
  have hsplit := List.takeWhile_append_dropWhile (p := (· != '"')) (l := cs)
  unfold quotation
  split
  · rename_i hopen
    rw [hopen, List.append_nil] at hsplit
    rw [hsplit] at hbody
    exact .openQuotation hbody
  · rename_i quote rest hclosed
    have hquote : quote = '"' := by
      simpa [hclosed] using head?_dropWhile_fails (· != '"') cs
    subst hquote
    have hopening : Opening.of '"' = .quote := rfl
    apply found_of_opening hopening (by simp) ⟨_, hbody, rfl, rfl, rfl⟩
    rintro longer - - ⟨body, hbody', rfl, -⟩ ⟨rest', hrest'⟩
    have hsame : cs.takeWhile (· != '"') ++ '"' :: rest = body ++ '"' :: rest' := by
      simpa using hrest'.symm
    obtain ⟨hfront, -⟩ := split_unique hsame (bne_of_not_mem hbody) (by simp)
      (bne_of_not_mem hbody') (by simp)
    simp [hfront]

theorem found_wellFormed {c : Char} {cs rest : List Char} {n : Numeral} (hn : n.WellFormed)
    (hsplit : n.text ++ rest = c :: cs) (hlongest : ∀ longer : Numeral, longer.WellFormed →
      longer.text <+: c :: cs → longer.text.length ≤ n.text.length) :
    Found ⟨.lexeme .number (.double n.toDouble), n.text, rest⟩ := by
  obtain ⟨d, ds, htext⟩ := List.exists_cons_of_ne_nil hn.text_ne_nil
  have hopening : Opening.of d = .digit := Opening.of_isDigit (hn.head?_text (by simp [htext]))
  rw [← hsplit] at hlongest
  rw [htext] at hlongest ⊢
  apply found_of_opening hopening (by simp) ⟨n, hn, htext, rfl, rfl⟩
  rintro es - - ⟨longer, hwell, hes, -⟩ hstart
  have hlength := hlongest longer hwell (by simpa [hes] using hstart)
  rw [hes] at hlength
  exact Nat.le_of_succ_le_succ hlength

theorem takeWhile_digits {c : Char} (hdigit : c.isDigit) (cs : List Char) :
    ∀ d ∈ c :: cs.takeWhile Char.isDigit, d.isDigit := by
  intro d hd
  rcases List.mem_cons.mp hd with rfl | hd
  · exact hdigit
  · exact takeWhile_passes Char.isDigit cs d hd

/-- A longer numeral than the digits would need a point and a digit. -/
theorem found_digits {c : Char} (hdigit : c.isDigit) {cs : List Char}
    (hnone : ∀ d ds, cs.dropWhile Char.isDigit = '.' :: d :: ds → d.isDigit = false) :
    Found ⟨.lexeme .number (.double (Numeral.toDouble ⟨c :: cs.takeWhile Char.isDigit, []⟩)),
      c :: cs.takeWhile Char.isDigit, cs.dropWhile Char.isDigit⟩ := by
  have hn : Numeral.WellFormed ⟨c :: cs.takeWhile Char.isDigit, []⟩ :=
    ⟨List.cons_ne_nil _ _, takeWhile_digits hdigit cs, by simp⟩
  have htext : Numeral.text ⟨c :: cs.takeWhile Char.isDigit, []⟩ =
      c :: cs.takeWhile Char.isDigit := by simp [Numeral.text]
  have hsplit : Numeral.text ⟨c :: cs.takeWhile Char.isDigit, []⟩ ++ cs.dropWhile Char.isDigit =
      c :: cs := by simp [htext]
  have hfound := found_wellFormed hn hsplit
  rw [htext] at hfound
  apply hfound
  intro longer hlonger hstart
  rcases hlonger.starts hstart with hshort | ⟨ds, hpoint, hne, hfraction, -⟩
  · rwa [List.takeWhile_cons_of_pos hdigit] at hshort
  · obtain ⟨d, fraction, hcons⟩ := List.exists_cons_of_ne_nil hne
    obtain ⟨rest, rfl⟩ := hfraction
    rw [List.dropWhile_cons_of_pos hdigit, hcons, List.cons_append] at hpoint
    have hfirst := hlonger.fraction_digits d (by simp [hcons])
    rw [hnone _ _ hpoint] at hfirst
    exact absurd hfirst Bool.false_ne_true

theorem found_fraction {c d : Char} (hdigit : c.isDigit) (hfirst : d.isDigit) {cs ds : List Char}
    (hpoint : cs.dropWhile Char.isDigit = '.' :: d :: ds) :
    Found ⟨.lexeme .number (.double (Numeral.toDouble
        ⟨c :: cs.takeWhile Char.isDigit, d :: ds.takeWhile Char.isDigit⟩)),
      c :: cs.takeWhile Char.isDigit ++ '.' :: d :: ds.takeWhile Char.isDigit,
      ds.dropWhile Char.isDigit⟩ := by
  have hn : Numeral.WellFormed ⟨c :: cs.takeWhile Char.isDigit, d :: ds.takeWhile Char.isDigit⟩ :=
    ⟨List.cons_ne_nil _ _, takeWhile_digits hdigit cs, takeWhile_digits hfirst ds⟩
  have htext : Numeral.text ⟨c :: cs.takeWhile Char.isDigit, d :: ds.takeWhile Char.isDigit⟩ =
      c :: cs.takeWhile Char.isDigit ++ '.' :: d :: ds.takeWhile Char.isDigit := by
    simp [Numeral.text]
  have hcs : cs.takeWhile Char.isDigit ++ '.' :: d :: ds = cs := by
    rw [← hpoint, List.takeWhile_append_dropWhile]
  have hsplit : Numeral.text ⟨c :: cs.takeWhile Char.isDigit, d :: ds.takeWhile Char.isDigit⟩ ++
      ds.dropWhile Char.isDigit = c :: cs := by
    simp [htext, hcs]
  have hfound := found_wellFormed hn hsplit
  rw [htext] at hfound
  apply hfound
  intro longer hlonger hstart
  have hwhole : (c :: cs).takeWhile Char.isDigit = c :: cs.takeWhile Char.isDigit :=
    List.takeWhile_cons_of_pos hdigit
  rcases hlonger.starts hstart with hshort | ⟨es, hpoint', -, hfraction, hlength⟩
  · rw [hwhole] at hshort
    rw [List.length_append]
    omega
  · rw [List.dropWhile_cons_of_pos hdigit, hpoint] at hpoint'
    obtain ⟨-, rfl⟩ := List.cons.inj hpoint'
    have hmost := length_le_takeWhile hlonger.fraction_digits hfraction
    rw [List.takeWhile_cons_of_pos hfirst] at hmost
    rw [hlength, hwhole, List.length_append]
    simp only [List.length_cons] at hmost ⊢
    omega

theorem found_numeral {c : Char} (hdigit : c.isDigit) (cs : List Char) :
    Found (numeral c cs) := by
  unfold numeral
  split
  · rename_i d ds hpoint
    split
    · rename_i hfirst
      exact found_fraction hdigit hfirst hpoint
    · rename_i hfirst
      rw [← hpoint]
      apply found_digits hdigit
      intro d' ds' hpoint'
      rw [hpoint] at hpoint'
      cases hpoint'
      simpa using hfirst
  · rename_i hnone
    apply found_digits hdigit
    intro d ds hpoint
    exact absurd hpoint (hnone d ds)

theorem found_name {c : Char} (hletter : isLetter c) (cs : List Char) : Found (name c cs) := by
  have hopening : Opening.of c = .letter := Opening.of_isLetter hletter
  have hchars : ∀ d ∈ cs.takeWhile isNameChar, isNameChar d := takeWhile_passes isNameChar cs
  have hmunch : Munch (c :: cs.takeWhile isNameChar) (cs.dropWhile isNameChar) := by
    apply munch_cons (by simp [hopening])
    intro longer kind literal hlonger hstart
    rw [hopening] at hlonger
    rw [List.takeWhile_append_dropWhile] at hstart
    exact length_le_takeWhile hlonger.1 hstart
  unfold name
  cases hkind : TokenKind.ofWord? (String.ofList (c :: cs.takeWhile isNameChar)) with
  | some kind =>
    simp only [hkind]
    exact .lexeme (.reserved ⟨c, _, rfl, hletter, hchars⟩ hkind) hmunch
  | none =>
    simp only [hkind]
    exact .lexeme (.name ⟨c, _, rfl, hletter, hchars⟩ hkind) hmunch

/-- Whatever a reading finds is what the grammar says. -/
theorem next_found (c : Char) (cs : List Char) : Found (next c cs) := by
  have hholds := Opening.of_holds c
  rw [next_eq]
  generalize hopening : Opening.of c = opening at hholds
  cases opening with
  | punctuation kind => exact found_punctuation hopening cs
  | comparison alone withEqual => exact found_comparison hopening cs
  | slash => exact found_slash cs
  | blank => exact .blank hholds
  | quote => exact found_quotation cs
  | digit => exact found_numeral hholds cs
  | letter => exact found_name hholds cs
  | nothing =>
    apply Found.unknown hholds.1 hholds.2
    intro text kind literal htext hstart
    obtain ⟨d, ds, rfl, hcontinues⟩ := htext.continues
    obtain ⟨rfl, -⟩ := List.cons_prefix_cons.mp hstart
    rw [hopening] at hcontinues
    exact hcontinues

/-- Where a lexeme is the longest and no comment stands, nothing else is found. -/
theorem Found.eq_lexeme {text rest : List Char} {kind : TokenKind} {literal : Value} {r : Reading}
    (h : Found r) (htext : IsLexeme text kind literal) (hmunch : Munch text rest)
    (hsplit : r.taken ++ r.rest = text ++ rest) : r = ⟨.lexeme kind literal, text, rest⟩ := by
  have hstart : text <+: r.taken ++ r.rest := by rw [hsplit]; exact List.prefix_append _ _
  obtain ⟨c, cs, htextCons, hcontinues⟩ := htext.continues
  cases h with
  | blank hblank =>
    rw [htextCons] at htext hstart
    obtain ⟨rfl, -⟩ := List.cons_prefix_cons.mp hstart
    rw [htext.not_isBlank] at hblank
    exact absurd hblank Bool.false_ne_true
  | comment =>
    exact absurd (by rw [← hsplit]; exact ⟨_, rfl⟩) hmunch.not_comment
  | @lexeme text' rest' kind' literal' htext' hmunch' =>
    -- Both are longest at the same place, so neither is longer than the other.
    have hle : text.length ≤ text'.length := hmunch'.longest text kind literal htext hstart
    have hge : text'.length ≤ text.length :=
      hmunch.longest text' kind' literal' htext' (by rw [← hsplit]; exact List.prefix_append _ _)
    obtain ⟨rfl, rfl⟩ := List.append_inj hsplit (Nat.le_antisymm hge hle)
    obtain ⟨rfl, rfl⟩ := htext.unique htext'
    rfl
  | @openQuotation body hbody =>
    rw [htextCons] at hstart
    obtain ⟨rfl, hcs⟩ := List.cons_prefix_cons.mp hstart
    obtain ⟨closed, -, rfl, -⟩ := hcontinues
    have hquote : '"' ∈ body := by
      simpa using hcs.subset (show '"' ∈ closed ++ ['"'] by simp)
    exact absurd hquote hbody
  | unknown hblank hquote hnone => exact absurd hstart (hnone text kind literal htext)

/-- A reading finds what the grammar says, and nothing else fits. -/
theorem next_eq_iff {c : Char} {cs : List Char} {r : Reading} :
    next c cs = r ↔ Found r ∧ r.taken ++ r.rest = c :: cs := by
  constructor
  · rintro rfl
    exact ⟨next_found c cs, next_taken_append_rest c cs⟩
  · rintro ⟨hfound, hsplit⟩
    cases hfound with
    | blank hblank =>
      obtain ⟨rfl, rfl⟩ := List.cons.inj hsplit
      rw [next_eq, Opening.of_isBlank hblank]
      rfl
    | @comment body rest hbody hrest =>
      obtain ⟨rfl, rfl⟩ := List.cons.inj hsplit
      have hends : ∀ c ∈ rest.head?, (c != '\n') = false := by simpa using hrest
      show slash ('/' :: (body ++ rest)) = _
      rw [slash, takeWhile_append_eq (bne_of_not_mem hbody) hends,
        dropWhile_append_eq (bne_of_not_mem hbody) hends]
    | lexeme htext hmunch =>
      apply (next_found c cs).eq_lexeme htext hmunch
      rw [next_taken_append_rest, hsplit]
    | @openQuotation body hbody =>
      rw [List.append_nil] at hsplit
      obtain ⟨rfl, rfl⟩ := List.cons.inj hsplit
      show quotation body = _
      rw [quotation, dropWhile_eq_nil (bne_of_not_mem hbody)]
    | @unknown d rest hblank hquote hnone =>
      obtain ⟨rfl, rfl⟩ := List.cons.inj hsplit
      have hopening : Opening.of d = .nothing := by
        apply Decidable.byContradiction
        intro hopens
        obtain ⟨kind, literal, hlexeme⟩ := isLexeme_singleton hblank hquote hopens
        exact hnone [d] kind literal hlexeme ⟨rest, rfl⟩
      rw [next_eq, hopening]
      rfl

end Reading

end LoxGraph
