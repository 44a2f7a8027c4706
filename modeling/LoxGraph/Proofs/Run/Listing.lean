import LoxGraph.Proofs.Run.Layout
import LoxGraph.Proofs.Text.Lines
import LoxGraph.Proofs.Text.Quoted

/-!
The list of the tokens of a text.

A token is listed in printable characters alone, whatever its lexeme holds, so that every token
has one line. The line begins with the kind, which has no space in its name, and the quoted lexeme,
which tells where it ends; what the token carries is told by its lexeme. So texts have the same list
exactly if they have the same tokens but for their lines (`Run.ofSource_listing_eq_iff`).
-/

namespace LoxGraph

/-- The characters at which a text may be broken into lines. -/
def lineBreaks : List Char :=
  ['\n', '\r', '\x0b', '\x0c', '\x1c', '\x1d', '\x1e', '\u0085', '\u2028', '\u2029']

theorem not_mem_lineBreaks {c : Char} (h : isPrintable c) : c ∉ lineBreaks := by
  have hall : lineBreaks.all fun c => !isPrintable c := by decide +kernel
  intro hmem
  simpa [h] using List.all_eq_true.mp hall c hmem

theorem TokenKind.name_printable {kind : TokenKind} {c : Char} (h : c ∈ kind.name.toList) :
    isPrintable c ∧ c ≠ ' ' := by
  have hall : kind.name.toList.all fun c => isPrintable c && c != ' ' := by
    cases kind <;> decide
  simpa using List.all_eq_true.mp hall c h

theorem isPrintable_of_mem_numberMarks {c : Char} (h : c ∈ numberMarks) : isPrintable c := by
  have hall : numberMarks.all isPrintable := by decide
  exact List.all_eq_true.mp hall c h

theorem isPrintable_of_mem_toString {i : Int} {c : Char} (h : c ∈ (toString i).toList) :
    isPrintable c := by
  have hdigits {n : Nat} (h : c ∈ (toString n).toList) : isPrintable c := by
    rw [Nat.toString_eq_ofList_toDigits, String.toList_ofList] at h
    have hdigit := Nat.isDigit_of_mem_toDigits (by decide) (by decide) h
    exact isPrintable_of_mem_numberMarks (mem_numberMarks_of_isDigit hdigit)
  cases i with
  | ofNat n => exact hdigits h
  | negSucc n =>
    have htext : toString (Int.negSucc n) = "-" ++ toString (n + 1) := rfl
    rw [htext, String.toList_append] at h
    rcases List.mem_append.mp h with hsign | hbehind
    · rw [List.mem_singleton.mp hsign]
      rfl
    · exact hdigits hbehind

theorem Value.inspect_printable {v : Value} {c : Char} (h : c ∈ v.inspect.toList) :
    isPrintable c := by
  cases v with
  | none =>
    have hall : "None".toList.all isPrintable := by decide
    exact List.all_eq_true.mp hall c h
  | bool b =>
    have hall : (Value.bool b).inspect.toList.all isPrintable := by cases b <;> decide
    exact List.all_eq_true.mp hall c h
  | text s => exact quoted_printable h
  | int i => exact isPrintable_of_mem_toString h
  | double d => exact isPrintable_of_mem_numberMarks (Double.text_numberMarks h)

namespace Token

/-- The line of a token begins with its kind and its quoted lexeme. -/
theorem listing_toList (t : Token) : ∃ carried : List Char,
    t.listing.toList = t.kind.name.toList ++ ' ' :: ((quoted t.lexeme).toList ++ carried) ∧
      ∀ c ∈ carried, isPrintable c := by
  unfold listing
  split
  · exact ⟨[], by simp, by simp⟩
  · refine ⟨' ' :: t.literal.inspect.toList, by simp, ?_⟩
    rw [List.forall_mem_cons]
    exact ⟨rfl, fun c hc => Value.inspect_printable hc⟩

theorem listing_printable {t : Token} {c : Char} (h : c ∈ t.listing.toList) : isPrintable c := by
  obtain ⟨carried, hlisting, hcarried⟩ := t.listing_toList
  rw [hlisting, List.mem_append, List.mem_cons, List.mem_append] at h
  rcases h with hname | rfl | hlexeme | hbehind
  · exact (TokenKind.name_printable hname).1
  · rfl
  · exact quoted_printable hlexeme
  · exact hcarried c hbehind

theorem eq_of_listing_eq {t t' : Token} (h : t.listing = t'.listing) :
    t.kind = t'.kind ∧ t.lexeme = t'.lexeme := by
  obtain ⟨carried, hlisting, -⟩ := t.listing_toList
  obtain ⟨carried', hlisting', -⟩ := t'.listing_toList
  have hchars := congrArg String.toList h
  rw [hlisting, hlisting'] at hchars
  have hspace (kind : TokenKind) : ∀ c ∈ kind.name.toList, c != ' ' := fun c hc =>
    bne_iff_ne.mpr (TokenKind.name_printable hc).2
  obtain ⟨hname, hbehind⟩ :=
    split_unique hchars (hspace t.kind) (by simp) (hspace t'.kind) (by simp)
  obtain ⟨hlexeme, -⟩ := quoted_selfDelimiting _ _ _ _ (List.cons.inj hbehind).2
  have hkind : some t.kind = some t'.kind := by
    rw [← TokenKind.ofName?_name, ← TokenKind.ofName?_name, String.toList_injective hname]
  exact ⟨Option.some.inj hkind, hlexeme⟩

/-- A token of a text is told by its line in the list, but for the line that it is on. -/
theorem OfText.withoutLine_eq {t t' : Token} (h : t.OfText) (h' : t'.OfText)
    (hlisting : t.listing = t'.listing) : t.withoutLine = t'.withoutLine := by
  obtain ⟨hkind, hlexeme⟩ := eq_of_listing_eq hlisting
  rcases h with h | ⟨line, rfl⟩
  · rcases h' with h' | ⟨line', rfl⟩
    · exact h.withoutLine_eq h' hlexeme
    · exact absurd hkind h.kind_ne_endOfText
  · rcases h' with h' | ⟨line', rfl⟩
    · exact absurd hkind.symm h'.kind_ne_endOfText
    · rfl

end Token

/-- Texts without line feeds, each with a line feed behind it, are lines. -/
theorem inLines_join {texts : List String} (h : ∀ s ∈ texts, '\n' ∉ s.toList) :
    InLines (String.join (texts.map (· ++ "\n"))).toList
      (texts.map fun s => s.toList ++ ['\n']) := by
  induction texts with
  | nil => exact .ended
  | cons s texts ih =>
    obtain ⟨hs, htexts⟩ := List.forall_mem_cons.mp h
    rw [List.map_cons, List.map_cons, String.join_cons, String.toList_append, String.toList_append,
      List.append_assoc]
    exact .line hs (ih htexts)

/-- Lists that have the same image under `f` have the same image under `g`, where `f` tells `g`. -/
theorem map_eq_map_of_tells {α β γ : Type} {f : α → β} {g : α → γ} {as bs : List α}
    (h : ∀ a ∈ as, ∀ b ∈ bs, f a = f b → g a = g b) (hmap : as.map f = bs.map f) :
    as.map g = bs.map g := by
  induction as generalizing bs with
  | nil => rw [List.map_eq_nil_iff.mp hmap.symm]
  | cons a as ih =>
    cases bs with
    | nil => simp at hmap
    | cons b bs =>
      obtain ⟨hfirst, hothers⟩ := List.cons.inj hmap
      have hrest := ih (fun c hc d hd => h c (by simp [hc]) d (by simp [hd])) hothers
      rw [List.map_cons, List.map_cons, hrest, h a (by simp) b (by simp) hfirst]

namespace Run

variable {text text' : String} {stream stream' : TokenStream}

theorem splitLines_listing (stream : TokenStream) : splitLines (listing stream).toList =
    stream.toList.map fun t => t.listing.toList ++ ['\n'] := by
  have hlines : ∀ s ∈ stream.toList.map Token.listing, '\n' ∉ s.toList := by
    intro s hs hfeed
    obtain ⟨t, -, rfl⟩ := List.mem_map.mp hs
    exact not_mem_lineBreaks (Token.listing_printable hfeed) (by decide)
  have hinLines := inLines_join hlines
  simp only [List.map_map, Function.comp_def] at hinLines
  exact hinLines.splitLines_eq

/-- The list of tokens is one line for each token, which holds no other line break and nothing that
cannot be printed, whatever the text is; and texts have the same list exactly if their tokens have
the same kinds, lexemes and values one by one. -/
theorem ofSource_listing_eq_iff (h : tokenize text = .ok stream) (h' : tokenize text' = .ok stream')
    (name name' : String) :
    let out := (ofSource text name true).textOn .out
    let out' := (ofSource text' name' true).textOn .out
    splitLines out.toList = stream.toList.map (fun t => t.listing.toList ++ ['\n']) ∧
      (∀ t ∈ stream.toList, ∀ c ∈ t.listing.toList, isPrintable c ∧ c ∉ lineBreaks) ∧
      (out = out' ↔
        stream.toList.map Token.withoutLine = stream'.toList.map Token.withoutLine) := by
  intro out out'
  have hout : out = listing stream := (ofSource_listing h name).out
  have hout' : out' = listing stream' := (ofSource_listing h' name').out
  rw [hout, hout']
  refine ⟨splitLines_listing stream, ?_, ?_, listing_eq_of_withoutLine⟩
  · intro t _ c hc
    have hprintable := Token.listing_printable hc
    exact ⟨hprintable, not_mem_lineBreaks hprintable⟩
  · intro hlisting
    have hlines := splitLines_listing stream
    rw [hlisting, splitLines_listing] at hlines
    refine map_eq_map_of_tells ?_ hlines.symm
    intro t ht t' ht' hline
    have hsame : t.listing = t'.listing := String.toList_injective (by simpa using hline)
    exact (ofText_of_tokenize h t ht).withoutLine_eq (ofText_of_tokenize h' t' ht') hsame

/-- A string over two lines, the second of which is written like the mark of an end. -/
def feignedEnd : String := "\"a\nEOF ''\""

/-- A string with a backslash and a letter where the other one has a line feed. -/
def spelledFeed : String := "\"a\\nEOF ''\""

theorem feignedEnd_listing : ∃ stream stream', tokenize feignedEnd = .ok stream ∧
    tokenize spelledFeed = .ok stream' ∧
    splitLines ((ofSource feignedEnd "<stdin>" true).textOn .out).toList =
      stream.toList.map (fun t => t.listing.toList ++ ['\n']) ∧
    stream.toList.length = 2 ∧
    (ofSource feignedEnd "<stdin>" true).textOn .out ≠
      (ofSource spelledFeed "<stdin>" true).textOn .out := by
  obtain ⟨stream, hstream⟩ := exists_stream_of_toBool
    (show (tokenize feignedEnd).toBool = true by decide +kernel)
  obtain ⟨stream', hstream'⟩ := exists_stream_of_toBool
    (show (tokenize spelledFeed).toBool = true by decide +kernel)
  obtain ⟨hlines, -, hiff⟩ := ofSource_listing_eq_iff hstream hstream' "<stdin>" "<stdin>"
  have hlexemes : (tokenize feignedEnd).toOption.map (fun s => s.toList.map (·.lexeme)) =
      some [feignedEnd, ""] := by decide +kernel
  have hlexemes' : (tokenize spelledFeed).toOption.map (fun s => s.toList.map (·.lexeme)) =
      some [spelledFeed, ""] := by decide +kernel
  rw [hstream] at hlexemes
  rw [hstream'] at hlexemes'
  have htexts : stream.toList.map (·.lexeme) = [feignedEnd, ""] := Option.some.inj hlexemes
  have htexts' : stream'.toList.map (·.lexeme) = [spelledFeed, ""] := Option.some.inj hlexemes'
  refine ⟨stream, stream', hstream, hstream', hlines, ?_, ?_⟩
  · simpa using congrArg List.length htexts
  · intro hsame
    have htokens := congrArg (List.map (·.lexeme)) (hiff.mp hsame)
    simp only [List.map_map] at htokens
    have hfeign : [feignedEnd, ""] = [spelledFeed, ""] := by
      rw [← htexts, ← htexts']
      exact htokens
    exact absurd hfeign (by decide)

end Run

end LoxGraph
