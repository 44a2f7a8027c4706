import Mathlib.Tactic.Ring
import LoxGraph.Proofs.Text.Delimited
import LoxGraph.Text.Quoted

/-!
Quoted text is one line and is read back.

All characters of quoted text are printable, so that it holds no line break (`quoted_printable`).
Between its marks every character is read back from how it is written (`readQuotedChar`), and none
is written like the mark; so quoted text ends where it seems to end (`quoted_selfDelimiting`).
-/

namespace LoxGraph

/-- The hexadecimal digits. -/
def hexSigns : List Char := "0123456789abcdef".toList

/-- The number that hexadecimal digits write. -/
def hexValue (digits : List Char) : Nat :=
  digits.foldl (fun value digit => 16 * value + hexSigns.idxOf digit) 0

theorem hexDigits_succ (width n : Nat) : hexDigits (width + 1) n =
    Nat.digitChar (n / Nat.pow 16 width % 16) :: hexDigits width n := by
  simp [hexDigits, List.range_succ]

theorem length_hexDigits (width n : Nat) : (hexDigits width n).length = width := by
  simp [hexDigits]

theorem digitChar_mem_hexSigns {n : Nat} (h : n < 16) :
    Nat.digitChar n ∈ hexSigns ∧ hexSigns.idxOf (Nat.digitChar n) = n := by
  have hall : ∀ n < 16, Nat.digitChar n ∈ hexSigns ∧ hexSigns.idxOf (Nat.digitChar n) = n := by
    decide
  exact hall n h

theorem foldl_hexDigits (width n value : Nat) :
    (hexDigits width n).foldl (fun value digit => 16 * value + hexSigns.idxOf digit) value =
      value * 16 ^ width + n % 16 ^ width := by
  induction width generalizing value with
  | zero => simp [hexDigits, Nat.mod_one]
  | succ width ih =>
    have hdigit : n / 16 ^ width % 16 < 16 := Nat.mod_lt _ (by decide)
    have hpow : Nat.pow 16 width = 16 ^ width := rfl
    rw [hexDigits_succ, hpow, List.foldl_cons, ih, (digitChar_mem_hexSigns hdigit).2, Nat.pow_succ,
      Nat.mod_mul]
    ring

theorem hexValue_hexDigits {width n : Nat} (h : n < 16 ^ width) :
    hexValue (hexDigits width n) = n := by
  rw [hexValue, foldl_hexDigits, Nat.zero_mul, Nat.zero_add, Nat.mod_eq_of_lt h]

theorem mem_hexSigns_of_mem_hexDigits {width n : Nat} {c : Char} (h : c ∈ hexDigits width n) :
    c ∈ hexSigns := by
  obtain ⟨i, -, rfl⟩ := List.mem_map.mp h
  exact (digitChar_mem_hexSigns (Nat.mod_lt _ (by decide))).1

/-- A character that is escaped by its code point, read from the given number of digits. -/
def readHexEscape (width : Nat) (cs : List Char) : Option (Char × List Char) :=
  some (Char.ofNat (hexValue (cs.take width)), cs.drop width)

/-- The character that quoted text goes on with, and what follows it. -/
def readQuotedChar : List Char → Option (Char × List Char)
  | '\\' :: 'n' :: cs => some ('\n', cs)
  | '\\' :: 'r' :: cs => some ('\r', cs)
  | '\\' :: 't' :: cs => some ('\t', cs)
  | '\\' :: 'x' :: cs => readHexEscape 2 cs
  | '\\' :: 'u' :: cs => readHexEscape 4 cs
  | '\\' :: 'U' :: cs => readHexEscape 8 cs
  | '\\' :: c :: cs => some (c, cs)
  | c :: cs => some (c, cs)
  | [] => none

theorem readQuotedChar_cons {c : Char} (h : c ≠ '\\') (cs : List Char) :
    readQuotedChar (c :: cs) = some (c, cs) := by
  unfold readQuotedChar
  split <;> simp_all

theorem readHexEscape_hexDigits {width : Nat} {c : Char} (h : c.toNat < 16 ^ width)
    (rest : List Char) :
    readHexEscape width (hexDigits width c.toNat ++ rest) = some (c, rest) := by
  have hlength := length_hexDigits width c.toNat
  rw [readHexEscape, List.take_left' hlength, List.drop_left' hlength, hexValue_hexDigits h,
    Char.ofNat_toNat]

theorem readQuotedChar_hexEscape (c : Char) (rest : List Char) :
    readQuotedChar (hexEscape c ++ rest) = some (c, rest) := by
  have hchar : c.toNat < 16 ^ 8 := c.val.toNat_lt
  unfold hexEscape
  split
  · exact readHexEscape_hexDigits (by omega) rest
  · split
    · exact readHexEscape_hexDigits (by omega) rest
    · exact readHexEscape_hexDigits hchar rest

/-- The marks that enclose quoted text. -/
def IsQuoteMark (mark : Char) : Prop := mark = '\'' ∨ mark = '"'

theorem isQuoteMark_quoteMark (cs : List Char) : IsQuoteMark (quoteMark cs) := by
  unfold quoteMark
  split
  · exact .inr rfl
  · exact .inl rfl

theorem readQuotedChar_quotedChar {mark : Char} (hmark : IsQuoteMark mark) (c : Char)
    (rest : List Char) : readQuotedChar (quotedChar mark c ++ rest) = some (c, rest) := by
  unfold quotedChar
  split
  · rename_i hescaped
    rcases hescaped with rfl | rfl
    · rcases hmark with rfl | rfl <;> rfl
    · rfl
  split
  · rename_i hfeed
    subst hfeed
    rfl
  split
  · rename_i hreturn
    subst hreturn
    rfl
  split
  · rename_i htab
    subst htab
    rfl
  split
  · rename_i hescaped _ _ _ _
    exact readQuotedChar_cons (fun hbackslash => hescaped (.inr hbackslash)) rest
  · exact readQuotedChar_hexEscape c rest

/-- Nothing between the marks is written like the mark. -/
theorem quotedChar_append_ne_mark {mark : Char} (hmark : IsQuoteMark mark) (c : Char)
    (u v : List Char) : quotedChar mark c ++ u ≠ mark :: v := by
  have hbackslash : '\\' ≠ mark := by rcases hmark with rfl | rfl <;> decide
  unfold quotedChar hexEscape
  grind

theorem quoted_toList (text : String) : (quoted text).toList =
    quoteMark text.toList ::
      (text.toList.flatMap (quotedChar (quoteMark text.toList)) ++ [quoteMark text.toList]) :=
  String.toList_ofList

/-- The first mark tells which mark ends quoted text. -/
theorem quoted_selfDelimiting : SelfDelimiting fun text : String => (quoted text).toList := by
  intro a b u v h
  simp only [quoted_toList, List.cons_append] at h
  obtain ⟨hsame, hrest⟩ := List.cons.inj h
  have hmark := isQuoteMark_quoteMark a.toList
  rw [← hsame] at hrest
  have hchars := selfDelimiting_of_read (readQuotedChar_quotedChar hmark)
  obtain ⟨htext, hend⟩ :=
    hchars.flatMap_mark (quotedChar_append_ne_mark hmark) a.toList b.toList u v hrest
  exact ⟨String.toList_injective htext, hend⟩

theorem isPrintable_of_mem_hexSigns {c : Char} (h : c ∈ hexSigns) : isPrintable c := by
  have hall : hexSigns.all isPrintable := by decide
  exact List.all_eq_true.mp hall c h

/-- Behind a backslash stand a printable sign and nothing but digits. -/
theorem isPrintable_of_mem_escape {sign d : Char} {digits : List Char} (hsign : isPrintable sign)
    (hdigits : ∀ c ∈ digits, c ∈ hexSigns) (h : d ∈ '\\' :: sign :: digits) : isPrintable d := by
  rcases List.mem_cons.mp h with rfl | hbehind
  · rfl
  rcases List.mem_cons.mp hbehind with rfl | hdigit
  · exact hsign
  · exact isPrintable_of_mem_hexSigns (hdigits d hdigit)

theorem quotedChar_printable {mark : Char} (hmark : IsQuoteMark mark) {c d : Char}
    (h : d ∈ quotedChar mark c) : isPrintable d := by
  have hhex (sign : Char) (width : Nat) (hsign : isPrintable sign)
      (h : d ∈ '\\' :: sign :: hexDigits width c.toNat) : isPrintable d :=
    isPrintable_of_mem_escape hsign (fun _ => mem_hexSigns_of_mem_hexDigits) h
  unfold quotedChar at h
  split at h
  · rename_i hescaped
    have hsign : isPrintable c := by
      rcases hescaped with rfl | rfl
      · rcases hmark with rfl | rfl <;> rfl
      · rfl
    exact isPrintable_of_mem_escape hsign (by simp) h
  split at h
  · exact isPrintable_of_mem_escape rfl (by simp) h
  split at h
  · exact isPrintable_of_mem_escape rfl (by simp) h
  split at h
  · exact isPrintable_of_mem_escape rfl (by simp) h
  split at h
  · rename_i hprintable
    rwa [List.mem_singleton.mp h]
  · unfold hexEscape at h
    split at h
    · exact hhex 'x' 2 rfl h
    split at h
    · exact hhex 'u' 4 rfl h
    · exact hhex 'U' 8 rfl h

/-- Quoted text has printable characters alone, whatever it stands for. -/
theorem quoted_printable {text : String} {c : Char} (h : c ∈ (quoted text).toList) :
    isPrintable c := by
  have hmark := isQuoteMark_quoteMark text.toList
  have hprintable : isPrintable (quoteMark text.toList) := by
    rcases hmark with heq | heq <;> rw [heq] <;> decide
  rw [quoted_toList, List.mem_cons, List.mem_append, List.mem_singleton] at h
  rcases h with rfl | hbetween | rfl
  · exact hprintable
  · obtain ⟨d, -, hd⟩ := List.mem_flatMap.mp hbetween
    exact quotedChar_printable hmark hd
  · exact hprintable

end LoxGraph
