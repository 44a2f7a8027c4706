import Mathlib.Data.String.Basic

/-!
Texts that are split at slashes.

A text is split by positions in its bytes. What comes of it is told by its characters alone
(`splitOn_slash`).
-/

namespace LoxGraph

open String

theorem extract_part (before part after : List Char) :
    Pos.Raw.extract (ofList (before ++ part ++ after)) ⟨utf8Len before⟩
      ⟨utf8Len (before ++ part)⟩ = ofList part := by
  rw [utf8Len_append]
  exact extract_of_valid before part after

/-- The positions are those where the part begins that is being read, and where it has come to. -/
theorem splitOnAux_slash (before part after : List Char) (parts : List String) :
    splitOnAux (ofList (before ++ part ++ after)) "/" ⟨utf8Len before⟩
      ⟨utf8Len (before ++ part)⟩ 0 parts =
        parts.reverse ++ (List.splitOnPPrepend (· == '/') after part.reverse).map ofList := by
  induction after generalizing before part parts with
  | nil =>
    rw [splitOnAux, if_pos ((atEnd_of_valid (before ++ part) []).mpr rfl), extract_part]
    simp
  | cons c after ih =>
    have hend := mt (atEnd_of_valid (before ++ part) (c :: after)).mp (List.cons_ne_nil c after)
    have hget := get_of_valid (before ++ part) (c :: after)
    have hnext := next_of_valid (before ++ part) c after
    have hslash : Pos.Raw.get "/" 0 = '/' := by decide +kernel
    rw [splitOnAux, if_neg hend, hget, hslash, List.headD_cons]
    by_cases hc : c = '/'
    · -- The part ends here, and the next one begins behind the slash.
      subst hc
      have hbehind : Pos.Raw.next "/" 0 = ⟨1⟩ := by decide +kernel
      have hwhole : Pos.Raw.atEnd "/" ⟨1⟩ = true := by decide +kernel
      have hback : (⟨utf8Len (before ++ part) + '/'.utf8Size⟩ : Pos.Raw).unoffsetBy ⟨1⟩ =
          ⟨utf8Len (before ++ part)⟩ := rfl
      have hlater := ih (before ++ part ++ ['/']) [] (ofList part :: parts)
      have hlength : utf8Len (before ++ part ++ ['/']) =
          utf8Len (before ++ part) + '/'.utf8Size := by
        rw [utf8Len_append, utf8Len_cons, utf8Len_nil, Nat.zero_add]
      rw [List.append_nil, hlength, List.append_assoc _ ['/'], List.singleton_append] at hlater
      rw [if_pos (by rfl), hnext, hbehind, if_pos hwhole, hback, extract_part, hlater]
      simp [List.splitOnPPrepend_cons_eq_if]
    · have hlater := ih before (part ++ [c]) parts
      have hlength : utf8Len (before ++ (part ++ [c])) =
          utf8Len (before ++ part) + c.utf8Size := by
        rw [← List.append_assoc, utf8Len_append, utf8Len_cons, utf8Len_nil, Nat.zero_add]
      have hsame : before ++ (part ++ [c]) ++ after = before ++ part ++ c :: after := by simp
      have hstay : (⟨utf8Len (before ++ part)⟩ : Pos.Raw).unoffsetBy 0 =
          ⟨utf8Len (before ++ part)⟩ := rfl
      rw [hlength, hsame] at hlater
      rw [if_neg (by simpa using hc), hstay, hnext, hlater]
      simp [List.splitOnPPrepend_cons_eq_if, hc]

/-- A text is split at slashes as the list of its characters is. -/
theorem splitOn_slash (text : String) :
    text.splitOn "/" = (text.toList.splitOn '/').map ofList := by
  have hsplit := splitOnAux_slash [] [] text.toList []
  rw [List.nil_append, List.nil_append, ofList_toList] at hsplit
  exact hsplit

end LoxGraph
