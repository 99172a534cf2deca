import CellBridge.Json.Basic
import CellBridge.Json.Reader
import Mathlib.Tactic.SplitIfs

/-!
# Strings in documents

A string is read back as it was written, whatever its characters are and whatever follows it.
Quotes, backslashes and control characters are written as escapes; the reader takes the string
apart into pieces, one for each character, and joins them again: `pieces?_escapedChar` and
`joinPieces?_pieceOf`.
-/

namespace CellBridge
namespace Json

/-- The piece that a written character is read as.  A control character that has no letter of its
own is written by its number. -/
def pieceOf
    (c : Char) : Piece :=
  if c.toNat < 0x20 ∧ c ∉ ['\x08', '\x0c', '\n', '\r', '\t'] then .unit c.toNat else .char c

section Pieces

/-- Two digits are the number of a control character. -/
theorem hex4?_digitChar :
    ∀ n < 0x20, hex4? '0' '0' (n / 16).digitChar (n % 16).digitChar = some n := by
  decide

/-- An escape by a letter is one piece. -/
theorem pieces?_letter
    {c e : Char}
    (hletter : e ≠ 'u')
    (hescape : escape? e = some c)
    (cs : List Char) :
    pieces? ('\\' :: e :: cs) = (pieces? cs).map fun p => (.char c :: p.1, p.2) := by
  rw [pieces?, hescape]
  · cases pieces? cs <;> rfl
  · rintro a b c d r heq -
    exact hletter heq

/-- A character that needs no escape is one piece. -/
theorem pieces?_plain
    {c : Char}
    (hquote : ¬(c = '"' ∨ c = '\\'))
    (hcontrol : ¬c.toNat < 0x20)
    (cs : List Char) :
    pieces? (c :: cs) = (pieces? cs).map fun p => (.char c :: p.1, p.2) := by
  have hplain : ¬(c.toNat < 0x20 ∨ c = '\\') := by
    rintro (hlow | hslash)
    · exact hcontrol hlow
    · exact hquote (Or.inr hslash)
  rw [pieces?, if_neg hplain]
  · cases pieces? cs <;> rfl
  · intro hc
    exact hquote (Or.inl hc)
  · rintro a b d e r hc -
    exact hquote (Or.inr hc)
  · rintro e r hc -
    exact hquote (Or.inr hc)

/-- A written character is read as one piece. -/
theorem pieces?_escapedChar
    (c : Char)
    (cs : List Char) :
    pieces? (escapedChar c ++ cs) = (pieces? cs).map fun p => (pieceOf c :: p.1, p.2) := by
  rw [escapedChar]
  split_ifs with hquote hb hf hn hr ht hcontrol
  · have hpiece : pieceOf c = .char c := by
      rcases hquote with rfl | rfl <;> rfl
    rw [hpiece]
    rcases hquote with rfl | rfl <;> exact pieces?_letter (by decide) rfl cs
  · subst hb
    exact pieces?_letter (by decide) rfl cs
  · subst hf
    exact pieces?_letter (by decide) rfl cs
  · subst hn
    exact pieces?_letter (by decide) rfl cs
  · subst hr
    exact pieces?_letter (by decide) rfl cs
  · subst ht
    exact pieces?_letter (by decide) rfl cs
  · have hpiece : pieceOf c = .unit c.toNat := by
      rw [pieceOf, if_pos]
      simp [hcontrol, hb, hf, hn, hr, ht]
    rw [hpiece]
    show pieces? ('\\' :: 'u' :: '0' :: '0' :: _ :: _ :: cs) = _
    rw [pieces?, hex4?_digitChar c.toNat hcontrol]
    cases pieces? cs <;> rfl
  · have hpiece : pieceOf c = .char c := by
      rw [pieceOf, if_neg]
      simp [hcontrol]
    rw [hpiece]
    exact pieces?_plain hquote hcontrol cs

/-- The pieces of a written text, up to its quote. -/
theorem pieces?_written
    (cs rest : List Char) :
    pieces? (cs.flatMap escapedChar ++ '"' :: rest) = some (cs.map pieceOf, rest) := by
  induction cs with
  | nil =>
      rfl
  | cons c cs ih =>
      rw [List.flatMap_cons, List.append_assoc, pieces?_escapedChar, ih]
      rfl

end Pieces

section Texts

/-- A piece is joined as the character that was written. -/
theorem joinPieces?_pieceOf
    (c : Char)
    (ps : List Piece) :
    joinPieces? (pieceOf c :: ps) = (joinPieces? ps).map (c :: ·) := by
  rw [pieceOf]
  split_ifs with hcontrol
  · have hchar : Char.ofNat c.toNat = c := Char.ofNat_toNat c
    have hlow : ¬0xd800 ≤ c.toNat := by
      omega
    cases ps with
    | nil =>
        simp [joinPieces?, hlow, hchar]
    | cons p ps =>
        cases p with
        | char d =>
            simp only [joinPieces?, hlow, hchar, false_and, if_false]
            cases joinPieces? ps <;> rfl
        | unit l =>
            -- a control character is no surrogate, so the next unit is left alone
            simp only [joinPieces?, hlow, hchar, false_and, if_false]
            cases joinPieces? (.unit l :: ps) <;> rfl
  · rw [joinPieces?]
    cases joinPieces? ps <;> rfl

/-- Behind its opening quote, a written text is read as itself. -/
theorem stringBody?_written
    (s : String)
    (rest : List Char) :
    stringBody? (s.toList.flatMap escapedChar ++ '"' :: rest) = some (some s, rest) := by
  have hjoin : ∀ cs, joinPieces? (cs.map pieceOf) = some cs := by
    intro cs
    induction cs with
    | nil =>
        rfl
    | cons c cs ih =>
        rw [List.map_cons, joinPieces?_pieceOf, ih]
        rfl
  rw [stringBody?, pieces?_written]
  show some ((joinPieces? (s.toList.map pieceOf)).map String.ofList, rest) = _
  rw [hjoin, Option.map_some, String.ofList_toList]

theorem two_le_length_stringChars
    (s : Option String) :
    2 ≤ (stringChars s).length := by
  rw [stringChars, List.length_cons, List.length_append]
  exact Nat.succ_le_succ (Nat.le_add_left 1 _)

theorem stringChars_append
    (s : String)
    (rest : List Char) :
    stringChars (some s) ++ rest = '"' :: (s.toList.flatMap escapedChar ++ '"' :: rest) := by
  rw [stringChars, Option.getD_some, List.cons_append, List.append_assoc]
  rfl

end Texts

end Json
end CellBridge
