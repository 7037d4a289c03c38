import BlockProgram.Text.Space
import BlockProgram.Text.Word

/-
  The characters of names among all others.

  No character of a name is white space, so a name ends where
  white space begins.

  Main declarations:
    * `Text.isSpace_of_isWord`
    * `Text.isSpace_of_isNamePart`
    * `Text.isNamePart_of_isNameStart`
-/

namespace BlockProgram

namespace Text

------------------------------------------------------------
-- White Space And Names
------------------------------------------------------------

/- The code points of white space, one by one. -/
def spaceCodes : List Nat :=
  [ 9, 10, 11, 12, 13, 0x20, 0x85, 0xA0, 0x1680, 0x2000, 0x2001,
    0x2002, 0x2003, 0x2004, 0x2005, 0x2006, 0x2007, 0x2008,
    0x2009, 0x200A, 0x2028, 0x2029, 0x202F, 0x205F, 0x3000 ]

theorem toNat_mem_spaceCodes
    {c : Char}
    (hSpace : isSpace c = true) :
    c.toNat ∈ spaceCodes := by
  simp only [isSpace, Bool.or_eq_true, Bool.and_eq_true,
    decide_eq_true_eq, beq_iff_eq] at hSpace
  simp only [spaceCodes, List.mem_cons, List.not_mem_nil]
  omega

theorem not_isWord_of_mem_spaceCodes :
    ∀ n ∈ spaceCodes, isWord (Char.ofNat n) = false := by
  decide +kernel

/- A word character is no white space. -/
theorem isSpace_of_isWord
    {c : Char}
    (hWord : isWord c = true) :
    isSpace c = false := by
  cases hSpace : isSpace c with
  | false => rfl
  | true =>
      have hNot :=
        not_isWord_of_mem_spaceCodes c.toNat
          (toNat_mem_spaceCodes hSpace)
      rw [Char.ofNat_toNat, hWord] at hNot
      cases hNot

/- A character that may go on in a name is no white space. -/
theorem isSpace_of_isNamePart
    {c : Char}
    (hPart : isNamePart c = true) :
    isSpace c = false := by
  simp only [isNamePart, Bool.or_eq_true, beq_iff_eq] at hPart
  rcases hPart with hWord | rfl
  · exact isSpace_of_isWord hWord
  · decide

/- A character that begins a name may go on in one as well. -/
theorem isNamePart_of_isNameStart
    {c : Char}
    (hStart : isNameStart c = true) :
    isNamePart c = true := by
  simp only [isNameStart, Bool.or_eq_true, beq_iff_eq] at hStart
  rcases hStart with hAlpha | rfl
  · have hSmall : c.toNat < 128 := by
      have hRanges :
          ('A'.val ≤ c.val ∧ c.val ≤ 'Z'.val) ∨
            ('a'.val ≤ c.val ∧ c.val ≤ 'z'.val) := by
        rcases Bool.or_eq_true_iff.mp hAlpha with hUpper | hLower
        · exact Or.inl (of_decide_eq_true hUpper)
        · rcases Bool.and_eq_true_iff.mp hLower with ⟨hFrom, hTo⟩
          exact
            Or.inr
              ⟨of_decide_eq_true hFrom, of_decide_eq_true hTo⟩
      simp only [Char.toNat, UInt32.le_iff_toNat_le] at *
      have : 'Z'.val.toNat = 90 := rfl
      have : 'z'.val.toNat = 122 := rfl
      grind
    simp [isNamePart, isWord, hSmall, Char.isAlphanum, hAlpha]
  · decide

end Text

end BlockProgram
