import BlockProgram.Proofs.Text.Cuts

/-
  Texts without their white space.

  Two texts that agree but for white space say the same in
  the same order.  Trimming does not change what is left of a
  text, nor do blanks after the commas of a list.

  Main declarations:
    * `Text.squash`
    * `Text.squash_trim`
    * `Text.squash_intercalate_trim`
-/

namespace BlockProgram

namespace Text

/- All characters that are no white space, in their order. -/
def squash (cs : List Char) : List Char :=
  cs.filter fun c => !isSpace c

theorem squash_append (cs ds : List Char) :
    squash (cs ++ ds) = squash cs ++ squash ds :=
  List.filter_append cs ds

theorem squash_cons
    {c : Char}
    (hVisible : isSpace c = false)
    (cs : List Char) :
    squash (c :: cs) = c :: squash cs := by
  simp [squash, hVisible]

theorem squash_eq_nil_iff
    {cs : List Char} :
    squash cs = [] ↔ ∀ c ∈ cs, isSpace c = true := by
  simp [squash, List.filter_eq_nil_iff]

/- Only white space is trimmed. -/
theorem squash_trim (cs : List Char) :
    squash (trim cs) = squash cs := by
  rcases exists_append_trim cs with
    ⟨before, after, hBefore, hAfter, hText⟩
  conv => rhs; rw [hText]
  rw [squash_append, squash_append, squash_eq_nil_iff.mpr hBefore,
    squash_eq_nil_iff.mpr hAfter, List.nil_append,
    List.append_nil]

/- Pieces may be trimmed, and a blank put after each comma. -/
theorem squash_intercalate_trim (pieces : List (List Char)) :
    squash
        (", ".intercalate
            (pieces.map fun piece =>
              String.ofList (trim piece))).toList =
      squash ([','].intercalate pieces) := by
  induction pieces with
  | nil => rfl
  | cons piece pieces ih =>
      cases pieces with
      | nil => simp [squash_trim]
      | cons next pieces =>
          have hComma : squash ", ".toList = squash [','] := rfl
          simp only [List.map_cons, String.intercalate_cons_cons,
            List.intercalate_cons_cons, String.toList_append,
            String.toList_ofList, squash_append, squash_trim,
            hComma] at ih ⊢
          rw [ih]

end Text

end BlockProgram
