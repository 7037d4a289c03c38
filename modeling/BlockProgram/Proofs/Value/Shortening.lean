import BlockProgram.Value.Source

/-
  How far a shortened display keeps to its limit.

  A text within the limit is shown whole.  A longer one is
  cut so that three dots fit behind it, but the dots stand
  there even when the limit has no room for them.  So the
  limit is kept when the text fits, or the dots do.

  Lengths are numbers of characters throughout.

  Main declarations:
    * `Value.IsShortened`
    * `Value.display_isShortened`
    * `Value.display_keeps_limit_iff`
    * `Value.display_exceeds_limit`
-/

namespace BlockProgram

namespace Value

------------------------------------------------------------
-- Shortened Texts
------------------------------------------------------------

/-
  How a text is shown within a limit: whole when it fits, and
  else by what stands at its front, with three dots behind.
-/
inductive IsShortened
    (maxLength : Nat)
    (text : String) :
    String →
    Prop where
  | whole
      (hFits : text.length ≤ maxLength) :
      IsShortened maxLength text text
  | cut
      {kept rest : String}
      (hLong : maxLength < text.length)
      (hText : text = kept ++ rest)
      (hKept : kept.length = maxLength - 3) :
      IsShortened maxLength text (kept ++ "...")

theorem length_dots : "...".length = 3 :=
  rfl

variable {maxLength : Nat}
variable {text shown : String}

/- The dots alone can go beyond the limit. -/
theorem IsShortened.length_le_iff
    (hShown : IsShortened maxLength text shown) :
    shown.length ≤ maxLength ↔
      text.length ≤ maxLength ∨ 3 ≤ maxLength := by
  cases hShown with
  | whole hFits => simp [hFits]
  | cut hLong hText hKept =>
      rw [String.length_append, hKept, length_dots]
      omega

/- Where there is something to show, something is shown. -/
theorem IsShortened.length_pos
    (hShown : IsShortened maxLength text shown)
    (hText : 0 < text.length) :
    0 < shown.length := by
  cases hShown with
  | whole _ => exact hText
  | cut _ _ _ =>
      rw [String.length_append, length_dots]
      omega

------------------------------------------------------------
-- Displays
------------------------------------------------------------

theorem display_isShortened
    (maxLength : Nat)
    (v : Value) :
    IsShortened maxLength v.source (v.display maxLength) := by
  simp only [display, String.length_toList]
  split
  · next hFits => exact .whole hFits
  · next hLong =>
      have hSplit :
          v.source =
            String.ofList (v.source.toList.take (maxLength - 3)) ++
              String.ofList
                (v.source.toList.drop (maxLength - 3)) := by
        rw [← String.ofList_append, List.take_append_drop,
          String.ofList_toList]
      have hKept :
          (String.ofList
              (v.source.toList.take (maxLength - 3))).length =
            maxLength - 3 := by
        rw [String.length_ofList, List.length_take,
          String.length_toList]
        omega
      rw [String.ofList_append, String.ofList_toList]
      exact .cut (Nat.lt_of_not_le hLong) hSplit hKept

/- Every value has some expression text. -/
theorem length_source_pos (v : Value) : 0 < v.source.length := by
  rw [← String.length_toList, List.length_pos_iff]
  cases v with
  | simple text =>
      by_cases hText : text = "" <;> simp [source, hText]
  | array items => simp [source]
  | object properties => simp [source]
  | call callee arguments => simp [source]

/-
  The display of a value within a limit.  The expression text
  is shown whole when it has at most so many characters; else
  it is cut, and ends in three dots.  The display has at most
  so many characters exactly when the text does, or when the
  dots have room.  It is never empty.
-/
theorem display_keeps_limit_iff
    (maxLength : Nat)
    (v : Value) :
    IsShortened maxLength v.source (v.display maxLength) ∧
      ((v.display maxLength).length ≤ maxLength ↔
        v.source.length ≤ maxLength ∨ 3 ≤ maxLength) ∧
        0 < (v.display maxLength).length := by
  have hShown := display_isShortened maxLength v
  exact
    ⟨hShown, hShown.length_le_iff,
      hShown.length_pos v.length_source_pos⟩

/- Two characters have no room for the dots. -/
theorem display_exceeds_limit :
    (simple "abcdef").display 2 = "..." ∧
      ¬((simple "abcdef").display 2).length ≤ 2 :=
  ⟨rfl, by decide⟩

end Value

end BlockProgram
