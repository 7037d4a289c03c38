import BlockProgram.Proofs.Source.Layout
import BlockProgram.Proofs.Source.Moving
import BlockProgram.Proofs.Text.Cuts

/-
  The lines of a written program are its rows.

  The blank lines between blocks are passed over, and the
  blanks before a row are measured as its indent.

  Main declarations:
    * `Source.IsStatementText`
    * `Source.Row.line`
    * `Source.lines_programText`
-/

namespace BlockProgram

namespace Source

open Text

------------------------------------------------------------
-- Rows As Lines
------------------------------------------------------------

/- Texts that make a significant line of their own. -/
def IsStatementText (text : String) : Prop :=
  IsTrimmed text.toList ∧
    '\n' ∉ text.toList ∧
      text ≠ "" ∧ ∀ c ∈ text.toList.head?, c ≠ '#'

instance (text : String) : Decidable (IsStatementText text) :=
  @instDecidableAnd _ _ inferInstance
    (@instDecidableAnd _ _ inferInstance
      (@instDecidableAnd _ _ inferInstance
        (Option.decidableForallMem _)))

/- The line that a row makes, without its number. -/
def Row.line (width : Nat) (row : Row) : Line where
  number := 0
  indent := width * row.depth
  text := row.text

/- The characters of a row in a text. -/
def Row.raw (width : Nat) (row : Row) : List Char :=
  (row.render width).toList

theorem ofRaw_raw
    {row : Row}
    (hText : IsStatementText row.text)
    (width : Nat) :
    Line.ofRaw 0 (row.raw width) = row.line width := by
  rcases hText with ⟨hTrimmed, _⟩
  have hGap :
      ∀ c ∈ List.replicate (width * row.depth) ' ',
        isSpace c = true := by
    intro c hc
    rw [List.eq_of_mem_replicate hc]
    decide
  have hIndent := indentOf_append hGap hTrimmed.1
  have hTrim := trim_between hGap (List.forall_mem_nil _) hTrimmed
  rw [List.append_nil] at hTrim
  rw [List.length_replicate] at hIndent
  simp [Line.ofRaw, Row.raw, Row.render, Row.line, hIndent,
    hTrim]

theorem isSignificant_line
    {row : Row}
    (hText : IsStatementText row.text)
    (width : Nat) :
    (row.line width).isSignificant = true := by
  rcases hText with ⟨_, _, hNonempty, hComment⟩
  rcases List.exists_cons_of_ne_nil
      (mt String.toList_eq_nil_iff.mp hNonempty) with
    ⟨c, cs, hCons⟩
  have hFirst := hComment c (by simp [hCons])
  simp [Line.isSignificant, Row.line, hCons, hFirst]

------------------------------------------------------------
-- The Lines Of A Written Program
------------------------------------------------------------

/- What the significant lines of some raw lines say. -/
def contentsOf (raws : List (List Char)) : List Line :=
  (raws.map (Line.ofRaw 0)).filter Line.isSignificant

theorem unnumbered_significantLines (source : String) :
    (significantLines source).map Line.unnumbered =
      contentsOf (rawLines source) := by
  have hFrom (start : Nat) (raws : List (List Char)) :
      ((linesFrom start raws).filter Line.isSignificant).map
          Line.unnumbered =
        contentsOf raws := by
    induction raws generalizing start with
    | nil => rfl
    | cons raw raws ih =>
        have hRaw :
            (Line.ofRaw start raw).isSignificant =
              (Line.ofRaw 0 raw).isSignificant := rfl
        rw [contentsOf, List.map_cons, linesFrom,
          List.filter_cons, List.filter_cons, hRaw,
          ← contentsOf, ← ih (start + 1)]
        split
        · rfl
        · rfl
  exact hFrom 0 (rawLines source)

/- Rows with a newline between them are lines. -/
theorem rawLines_rows
    {rows : List Row}
    (hRows : rows ≠ [])
    (hTexts : ∀ row ∈ rows, '\n' ∉ row.text.toList)
    (width : Nat) :
    rawLines ("\n".intercalate (rows.map (Row.render width))) =
      rows.map (Row.raw width) := by
  have hFree : ∀ raw ∈ rows.map (Row.raw width), '\n' ∉ raw := by
    intro raw hRaw
    rcases List.mem_map.mp hRaw with ⟨row, hRow, rfl⟩
    simp [Row.raw, Row.render, hTexts row hRow]
  unfold rawLines
  rw [String.toList_intercalate, List.map_map]
  exact List.splitOn_intercalate _ hFree (by simpa using hRows)

/- A blank line may stand between two texts. -/
theorem rawLines_blankLine (first second : String) :
    rawLines (first ++ "\n\n" ++ second) =
      rawLines first ++ [] :: rawLines second := by
  have hText :
      (first ++ "\n\n" ++ second).toList =
        first.toList ++ '\n' :: ([] ++ '\n' :: second.toList) := by
    simp
  unfold rawLines
  rw [hText, List.splitOn_append_cons_self,
    List.splitOn_append_cons_self]
  rfl

theorem layout_ne_nil
    (depth : Nat)
    (chained : Bool)
    (b : Block) :
    layout depth chained b ≠ [] := by
  intro hNil
  have hHead := head?_layout depth chained b
  rw [hNil] at hHead
  cases hHead

/- The lines of a program that has blocks. -/
theorem rawLines_programText
    {b : Block}
    {bs : List Block}
    (hTexts :
      ∀ row ∈ layoutAll 0 false (b :: bs),
        '\n' ∉ row.text.toList)
    (width : Nat) :
    rawLines (programText width (b :: bs)) =
      List.intercalate [[]]
        ((b :: bs).map fun c =>
          (layout 0 false c).map (Row.raw width)) := by
  induction bs generalizing b with
  | nil =>
      rw [layoutAll, layoutAll, List.append_nil] at hTexts
      rw [programText, List.map_singleton, List.map_singleton,
        String.intercalate_singleton,
        rawLines_rows (layout_ne_nil 0 false b) hTexts,
        List.intercalate_singleton]
  | cons c bs ih =>
      rw [layoutAll, List.forall_mem_append] at hTexts
      have hText :
          programText width (b :: c :: bs) =
            "\n".intercalate
                ((layout 0 false b).map (Row.render width)) ++
              "\n\n" ++ programText width (c :: bs) := by
        simp [programText, String.intercalate_cons_cons]
      rw [hText, rawLines_blankLine,
        rawLines_rows (layout_ne_nil 0 false b) hTexts.1,
        ih hTexts.2]
      simp only [List.map_cons, List.intercalate_cons_cons,
        List.append_assoc, List.singleton_append]

/- Where blank lines are passed over, only rows are left. -/
theorem filter_rawLines_programText
    {p : List Char → Bool}
    (hBlank : p [] = false)
    {blocks : List Block}
    (hTexts :
      ∀ row ∈ layoutAll 0 false blocks, '\n' ∉ row.text.toList)
    (width : Nat) :
    (rawLines (programText width blocks)).filter p =
      ((layoutAll 0 false blocks).map (Row.raw width)).filter
        p := by
  cases blocks with
  | nil => simp [programText, rawLines, layoutAll, hBlank]
  | cons b bs =>
      rw [rawLines_programText hTexts]
      clear hTexts
      induction bs generalizing b with
      | nil => simp [layoutAll]
      | cons c bs ih =>
          have hOthers := ih c
          have hRows :
              layoutAll 0 false (b :: c :: bs) =
                layout 0 false b ++ layoutAll 0 false (c :: bs) :=
            rfl
          rw [List.map_cons] at hOthers
          rw [List.map_cons, List.map_cons,
            List.intercalate_cons_cons, List.filter_append,
            List.filter_append, hOthers, hRows, List.map_append,
            List.filter_append]
          simp [hBlank]

/- The lines of rows say what the rows say. -/
theorem contentsOf_rows
    {rows : List Row}
    (hTexts : ∀ row ∈ rows, IsStatementText row.text)
    (width : Nat) :
    contentsOf (rows.map (Row.raw width)) =
      rows.map (Row.line width) := by
  have hLines :
      (rows.map (Row.raw width)).map (Line.ofRaw 0) =
        rows.map (Row.line width) := by
    rw [List.map_map]
    apply List.map_congr_left
    intro row hRow
    exact ofRaw_raw (hTexts row hRow) width
  rw [contentsOf, hLines, List.filter_eq_self]
  intro line hLine
  rcases List.mem_map.mp hLine with ⟨row, hRow, rfl⟩
  exact isSignificant_line (hTexts row hRow) width

/-
  The significant lines of a written program are the rows of
  its blocks.
-/
theorem lines_programText
    {blocks : List Block}
    (hTexts :
      ∀ row ∈ layoutAll 0 false blocks, IsStatementText row.text)
    (width : Nat) :
    (significantLines (programText width blocks)).map
        Line.unnumbered =
      (layoutAll 0 false blocks).map (Row.line width) := by
  have hFree :
      ∀ row ∈ layoutAll 0 false blocks, '\n' ∉ row.text.toList :=
    fun row hRow => (hTexts row hRow).2.1
  rw [unnumbered_significantLines, contentsOf, List.filter_map,
    filter_rawLines_programText rfl hFree, ← List.filter_map,
    ← contentsOf, contentsOf_rows hTexts]

end Source

end BlockProgram
