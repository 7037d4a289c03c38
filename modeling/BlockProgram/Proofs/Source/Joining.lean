import BlockProgram.Proofs.Source.Descent
import BlockProgram.Proofs.Source.Spacing

/-
  Texts that are joined.

  A text that begins at the left margin, and not with a clause
  of a conditional, may follow any other.  Whatever is open at
  the end of the first text closes before the second begins,
  and the second is read as if it stood alone.

  Main declarations:
    * `Source.StartsAnew`
    * `Source.outline_append`
    * `Source.significantLines_joined`
    * `Source.diagnosticsOf_raised`
    * `Source.read_joined`
-/

namespace BlockProgram

namespace Source

------------------------------------------------------------
-- Outlines In A Row
------------------------------------------------------------

/-
  The first of the lines is not indented, and it does not go
  on with a conditional.
-/
def StartsAnew (lines : List Line) : Prop :=
  ∀ l ∈ lines.head?,
    l.indent = 0 ∧ l.isElif = false ∧ l.isElse = false

section Rows

variable {indent : Nat}
variable {lines after : List Line}
variable (hAfter : StartsAnew after)
include hAfter

/- No line holds any of the lines that start anew. -/
theorem deeper_append_anew (indent : Nat) (lines : List Line) :
    deeper indent (lines ++ after) = deeper indent lines ∧
      afterDeeper indent (lines ++ after) =
        afterDeeper indent lines ++ after := by
  have hLeft : ∀ l ∈ after.head?, l.indent ≤ indent := by
    intro l hl
    have hIndent := (hAfter l hl).1
    omega
  rcases isRun_deeper hLeft with ⟨hInner, hStop⟩
  have hSplit := deeper_append hInner hStop
  rwa [← List.append_assoc, deeper_append_afterDeeper] at hSplit

theorem isClause_append_anew
    (hNone : ∀ l ∈ lines.head?, l.isClause indent = false) :
    ∀ l ∈ (lines ++ after).head?, l.isClause indent = false := by
  cases lines with
  | nil =>
      intro l hl
      rcases hAfter l hl with ⟨_, hElif, hElse⟩
      simp [Line.isClause, hElif, hElse]
  | cons line rest => exact hNone

/- Lines that take no clause are left as they are. -/
theorem afterClauses_append_of_no_clause
    (hNone : ∀ l ∈ lines.head?, l.isClause indent = false) :
    afterClauses indent (lines ++ after) = lines ++ after :=
  (clauses_of_no_clause (isClause_append_anew hAfter hNone)).2

theorem afterClauses_append (indent : Nat) (lines : List Line) :
    afterClauses indent (lines ++ after) =
      afterClauses indent lines ++ after := by
  have hSplit := deeper_append_anew hAfter indent
  fun_induction afterClauses indent lines with
  | case1 =>
      exact afterClauses_append_of_no_clause hAfter (by simp)
  | case2 line rest hEq hElif ih =>
      rw [List.cons_append, afterClauses_elif hEq hElif,
        (hSplit rest).2, ih]
  | case3 line rest hEq hElif hElse =>
      have hNot : line.isElif = false := by simpa using hElif
      rw [List.cons_append, afterClauses_else hEq hNot hElse,
        (hSplit rest).2]
  | case4 line rest hEq hElif hElse =>
      apply afterClauses_append_of_no_clause hAfter
      simp [Line.isClause, hElif, hElse]
  | case5 line rest hNe =>
      apply afterClauses_append_of_no_clause hAfter
      simp [Line.isClause, hNe]

theorem outline_and_clauseOf_append :
    (∀ lines,
        outline (lines ++ after) = outline lines ++ outline after) ∧
      ∀ indent lines,
        clauseOf indent (lines ++ after) =
          clauseOf indent lines := by
  have hSplit := deeper_append_anew hAfter
  apply lines_induction
  case nil => rw [outline_nil, List.nil_append, List.nil_append]
  case function =>
    intro line rest header hRead _ ihRest
    rw [List.cons_append, outline_function hRead,
      outline_function hRead, (hSplit _ rest).1, (hSplit _ rest).2,
      ihRest, List.cons_append]
  case conditional =>
    intro line rest condition hRead _ ihBranch ihRest
    rw [List.cons_append, outline_conditional hRead,
      outline_conditional hRead, (hSplit _ rest).1,
      (hSplit _ rest).2, ihBranch, afterClauses_append hAfter,
      ihRest, List.cons_append]
  case loop =>
    intro line rest header hRead _ ihRest
    rw [List.cons_append, outline_loop hRead, outline_loop hRead,
      (hSplit _ rest).1, (hSplit _ rest).2, ihRest,
      List.cons_append]
  case ret =>
    intro line rest value hRead ihRest
    rw [List.cons_append, outline_ret hRead, outline_ret hRead,
      ihRest, List.cons_append]
  case assignment =>
    intro line rest target value hRead ihRest
    rw [List.cons_append, outline_assignment hRead,
      outline_assignment hRead, ihRest, List.cons_append]
  case call =>
    intro line rest callee arguments hRead ihRest
    rw [List.cons_append, outline_call hRead, outline_call hRead,
      ihRest, List.cons_append]
  case unrecognized =>
    intro line rest hRead ihRest
    rw [List.cons_append, outline_unrecognized hRead,
      outline_unrecognized hRead, ihRest, List.cons_append]
  case none =>
    intro indent lines hNone
    rw [clauseOf_of_no_clause hNone,
      clauseOf_of_no_clause (isClause_append_anew hAfter hNone)]
  case elif =>
    intro line rest hElif _ ihBranch
    rw [List.cons_append, clauseOf_elif rfl hElif,
      clauseOf_elif rfl hElif, (hSplit _ rest).1,
      (hSplit _ rest).2, ihBranch]
  case otherwise =>
    intro line rest hElif hElse _
    rw [List.cons_append, clauseOf_else rfl hElif hElse,
      clauseOf_else rfl hElif hElse, (hSplit _ rest).1]

/- All that is open closes before the lines that follow. -/
theorem outline_append (lines : List Line) :
    outline (lines ++ after) = outline lines ++ outline after :=
  (outline_and_clauseOf_append hAfter).1 lines

end Rows

------------------------------------------------------------
-- Lines In A Row
------------------------------------------------------------

/- The line, further down by some lines. -/
def Line.raised
    (count : Nat)
    (line : Line) : Line :=
  { line with number := line.number + count }

/- The finding, about a line further down. -/
def Diagnostic.raised
    (count : Nat)
    (d : Diagnostic) : Diagnostic :=
  { d with line := d.line + count }

theorem linesFrom_append
    (start : Nat)
    (first second : List (List Char)) :
    linesFrom start (first ++ second) =
      linesFrom start first ++
        linesFrom (start + first.length) second := by
  rw [linesFrom_eq_map, linesFrom_eq_map, linesFrom_eq_map,
    List.zipIdx_append, List.map_append]

theorem linesFrom_raised
    (count : Nat)
    (raws : List (List Char)) :
    linesFrom count raws =
      (linesFrom 0 raws).map (Line.raised count) := by
  have hStart (start : Nat) :
      linesFrom (start + count) raws =
        (linesFrom start raws).map (Line.raised count) := by
    induction raws generalizing start with
    | nil => rfl
    | cons raw raws ih =>
        rw [linesFrom, Nat.add_right_comm, ih, linesFrom,
          List.map_cons]
        rfl
  rw [← hStart, Nat.zero_add]

/- Two texts, the second from a line of its own on. -/
def joined (first second : String) : String :=
  first ++ "\n" ++ second

theorem rawLines_joined (first second : String) :
    rawLines (joined first second) =
      rawLines first ++ rawLines second := by
  have hChars :
      (joined first second).toList =
        first.toList ++ '\n' :: second.toList := by
    simp [joined]
  rw [rawLines, hChars, List.splitOn_append_cons_self, rawLines,
    rawLines]

/- The lines of the second text stand below the first. -/
theorem significantLines_joined (first second : String) :
    significantLines (joined first second) =
      significantLines first ++
        (significantLines second).map
          (Line.raised (rawLines first).length) := by
  rw [significantLines, rawLines_joined, linesFrom_append,
    List.filter_append, Nat.zero_add,
    linesFrom_raised (rawLines first).length, List.filter_map,
    significantLines, significantLines]
  rfl

------------------------------------------------------------
-- Findings Further Down
------------------------------------------------------------

/- What is found about raised lines is raised with them. -/
theorem diagnosticsOf_raised
    (count : Nat)
    (es : List Entry) :
    diagnosticsOf (moved (Line.raised count) es) =
      (diagnosticsOf es).map (Diagnostic.raised count) := by
  have hText (line : Line) : (line.raised count).text = line.text :=
    rfl
  have hMoved :=
    forall₂_diagnosticsOf hText es (List.Subset.refl _)
  have hRaised :
      List.Forall₂ (· = ·)
        ((diagnosticsOf es).map (Diagnostic.raised count))
        (diagnosticsOf (moved (Line.raised count) es)) := by
    apply List.forall₂_map_left_iff.mpr
    apply hMoved.imp
    rintro d e ⟨line, _, hNumber, rfl⟩
    rw [Diagnostic.raised, hNumber, Line.raised]
  rw [List.forall₂_eq_eq_eq] at hRaised
  exact hRaised.symm

theorem draft_append (es fs : List Entry) :
    draft (es ++ fs) = draft es ++ draft fs := by
  induction es with
  | nil => rfl
  | cons e es ih =>
      rw [List.cons_append, draft, draft, ih, List.append_assoc]

theorem diagnosticsOf_append (es fs : List Entry) :
    diagnosticsOf (es ++ fs) =
      diagnosticsOf es ++ diagnosticsOf fs := by
  induction es with
  | nil => rfl
  | cons e es ih =>
      rw [List.cons_append, diagnosticsOf, diagnosticsOf, ih,
        List.append_assoc]

------------------------------------------------------------
-- Texts In A Row
------------------------------------------------------------

/- The outline of joined texts is that of both in a row. -/
theorem outline_joined
    {first second : String}
    (hSecond : StartsAnew (significantLines second)) :
    outline (significantLines (joined first second)) =
      outline (significantLines first) ++
        moved (Line.raised (rawLines first).length)
          (outline (significantLines second)) := by
  have hRaised :
      StartsAnew
        ((significantLines second).map
          (Line.raised (rawLines first).length)) := by
    intro l hl
    rw [List.head?_map] at hl
    rcases Option.map_eq_some_iff.mp hl with ⟨line, hLine, rfl⟩
    exact hSecond line hLine
  have hText (line : Line) :
      (line.raised (rawLines first).length).text = line.text :=
    rfl
  rw [significantLines_joined, outline_append hRaised,
    outline_moved hText fun _ _ _ _ => Iff.rfl]

/-
  A text below another is read as if it stood alone, with ids
  from the number that the first has left.  The findings about
  it tell where its lines stand now.
-/
theorem read_joined
    (n : Nat)
    {first second : String}
    (hSecond : StartsAnew (significantLines second)) :
    (read n (joined first second)).blocks =
        (read n first).blocks ++
          (read (n + Block.sizeAll (read n first).blocks)
            second).blocks ∧
      (read n (joined first second)).diagnostics =
        (read n first).diagnostics ++
          (read (n + Block.sizeAll (read n first).blocks)
            second).diagnostics.map
              (Diagnostic.raised (rawLines first).length) := by
  constructor
  · simp only [read, outline_joined hSecond, draft_append,
      draft_moved, renumberClosingAll_append,
      Block.sizeAll_renumberClosingAll]
  · simp only [read, outline_joined hSecond, diagnosticsOf_append,
      diagnosticsOf_raised]

/- A text that ends in an open branch with a skipped line. -/
def upperText : String :=
  "def f(a):\n    if a:\n        g(a)\n    else:\n        !"

/- A text that begins with a comment and a broken header. -/
def lowerText : String :=
  "# next\nif b\n    return b"

/- The branch and the function close where the texts meet. -/
theorem read_joined_texts :
    StartsAnew (significantLines lowerText) ∧
      (read 1 (joined upperText lowerText)).blocks =
          (read 1 upperText).blocks ++
            (read 4 lowerText).blocks ∧
        (read 1 (joined upperText lowerText)).diagnostics =
          [ ⟨4, .unrecognized, "!"⟩,
            ⟨6, .malformed "if", "if b"⟩ ] := by
  have hLines :
      significantLines lowerText =
        [⟨1, 0, "if b"⟩, ⟨2, 4, "return b"⟩] := by
    decide +kernel
  have hStarts : StartsAnew (significantLines lowerText) := by
    rw [hLines]
    rintro l hl
    rcases Option.mem_some.mp hl with rfl
    decide
  have hSize : Block.sizeAll (read 1 upperText).blocks = 3 := by
    decide +kernel
  have hUpper :
      (read 1 upperText).diagnostics =
        [⟨4, .unrecognized, "!"⟩] := by
    decide +kernel
  have hLower :
      (read 4 lowerText).diagnostics =
        [⟨1, .malformed "if", "if b"⟩] := by
    decide +kernel
  rcases read_joined 1 hStarts with ⟨hBlocks, hDiagnostics⟩
  rw [hSize] at hBlocks hDiagnostics
  rw [hUpper, hLower] at hDiagnostics
  exact ⟨hStarts, hBlocks, hDiagnostics⟩

end Source

end BlockProgram
