import BlockProgram.Proofs.Source.Accounting
import BlockProgram.Proofs.Source.Keeping

/-
  No line of a text is lost without a finding.

  Each line that is neither blank nor a comment makes one row
  of the text that is written, in the same order, and that
  row keeps the line.  The other rows are those of bodies
  without statements.

  Main declarations:
    * `Source.AreKept`
    * `Source.areKept_layoutAll_and_rowsOfBranch`
    * `Source.writtenLines`
    * `Source.compile_keeps_lines`
-/

namespace BlockProgram

namespace Source

open Text

------------------------------------------------------------
-- Findings About Lines
------------------------------------------------------------

/- A header that is not reported has its parts. -/
theorem exists_of_reportAbsent
    {line : Line}
    {keyword : String}
    {parts : Option α}
    (hNone : line.reportAbsent keyword parts = []) :
    ∃ found, parts = some found := by
  cases parts with
  | none => cases hNone
  | some found => exact ⟨found, rfl⟩

------------------------------------------------------------
-- Rows That Say Something
------------------------------------------------------------

/- The rows that are not there for an empty body. -/
def saidRows (rows : List Row) : List Row :=
  rows.filter fun row => row.text != placeholderText

theorem saidRows_append (rows others : List Row) :
    saidRows (rows ++ others) = saidRows rows ++ saidRows others :=
  List.filter_append rows others

theorem saidRows_orPlaceholder
    (depth : Nat)
    (rows : List Row) :
    saidRows (orPlaceholder depth rows) = saidRows rows := by
  cases rows <;> rfl

/- No block has the row of an empty body. -/
theorem headText_ne_placeholder
    (chained : Bool)
    (b : Block) :
    headText chained b ≠ placeholderText := by
  intro hText
  have hChars := congrArg String.toList hText
  cases b with
  | function id name parameters body =>
      simp [headText, functionText, placeholderText] at hChars
  | assignment id name value =>
      have hSign := congrArg ('=' ∈ ·) hChars
      simp [headText, assignmentText, placeholderText] at hSign
  | conditional id condition body elseKind elseBody =>
      cases chained <;>
        simp [headText, conditionalText, placeholderText] at hChars
  | loop id iterator iterable body =>
      simp [headText, loopText, placeholderText] at hChars
  | ret id value =>
      simp [headText, retText, placeholderText] at hChars
  | call id callee arguments =>
      have hParenthesis := congrArg ('(' ∈ ·) hChars
      simp [headText, callText, placeholderText] at hParenthesis

/-
  The rows that say something are as many as the lines, and
  each keeps its line.
-/
def AreKept (lines : List Line) (rows : List Row) : Prop :=
  List.Forall₂
    (fun line row => Keeps line.text.toList row.text.toList)
    lines (saidRows rows)

section AreKept

variable {line : Line}
variable {lines others : List Line}
variable {rows rows' : List Row}

theorem areKept_nil : AreKept [] [] :=
  .nil

theorem areKept_append
    (hFirst : AreKept lines rows)
    (hSecond : AreKept others rows') :
    AreKept (lines ++ others) (rows ++ rows') := by
  rw [AreKept, saidRows_append]
  exact List.rel_append hFirst hSecond

theorem areKept_cons
    {row : Row}
    (hOwn : Keeps line.text.toList row.text.toList)
    (hSaid : row.text ≠ placeholderText)
    (hRest : AreKept lines rows) :
    AreKept (line :: lines) (row :: rows) := by
  have hRows : saidRows (row :: rows) = row :: saidRows rows :=
    List.filter_cons_of_pos (by simpa using hSaid)
  rw [AreKept, hRows]
  exact .cons hOwn hRest

theorem areKept_orPlaceholder
    (hRows : AreKept lines rows)
    (depth : Nat) :
    AreKept lines (orPlaceholder depth rows) := by
  rw [AreKept, saidRows_orPlaceholder]
  exact hRows

end AreKept

------------------------------------------------------------
-- Lines Of Blocks
------------------------------------------------------------

/- The rows of the branch that a conditional found. -/
def rowsOfBranch
    (depth : Nat)
    (branch : ElseKind × List Block) : List Row :=
  branchRows depth branch.1 (layoutAll depth true branch.2)
    (layoutAll (depth + 1) false branch.2)

section Blocks

variable {depth : Nat}
variable {line : Line}
variable {inner : List Line}
variable {body : List Block}

/- The line of a block, and lines below it. -/
theorem areKept_block
    {lines : List Line}
    {rows : List Row}
    {chained : Bool}
    {b : Block}
    (hOwn : Keeps line.text.toList (headText chained b).toList)
    (hRest : AreKept lines rows) :
    AreKept (line :: lines)
      (⟨depth, headText chained b⟩ :: rows) :=
  areKept_cons hOwn (headText_ne_placeholder chained b) hRest

/- The lines of a conditional, chained or not. -/
theorem areKept_conditional
    {clause : List Line}
    {chained : Bool}
    {condition : String}
    {branch : ElseKind × List Block}
    (hOwn :
      Keeps line.text.toList
        (conditionalText chained condition).toList)
    (hBody : AreKept inner (layoutAll (depth + 1) false body))
    (hBranch : AreKept clause (rowsOfBranch depth branch)) :
    AreKept (line :: (inner ++ clause))
      (layout depth chained
        (conditionalOf (some condition) body branch)) :=
  areKept_block hOwn
    (areKept_append
      (areKept_orPlaceholder hBody (depth + 1)) hBranch)

/- A line that no others belong to, and the lines behind it. -/
theorem areKept_simple
    {rest : List Line}
    {b : Block}
    {bs : List Block}
    (hSimple : layout depth false b = [⟨depth, headText false b⟩])
    (hOwn : SaysSame line.text.toList (headText false b).toList)
    (hRest : AreKept rest (layoutAll depth false bs)) :
    AreKept (line :: rest) (layoutAll depth false (b :: bs)) := by
  rw [layoutAll, hSimple]
  exact areKept_block (.whole hOwn) hRest

/- A line with the lines below it, and the lines behind them. -/
theorem areKept_run
    {rest : List Line}
    {b : Block}
    {bs : List Block}
    (hFirst :
      AreKept (line :: deeper line.indent rest)
        (layout depth false b))
    (hRest :
      AreKept (afterDeeper line.indent rest)
        (layoutAll depth false bs)) :
    AreKept (line :: rest) (layoutAll depth false (b :: bs)) := by
  have hLines := areKept_append hFirst hRest
  rw [List.cons_append, deeper_append_afterDeeper] at hLines
  exact hLines

end Blocks

/-
  Where nothing is found about lines, the rows of the blocks
  that they make keep them.
-/
theorem areKept_layoutAll_and_rowsOfBranch :
    (∀ lines,
        diagnosticsOf (outline lines) = [] →
          ∀ depth,
            AreKept lines
              (layoutAll depth false (blocksOf lines))) ∧
      ∀ indent lines,
        (clauseOf indent lines).diagnostics = [] →
          ∀ depth,
            AreKept (clauseOf indent lines).lines
              (rowsOfBranch depth (branchOf indent lines)) := by
  apply lines_induction
  case nil =>
    intro _ depth
    rw [blocksOf_nil]
    exact areKept_nil
  case function =>
    intro line rest header hRead ihBody ihRest hClean depth
    rw [outline_function hRead] at hClean
    simp only [diagnosticsOf, Entry.diagnostics,
      List.append_eq_nil_iff] at hClean
    rcases hClean with ⟨⟨hHeader, hBody⟩, hRest⟩
    rcases exists_of_reportAbsent hHeader with ⟨parts, rfl⟩
    rw [blocksOf_function rfl hRead]
    exact
      areKept_run
        (areKept_block (keeps_of_read_function hRead)
          (areKept_orPlaceholder (ihBody hBody _) (depth + 1)))
        (ihRest hRest depth)
  case conditional =>
    intro line rest condition hRead ihBody ihBranch ihRest hClean
      depth
    rw [outline_conditional hRead] at hClean
    simp only [diagnosticsOf, Entry.diagnostics,
      List.append_eq_nil_iff] at hClean
    rcases hClean with ⟨⟨⟨hHeader, hBody⟩, hBranch⟩, hRest⟩
    rcases exists_of_reportAbsent hHeader with ⟨found, rfl⟩
    have hLines :=
      areKept_append
        (areKept_conditional
          (keeps_of_read_conditional hRead)
          (ihBody hBody (depth + 1)) (ihBranch hBranch depth))
        (ihRest hRest depth)
    rw [List.cons_append, List.append_assoc, lines_clauseOf,
      deeper_append_afterDeeper] at hLines
    rw [blocksOf_conditional rfl hRead]
    exact hLines
  case loop =>
    intro line rest header hRead ihBody ihRest hClean depth
    rw [outline_loop hRead] at hClean
    simp only [diagnosticsOf, Entry.diagnostics,
      List.append_eq_nil_iff] at hClean
    rcases hClean with ⟨⟨hHeader, hBody⟩, hRest⟩
    rcases exists_of_reportAbsent hHeader with ⟨parts, rfl⟩
    rw [blocksOf_loop rfl hRead]
    exact
      areKept_run
        (areKept_block (keeps_of_read_loop hRead)
          (areKept_orPlaceholder (ihBody hBody _) (depth + 1)))
        (ihRest hRest depth)
  case ret =>
    intro line rest value hRead ihRest hClean depth
    have hOwn := saysSame_of_read_ret hRead
    rw [outline_ret hRead] at hClean
    rw [blocksOf_ret hRead]
    exact areKept_simple rfl hOwn (ihRest hClean depth)
  case assignment =>
    intro line rest target value hRead ihRest hClean depth
    have hOwn :=
      saysSame_assignmentText
        (Statement.eq_of_read_assignment hRead)
    rw [outline_assignment hRead] at hClean
    rw [blocksOf_assignment hRead]
    exact areKept_simple rfl hOwn (ihRest hClean depth)
  case call =>
    intro line rest callee arguments hRead ihRest hClean depth
    have hOwn :=
      saysSame_callText (Statement.eq_of_read_call hRead)
    rw [outline_call hRead] at hClean
    rw [blocksOf_call hRead]
    exact areKept_simple rfl hOwn (ihRest hClean depth)
  case unrecognized =>
    intro line rest hRead _ hClean
    rw [outline_unrecognized hRead] at hClean
    cases hClean
  case none =>
    intro indent lines hNone _ depth
    rw [clauseOf_of_no_clause hNone,
      (clauses_of_no_clause hNone).1]
    exact areKept_nil
  case elif =>
    intro line rest hElif ihBody ihBranch hClean depth
    rw [clauseOf_elif rfl hElif] at hClean ⊢
    simp only [Clause.diagnostics, List.append_eq_nil_iff]
      at hClean
    rcases hClean with ⟨⟨hHeader, hBody⟩, hBranch⟩
    rcases exists_of_reportAbsent hHeader with ⟨found, hRead⟩
    have hOwn :=
      areKept_conditional
        (keeps_conditionalText true hElif hRead)
        (ihBody hBody (depth + 1)) (ihBranch hBranch depth)
    rw [branchOf_elif rfl hElif, hRead, Clause.lines,
      linesOf_outline, rowsOfBranch, branchRows, layoutAll,
      layoutAll, List.append_nil]
    exact hOwn
  case otherwise =>
    intro line rest hElif hElse ihBody hClean depth
    rw [clauseOf_else rfl hElif hElse] at hClean ⊢
    have hText : line.text = "else:" := beq_iff_eq.mp hElse
    have hBody :=
      areKept_orPlaceholder (ihBody hClean (depth + 1))
        (depth + 1)
    rw [branchOf_else rfl hElif hElse, Clause.lines,
      linesOf_outline, rowsOfBranch, branchRows]
    have hSaid : "else:" ≠ placeholderText := by
      decide
    refine areKept_cons ?_ hSaid hBody
    rw [hText]
    exact .whole (.equal rfl)

------------------------------------------------------------
-- Lines Of A Program
------------------------------------------------------------

/- Lines that are not blank and do not only hold a place. -/
def writtenLines (text : String) : List (List Char) :=
  (rawLines text).filter fun raw =>
    trim raw != [] && trim raw != placeholderText.toList

theorem squash_raw
    (width : Nat)
    (row : Row) :
    squash (row.raw width) = squash row.text.toList := by
  have hGap :
      squash (List.replicate (width * row.depth) ' ') = [] := by
    rw [squash_eq_nil_iff]
    intro c hc
    rw [List.eq_of_mem_replicate hc]
    decide
  rw [Row.raw, Row.render, String.toList_append, squash_append,
    String.toList_ofList, hGap, List.nil_append]

/- The lines of a program are its rows that say something. -/
theorem writtenLines_programText
    {blocks : List Block}
    (hTexts :
      ∀ row ∈ layoutAll 0 false blocks, IsStatementText row.text)
    (width : Nat) :
    writtenLines (programText width blocks) =
      (saidRows (layoutAll 0 false blocks)).map
        (Row.raw width) := by
  have hFree :
      ∀ row ∈ layoutAll 0 false blocks, '\n' ∉ row.text.toList :=
    fun row hRow => (hTexts row hRow).2.1
  rw [writtenLines, filter_rawLines_programText rfl hFree,
    List.filter_map, saidRows]
  refine
    congrArg (List.map (Row.raw width)) (List.filter_congr ?_)
  intro row hRow
  have hText :=
    congrArg Line.text (ofRaw_raw (hTexts row hRow) width)
  have hTrim : trim (row.raw width) = row.text.toList := by
    simpa [Line.ofRaw, Row.line] using congrArg String.toList hText
  have hNonempty : row.text ≠ "" := (hTexts row hRow).2.2.1
  simp [hTrim, hNonempty, bne, beq_eq_decide, String.toList_inj]

/-
  Where nothing is found about a text, each of its lines that
  is neither blank nor a comment makes one line of the text
  that is written from it, in the same order, and that line
  keeps it.  All other lines that are written are blank or
  hold a place in an empty body.
-/
theorem compile_keeps_lines
    {n : Nat}
    {source : String}
    (hClean : (read n source).diagnostics = [])
    (width : Nat) :
    ∃ text,
      compile width (parse n source) = .ok text ∧
        List.Forall₂
          (fun line written => Keeps line.text.toList written)
          (significantLines source) (writtenLines text) := by
  have hSound := areSound_of_isReadable (isReadable_parse n source)
  have hReadable :=
    isReadable_of_mem_blocksOf.1 (significantLines source)
      (areLines_significantLines source)
  have hTexts :
      ∀ row ∈
          layoutAll 0 false (blocksOf (significantLines source)),
        IsStatementText row.text := by
    intro row hRow
    exact
      isStatementText_of_mem_layoutAll
        (fun b hb => (hReadable b hb).1)
        (fun b hb => (hReadable b hb).2) hRow
  have hText :
      programText width (parse n source) =
        programText width (blocksOf (significantLines source)) := by
    rw [← programText_withoutIds, parse_eq,
      map_withoutIds_renumberClosingAll, programText_withoutIds]
  have hKept :=
    areKept_layoutAll_and_rowsOfBranch.1 _ hClean 0
  refine ⟨_, compile_of_areSound hSound width, ?_⟩
  rw [hText, writtenLines_programText hTexts,
    List.forall₂_map_right_iff]
  exact
    hKept.imp fun _ row hOwn => hOwn.congr (squash_raw width row)

/- A header with a comment behind it, and values left out. -/
def unspacedText : String :=
  "def f( x ):# g\n y=\n\n return"

theorem outline_unspacedText :
    outline (significantLines unspacedText) =
      [ .function ⟨0, 0, "def f( x ):# g"⟩ (some ("f", ["x"]))
          [ .assignment ⟨1, 1, "y="⟩ "y" "",
            .ret ⟨3, 1, "return"⟩ "None" ] ] := by
  have hLines :
      significantLines unspacedText =
        [ ⟨0, 0, "def f( x ):# g"⟩, ⟨1, 1, "y="⟩,
          ⟨3, 1, "return"⟩ ] := by
    decide +kernel
  have hFunction :
      Statement.read (Line.text ⟨0, 0, "def f( x ):# g"⟩) =
        .function (some ("f", ["x"])) := by
    decide +kernel
  have hAssignment :
      Statement.read (Line.text ⟨1, 1, "y="⟩) =
        .assignment "y" "" := by
    decide +kernel
  have hReturn :
      Statement.read (Line.text ⟨3, 1, "return"⟩) =
        .ret "None" := by
    decide +kernel
  have hDeeper :
      deeper 0 [⟨1, 1, "y="⟩, ⟨3, 1, "return"⟩] =
          [⟨1, 1, "y="⟩, ⟨3, 1, "return"⟩] ∧
        afterDeeper 0 [⟨1, 1, "y="⟩, ⟨3, 1, "return"⟩] = [] := by
    decide
  rw [hLines, outline_function hFunction, hDeeper.1, hDeeper.2,
    outline_assignment hAssignment, outline_ret hReturn,
    outline_nil]

theorem compile_keeps_lines_unspacedText :
    (read 1 unspacedText).diagnostics = [] ∧
      compile 2 (parse 1 unspacedText) =
          .ok "def f(x):\n  y = \"\"\n  return None" ∧
        List.Forall₂
          (fun line written => Keeps line.text.toList written)
          (significantLines unspacedText)
          (writtenLines "def f(x):\n  y = \"\"\n  return None") := by
  have hClean : (read 1 unspacedText).diagnostics = [] := by
    rw [read, outline_unspacedText]
    rfl
  have hText :
      compile 2 (parse 1 unspacedText) =
        .ok "def f(x):\n  y = \"\"\n  return None" := by
    rw [parse, read, outline_unspacedText]
    rfl
  rcases compile_keeps_lines hClean 2 with ⟨text, hWritten, hKept⟩
  rw [hText] at hWritten
  rcases Except.ok.inj hWritten with rfl
  exact ⟨hClean, hText, hKept⟩

/-
  What stands behind the colon of a header is not written, and
  nothing is found about it.
-/
theorem compile_drops_behind_colon :
    (read 1 "def f(x): return 1").diagnostics = [] ∧
      ∃ text,
        compile 4 (parse 1 "def f(x): return 1") = .ok text ∧
          ¬List.Forall₂
            (fun line written => SaysSame line.text.toList written)
            (significantLines "def f(x): return 1")
            (writtenLines text) := by
  have hLines :
      significantLines "def f(x): return 1" =
        [⟨0, 0, "def f(x): return 1"⟩] := by
    decide +kernel
  have hFunction :
      Statement.read (Line.text ⟨0, 0, "def f(x): return 1"⟩) =
        .function (some ("f", ["x"])) := by
    decide +kernel
  have hOutline :
      outline (significantLines "def f(x): return 1") =
        [ .function ⟨0, 0, "def f(x): return 1"⟩
            (some ("f", ["x"])) [] ] := by
    rw [hLines, outline_function hFunction]
    simp only [deeper, afterDeeper, List.takeWhile_nil,
      List.dropWhile_nil, outline_nil]
  have hWritten :
      writtenLines "def f(x):\n    pass" = ["def f(x):".toList] := by
    decide +kernel
  refine ⟨?_, "def f(x):\n    pass", ?_, ?_⟩
  · rw [read, hOutline]
    rfl
  · rw [parse, read, hOutline]
    rfl
  · rw [hLines, hWritten, List.forall₂_cons]
    rintro ⟨hSame, _⟩
    cases hSame with
    | equal hText =>
        revert hText
        decide +kernel
    | bareReturn hLine _ =>
        revert hLine
        decide +kernel
    | emptyValue target _ hLine _ =>
        -- The line does not end with an equals sign.
        have hLast := congrArg List.getLast? hLine
        rw [List.getLast?_concat] at hLast
        revert hLast
        decide +kernel

end Source

end BlockProgram
