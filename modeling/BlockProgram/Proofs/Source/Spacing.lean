import Mathlib.Data.List.Forall2
import Mathlib.Data.List.Nodup
import BlockProgram.Proofs.Source.Accounting
import BlockProgram.Proofs.Source.Lines

/-
  Spacing that does not matter.

  Of a source text only the significant lines are read, and
  of their indents only how they compare.  Two texts that
  agree in this are read as the same blocks, ids included,
  and the same is found about the lines at each position.

  Main declarations:
    * `Source.AreAlike`
    * `Source.ReadAlike`
    * `Source.readAlike_of_areAlike`
    * `Source.read_ignores_spacing`
-/

namespace BlockProgram

namespace Source

open Text (isSpace)

------------------------------------------------------------
-- Findings About Moved Lines
------------------------------------------------------------

/- Both are the same finding, about a line and it moved. -/
def Diagnostic.IsMoved
    (f : Line → Line)
    (lines : List Line)
    (d e : Diagnostic) : Prop :=
  ∃ line ∈ lines,
    d.line = line.number ∧ e = { d with line := (f line).number }

section Moved

variable {f : Line → Line}
variable {lines : List Line}

theorem isMoved_report
    (hText : ∀ l, (f l).text = l.text)
    {line : Line}
    (hLine : line ∈ lines)
    (finding : Finding) :
    Diagnostic.IsMoved f lines (line.report finding)
      ((f line).report finding) := by
  refine ⟨line, hLine, rfl, ?_⟩
  rw [Line.report, Line.report, hText]

theorem forall₂_reportAbsent
    (hText : ∀ l, (f l).text = l.text)
    {line : Line}
    (hLine : line ∈ lines)
    (keyword : String)
    (parts : Option α) :
    List.Forall₂ (Diagnostic.IsMoved f lines)
      (line.reportAbsent keyword parts)
      ((f line).reportAbsent keyword parts) := by
  cases parts with
  | some parts => exact .nil
  | none => exact .cons (isMoved_report hText hLine _) .nil

mutual

theorem Entry.forall₂_diagnostics
    (hText : ∀ l, (f l).text = l.text) :
    (e : Entry) →
      e.lines ⊆ lines →
        List.Forall₂ (Diagnostic.IsMoved f lines) e.diagnostics
          (e.moved f).diagnostics
  | .function line header body, hLines => by
      rcases List.cons_subset.mp hLines with ⟨hLine, hBody⟩
      exact
        List.rel_append
          (forall₂_reportAbsent hText hLine "def" header)
          (forall₂_diagnosticsOf hText body hBody)
  | .conditional line condition body clause, hLines => by
      rcases List.cons_subset.mp hLines with ⟨hLine, hRest⟩
      rcases List.append_subset.mp hRest with ⟨hBody, hClause⟩
      exact
        List.rel_append
          (List.rel_append
            (forall₂_reportAbsent hText hLine "if" condition)
            (forall₂_diagnosticsOf hText body hBody))
          (clause.forall₂_diagnostics hText hClause)
  | .loop line header body, hLines => by
      rcases List.cons_subset.mp hLines with ⟨hLine, hBody⟩
      exact
        List.rel_append
          (forall₂_reportAbsent hText hLine "for" header)
          (forall₂_diagnosticsOf hText body hBody)
  | .ret _ _, _ => .nil
  | .assignment _ _ _, _ => .nil
  | .call _ _ _, _ => .nil
  | .unrecognized line, hLines => by
      have hLine := (List.cons_subset.mp hLines).1
      exact .cons (isMoved_report hText hLine _) .nil

theorem Clause.forall₂_diagnostics
    (hText : ∀ l, (f l).text = l.text) :
    (c : Clause) →
      c.lines ⊆ lines →
        List.Forall₂ (Diagnostic.IsMoved f lines) c.diagnostics
          (c.moved f).diagnostics
  | .none, _ => .nil
  | .elif line condition body clause, hLines => by
      rcases List.cons_subset.mp hLines with ⟨hLine, hRest⟩
      rcases List.append_subset.mp hRest with ⟨hBody, hClause⟩
      exact
        List.rel_append
          (List.rel_append
            (forall₂_reportAbsent hText hLine "if" condition)
            (forall₂_diagnosticsOf hText body hBody))
          (clause.forall₂_diagnostics hText hClause)
  | .otherwise _ body, hLines =>
      forall₂_diagnosticsOf hText body (List.cons_subset.mp hLines).2

/- What is found about moved lines was found about them. -/
theorem forall₂_diagnosticsOf
    (hText : ∀ l, (f l).text = l.text) :
    (es : List Entry) →
      linesOf es ⊆ lines →
        List.Forall₂ (Diagnostic.IsMoved f lines)
          (diagnosticsOf es) (diagnosticsOf (moved f es))
  | [], _ => .nil
  | e :: es, hLines => by
      rcases List.append_subset.mp hLines with ⟨hFirst, hRest⟩
      exact
        List.rel_append (e.forall₂_diagnostics hText hFirst)
          (forall₂_diagnosticsOf hText es hRest)

end

end Moved

------------------------------------------------------------
-- Lines That Are Alike
------------------------------------------------------------

/-
  Position by position the lines say the same, and of any two
  positions the indents compare alike.
-/
structure AreAlike (lines others : List Line) : Prop where
  text : lines.map Line.text = others.map Line.text
  indent :
    ∀ p ∈ lines.zip others,
      ∀ q ∈ lines.zip others,
        p.1.indent ≤ q.1.indent ↔ p.2.indent ≤ q.2.indent

/- The line put in the place of that at its position. -/
def Line.putAt
    (lines others : List Line)
    (line : Line) : Line :=
  let place := others[lines.idxOf line]?.getD line
  { line with number := place.number, indent := place.indent }

theorem putAt_of_mem_zip
    {lines others : List Line}
    (hNodup : lines.Nodup)
    (hText : lines.map Line.text = others.map Line.text)
    {p : Line × Line}
    (hPair : p ∈ lines.zip others) :
    p.1.putAt lines others = p.2 := by
  rcases List.mem_iff_getElem.mp hPair with ⟨i, hLength, rfl⟩
  have hLength' := List.length_zip ▸ hLength
  have hLine : i < lines.length := by omega
  have hOther : i < others.length := by omega
  have hSame : lines[i].text = others[i].text := by
    have hText' := congrArg (·[i]?) hText
    simpa [hLine, hOther] using hText'
  rw [List.getElem_zip, Line.putAt, hNodup.idxOf_getElem i hLine,
    List.getElem?_eq_getElem hOther, Option.getD_some, hSame]

theorem map_putAt
    {lines others : List Line}
    (hNodup : lines.Nodup)
    (hText : lines.map Line.text = others.map Line.text) :
    lines.map (Line.putAt lines others) = others := by
  have hLength : lines.length = others.length := by
    simpa using congrArg List.length hText
  calc
    lines.map (Line.putAt lines others)
      = (lines.zip others).map
          (fun p => p.1.putAt lines others) := by
        rw [← Function.comp_def, ← List.map_map,
          List.map_fst_zip hLength.le]
    _ = (lines.zip others).map Prod.snd :=
        List.map_congr_left fun p hPair =>
          putAt_of_mem_zip hNodup hText hPair
    _ = others := List.map_snd_zip hLength.ge

/- Every line of two lists alike stands beside another. -/
theorem exists_mem_zip
    {lines others : List Line}
    (hText : lines.map Line.text = others.map Line.text)
    {line : Line}
    (hLine : line ∈ lines) :
    ∃ other, (line, other) ∈ lines.zip others := by
  have hLength : lines.length = others.length := by
    simpa using congrArg List.length hText
  rw [← List.map_fst_zip hLength.le] at hLine
  rcases List.mem_map.mp hLine with ⟨⟨_, other⟩, hPair, rfl⟩
  exact ⟨other, hPair⟩

theorem keepsOrder_putAt
    {lines others : List Line}
    (hNodup : lines.Nodup)
    (hAlike : AreAlike lines others) :
    KeepsOrder (Line.putAt lines others) lines := by
  intro k hk l hl
  rcases exists_mem_zip hAlike.text hk with ⟨k', hk'⟩
  rcases exists_mem_zip hAlike.text hl with ⟨l', hl'⟩
  have hFirst : k.putAt lines others = k' :=
    putAt_of_mem_zip hNodup hAlike.text hk'
  have hSecond : l.putAt lines others = l' :=
    putAt_of_mem_zip hNodup hAlike.text hl'
  rw [hFirst, hSecond]
  exact (hAlike.indent _ hk' _ hl').symm

------------------------------------------------------------
-- Texts That Are Read Alike
------------------------------------------------------------

/-
  The findings differ only in the numbers of their lines, and
  those lines stand at one position among the others.
-/
def Diagnostic.Matches
    (lines others : List Line)
    (d e : Diagnostic) : Prop :=
  ∃ p ∈ lines.zip others,
    d.line = p.1.number ∧ e = { d with line := p.2.number }

/- The same blocks are read, and the findings match. -/
structure ReadAlike
    (n : Nat)
    (source other : String) : Prop where
  blocks : (read n source).blocks = (read n other).blocks
  diagnostics :
    List.Forall₂
      (Diagnostic.Matches (significantLines source)
        (significantLines other))
      (read n source).diagnostics (read n other).diagnostics

theorem nodup_significantLines (source : String) :
    (significantLines source).Nodup :=
  List.Nodup.of_map Line.number
    ((areOrdered_significantLines source).imp Nat.ne_of_lt)

theorem readAlike_of_areAlike
    (n : Nat)
    {source other : String}
    (hAlike :
      AreAlike (significantLines source)
        (significantLines other)) :
    ReadAlike n source other := by
  have hNodup := nodup_significantLines source
  have hKeeps (l : Line) :
      (l.putAt (significantLines source)
          (significantLines other)).text =
        l.text := rfl
  have hOutline :=
    outline_moved hKeeps (keepsOrder_putAt hNodup hAlike)
  rw [map_putAt hNodup hAlike.text] at hOutline
  constructor
  · rw [read, read, hOutline, draft_moved]
  · rw [read, read, hOutline]
    have hLines :
        linesOf (outline (significantLines source)) ⊆
          significantLines source := by
      rw [linesOf_outline]
      exact List.Subset.refl _
    apply (forall₂_diagnosticsOf hKeeps _ hLines).imp
    rintro d e ⟨line, hLine, hNumber, hMoved⟩
    rcases exists_mem_zip hAlike.text hLine with
      ⟨line', hPair⟩
    have hPut : line.putAt _ _ = line' :=
      putAt_of_mem_zip hNodup hAlike.text hPair
    exact ⟨(line, line'), hPair, hNumber, hPut ▸ hMoved⟩

------------------------------------------------------------
-- Blank Lines, Comments And Widths
------------------------------------------------------------

/- The lines, as they stand, that are not blank or comments. -/
def saidLines (source : String) : List (List Char) :=
  (rawLines source).filter fun raw =>
    (Line.ofRaw 0 raw).isSignificant

theorem unnumbered_eq_saidLines (source : String) :
    (significantLines source).map Line.unnumbered =
      (saidLines source).map (Line.ofRaw 0) := by
  rw [unnumbered_significantLines, contentsOf, List.filter_map]
  rfl

/- Lines are alike or not whatever their numbers are. -/
theorem areAlike_of_unnumbered
    {lines others : List Line}
    (hAlike :
      AreAlike (lines.map Line.unnumbered)
        (others.map Line.unnumbered)) :
    AreAlike lines others where
  text := by
    simpa [Function.comp_def, Line.unnumbered] using hAlike.text
  indent := by
    have hIndent := hAlike.indent
    rw [List.zip_map] at hIndent
    simp only [List.forall_mem_map] at hIndent
    exact hIndent

theorem areAlike_self (lines : List Line) :
    AreAlike lines lines where
  text := rfl
  indent := by
    have hSame : ∀ p ∈ lines.zip lines, p.1 = p.2 := by
      intro p hp
      rw [List.zip, List.zipWith_self] at hp
      rcases List.mem_map.mp hp with ⟨line, _, rfl⟩
      rfl
    intro p hp q hq
    rw [hSame p hp, hSame q hq]

/- Rows with different widths are alike. -/
theorem areAlike_rows
    {width width' : Nat}
    (hWidth : 0 < width)
    (hWidth' : 0 < width')
    (rows : List Row) :
    AreAlike (rows.map (Row.line width))
      (rows.map (Row.line width')) where
  text := by
    simp [Function.comp_def, Row.line]
  indent := by
    rw [List.zip_map']
    intro p hp q hq
    rcases List.mem_map.mp hp with ⟨row, _, rfl⟩
    rcases List.mem_map.mp hq with ⟨row', _, rfl⟩
    simp only [Row.line, Nat.mul_le_mul_left_iff hWidth,
      Nat.mul_le_mul_left_iff hWidth']

/- A row that starts with its text is measured as it is. -/
theorem ofRaw_row
    {row : Row}
    (hStart : ∀ c ∈ row.text.toList.head?, isSpace c = false)
    (width : Nat) :
    Line.ofRaw 0 (row.render width).toList =
      Row.line width
        { row with text := Text.trimmed row.text } := by
  have hGap :
      ∀ c ∈ List.replicate (width * row.depth) ' ',
        isSpace c = true := by
    intro c hc
    rw [List.eq_of_mem_replicate hc]
    decide
  have hIndent := Text.indentOf_append hGap hStart
  rw [List.length_replicate] at hIndent
  simp [Line.ofRaw, Row.render, Row.line, hIndent, Text.trimmed,
    Text.trim, Text.trimStart_append hGap]

/-
  Reading depends on the significant lines only, and of their
  indents on nothing but how they compare.  So the same is
  read once blank lines and comments are put in, removed or
  indented otherwise, and with any other width of an indent.
-/
theorem read_ignores_spacing
    (n : Nat)
    (source other : String) :
    (AreAlike (significantLines source)
          (significantLines other) →
        ReadAlike n source other) ∧
      (saidLines source = saidLines other →
          ReadAlike n source other) ∧
        ∀ (rows : List Row) (width width' : Nat),
          0 < width →
            0 < width' →
              (∀ row ∈ rows,
                  ∀ c ∈ row.text.toList.head?,
                    isSpace c = false) →
                saidLines source =
                    rows.map (fun row => (row.render width).toList) →
                  saidLines other =
                      rows.map
                        (fun row => (row.render width').toList) →
                    ReadAlike n source other := by
  refine ⟨readAlike_of_areAlike n, ?_, ?_⟩
  · intro hSame
    apply readAlike_of_areAlike
    apply areAlike_of_unnumbered
    rw [unnumbered_eq_saidLines, hSame, ← unnumbered_eq_saidLines]
    exact areAlike_self _
  · intro rows width width' hWidth hWidth' hStart hSource hOther
    have hLines (w : Nat) :
        (rows.map fun row => (row.render w).toList).map
            (Line.ofRaw 0) =
          (rows.map fun row =>
              { row with text := Text.trimmed row.text }).map
            (Row.line w) := by
      rw [List.map_map, List.map_map]
      exact
        List.map_congr_left fun row hRow =>
          ofRaw_row (hStart row hRow) w
    apply readAlike_of_areAlike
    apply areAlike_of_unnumbered
    rw [unnumbered_eq_saidLines, unnumbered_eq_saidLines, hSource,
      hOther, hLines, hLines]
    exact areAlike_rows hWidth hWidth' _

/- The rows of a choice between two statements. -/
def choiceRows : List Row :=
  [⟨0, "if x:"⟩, ⟨1, "f(x)"⟩, ⟨0, "else:"⟩, ⟨1, "return 1"⟩]

/- The choice with four spaces for each body. -/
def wideChoice : String :=
  "if x:\n    f(x)\nelse:\n    return 1"

/- The same choice with two spaces and with more lines. -/
def narrowChoice : String :=
  "# note\nif x:\n\n  f(x)\n     # more\nelse:\n  return 1\n"

/- A choice is read alike with other widths and comments. -/
theorem read_ignores_spacing_choice :
    (AreAlike (significantLines wideChoice)
          (significantLines narrowChoice) ∧
        ReadAlike 1 wideChoice narrowChoice) ∧
      (saidLines wideChoice =
            saidLines (wideChoice ++ "\n # end") ∧
          ReadAlike 1 wideChoice (wideChoice ++ "\n # end")) ∧
        saidLines wideChoice =
            choiceRows.map (fun row => (row.render 4).toList) ∧
          saidLines narrowChoice =
              choiceRows.map (fun row => (row.render 2).toList) ∧
            ReadAlike 7 wideChoice narrowChoice := by
  have hWide :
      significantLines wideChoice =
        [⟨0, 0, "if x:"⟩, ⟨1, 4, "f(x)"⟩, ⟨2, 0, "else:"⟩,
          ⟨3, 4, "return 1"⟩] := by
    decide +kernel
  have hNarrow :
      significantLines narrowChoice =
        [⟨1, 0, "if x:"⟩, ⟨3, 2, "f(x)"⟩, ⟨5, 0, "else:"⟩,
          ⟨6, 2, "return 1"⟩] := by
    decide +kernel
  have hAlike :
      AreAlike (significantLines wideChoice)
        (significantLines narrowChoice) := by
    rw [hWide, hNarrow]
    exact ⟨by decide, by decide⟩
  have hComment :
      saidLines wideChoice =
        saidLines (wideChoice ++ "\n # end") := by
    decide +kernel
  have hWideRows :
      saidLines wideChoice =
        choiceRows.map (fun row => (row.render 4).toList) := by
    decide +kernel
  have hNarrowRows :
      saidLines narrowChoice =
        choiceRows.map (fun row => (row.render 2).toList) := by
    decide +kernel
  have hStart :
      ∀ row ∈ choiceRows, ∀ c ∈ row.text.toList.head?,
        isSpace c = false := by
    simp [choiceRows, isSpace]
  refine ⟨⟨hAlike, ?_⟩, ⟨hComment, ?_⟩, hWideRows, hNarrowRows, ?_⟩
  · exact (read_ignores_spacing 1 _ _).1 hAlike
  · exact (read_ignores_spacing 1 _ _).2.1 hComment
  · exact
      (read_ignores_spacing 7 _ _).2.2 choiceRows 4 2
        (by decide) (by decide) hStart hWideRows hNarrowRows

end Source

end BlockProgram
