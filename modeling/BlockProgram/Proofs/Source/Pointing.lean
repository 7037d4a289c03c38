import BlockProgram.Proofs.Source.Accounting
import BlockProgram.Proofs.Text.Cuts

/-
  Findings point at their lines.

  The reader of a program takes the pieces between newlines
  for lines, while a finding is shown below a line without
  its line end.  Both measure and trim the line alike, since
  a line that has a finding is not blank, and its end is
  white space.

  Main declarations:
    * `Source.IsLineOf`
    * `Source.isLineOf_iff_of_isLineOf`
    * `Source.pieces_induction`
    * `Source.exists_isLineOf`
    * `Source.Diagnostic.Underlines`
    * `Source.render_points_at_line`
-/

namespace BlockProgram

namespace Source

open Text

------------------------------------------------------------
-- Lines And Their Ends
------------------------------------------------------------

/-
  The line of a text with a number, counted from zero, without
  its line end.  That is a newline, or a newline with a
  carriage return before it.  The last line may have none, if
  there is something on it.
-/
inductive IsLineOf :
    Nat →
    List Char →
    List Char →
    Prop where
  | newline
      {line rest : List Char}
      (hLine : '\n' ∉ line)
      (hReturn : line.getLast? ≠ some '\r') :
      IsLineOf 0 line (line ++ '\n' :: rest)
  | returned
      {line rest : List Char}
      (hLine : '\n' ∉ line) :
      IsLineOf 0 line (line ++ '\r' :: '\n' :: rest)
  | last
      {line : List Char}
      (hLine : '\n' ∉ line)
      (hSome : line ≠ []) :
      IsLineOf 0 line line
  | later
      {number : Nat}
      {line passed rest : List Char}
      (hPassed : '\n' ∉ passed)
      (hLater : IsLineOf number line rest) :
      IsLineOf (number + 1) line (passed ++ '\n' :: rest)

theorem withoutReturn_concat (cs : List Char) :
    Diagnostic.withoutReturn (cs ++ ['\r']) = cs := by
  simp [Diagnostic.withoutReturn]

theorem withoutReturn_eq_self
    {cs : List Char}
    (hReturn : cs.getLast? ≠ some '\r') :
    Diagnostic.withoutReturn cs = cs := by
  unfold Diagnostic.withoutReturn
  split
  · next rest hReversed =>
      rw [← List.head?_reverse, hReversed] at hReturn
      exact absurd rfl hReturn
  · rfl

/- A newline ends a shown line, and the others follow. -/
theorem shownLines_newline
    {passed : List Char}
    (hPassed : '\n' ∉ passed)
    (rest : List Char) :
    Diagnostic.shownLines ((passed ++ '\n' :: rest).splitOn '\n') =
      Diagnostic.withoutReturn passed ::
        Diagnostic.shownLines (rest.splitOn '\n') := by
  rw [List.splitOn_append_cons_self_of_not_mem hPassed]
  cases hPieces : rest.splitOn '\n' with
  | nil => exact absurd hPieces (List.splitOn_ne_nil '\n' rest)
  | cons piece pieces => rfl

/- What is shown of a line number is that line. -/
theorem getElem?_shownLines
    {number : Nat}
    {line text : List Char}
    (hLine : IsLineOf number line text) :
    (Diagnostic.shownLines (text.splitOn '\n'))[number]? =
      some line := by
  induction hLine with
  | newline hLine hReturn =>
      rw [shownLines_newline hLine, withoutReturn_eq_self hReturn]
      rfl
  | @returned line rest hLine =>
      have hReturned : '\n' ∉ line ++ ['\r'] := by simp [hLine]
      have hText :
          line ++ '\r' :: '\n' :: rest =
            (line ++ ['\r']) ++ '\n' :: rest := by
        simp
      rw [hText, shownLines_newline hReturned,
        withoutReturn_concat]
      rfl
  | @last line hLine hSome =>
      rw [List.splitOn_eq_singleton hLine]
      simp [Diagnostic.shownLines, hSome]
  | later hPassed _ ih =>
      rw [shownLines_newline hPassed, List.getElem?_cons_succ]
      exact ih

/- A text has one line for a number. -/
theorem isLineOf_iff_of_isLineOf
    {number : Nat}
    {line other text : List Char}
    (hLine : IsLineOf number line text) :
    IsLineOf number other text ↔ other = line := by
  constructor
  · intro hOther
    have hShown := getElem?_shownLines hLine
    rw [getElem?_shownLines hOther] at hShown
    exact Option.some.inj hShown
  · rintro rfl
    exact hLine

/- What stands before a newline is a line and its end. -/
theorem exists_isLineOf_newline
    {front : List Char}
    (hFront : '\n' ∉ front)
    (rest : List Char) :
    ∃ line lineEnd,
      IsLineOf 0 line (front ++ '\n' :: rest) ∧
        front = line ++ lineEnd ∧
          ∀ c ∈ lineEnd, isSpace c = true := by
  by_cases hReturn : front.getLast? = some '\r'
  · rcases List.getLast?_eq_some_iff.mp hReturn with ⟨line, rfl⟩
    have hLine : '\n' ∉ line := by
      intro hMember
      exact hFront (List.mem_append_left _ hMember)
    have hReturned : ∀ c ∈ ['\r'], isSpace c = true :=
      List.forall_mem_singleton.mpr rfl
    refine ⟨line, ['\r'], ?_, rfl, hReturned⟩
    rw [List.append_assoc]
    exact .returned hLine
  · exact
      ⟨front, [], .newline hFront hReturn,
        (List.append_nil front).symm, List.forall_mem_nil _⟩

/-
  A text is its last piece, or a newline ends its first piece
  and another text follows.
-/
theorem pieces_induction
    {motive : List Char → Prop}
    (last : ∀ text, '\n' ∉ text → motive text)
    (ended :
      ∀ front rest,
        '\n' ∉ front →
          motive rest → motive (front ++ '\n' :: rest))
    (text : List Char) :
    motive text := by
  by_cases hNewline : '\n' ∈ text
  · rcases List.eq_append_cons_of_mem hNewline with
      ⟨front, rest, hText, hFront⟩
    rw [hText]
    exact
      ended front rest hFront (pieces_induction last ended rest)
  · exact last text hNewline
termination_by text.length
decreasing_by
  rw [hText, List.length_append, List.length_cons]
  omega

/- A piece between newlines that is not empty holds a line. -/
theorem exists_isLineOf
    {number : Nat}
    {text piece : List Char}
    (hPiece : (text.splitOn '\n')[number]? = some piece)
    (hSome : piece ≠ []) :
    ∃ line lineEnd,
      IsLineOf number line text ∧
        piece = line ++ lineEnd ∧
          ∀ c ∈ lineEnd, isSpace c = true := by
  induction text using pieces_induction generalizing number with
  | last text hText =>
      rw [List.splitOn_eq_singleton hText] at hPiece
      cases number with
      | zero =>
          rcases Option.some.inj hPiece with rfl
          exact
            ⟨text, [], .last hText hSome,
              (List.append_nil text).symm, List.forall_mem_nil _⟩
      | succ number => simp at hPiece
  | ended front rest hFront ih =>
      rw [List.splitOn_append_cons_self_of_not_mem hFront] at hPiece
      cases number with
      | zero =>
          rcases Option.some.inj hPiece with rfl
          exact exists_isLineOf_newline hFront rest
      | succ number =>
          rcases ih hPiece with ⟨line, lineEnd, hLine, hRest⟩
          exact ⟨line, lineEnd, .later hFront hLine, hRest⟩

------------------------------------------------------------
-- Marks Below A Line
------------------------------------------------------------

/-
  A finding shown below the line of the text that it is
  about.  The line is the reader's, with its white space, and
  below it a caret stands under the first character that is
  not white space.  The caret and the underline behind it
  reach to the end of the line's trimmed text.
-/
structure Diagnostic.Underlines
    (source : String)
    (line : Line)
    (d : Diagnostic)
    (gap behind : List Char)
    (underline : Nat) : Prop where
  isLine :
    ∀ shown,
      IsLineOf d.line shown source.toList ↔
        shown = gap ++ line.text.toList ++ behind
  gap_isSpace : ∀ c ∈ gap, isSpace c = true
  behind_isSpace : ∀ c ∈ behind, isSpace c = true
  isTrimmed : IsTrimmed line.text.toList
  length_gap : gap.length = line.indent
  length_underline : 1 + underline = line.text.length
  render_eq :
    d.render source =
      "WARNING AT LINE " ++ toString (d.line + 1) ++ ":\n" ++
        String.ofList (gap ++ line.text.toList ++ behind) ++
        "\n" ++
        String.ofList
          (List.replicate line.indent ' ' ++
            '^' :: List.replicate underline '_') ++
        "\n" ++ d.summary

/-
  The reader's measures of a piece between newlines are those
  of the line in it, which is then cut by them.
-/
theorem exists_cuts_of_lineEnd
    {shown lineEnd : List Char}
    (hEnd : ∀ c ∈ lineEnd, isSpace c = true)
    (hSome : trim (shown ++ lineEnd) ≠ []) :
    ∃ gap behind,
      (∀ c ∈ gap, isSpace c = true) ∧
        (∀ c ∈ behind, isSpace c = true) ∧
          gap.length = indentOf (shown ++ lineEnd) ∧
            shown = gap ++ trim (shown ++ lineEnd) ++ behind := by
  have hTrim : trim ([] ++ shown ++ lineEnd) = trim shown :=
    trim_append (by simp) hEnd
  rw [List.nil_append] at hTrim
  rw [hTrim] at hSome ⊢
  rw [indentOf_append_of_trim_ne_nil hSome]
  exact exists_indent_append_trim hSome

variable {source : String}
variable {line : Line}
variable {d : Diagnostic}

/-
  What is shown of a finding, once the line without its end
  is known by its cuts.
-/
theorem render_eq_of_cuts
    {gap behind : List Char}
    {underline : Nat}
    (hLine :
      IsLineOf d.line (gap ++ line.text.toList ++ behind)
        source.toList)
    (hGap : ∀ c ∈ gap, isSpace c = true)
    (hBehind : ∀ c ∈ behind, isSpace c = true)
    (hTrimmed : IsTrimmed line.text.toList)
    (hUnderline : 1 + underline = line.text.length) :
    d.render source =
      "WARNING AT LINE " ++ toString (d.line + 1) ++ ":\n" ++
        String.ofList (gap ++ line.text.toList ++ behind) ++
        "\n" ++
        String.ofList
          (List.replicate gap.length ' ' ++
            '^' :: List.replicate underline '_') ++
        "\n" ++ d.summary := by
  have hShown :
      (Diagnostic.shownLines (rawLines source))[d.line]? =
        some (gap ++ line.text.toList ++ behind) :=
    getElem?_shownLines hLine
  have hTrim :
      trim (gap ++ line.text.toList ++ behind) =
        line.text.toList :=
    trim_between hGap hBehind hTrimmed
  have hWidth :
      max line.text.toList.length 1 - 1 = underline := by
    rw [String.length_toList]
    omega
  have hSome : trim line.text.toList ≠ [] := by
    rw [trim_eq_self hTrimmed, ← List.length_pos_iff,
      String.length_toList]
    omega
  have hIndent :
      indentOf (gap ++ line.text.toList ++ behind) =
        gap.length := by
    have hCut := indentOf_append_trim hGap hSome behind
    rwa [trim_eq_self hTrimmed, ← List.append_assoc] at hCut
  unfold Diagnostic.render
  simp only [hShown, Option.getD_some, hTrim, hWidth, hIndent]

/- A message quotes the text of the line that it is about. -/
theorem quotes_text_of_report (line : Line) (finding : Finding) :
    ∃ front back,
      (line.report finding).message =
        front ++ inBackquotes line.text ++ back := by
  cases finding with
  | unrecognized =>
      exact
        ⟨"skipped unrecognized statement ", "", by
          simp [Line.report, Diagnostic.message]⟩
  | malformed keyword =>
      exact
        ⟨"could not read " ++ inBackquotes keyword ++ " header ",
          ", using defaults", by
          simp only [Line.report, Diagnostic.message]⟩

/- A finding about a significant line is shown below it. -/
theorem exists_underlines
    (hLine : line ∈ significantLines source)
    (hNumber : d.line = line.number) :
    ∃ gap behind underline,
      d.Underlines source line gap behind underline := by
  rcases mem_significantLines.mp hLine with
    ⟨hSignificant, raw, hRaw, hOf⟩
  have hText : line.text.toList = trim raw := by
    rw [hOf, Line.ofRaw, String.toList_ofList]
  have hIndent : line.indent = indentOf raw := by
    rw [hOf, Line.ofRaw]
  have hSome : trim raw ≠ [] := by
    intro hBlank
    rw [hBlank] at hText
    simp [Line.isSignificant, hText] at hSignificant
  have hTrimmed : IsTrimmed line.text.toList :=
    hText ▸ isTrimmed_trim raw
  have hRawSome : raw ≠ [] := by
    rintro rfl
    exact hSome rfl
  rcases exists_isLineOf hRaw hRawSome with
    ⟨shown, lineEnd, hShown, rfl, hEnd⟩
  rcases exists_cuts_of_lineEnd hEnd hSome with
    ⟨gap, behind, hGap, hBehind, hLength, hCuts⟩
  rw [← hText] at hCuts
  rw [← hNumber, hCuts] at hShown
  have hPositive : 0 < line.text.length := by
    rw [← String.length_toList, hText]
    exact List.length_pos_iff.mpr hSome
  have hUnderline :
      1 + (line.text.length - 1) = line.text.length := by
    omega
  refine
    ⟨gap, behind, line.text.length - 1,
      fun _ => isLineOf_iff_of_isLineOf hShown, hGap, hBehind,
      hTrimmed, hLength.trans hIndent.symm, hUnderline, ?_⟩
  rw [hIndent, ← hLength]
  exact
    render_eq_of_cuts hShown hGap hBehind hTrimmed hUnderline

/-
  Every finding about a text quotes the trimmed text of a
  line of that text, and is shown below that line.  The line
  is shown as it stands in the text, without its line end.  A
  caret stands below the first character that is not white
  space, behind as many spaces as the reader took for the
  line's indent, and with its underline it has as many
  characters as the quoted text.
-/
theorem render_points_at_line
    (n : Nat)
    (source : String) :
    ∀ d ∈ (read n source).diagnostics,
      ∃ line ∈ significantLines source,
        d.line = line.number ∧
          (∃ front back,
            d.message =
              front ++ inBackquotes line.text ++ back) ∧
            ∃ gap behind underline,
              d.Underlines source line gap behind underline := by
  intro d hd
  have hAbout :=
    areAbout_diagnosticsOf (outline (significantLines source))
  rw [linesOf_outline] at hAbout
  rcases hAbout.isAbout d hd with ⟨line, hLine, hReport, _⟩
  have hNumber : d.line = line.number := by rw [hReport]; rfl
  have hQuotes := quotes_text_of_report line d.finding
  rw [← hReport] at hQuotes
  exact
    ⟨line, hLine, hNumber, hQuotes, exists_underlines hLine hNumber⟩

/-
  A skipped line that ends in a carriage return and a newline,
  and a malformed header on the last line, which has no end.
-/
def endedText : String :=
  "x = 1\r\n\t\u00a0import é \r\n  if x"

/-
  The carriage return is not shown, but the blank before it
  is; the tab and the no-break space are one space each.
-/
theorem render_points_at_line_endedText :
    (read 1 endedText).diagnostics =
        [⟨1, .unrecognized, "import é"⟩,
          ⟨2, .malformed "if", "if x"⟩] ∧
      IsLineOf 1 "\t\u00a0import é ".toList endedText.toList ∧
        Diagnostic.render endedText
            ⟨1, .unrecognized, "import é"⟩ =
          "WARNING AT LINE 2:\n\t\u00a0import é \n  ^_______\n" ++
            Diagnostic.summary ⟨1, .unrecognized, "import é"⟩ := by
  have hFound :
      (read 1 endedText).diagnostics =
        [⟨1, .unrecognized, "import é"⟩,
          ⟨2, .malformed "if", "if x"⟩] := by
    decide +kernel
  have hLines :
      significantLines endedText =
        [⟨0, 0, "x = 1"⟩, ⟨1, 2, "import é"⟩, ⟨2, 2, "if x"⟩] := by
    decide +kernel
  have hText :
      endedText.toList =
        "x = 1\r".toList ++
          '\n' ::
            ("\t\u00a0import é ".toList ++
              '\r' :: '\n' :: "  if x".toList) := by
    decide +kernel
  have hShown :
      IsLineOf 1 "\t\u00a0import é ".toList endedText.toList := by
    rw [hText]
    exact .later (by decide +kernel) (.returned (by decide +kernel))
  refine ⟨hFound, hShown, ?_⟩
  rcases render_points_at_line 1 endedText
      ⟨1, .unrecognized, "import é"⟩ (by simp [hFound]) with
    ⟨line, hLine, hNumber, _, gap, behind, underline, hUnder⟩
  have hOwn : line = ⟨1, 2, "import é"⟩ := by
    apply eq_of_number_eq hLine _ hNumber.symm
    simp [hLines]
  subst hOwn
  have hCuts := (hUnder.isLine _).mp hShown
  have hUnderline : underline = 7 := by
    have hLength := hUnder.length_underline
    have hQuoted : "import é".length = 8 := by decide
    rw [hQuoted] at hLength
    omega
  rw [hUnder.render_eq, ← hCuts, hUnderline]
  congr 1

end Source

end BlockProgram
