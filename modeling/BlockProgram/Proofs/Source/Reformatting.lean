import BlockProgram.Proofs.Source.Mistaken
import BlockProgram.Proofs.Source.Readable

/-
  Reading a text and writing it again.

  A text that was written and read is written in the same
  way, as long as no row is mistaken for another.  A row that
  is mistaken makes a row more, so that the text changes.

  Main declarations:
    * `Source.programText_reread`
    * `Source.isSettled_of_programText_eq`
    * `Source.compile_parse_eq_iff_isSettled`
-/

namespace BlockProgram

namespace Source

open Text

------------------------------------------------------------
-- Texts Of Reread Trees
------------------------------------------------------------

/- An expression is returned as it stands. -/
theorem returned_of_isExpression
    {text : String}
    (hText : IsExpression text) :
    returned text.toList = text := by
  rcases hText with ⟨hNonempty, hTrimmed⟩
  have hTrim := trim_eq_self hTrimmed
  have hChars : text.toList ≠ [] :=
    mt String.toList_eq_nil_iff.mp hNonempty
  simp [returned, hTrim, hChars]

/- What an assignment is read as has the assignment's row. -/
theorem layout_rereadAssignment
    {name : String}
    {value : Value}
    (hTrimmed : IsTrimmed value.source.toList)
    (depth : Nat)
    (chained : Bool)
    (id : String) :
    layout depth chained (rereadAssignment name value) =
      layout depth chained (.assignment id name value) := by
  have hNonempty := source_ne_empty value
  unfold rereadAssignment
  by_cases hReturn : name = "return"
  · have hExpression := isExpression_equals hNonempty hTrimmed
    have hText :
        retText ("= " ++ value.source) =
          assignmentText name value := by
      rw [retText_eq, returned_of_isExpression hExpression,
        hReturn, assignmentText_return]
    rw [if_pos hReturn, layout, layout, headText, headText, hText]
  · have hSource :
        (Value.simple value.source).source = value.source := by
      rw [Value.source, if_neg hNonempty]
    rw [if_neg hReturn, layout, layout, headText, headText,
      assignmentText, assignmentText, hSource]

/- Reading a block again does not change its rows. -/
theorem layout_reread
    {b : Block}
    (hParts : ∀ c ∈ b.inOrder, HasReadableParts c)
    (depth : Nat)
    (chained : Bool) :
    layout depth chained (reread b) = layout depth chained b := by
  apply layout_respell
  intro c hMember hSpelled depth chained
  cases c with
  | assignment id name value =>
      exact
        layout_rereadAssignment (hParts _ hMember).2.2 depth
          chained id
  | ret id value =>
      have hText : retText (returned value.toList) = retText value := by
        rw [retText_eq, retText_eq,
          returned_of_isExpression (isExpression_returned _)]
      rw [respell, rereadReturn, layout, layout, headText,
        headText, hText]
  | function => cases hSpelled
  | conditional => cases hSpelled
  | loop => cases hSpelled
  | call => cases hSpelled

/- The text of a program, from what each block's rows are. -/
theorem programText_map
    {f : Block → Block}
    {blocks : List Block}
    (hRows :
      ∀ b ∈ blocks, layout 0 false (f b) = layout 0 false b)
    (width : Nat) :
    programText width (blocks.map f) = programText width blocks := by
  unfold programText
  rw [List.map_map]
  congr 1
  apply List.map_congr_left
  intro b hb
  rw [Function.comp_apply, hRows b hb]

theorem programText_withoutIds
    (width : Nat)
    (blocks : List Block) :
    programText width (blocks.map withoutIds) =
      programText width blocks :=
  programText_map (fun b _ => layout_withoutIds 0 false b) width

/- A tree that is read again has the text it was read from. -/
theorem programText_reread
    {blocks : List Block}
    (hParts : ∀ b ∈ documentOrder blocks, HasReadableParts b)
    (width : Nat) :
    programText width (blocks.map reread) =
      programText width blocks := by
  apply programText_map
  intro b hb
  exact
    layout_reread (Block.forall_mem_inOrderAll.mp hParts b hb) 0
      false

------------------------------------------------------------
-- Readable Programs And Their Texts
------------------------------------------------------------

section Readable

variable {width : Nat}
variable {blocks : List Block}

/- The else branches of a readable program are sound. -/
theorem areSound_of_isReadable
    (hReadable : ∀ b ∈ documentOrder blocks, IsReadable b) :
    Block.AreSound blocks := by
  intro b hb
  have hParts := (hReadable b hb).1
  cases b with
  | conditional id condition body elseKind elseBody =>
      exact hParts.2
  | function => trivial
  | assignment => trivial
  | loop => trivial
  | ret => trivial
  | call => trivial

/- The lines of a readable program are its rows. -/
theorem lines_of_isReadable
    (hReadable : ∀ b ∈ documentOrder blocks, IsReadable b)
    (width : Nat) :
    (significantLines (programText width blocks)).map
        Line.unnumbered =
      (layoutAll 0 false blocks).map (Row.line width) := by
  apply lines_programText
  intro row hRow
  exact
    isStatementText_of_mem_layoutAll
      (fun b hb => (hReadable b hb).1)
      (fun b hb => (hReadable b hb).2) hRow

/- Programs with one text have equally many rows. -/
theorem rowCountAll_eq_of_programText_eq
    {others : List Block}
    (hReadable : ∀ b ∈ documentOrder blocks, IsReadable b)
    (hOthers : ∀ b ∈ documentOrder others, IsReadable b)
    (hText : programText width others = programText width blocks) :
    rowCountAll others = rowCountAll blocks := by
  have hLines := lines_of_isReadable hOthers width
  rw [hText, lines_of_isReadable hReadable width] at hLines
  have hLength := congrArg List.length hLines
  simpa [length_layoutAll] using hLength.symm

/- Ids are not counted as rows. -/
theorem rowCountAll_map_withoutIds (blocks : List Block) :
    rowCountAll (blocks.map withoutIds) = rowCountAll blocks := by
  induction blocks with
  | nil => rfl
  | cons b bs ih =>
      rw [List.map_cons, rowCountAll, rowCountAll, ih,
        ← length_layout _ 0 false, layout_withoutIds,
        length_layout]

/- A settled program is read as itself, up to its values. -/
theorem programText_parse_of_isSettled
    (hWidth : 0 < width)
    (hReadable : ∀ b ∈ documentOrder blocks, IsReadable b)
    (hFilled : ∀ b ∈ documentOrder blocks, IsFilled b)
    (hSettled : IsSettled blocks)
    (n : Nat) :
    programText width (parse n (programText width blocks)) =
      programText width blocks := by
  rcases hSettled with ⟨hSeparate, hUnmistaken⟩
  have hParsed :=
    parse_programText hWidth
      (fun b hb =>
        ⟨(hReadable b hb).1, hFilled b hb, hUnmistaken b hb⟩)
      hSeparate (fun b hb => (hReadable b hb).2) n
  rw [← programText_withoutIds, hParsed]
  exact
    programText_reread (fun b hb => (hReadable b hb).1) width

/-
  A program whose text stays when it is read and written has
  no row that is mistaken: the tree that is read would have
  more rows than the text.
-/
theorem isSettled_of_programText_eq
    (hWidth : 0 < width)
    (hReadable : ∀ b ∈ documentOrder blocks, IsReadable b)
    (hFilled : ∀ b ∈ documentOrder blocks, IsFilled b)
    {n : Nat}
    (hText :
      programText width (parse n (programText width blocks)) =
        programText width blocks) :
    IsSettled blocks := by
  have hRows :=
    rowCountAll_eq_of_programText_eq hReadable
      (isReadable_parse n _) hText
  have hMore :=
    rowCountAll_add_slipsAll_le hWidth fun b hb =>
      ⟨(hReadable b hb).1, hFilled b hb⟩
  have hRead :
      rowCountAll (parse n (programText width blocks)) =
        lineCount
          ((layoutAll 0 false blocks).map (Row.line width)) := by
    rw [← rowCountAll_map_withoutIds, parse_eq,
      map_withoutIds_renumberClosingAll,
      rowCountAll_map_withoutIds, lineCount,
      ← lines_of_isReadable hReadable width, blocksOf_unnumbered]
  apply isSettled_of_slipsAll_eq_zero
  omega

end Readable

------------------------------------------------------------
-- Reformatting
------------------------------------------------------------

/-
  Reading any text and writing it gives a text.  Where no
  condition and no iterable was read as empty, that text is
  its own reformatting exactly if no row of it is mistaken
  for a header or for a clause of the row before.
-/
theorem compile_parse_eq_iff_isSettled
    {width : Nat}
    (hWidth : 0 < width)
    (source : String)
    (n m : Nat) :
    ∃ text,
      compile width (parse n source) = .ok text ∧
        ((∀ b ∈ documentOrder (parse n source), IsFilled b) →
          (compile width (parse m text) = .ok text ↔
            IsSettled (parse n source))) := by
  have hReadable := isReadable_parse n source
  refine
    ⟨programText width (parse n source),
      compile_of_areSound (areSound_of_isReadable hReadable) width,
      ?_⟩
  intro hFilled
  have hAgain :=
    compile_of_areSound
      (areSound_of_isReadable
        (isReadable_parse m
          (programText width (parse n source))))
      width
  rw [hAgain, Except.ok.injEq]
  constructor
  · intro hText
    exact
      isSettled_of_programText_eq hWidth hReadable hFilled hText
  · intro hSettled
    exact
      programText_parse_of_isSettled hWidth hReadable hFilled
        hSettled m

/- A loop with a row of its own, spaced out in a text. -/
theorem parse_spacedLoop :
    parse 1 "for i in  y :\n\tz=i" =
      [ .loop "for-2" "i" "y"
          [.assignment "variable-1" "z" (.simple "i")] ] := by
  have hLines :
      significantLines "for i in  y :\n\tz=i" =
        [⟨0, 0, "for i in  y :"⟩, ⟨1, 1, "z=i"⟩] := by
    decide +kernel
  have hLoop :
      Statement.read (Line.text ⟨0, 0, "for i in  y :"⟩) =
        .loop (some ("i", "y")) :=
    rfl
  have hAssignment :
      Statement.read (Line.text ⟨1, 1, "z=i"⟩) =
        .assignment "z" "i" := by
    decide +kernel
  have hDeeper :
      deeper 0 [⟨1, 1, "z=i"⟩] = [⟨1, 1, "z=i"⟩] ∧
        afterDeeper 0 [⟨1, 1, "z=i"⟩] = [] := by
    decide
  rw [parse_eq, hLines, blocksOf_loop rfl hLoop, hDeeper.1,
    hDeeper.2, blocksOf_assignment hAssignment, blocksOf_nil]
  rfl

theorem compile_parse_eq_spacedLoop :
    0 < 2 ∧
      (∀ b ∈ documentOrder (parse 1 "for i in  y :\n\tz=i"),
        IsFilled b) ∧
        ∃ text,
          compile 2 (parse 1 "for i in  y :\n\tz=i") = .ok text ∧
            compile 2 (parse 3 text) = .ok text := by
  have hFilled :
      ∀ b ∈ documentOrder (parse 1 "for i in  y :\n\tz=i"),
        IsFilled b := by
    rw [parse_spacedLoop]
    simp [documentOrder, Block.inOrderAll, Block.inOrder, IsFilled]
  have hSettled : IsSettled (parse 1 "for i in  y :\n\tz=i") := by
    rw [parse_spacedLoop]
    simp [IsSettled, AreSeparate, documentOrder, Block.inOrderAll,
      Block.inOrder, IsUnmistaken, headerNames]
  rcases
      compile_parse_eq_iff_isSettled (show 0 < 2 by decide)
        "for i in  y :\n\tz=i" 1 3 with
    ⟨text, hText, hAgain⟩
  exact
    ⟨by decide, hFilled, text, hText,
      (hAgain hFilled).mpr hSettled⟩

/-
  An assignment to `def` is written with a blank after the
  name, and so is taken for the header of a function.
-/
theorem compile_parse_ne_def :
    compile 4 (parse 1 "def=1") = .ok "def = 1" ∧
      compile 4 (parse 2 "def = 1") ≠ .ok "def = 1" := by
  have hFirstLine :
      significantLines "def=1" = [⟨0, 0, "def=1"⟩] := by
    decide +kernel
  have hSecondLine :
      significantLines "def = 1" = [⟨0, 0, "def = 1"⟩] := by
    decide +kernel
  have hAssignment :
      Statement.read (Line.text ⟨0, 0, "def=1"⟩) =
        .assignment "def" "1" := by
    decide +kernel
  have hFunction :
      Statement.read (Line.text ⟨0, 0, "def = 1"⟩) =
        .function none := by
    decide +kernel
  have hFirst :
      parse 1 "def=1" =
        [.assignment "variable-1" "def" (.simple "1")] := by
    rw [parse_eq, hFirstLine, blocksOf_assignment hAssignment,
      blocksOf_nil]
    rfl
  have hSecond :
      parse 2 "def = 1" =
        [.function "function-2" "new_function" [] []] := by
    rw [parse_eq, hSecondLine, blocksOf_function rfl hFunction]
    simp only [deeper, afterDeeper, List.takeWhile_nil,
      List.dropWhile_nil, blocksOf_nil]
    rfl
  have hText :
      compile 4 [.function "function-2" "new_function" [] []] =
        .ok "def new_function():\n    pass" :=
    rfl
  rw [hFirst, hSecond, hText]
  refine ⟨rfl, ?_⟩
  rw [Ne, Except.ok.injEq]
  decide

end Source

end BlockProgram
