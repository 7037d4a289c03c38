import BlockProgram.Proofs.Source.Lines
import BlockProgram.Proofs.Source.Statements

/-
  Blocks whose rows tell what they are.

  The parts of a legible block can be told apart in its row,
  and its row is a line of its own.  The row does not look
  like the header of another block, nor like a clause of the
  conditional before it.

  Main declarations:
    * `Source.HasReadableParts`
    * `Source.endsOpen`
    * `Source.AreSeparate`
    * `Source.IsLegible`
    * `Source.isClause_headText`
    * `Source.isStatementText_headText`
-/

namespace BlockProgram

namespace Source

open Text

------------------------------------------------------------
-- Parts Of A Row
------------------------------------------------------------

/- The parts of the block's own row are told apart in it. -/
def HasReadableParts : Block → Prop
  | .function _ name parameters _ =>
      IsWordName name ∧
        AreItems parameters ∧
          ∀ x ∈ parameters, closesHeader x.toList = false
  | .assignment _ name value =>
      IsVariable name ∧
        hasDoubleEquals value.source.toList = false ∧
          IsTrimmed value.source.toList
  | .conditional _ condition _ elseKind elseBody =>
      IsTrimmed condition.toList ∧ Block.Fits elseKind elseBody
  | .loop _ iterator iterable _ =>
      IsWordName iterator ∧ IsTrimmed iterable.toList
  | .ret _ _ => True
  | .call _ callee arguments =>
      isCallee callee.toList = true ∧ AreItems arguments

/- The block's condition or iterable is not empty. -/
def IsFilled : Block → Prop
  | .conditional _ condition _ _ _ => condition ≠ ""
  | .loop _ _ iterable _ => iterable ≠ ""
  | .function .. | .assignment .. | .ret .. | .call .. => True

------------------------------------------------------------
-- Rows That Are Mistaken
------------------------------------------------------------

mutual

/- A conditional's ladder ends without an else. -/
def endsOpen : Block → Bool
  | .conditional _ _ _ elseKind elseBody =>
      match elseKind with
      | .none => true
      | .elif => firstEndsOpen elseBody
      | .otherwise => false
  | .function .. | .assignment .. | .loop .. | .ret ..
  | .call .. => false

/- `endsOpen` for the first block of a list. -/
def firstEndsOpen : List Block → Bool
  | [] => false
  | b :: _ => endsOpen b

end

/- An assignment whose row looks like a chained condition. -/
def looksChained : Block → Bool
  | .assignment _ name _ => name == "elif"
  | .function .. | .conditional .. | .loop .. | .ret ..
  | .call .. => false

/- No block of a body is taken for a clause of another. -/
def AreSeparate : List Block → Prop
  | [] => True
  | [_] => True
  | b :: c :: bs =>
      ¬(endsOpen b = true ∧ looksChained c = true) ∧
        AreSeparate (c :: bs)

/- The names that open a header when a blank follows. -/
def headerNames : List String :=
  ["def", "if", "for"]

/-
  The block does not look like a header, and no block in its
  bodies looks like a clause of the one before it.
-/
def IsUnmistaken : Block → Prop
  | .function _ _ _ body => AreSeparate body
  | .assignment _ name _ => name ∉ headerNames
  | .conditional _ _ body _ elseBody =>
      AreSeparate body ∧ AreSeparate elseBody
  | .loop _ _ _ body => AreSeparate body
  | .ret _ _ => True
  | .call _ _ _ => True

/- The block's rows leave no doubt what the block is. -/
def IsLegible (b : Block) : Prop :=
  HasReadableParts b ∧ IsFilled b ∧ IsUnmistaken b

------------------------------------------------------------
-- Rows That Are No Clauses
------------------------------------------------------------

/- A line without a clause's text is no clause. -/
theorem isClause_line
    {row : Row}
    (hElif : startsWith "elif " row.text.toList = false)
    (hElse : row.text ≠ "else:")
    (width indent : Nat) :
    (row.line width).isClause indent = false := by
  simp [Line.isClause, Line.isElif, Line.isElse, Row.line, hElif,
    hElse]

/- The row before the statements for the other case. -/
theorem isElse_elseLine (width depth : Nat) :
    (Row.line width ⟨depth, "else:"⟩).isElif = false ∧
      (Row.line width ⟨depth, "else:"⟩).isElse = true := by
  simp [Row.line, Line.isElif, Line.isElse, startsWith, after?]

/- The row of a chained conditional. -/
theorem isElif_conditionalText
    (width depth : Nat)
    (condition : String) :
    (Row.line width
        ⟨depth, conditionalText true condition⟩).isElif =
      true := by
  simp [Row.line, Line.isElif, conditionalText, startsWith,
    after?]

/- The first row of a block is no clause of another. -/
theorem isClause_headText
    {b : Block}
    (hParts : HasReadableParts b)
    (hPlain : looksChained b = false)
    (width depth indent : Nat) :
    (Row.line width ⟨depth, headText false b⟩).isClause indent =
      false := by
  have hKeyword : ∀ c ∈ "elif".toList, isNamePart c = true :=
    List.all_eq_true.mp rfl
  cases b with
  | function id name parameters body =>
      apply isClause_line
      · simp [headText, functionText, startsWith, after?]
      · intro hElse
        have hChars := congrArg String.toList hElse
        simp [headText, functionText] at hChars
  | assignment id name value =>
      apply isClause_line
      · rw [Bool.eq_false_iff]
        intro hStart
        have hName : name = "elif" :=
          (startsWith_assignmentText_iff rfl hKeyword hParts.1).mp
            hStart
        simp [looksChained, hName] at hPlain
      · intro hElse
        have hChars := congrArg (fun s => '=' ∈ s.toList) hElse
        simp [headText, assignmentText] at hChars
  | conditional id condition body elseKind elseBody =>
      apply isClause_line
      · simp [headText, conditionalText, startsWith, after?]
      · intro hElse
        have hChars := congrArg String.toList hElse
        simp [headText, conditionalText] at hChars
  | loop id iterator iterable body =>
      apply isClause_line
      · simp [headText, loopText, startsWith, after?]
      · intro hElse
        have hChars := congrArg String.toList hElse
        simp [headText, loopText] at hChars
  | ret id value =>
      apply isClause_line
      · simp [headText, retText, startsWith, after?]
      · intro hElse
        have hChars := congrArg String.toList hElse
        simp [headText, retText] at hChars
  | call id callee arguments =>
      apply isClause_line
      · exact startsWith_callText rfl hKeyword hParts.1
      · intro hElse
        have hChars := congrArg (fun s => '(' ∈ s.toList) hElse
        simp [headText, callText] at hChars

------------------------------------------------------------
-- Rows As Lines
------------------------------------------------------------

/- No value has an empty text. -/
theorem source_ne_empty (value : Value) : value.source ≠ "" := by
  cases value with
  | simple text =>
      rw [Value.source]
      split
      · decide
      · assumption
  | array items => simp [Value.source]
  | object properties => simp [Value.source]
  | call callee arguments => simp [Value.source]

/- A text by its first and last character. -/
theorem isStatementText_of_ends
    {text : String}
    {c d : Char}
    (hFirst : isSpace c = false ∧ c ≠ '#')
    (hLast : isSpace d = false)
    (hLine : '\n' ∉ text.toList)
    (hText : ∃ cs, text.toList = c :: (cs ++ [d])) :
    IsStatementText text := by
  rcases hText with ⟨cs, hText⟩
  refine ⟨?_, hLine, ?_, ?_⟩
  · rw [hText]
    exact isTrimmed_of_ends hFirst.1 hLast
  · intro hEmpty
    rw [hEmpty] at hText
    cases hText
  · intro e he
    rw [hText] at he
    rcases Option.some.inj he with rfl
    exact hFirst.2

/- A trimmed text ends with a character that is no space. -/
theorem exists_last_of_isTrimmed
    {text : String}
    (hNonempty : text ≠ "")
    (hTrimmed : IsTrimmed text.toList) :
    ∃ cs d, text.toList = cs ++ [d] ∧ isSpace d = false := by
  rcases List.eq_nil_or_concat text.toList with
    hNil | ⟨cs, d, hCut⟩
  · exact absurd (String.toList_eq_nil_iff.mp hNil) hNonempty
  · rw [List.concat_eq_append] at hCut
    have hLast := hTrimmed.2
    rw [hCut, List.getLast?_concat] at hLast
    exact ⟨cs, d, hCut, hLast d rfl⟩

/- A name begins with a character that opens no comment. -/
theorem first_of_isNameStart
    {c : Char}
    (hStart : isNameStart c = true) :
    isSpace c = false ∧ c ≠ '#' := by
  constructor
  · exact isSpace_of_isNamePart (isNamePart_of_isNameStart hStart)
  · rintro rfl
    revert hStart
    decide

/- The own row of a block is a line of its own. -/
theorem isStatementText_headText
    {b : Block}
    (hParts : HasReadableParts b)
    {chained : Bool}
    (hLine : '\n' ∉ (headText chained b).toList) :
    IsStatementText (headText chained b) := by
  have hColon : isSpace ':' = false := by
    decide
  cases b with
  | function id name parameters body =>
      have hFirst : isSpace 'd' = false ∧ 'd' ≠ '#' := by
        decide
      apply isStatementText_of_ends hFirst hColon hLine
      refine
        ⟨'e' :: 'f' :: ' ' ::
          (name.toList ++
            '(' ::
              ((", ".intercalate parameters).toList ++ [')'])),
          ?_⟩
      simp [headText, functionText]
  | assignment id name value =>
      rcases hParts with ⟨hName, _, hTrimmed⟩
      rcases exists_of_isTarget hName.1 with
        ⟨c, run, tail, hCut, hStart, _⟩
      rcases exists_last_of_isTrimmed (source_ne_empty value)
          hTrimmed with
        ⟨cs, d, hSource, hLast⟩
      apply
        isStatementText_of_ends (first_of_isNameStart hStart) hLast
          hLine
      refine ⟨run ++ tail ++ ' ' :: '=' :: ' ' :: cs, ?_⟩
      simp [headText, assignmentText, hCut, hSource]
  | conditional id condition body elseKind elseBody =>
      cases chained with
      | false =>
          have hFirst : isSpace 'i' = false ∧ 'i' ≠ '#' := by
            decide
          apply isStatementText_of_ends hFirst hColon hLine
          refine ⟨'f' :: ' ' :: condition.toList, ?_⟩
          simp [headText, conditionalText]
      | true =>
          have hFirst : isSpace 'e' = false ∧ 'e' ≠ '#' := by
            decide
          apply isStatementText_of_ends hFirst hColon hLine
          refine
            ⟨'l' :: 'i' :: 'f' :: ' ' :: condition.toList, ?_⟩
          simp [headText, conditionalText]
  | loop id iterator iterable body =>
      have hFirst : isSpace 'f' = false ∧ 'f' ≠ '#' := by
        decide
      apply isStatementText_of_ends hFirst hColon hLine
      refine
        ⟨'o' :: 'r' :: ' ' ::
          (iterator.toList ++
            ' ' :: 'i' :: 'n' :: ' ' :: iterable.toList), ?_⟩
      simp [headText, loopText]
  | ret id value =>
      rcases isExpression_returned value.toList with
        ⟨hNonempty, hTrimmed⟩
      rcases exists_last_of_isTrimmed hNonempty hTrimmed with
        ⟨cs, d, hValue, hLast⟩
      have hFirst : isSpace 'r' = false ∧ 'r' ≠ '#' := by
        decide
      apply isStatementText_of_ends hFirst hLast hLine
      refine
        ⟨'e' :: 't' :: 'u' :: 'r' :: 'n' :: ' ' :: cs, ?_⟩
      simp [headText, retText_eq, hValue]
  | call id callee arguments =>
      have hLast : isSpace ')' = false := by
        decide
      rcases isCallee_iff.mp hParts.1 with
        ⟨c, cs, hCons, hStart, _⟩
      apply
        isStatementText_of_ends (first_of_isNameStart hStart) hLast
          hLine
      refine
        ⟨cs ++ '(' :: (", ".intercalate arguments).toList, ?_⟩
      simp [headText, callText, hCons]

/- All rows of a program are lines of their own. -/
theorem isStatementText_of_mem_layoutAll
    {blocks : List Block}
    (hParts : ∀ c ∈ documentOrder blocks, HasReadableParts c)
    (hLines :
      ∀ c ∈ documentOrder blocks,
        ∀ chained, '\n' ∉ (headText chained c).toList)
    {depth : Nat}
    {row : Row}
    (hRow : row ∈ layoutAll depth false blocks) :
    IsStatementText row.text := by
  have hRowOf :=
    isRowOf_of_mem_layoutAll (fun b _ => isRowOf_of_mem_layout b)
      depth false row hRow
  rcases hRowOf.2 with hPass | hElse | ⟨c, hMember, chained, hHead⟩
  · rw [hPass]
    decide
  · rw [hElse]
    decide
  · rw [hHead]
    exact
      isStatementText_headText (hParts c hMember)
        (hLines c hMember chained)

end Source

end BlockProgram
