import BlockProgram.Proofs.Source.Legible
import BlockProgram.Proofs.Source.Respelling

/-
  What the reader of lines makes is readable again.

  Every part of a statement was cut from a trimmed line and
  trimmed itself, or is a default.  So each part fits its
  place in the row that is written for it, except that a
  condition or an iterable may have nothing left in it.

  Main declarations:
    * `Source.IsReadable`
    * `Source.Statement.isReadable_read`
    * `Source.isReadable_of_mem_blocksOf`
-/

namespace BlockProgram

namespace Source

open Text

------------------------------------------------------------
-- Parts Of Headers
------------------------------------------------------------

theorem isWordName_of_takeWhile
    {cs : List Char}
    (hSome : (cs.takeWhile isWord).isEmpty = false) :
    IsWordName (String.ofList (cs.takeWhile isWord)) := by
  constructor
  · exact ofList_ne_empty (by simpa using hSome)
  · rw [String.toList_ofList]
    exact List.all_eq_true.mp List.all_takeWhile

theorem suffix_of_after?
    {front cs rest : List Char}
    (hAfter : after? front cs = some rest) :
    rest <:+ cs := by
  rw [after?_eq_some_iff.mp hAfter]
  exact List.suffix_append front rest

/- The same for what stands behind a word and its blanks. -/
theorem suffix_of_after?_word
    {front cs rest : List Char}
    (hAfter :
      after? front
          (trimStart ((trimStart cs).dropWhile isWord)) =
        some rest) :
    rest <:+ cs :=
  (suffix_of_after? hAfter).trans
    ((List.dropWhile_suffix _).trans
      ((List.dropWhile_suffix _).trans (List.dropWhile_suffix _)))

theorem functionHeader?_eq_some
    {cs : List Char}
    {name : String}
    {parameters : List String}
    (hRead : functionHeader? cs = some (name, parameters)) :
    IsWordName name ∧
      AreItems parameters ∧
        ∀ x ∈ parameters,
          closesHeader x.toList = false ∧ x.toList <:+: cs := by
  simp only [functionHeader?, Option.bind_eq_bind,
    Option.bind_eq_some_iff, Option.guard_eq_some',
    Option.pure_def] at hRead
  rcases hRead with
    ⟨rest, hDef, _, _, _, hName, tail, hOpen, list, hList, hParts⟩
  rcases Prod.mk.inj (Option.some.inj hParts) with ⟨rfl, rfl⟩
  rcases closesHeader_of_parameterText? hList with
    ⟨hCloses, hPrefix⟩
  have hTail : tail <:+ cs :=
    (suffix_of_after?_word hOpen).trans
      ((suffix_of_after? hDef).trans (List.dropWhile_suffix _))
  refine ⟨?_, areItems_commaList list, ?_⟩
  · apply isWordName_of_takeWhile
    simpa using hName
  · intro x hx
    have hItem := infix_of_mem_commaList hx
    refine ⟨?_, hItem.trans (hPrefix.isInfix.trans hTail.isInfix)⟩
    rw [Bool.eq_false_iff]
    intro hOwn
    rw [closesHeader_of_isInfix hItem hOwn] at hCloses
    cases hCloses

/- What stands before the last colon begins the text. -/
theorem prefix_of_beforeLastColon?
    {cs front : List Char}
    (hFront : beforeLastColon? cs = some front) :
    front <+: cs := by
  unfold beforeLastColon? at hFront
  split at hFront
  · cases hFront
  · next c rest hRest =>
      rcases Option.some.inj hFront with rfl
      have hSuffix : rest <:+ cs.reverse := by
        have hDropped : c :: rest <:+ cs.reverse := by
          rw [← hRest]
          exact List.dropWhile_suffix _
        exact (List.suffix_cons c rest).trans hDropped
      rw [← List.reverse_suffix, List.reverse_reverse]
      exact hSuffix

/- The expression of a header is a trimmed piece of it. -/
theorem headerExpression?_eq_some
    {cs : List Char}
    {text : String}
    (hRead : headerExpression? cs = some text) :
    IsTrimmed text.toList ∧ text.toList <:+: cs := by
  unfold headerExpression? at hRead
  simp only at hRead
  split at hRead
  · cases hRead
  · split at hRead
    · rcases Option.some.inj hRead with rfl
      exact ⟨isTrimmed_nil, List.nil_infix⟩
    · cases hRead
  · next expression hNonempty hFront =>
      split at hRead
      · rcases Option.some.inj hRead with rfl
        rw [String.toList_ofList]
        refine ⟨isTrimmed_trim expression, ?_⟩
        exact
          (isInfix_trim expression).trans
            ((prefix_of_beforeLastColon? hFront).isInfix.trans
              (List.dropWhile_suffix _).isInfix)
      · cases hRead

theorem condition?_eq_some
    {cs : List Char}
    {text : String}
    (hRead : condition? cs = some text) :
    IsTrimmed text.toList ∧ text.toList <:+: cs := by
  unfold condition? at hRead
  split at hRead
  · next rest hIf =>
      rcases headerExpression?_eq_some hRead with
        ⟨hTrimmed, hInfix⟩
      exact
        ⟨hTrimmed, hInfix.trans (suffix_of_after? hIf).isInfix⟩
  · rcases Option.bind_eq_some_iff.mp hRead with
      ⟨rest, hElif, hRead⟩
    rcases headerExpression?_eq_some hRead with
      ⟨hTrimmed, hInfix⟩
    exact
      ⟨hTrimmed, hInfix.trans (suffix_of_after? hElif).isInfix⟩

theorem loopHeader?_eq_some
    {cs : List Char}
    {iterator iterable : String}
    (hRead : loopHeader? cs = some (iterator, iterable)) :
    IsWordName iterator ∧
      IsTrimmed iterable.toList ∧ iterable.toList <:+: cs := by
  simp only [loopHeader?, Option.bind_eq_bind,
    Option.bind_eq_some_iff, Option.guard_eq_some',
    Option.pure_def] at hRead
  rcases hRead with
    ⟨rest, hFor, _, _, _, hName, _, _, tail, hIn, text, hText, hParts⟩
  rcases Prod.mk.inj (Option.some.inj hParts) with ⟨rfl, rfl⟩
  rcases headerExpression?_eq_some hText with ⟨hTrimmed, hInfix⟩
  have hTail : tail <:+ cs :=
    (suffix_of_after?_word hIn).trans (suffix_of_after? hFor)
  refine ⟨?_, hTrimmed, hInfix.trans hTail.isInfix⟩
  apply isWordName_of_takeWhile
  simpa using hName

------------------------------------------------------------
-- Parts Of Simple Statements
------------------------------------------------------------

/- What is cut from a line that is read as an assignment. -/
theorem exists_of_assignment?
    {cs : List Char}
    {target value : String}
    (hRead : assignment? cs = some (target, value)) :
    ∃ c rest,
      hasDoubleEquals cs = false ∧
        cs.dropWhile (· != '=') = c :: rest ∧
          isTarget (trim (cs.takeWhile (· != '='))) = true ∧
            target.toList = trim (cs.takeWhile (· != '=')) ∧
              value.toList = trim rest := by
  unfold assignment? at hRead
  split at hRead
  · cases hRead
  · next hSingle =>
      split at hRead
      · cases hRead
      · next c rest hRest =>
          simp only at hRead
          split at hRead
          · next hTarget =>
              rcases Prod.mk.inj (Option.some.inj hRead) with
                ⟨rfl, rfl⟩
              rw [String.toList_ofList, String.toList_ofList]
              exact
                ⟨c, rest, Bool.eq_false_iff.mpr hSingle, hRest,
                  hTarget, rfl, rfl⟩
          · cases hRead

theorem assignment?_eq_some
    {cs : List Char}
    {target value : String}
    (hRead : assignment? cs = some (target, value)) :
    IsVariable target ∧
      hasDoubleEquals value.toList = false ∧
        IsTrimmed value.toList ∧
          target.toList <:+: cs ∧ value.toList <:+: cs := by
  rcases exists_of_assignment? hRead with
    ⟨c, rest, hSingle, hRest, hTarget, hRun, hValue⟩
  have hRunIn : trim (cs.takeWhile (· != '=')) <:+: cs :=
    (isInfix_trim _).trans (List.takeWhile_prefix _).isInfix
  have hValueIn : trim rest <:+: cs := by
    have hDropped : c :: rest <:+ cs := by
      rw [← hRest]
      exact List.dropWhile_suffix _
    have hAfter := (List.suffix_cons c rest).trans hDropped
    exact (isInfix_trim rest).trans hAfter.isInfix
  have hFree : '=' ∉ trim (cs.takeWhile (· != '=')) := by
    intro hMember
    have hAll :
        (cs.takeWhile (· != '=')).all (· != '=') = true :=
      List.all_takeWhile
    have hTaken :=
      List.all_eq_true.mp hAll '='
        ((isInfix_trim _).subset hMember)
    simp at hTaken
  rw [IsVariable, hRun, hValue]
  refine
    ⟨⟨hTarget, hFree⟩, ?_, isTrimmed_trim rest, hRunIn, hValueIn⟩
  rw [Bool.eq_false_iff]
  intro hTwo
  have hTwoIn := hasDoubleEquals_of_isInfix hValueIn hTwo
  rw [hSingle] at hTwoIn
  cases hTwoIn

theorem call?_eq_some
    {cs : List Char}
    {callee : String}
    {arguments : List String}
    (hRead : call? cs = some (callee, arguments)) :
    isCallee callee.toList = true ∧
      AreItems arguments ∧
        ∀ x ∈ arguments, x.toList <:+: cs := by
  unfold call? at hRead
  split at hRead
  · cases hRead
  · next c rest =>
      simp only at hRead
      split at hRead
      · next hShape =>
          rcases Prod.mk.inj (Option.some.inj hRead) with
            ⟨rfl, rfl⟩
          rw [Bool.and_eq_true] at hShape
          refine ⟨?_, areItems_commaList _, ?_⟩
          · rw [String.toList_ofList, isCallee, hShape.1]
            exact List.all_takeWhile
          · intro x hx
            have hList := infix_of_mem_commaList hx
            have hTail : rest.dropWhile isNamePart <:+ c :: rest :=
              (List.dropWhile_suffix _).trans (List.suffix_cons c rest)
            exact
              hList.trans
                ((List.dropLast_prefix _).isInfix.trans
                  ((List.drop_suffix 1 _).trans hTail).isInfix)
      · cases hRead

------------------------------------------------------------
-- Readable Blocks
------------------------------------------------------------

/- The block's row is one line, and its parts are readable. -/
def IsReadable (b : Block) : Prop :=
  HasReadableParts b ∧
    ∀ chained, '\n' ∉ (headText chained b).toList

theorem newline_notMem_intercalate
    {items : List String}
    (hItems : ∀ x ∈ items, '\n' ∉ x.toList) :
    '\n' ∉ (", ".intercalate items).toList := by
  induction items with
  | nil => simp
  | cons x items ih =>
      have hFirst := hItems x List.mem_cons_self
      have hOthers :=
        ih fun y hy => hItems y (List.mem_cons_of_mem x hy)
      cases items with
      | nil => simpa using hFirst
      | cons y items =>
          simpa [String.intercalate_cons_cons, hFirst] using hOthers

theorem newline_notMem_of_isWordName
    {name : String}
    (hName : IsWordName name) :
    '\n' ∉ name.toList := by
  intro hMember
  have hWord := hName.2 '\n' hMember
  revert hWord
  decide

theorem newline_notMem_of_isCallee
    {callee : String}
    (hCallee : isCallee callee.toList = true) :
    '\n' ∉ callee.toList := by
  rcases isCallee_iff.mp hCallee with ⟨_, _, _, _, hParts⟩
  intro hMember
  have hPart := hParts '\n' hMember
  revert hPart
  decide

theorem newline_notMem_returned
    {cs : List Char}
    (hLine : '\n' ∉ cs) :
    '\n' ∉ (returned cs).toList := by
  unfold returned
  split
  · decide
  · rw [String.toList_ofList]
    exact fun hMember => hLine ((isInfix_trim cs).subset hMember)

/- A piece of a line is on one line. -/
theorem newline_notMem_of_isInfix
    {cs ds : List Char}
    (hInfix : cs <:+: ds)
    (hLine : '\n' ∉ ds) :
    '\n' ∉ cs :=
  fun hMember => hLine (hInfix.subset hMember)

------------------------------------------------------------
-- The Form Of A Line
------------------------------------------------------------

namespace Statement

variable {text : String}

/-
  Each form of a line comes from its own reader, whatever the
  readers of other forms would make of the line.
-/
theorem read_cases (text : String) :
    read text = .function (functionHeader? text.toList) ∨
      read text = .conditional (condition? text.toList) ∨
        read text = .loop (loopHeader? text.toList) ∨
          read text = .ret (returned (text.toList.drop 6)) ∨
            (∃ target value,
              assignment? text.toList = some (target, value) ∧
                read text = .assignment target value) ∨
              (∃ callee arguments,
                call? text.toList = some (callee, arguments) ∧
                  read text = .call callee arguments) ∨
                read text = .unrecognized := by
  unfold read
  simp only
  split
  · exact Or.inl rfl
  · split
    · exact Or.inr (Or.inl rfl)
    · split
      · exact Or.inr (Or.inr (Or.inl rfl))
      · split
        · exact Or.inr (Or.inr (Or.inr (Or.inl rfl)))
        · right; right; right; right
          cases hAssignment : assignment? text.toList with
          | some parts =>
              left
              exact ⟨parts.1, parts.2, rfl, rfl⟩
          | none =>
              right
              cases hCall : call? text.toList with
              | some parts =>
                  left
                  exact ⟨parts.1, parts.2, rfl, rfl⟩
              | none => exact Or.inr rfl

theorem eq_of_read_function
    {header : Option (String × List String)}
    (hRead : read text = .function header) :
    header = functionHeader? text.toList := by
  have hCases := read_cases text
  rw [hRead] at hCases
  simpa using hCases

theorem eq_of_read_conditional
    {condition : Option String}
    (hRead : read text = .conditional condition) :
    condition = condition? text.toList := by
  have hCases := read_cases text
  rw [hRead] at hCases
  simpa using hCases

theorem eq_of_read_loop
    {header : Option (String × String)}
    (hRead : read text = .loop header) :
    header = loopHeader? text.toList := by
  have hCases := read_cases text
  rw [hRead] at hCases
  simpa using hCases

theorem eq_of_read_ret
    {value : String}
    (hRead : read text = .ret value) :
    value = returned (text.toList.drop 6) := by
  have hCases := read_cases text
  rw [hRead] at hCases
  simpa using hCases

theorem eq_of_read_assignment
    {target value : String}
    (hRead : read text = .assignment target value) :
    assignment? text.toList = some (target, value) := by
  have hCases := read_cases text
  rw [hRead] at hCases
  simpa using hCases

theorem eq_of_read_call
    {callee : String}
    {arguments : List String}
    (hRead : read text = .call callee arguments) :
    call? text.toList = some (callee, arguments) := by
  have hCases := read_cases text
  rw [hRead] at hCases
  simpa using hCases

end Statement

section Line

variable {line : Line}
variable (hLine : '\n' ∉ line.text.toList)

include hLine

theorem isReadable_function (body : List Block) :
    IsReadable
      (.function noId
        (functionParts (functionHeader? line.text.toList)).1
        (functionParts (functionHeader? line.text.toList)).2
        body) := by
  cases hParts : functionHeader? line.text.toList with
  | none =>
      refine ⟨⟨?_, ?_, ?_⟩, ?_⟩
      · decide
      · decide
      · exact List.forall_mem_nil _
      · intro chained
        simp [headText, functionText, functionParts,
          defaultFunctionName]
  | some parts =>
      rcases functionHeader?_eq_some hParts with
        ⟨hName, hItems, hEach⟩
      refine
        ⟨⟨hName, hItems, fun x hx => (hEach x hx).1⟩, ?_⟩
      intro chained
      have hList :=
        newline_notMem_intercalate fun x hx =>
          newline_notMem_of_isInfix (hEach x hx).2 hLine
      have hOwn := newline_notMem_of_isWordName hName
      simpa [headText, functionText, functionParts, hOwn] using
        hList

/- A condition that was read, or the default. -/
theorem isReadable_conditionalOf
    (body : List Block)
    {branch : ElseKind × List Block}
    (hFits : Block.Fits branch.1 branch.2) :
    IsReadable
      (conditionalOf (condition? line.text.toList) body branch) := by
  cases hCondition : condition? line.text.toList with
  | none =>
      refine ⟨⟨?_, hFits⟩, ?_⟩
      · decide
      · intro chained
        cases chained <;>
          simp [headText, conditionalText, conditionalOf,
            defaultCondition]
  | some condition =>
      rcases condition?_eq_some hCondition with
        ⟨hTrimmed, hInfix⟩
      refine ⟨⟨hTrimmed, hFits⟩, ?_⟩
      have hOwn := newline_notMem_of_isInfix hInfix hLine
      intro chained
      cases chained <;>
        simp [headText, conditionalText, conditionalOf, hOwn]

theorem isReadable_loop (body : List Block) :
    IsReadable
      (.loop noId (loopParts (loopHeader? line.text.toList)).1
        (loopParts (loopHeader? line.text.toList)).2 body) := by
  cases hParts : loopHeader? line.text.toList with
  | none =>
      refine ⟨⟨?_, ?_⟩, ?_⟩
      · decide
      · decide
      · intro chained
        simp [headText, loopText, loopParts, defaultIterator,
          defaultIterable]
  | some parts =>
      rcases loopHeader?_eq_some hParts with
        ⟨hName, hTrimmed, hInfix⟩
      refine ⟨⟨hName, hTrimmed⟩, ?_⟩
      have hIterator := newline_notMem_of_isWordName hName
      have hIterable := newline_notMem_of_isInfix hInfix hLine
      intro chained
      simp [headText, loopText, loopParts, hIterator, hIterable]

theorem isReadable_ret :
    IsReadable
      (.ret noId (returned (line.text.toList.drop 6))) := by
  refine ⟨trivial, ?_⟩
  have hRest : '\n' ∉ line.text.toList.drop 6 :=
    fun hMember => hLine (List.mem_of_mem_drop hMember)
  have hValue :=
    newline_notMem_returned (newline_notMem_returned hRest)
  intro chained
  simp [headText, retText_eq, hValue]

theorem isReadable_assignment
    {target value : String}
    (hRead : assignment? line.text.toList = some (target, value)) :
    IsReadable (.assignment noId target (.simple value)) := by
  rcases assignment?_eq_some hRead with
    ⟨hTarget, hSingle, hTrimmed, hName, hValue⟩
  have hOwn := newline_notMem_of_isInfix hName hLine
  have hOther := newline_notMem_of_isInfix hValue hLine
  by_cases hEmpty : value = ""
  · refine ⟨⟨hTarget, ?_, ?_⟩, ?_⟩
    · simp [Value.source, hEmpty, hasDoubleEquals]
    · rw [Value.source, if_pos hEmpty]
      decide
    · intro chained
      simp [headText, assignmentText, Value.source, hEmpty, hOwn]
  · refine ⟨⟨hTarget, ?_, ?_⟩, ?_⟩
    · rw [Value.source, if_neg hEmpty]
      exact hSingle
    · rw [Value.source, if_neg hEmpty]
      exact hTrimmed
    · intro chained
      simp [headText, assignmentText, Value.source, hEmpty, hOwn,
        hOther]

theorem isReadable_call
    {callee : String}
    {arguments : List String}
    (hRead : call? line.text.toList = some (callee, arguments)) :
    IsReadable (.call noId callee arguments) := by
  rcases call?_eq_some hRead with ⟨hCallee, hItems, hEach⟩
  refine ⟨⟨hCallee, hItems⟩, ?_⟩
  intro chained
  have hList :=
    newline_notMem_intercalate fun x hx =>
      newline_notMem_of_isInfix (hEach x hx) hLine
  have hOwn := newline_notMem_of_isCallee hCallee
  simpa [headText, callText, hOwn] using hList

end Line

------------------------------------------------------------
-- Readable Trees
------------------------------------------------------------

/- None of the lines holds a newline. -/
def AreLines (lines : List Line) : Prop :=
  ∀ l ∈ lines, '\n' ∉ l.text.toList

theorem AreLines.cons
    {line : Line}
    {rest : List Line}
    (hLines : AreLines (line :: rest)) :
    '\n' ∉ line.text.toList ∧ AreLines rest :=
  List.forall_mem_cons.mp hLines

theorem AreLines.mono
    {lines lines' : List Line}
    (hLines : AreLines lines)
    (hSubset : lines' ⊆ lines) :
    AreLines lines' :=
  fun l hl => hLines l (hSubset hl)

theorem forall_mem_inOrderAll_cons
    {motive : Block → Prop}
    {b : Block}
    {bs : List Block} :
    (∀ c ∈ Block.inOrderAll (b :: bs), motive c) ↔
      (∀ c ∈ b.inOrder, motive c) ∧
        ∀ c ∈ Block.inOrderAll bs, motive c := by
  rw [Block.inOrderAll, List.forall_mem_append]

/- All blocks that lines make are readable. -/
theorem isReadable_of_mem_blocksOf :
    (∀ lines,
        AreLines lines →
          ∀ b ∈ Block.inOrderAll (blocksOf lines),
            IsReadable b) ∧
      ∀ indent lines,
        AreLines lines →
          Block.Fits (branchOf indent lines).1
              (branchOf indent lines).2 ∧
            ∀ b ∈ Block.inOrderAll (branchOf indent lines).2,
              IsReadable b := by
  apply lines_induction
  case nil =>
    intro _ b hb
    rw [blocksOf_nil] at hb
    cases hb
  case function =>
    intro line rest header hRead ihBody ihRest hLines
    rcases hLines.cons with ⟨hLine, hRest⟩
    rw [blocksOf_function rfl hRead, forall_mem_inOrderAll_cons,
      Block.inOrder, List.forall_mem_cons,
      Statement.eq_of_read_function hRead]
    exact
      ⟨⟨isReadable_function hLine _,
          ihBody (hRest.mono (deeper_subset _ _))⟩,
        ihRest (hRest.mono (afterDeeper_subset _ _))⟩
  case conditional =>
    intro line rest condition hRead ihBody ihBranch ihRest hLines
    rcases hLines.cons with ⟨hLine, hRest⟩
    have hAfter := hRest.mono (afterDeeper_subset line.indent rest)
    rcases ihBranch hAfter with ⟨hFits, hBranch⟩
    have hOwn :=
      isReadable_conditionalOf hLine
        (blocksOf (deeper line.indent rest)) hFits
    rw [blocksOf_conditional rfl hRead,
      forall_mem_inOrderAll_cons,
      Statement.eq_of_read_conditional hRead]
    refine ⟨?_, ihRest (hAfter.mono (afterClauses_subset _ _))⟩
    unfold conditionalOf at hOwn ⊢
    rw [Block.inOrder, List.forall_mem_cons,
      List.forall_mem_append]
    exact
      ⟨hOwn, ihBody (hRest.mono (deeper_subset _ _)), hBranch⟩
  case loop =>
    intro line rest header hRead ihBody ihRest hLines
    rcases hLines.cons with ⟨hLine, hRest⟩
    rw [blocksOf_loop rfl hRead, forall_mem_inOrderAll_cons,
      Block.inOrder, List.forall_mem_cons,
      Statement.eq_of_read_loop hRead]
    exact
      ⟨⟨isReadable_loop hLine _,
          ihBody (hRest.mono (deeper_subset _ _))⟩,
        ihRest (hRest.mono (afterDeeper_subset _ _))⟩
  case ret =>
    intro line rest value hRead ihRest hLines
    rcases hLines.cons with ⟨hLine, hRest⟩
    have hOwn := isReadable_ret hLine
    rw [blocksOf_ret hRead, forall_mem_inOrderAll_cons,
      Statement.eq_of_read_ret hRead]
    exact
      ⟨List.forall_mem_singleton.mpr hOwn, ihRest hRest⟩
  case assignment =>
    intro line rest target value hRead ihRest hLines
    rcases hLines.cons with ⟨hLine, hRest⟩
    have hOwn :=
      isReadable_assignment hLine
        (Statement.eq_of_read_assignment hRead)
    rw [blocksOf_assignment hRead, forall_mem_inOrderAll_cons]
    exact
      ⟨List.forall_mem_singleton.mpr hOwn, ihRest hRest⟩
  case call =>
    intro line rest callee arguments hRead ihRest hLines
    rcases hLines.cons with ⟨hLine, hRest⟩
    have hOwn :=
      isReadable_call hLine (Statement.eq_of_read_call hRead)
    rw [blocksOf_call hRead, forall_mem_inOrderAll_cons]
    exact
      ⟨List.forall_mem_singleton.mpr hOwn, ihRest hRest⟩
  case unrecognized =>
    intro line rest hRead ihRest hLines
    rw [blocksOf_unrecognized hRead]
    exact ihRest hLines.cons.2
  case none =>
    intro indent lines hNone _
    rw [(clauses_of_no_clause hNone).1]
    exact ⟨rfl, List.forall_mem_nil _⟩
  case elif =>
    intro line rest hElif ihBody ihBranch hLines
    rcases hLines.cons with ⟨hLine, hRest⟩
    rcases ihBranch (hRest.mono (afterDeeper_subset _ _)) with
      ⟨hFits, hBranch⟩
    have hOwn :=
      isReadable_conditionalOf hLine
        (blocksOf (deeper line.indent rest)) hFits
    have hBody := ihBody (hRest.mono (deeper_subset _ _))
    rw [branchOf_elif rfl hElif, forall_mem_inOrderAll_cons]
    unfold conditionalOf at hOwn ⊢
    rw [Block.inOrder, List.forall_mem_cons,
      List.forall_mem_append]
    exact
      ⟨rfl, ⟨hOwn, hBody, hBranch⟩, List.forall_mem_nil _⟩
  case otherwise =>
    intro line rest hElif hElse ihBody hLines
    rw [branchOf_else rfl hElif hElse]
    exact
      ⟨trivial, ihBody (hLines.cons.2.mono (deeper_subset _ _))⟩

------------------------------------------------------------
-- Readable Programs
------------------------------------------------------------

/- The significant lines of a text hold no newline. -/
theorem areLines_significantLines (source : String) :
    AreLines (significantLines source) := by
  intro l hl
  have hContent :
      l.unnumbered ∈ contentsOf (rawLines source) := by
    rw [← unnumbered_significantLines]
    exact List.mem_map_of_mem hl
  rcases List.mem_map.mp (List.mem_filter.mp hContent).1 with
    ⟨raw, hRaw, hLine⟩
  rcases piece_of_mem_splitOn [] source.toList (by simp) hRaw with
    ⟨hFree, _⟩
  have hText : l.text = String.ofList (trim raw) :=
    (congrArg Line.text hLine).symm
  rw [hText, String.toList_ofList]
  exact fun hMember => hFree ((isInfix_trim raw).subset hMember)

theorem headText_withoutIds
    (chained : Bool)
    (b : Block) :
    headText chained (withoutIds b) = headText chained b := by
  cases b <;> rfl

/- Ids are no matter to what a block's row says. -/
theorem isReadable_withoutIds_iff
    (b : Block) :
    IsReadable (withoutIds b) ↔ IsReadable b := by
  have hParts :
      HasReadableParts (withoutIds b) ↔ HasReadableParts b := by
    cases b with
    | conditional id condition body elseKind elseBody =>
        simp only [withoutIds, respell, HasReadableParts,
          respellAll_eq_map]
        exact and_congr_right fun _ => fits_withoutIds_iff
    | function => rfl
    | assignment => rfl
    | loop => rfl
    | ret => rfl
    | call => rfl
  simp only [IsReadable, hParts, headText_withoutIds]

/- All blocks of a program that was read are readable. -/
theorem isReadable_parse
    (n : Nat)
    (source : String) :
    ∀ b ∈ documentOrder (parse n source), IsReadable b := by
  rw [parse_eq]
  exact
    forall_mem_renumberClosingAll isReadable_withoutIds_iff
      (isReadable_of_mem_blocksOf.1 _
        (areLines_significantLines source))
      n

end Source

end BlockProgram
