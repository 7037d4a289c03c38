import BlockProgram.Proofs.Source.BlockLines
import BlockProgram.Proofs.Source.Respelling

/-
  A tree is found again in the lines of its rows.

  The rows of a block are followed by other lines, none of
  them deeper.  A conditional whose ladder has no else yet
  would also take a line that looks like a clause, so none
  may follow it.  Under these two conditions the rows of a
  block make that block, and leave the other lines alone.

  Main declarations:
    * `Source.reread`
    * `Source.readsBack_and_chainsBack`
    * `Source.parse_programText`
-/

namespace BlockProgram

namespace Source

open Text

------------------------------------------------------------
-- What A Tree Is Read As
------------------------------------------------------------

/-
  What an assignment is read as.  One to the name `return`
  is a return of the text from its equals sign on.
-/
def rereadAssignment
    (name : String)
    (value : Value) : Block :=
  if name = "return" then .ret noId ("= " ++ value.source)
  else .assignment noId name (.simple value.source)

/- What a return is read as. -/
def rereadReturn (value : String) : Block :=
  .ret noId (returned value.toList)

/- What a block is read as. -/
def reread : Block → Block :=
  respell rereadAssignment rereadReturn

------------------------------------------------------------
-- Assignments
------------------------------------------------------------

/- An assignment to `return` has the row of a return. -/
theorem assignmentText_return (value : Value) :
    assignmentText "return" value =
      "return " ++ ("= " ++ value.source) := by
  apply String.toList_inj.mp
  simp [assignmentText]

/- What an assignment to `return` is taken to return. -/
theorem isExpression_equals
    {text : String}
    (hNonempty : text ≠ "")
    (hTrimmed : IsTrimmed text.toList) :
    IsExpression ("= " ++ text) := by
  have hText :
      ("= " ++ text).toList = ['=', ' '] ++ text.toList := by
    simp
  constructor
  · simp
  · rw [hText]
    constructor
    · intro c hc
      rcases Option.some.inj hc with rfl
      decide
    · intro c hc
      rw [List.getLast?_append] at hc
      cases hLast : text.toList.getLast? with
      | none =>
          rw [List.getLast?_eq_none_iff] at hLast
          exact absurd (String.toList_eq_nil_iff.mp hLast) hNonempty
      | some d =>
          rw [hLast] at hc
          rcases Option.some.inj hc with rfl
          exact hTrimmed.2 d hLast

/- What a legible assignment is read as. -/
theorem blocksOf_assignmentText
    {line : Line}
    {rest : List Line}
    {id name : String}
    {value : Value}
    (hLegible : IsLegible (.assignment id name value))
    (hText : line.text = assignmentText name value) :
    blocksOf (line :: rest) =
      rereadAssignment name value :: blocksOf rest := by
  rcases hLegible with ⟨⟨hName, hValue, hTrimmed⟩, _, hPlain⟩
  unfold rereadAssignment
  by_cases hReturn : name = "return"
  · have hExpression :=
      isExpression_equals (source_ne_empty value) hTrimmed
    rw [if_pos hReturn]
    apply blocksOf_ret
    rw [hText, hReturn, assignmentText_return]
    exact Statement.read_return hExpression
  · have hKeyword : name ∉ keywords := by
      simp only [IsUnmistaken, headerNames, keywords,
        List.mem_cons, List.not_mem_nil, or_false, not_or]
        at hPlain ⊢
      exact ⟨hPlain.1, hPlain.2.1, hPlain.2.2, hReturn⟩
    have hSame : trimmed value.source = value.source := by
      rw [trimmed, trim_eq_self hTrimmed, String.ofList_toList]
    rw [if_neg hReturn, ← hSame]
    apply blocksOf_assignment
    rw [hText]
    exact Statement.read_assignmentText hName hKeyword hValue

------------------------------------------------------------
-- Blocks In Their Lines
------------------------------------------------------------

/- Lines that may follow those of a block. -/
def MayFollow
    (indent : Nat)
    (isOpen : Bool)
    (rest : List Line) : Prop :=
  AreShallow indent rest ∧
    (isOpen = true →
      ∀ l ∈ rest.head?, l.isClause indent = false)

/- The lines of a block make the block as it is reread. -/
def ReadsBack
    (width : Nat)
    (b : Block) : Prop :=
  ∀ depth rest,
    MayFollow (width * depth) (endsOpen b) rest →
      blocksOf (blockLines width depth false b ++ rest) =
        reread b :: blocksOf rest

/- The lines of a chained conditional make an else branch. -/
def ChainsBack
    (width : Nat)
    (b : Block) : Prop :=
  ∀ depth rest,
    MayFollow (width * depth) (endsOpen b) rest →
      branchOf (width * depth)
            (blockLines width depth true b ++ rest) =
          (.elif, [reread b]) ∧
        afterClauses (width * depth)
            (blockLines width depth true b ++ rest) =
          rest

section Lines

variable {width : Nat}

/- The lines of a list of blocks make the list. -/
theorem blocksOf_layoutAll_of_forall
    {bs : List Block}
    (hBlocks : ∀ b ∈ bs, IsLegible b ∧ ReadsBack width b)
    (hSeparate : AreSeparate bs)
    (depth : Nat) :
    blocksOf ((layoutAll depth false bs).map (Row.line width)) =
      bs.map reread := by
  induction bs with
  | nil => exact blocksOf_nil
  | cons b bs ih =>
      have hOthers :=
        fun c hc => hBlocks c (List.mem_cons_of_mem b hc)
      have hFollow :
          AreSeparate bs ∧
            MayFollow (width * depth) (endsOpen b)
              ((layoutAll depth false bs).map
                (Row.line width)) := by
        cases bs with
        | nil => simp [AreSeparate, MayFollow, AreShallow, layoutAll]
        | cons c bs =>
            rw [map_layoutAll_cons]
            refine
              ⟨hSeparate.2, areShallow_blockLines false c _, ?_⟩
            intro hOpen l hl
            rw [head?_blockLines] at hl
            rcases Option.some.inj hl with rfl
            exact
              isClause_headText (hOthers c List.mem_cons_self).1.1
                (by simpa [hOpen] using hSeparate.1) width depth _
      rw [map_layoutAll_cons,
        (hBlocks b List.mem_cons_self).2 depth _ hFollow.2,
        ih hOthers hFollow.1, List.map_cons]

/- The lines of a body make the blocks of the body. -/
theorem blocksOf_bodyLines_of_forall
    {body : List Block}
    (hBlocks : ∀ b ∈ body, IsLegible b ∧ ReadsBack width b)
    (hSeparate : AreSeparate body)
    (depth : Nat) :
    blocksOf (bodyLines width depth body) = body.map reread := by
  rw [blocksOf_bodyLines,
    blocksOf_layoutAll_of_forall hBlocks hSeparate]

/- The lines of an else branch make the branch. -/
theorem branchOf_branchLines_of_forall
    (hWidth : 0 < width)
    {id condition : String}
    {body elseBody : List Block}
    {elseKind : ElseKind}
    (hFits : Block.Fits elseKind elseBody)
    (hElse :
      ∀ b ∈ elseBody,
        (IsLegible b ∧ ReadsBack width b) ∧
          (b.kind = .conditional → ChainsBack width b))
    (hSeparate : AreSeparate elseBody)
    {depth : Nat}
    {rest : List Line}
    (hRest :
      MayFollow (width * depth)
        (endsOpen
          (.conditional id condition body elseKind elseBody))
        rest) :
    branchOf (width * depth)
          (branchLines width depth elseKind elseBody ++ rest) =
        (elseKind, elseBody.map reread) ∧
      afterClauses (width * depth)
          (branchLines width depth elseKind elseBody ++ rest) =
        rest := by
  cases elseKind with
  | none =>
      rcases hFits with rfl
      exact clauses_of_no_clause (hRest.2 rfl)
  | elif =>
      rcases elseBody with _ | ⟨c, _ | ⟨d, cs⟩⟩
      · cases hFits
      · have hKind : c.kind = .conditional := by
          simpa [Block.Fits] using hFits
        rw [branchLines_elif]
        exact
          (hElse c List.mem_cons_self).2 hKind depth rest hRest
      · simp [Block.Fits] at hFits
  | otherwise =>
      rcases branchOf_else_lines hWidth elseBody hRest.1 with
        ⟨hBranch, hAfter⟩
      rw [hBranch, hAfter,
        blocksOf_bodyLines_of_forall
          (fun b hb => (hElse b hb).1) hSeparate]
      exact ⟨rfl, rfl⟩

/- The lines of a conditional, by itself and chained. -/
theorem readsBack_conditional
    (hWidth : 0 < width)
    {id condition : String}
    {body elseBody : List Block}
    {elseKind : ElseKind}
    (hOwn :
      IsLegible
        (.conditional id condition body elseKind elseBody))
    (hBody : ∀ b ∈ body, IsLegible b ∧ ReadsBack width b)
    (hElse :
      ∀ b ∈ elseBody,
        (IsLegible b ∧ ReadsBack width b) ∧
          (b.kind = .conditional → ChainsBack width b)) :
    ReadsBack width
        (.conditional id condition body elseKind elseBody) ∧
      ChainsBack width
        (.conditional id condition body elseKind elseBody) := by
  rcases hOwn with ⟨hParts, hFilled, hSeparate, hSeparateElse⟩
  have hInner := blocksOf_bodyLines_of_forall hBody hSeparate
  have hSpelled :
      reread (.conditional id condition body elseKind elseBody) =
        conditionalOf (some condition) (body.map reread)
          (elseKind, elseBody.map reread) := by
    rw [reread, respell, respellAll_eq_map, respellAll_eq_map]
    rfl
  constructor
  · intro depth rest hRest
    rcases branchOf_branchLines_of_forall hWidth hParts.2 hElse
        hSeparateElse hRest with
      ⟨hBranch, hAfter⟩
    rw [blocksOf_conditional_lines hWidth hParts hFilled hRest.1,
      hInner, hBranch, hAfter, hSpelled]
  · intro depth rest hRest
    rcases branchOf_branchLines_of_forall hWidth hParts.2 hElse
        hSeparateElse hRest with
      ⟨hBranch, hAfter⟩
    rcases branchOf_chained_lines hWidth hParts hFilled
        hRest.1 with
      ⟨hChained, hRemains⟩
    rw [hChained, hRemains, hInner, hBranch, hAfter, hSpelled]
    exact ⟨rfl, rfl⟩

/-
  The lines of a legible block make the block, also where it
  is chained.
-/
theorem readsBack_and_chainsBack
    (hWidth : 0 < width)
    {b : Block}
    (hLegible : ∀ c ∈ b.inOrder, IsLegible c) :
    (IsLegible b ∧ ReadsBack width b) ∧
      (b.kind = .conditional → ChainsBack width b) := by
  induction b using Block.induction with
  | function id name parameters body ih =>
      rcases Block.forall_mem_inOrder_function.mp hLegible with
        ⟨hOwn, hBody⟩
      refine ⟨⟨hOwn, ?_⟩, fun hKind => by cases hKind⟩
      intro depth rest hRest
      have hInner :=
        blocksOf_bodyLines_of_forall
          (fun b hb => (ih b hb (hBody b hb)).1) hOwn.2.2 depth
      rw [blocksOf_function_lines hWidth hOwn.1 hRest.1, hInner,
        reread, respell, respellAll_eq_map]
  | assignment id name value =>
      have hOwn := List.forall_mem_singleton.mp hLegible
      refine ⟨⟨hOwn, ?_⟩, fun hKind => by cases hKind⟩
      intro depth rest _
      exact blocksOf_assignmentText hOwn rfl
  | conditional id condition body elseKind elseBody ihBody
      ihElse =>
      rcases Block.forall_mem_inOrder_conditional.mp hLegible with
        ⟨hOwn, hBody, hElse⟩
      rcases readsBack_conditional hWidth hOwn
          (fun b hb => (ihBody b hb (hBody b hb)).1)
          (fun b hb => ihElse b hb (hElse b hb)) with
        ⟨hReads, hChains⟩
      exact ⟨⟨hOwn, hReads⟩, fun _ => hChains⟩
  | loop id iterator iterable body ih =>
      rcases Block.forall_mem_inOrder_loop.mp hLegible with
        ⟨hOwn, hBody⟩
      refine ⟨⟨hOwn, ?_⟩, fun hKind => by cases hKind⟩
      intro depth rest hRest
      have hInner :=
        blocksOf_bodyLines_of_forall
          (fun b hb => (ih b hb (hBody b hb)).1) hOwn.2.2 depth
      rw [blocksOf_loop_lines hWidth hOwn.1 hOwn.2.1 hRest.1,
        hInner, reread, respell, respellAll_eq_map]
  | ret id value =>
      have hOwn := List.forall_mem_singleton.mp hLegible
      refine ⟨⟨hOwn, ?_⟩, fun hKind => by cases hKind⟩
      intro depth rest _
      exact blocksOf_ret (Statement.read_retText value)
  | call id callee arguments =>
      have hOwn := List.forall_mem_singleton.mp hLegible
      refine ⟨⟨hOwn, ?_⟩, fun hKind => by cases hKind⟩
      intro depth rest _
      exact
        blocksOf_call
          (Statement.read_callText hOwn.1.1 hOwn.1.2)

end Lines

------------------------------------------------------------
-- Programs In Their Texts
------------------------------------------------------------

/- A tree that was read is read as itself. -/
theorem withoutIds_reread (b : Block) :
    withoutIds (reread b) = reread b := by
  rw [withoutIds, reread, respell_respell]
  apply respell_congr
  intro c _ hSpelled
  cases c with
  | assignment id name value =>
      unfold respell rereadAssignment
      split
      · rfl
      · rfl
  | ret id value => rfl
  | function => cases hSpelled
  | conditional => cases hSpelled
  | loop => cases hSpelled
  | call => cases hSpelled

/-
  The text of a legible program is read as the program, up to
  ids and the spelling of its values.
-/
theorem parse_programText
    {width : Nat}
    (hWidth : 0 < width)
    {blocks : List Block}
    (hLegible : ∀ c ∈ documentOrder blocks, IsLegible c)
    (hSeparate : AreSeparate blocks)
    (hLines :
      ∀ c ∈ documentOrder blocks,
        ∀ chained, '\n' ∉ (headText chained c).toList)
    (n : Nat) :
    (parse n (programText width blocks)).map withoutIds =
      blocks.map reread := by
  have hRows :=
    lines_programText
      (fun _ hRow =>
        isStatementText_of_mem_layoutAll
          (fun c hMember => (hLegible c hMember).1) hLines hRow)
      width
  have hBlocks :=
    blocksOf_layoutAll_of_forall
      (fun b hb =>
        (readsBack_and_chainsBack hWidth
          (Block.forall_mem_inOrderAll.mp hLegible b hb)).1)
      hSeparate 0
  rw [parse_eq, map_withoutIds_renumberClosingAll,
    ← blocksOf_unnumbered, hRows, hBlocks, List.map_map]
  apply List.map_congr_left
  intro b _
  exact withoutIds_reread b

end Source

end BlockProgram
