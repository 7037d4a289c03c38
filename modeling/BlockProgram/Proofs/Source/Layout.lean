import BlockProgram.Proofs.Block.Numbering
import BlockProgram.Source.Layout

/-
  The rows of a tree as a plain function of it.

  Only an else branch of a wrong shape stands in the way of
  the rows.  A block begins with its own row, and the rows of
  its bodies lie deeper.

  Main declarations:
    * `Source.layout`
    * `Source.headText`
    * `Source.isRowOf_of_mem_layout`
    * `Source.compile_eq_programText`
    * `Source.compile_of_areSound`
-/

namespace BlockProgram

namespace Source

open Block (closingAll fault? outcomeOf)

------------------------------------------------------------
-- Layouts
------------------------------------------------------------

/- The text of a block's own row. -/
def headText (chained : Bool) : Block → String
  | .function _ name parameters _ =>
      functionText name parameters
  | .assignment _ name value => assignmentText name value
  | .conditional _ condition _ _ _ =>
      conditionalText chained condition
  | .loop _ iterator iterable _ => loopText iterator iterable
  | .ret _ value => retText value
  | .call _ callee arguments => callText callee arguments

/- The rows of an else branch, given those of its blocks. -/
def branchRows
    (depth : Nat)
    (elseKind : ElseKind)
    (chained others : List Row) : List Row :=
  match elseKind with
  | .none => []
  | .elif => chained
  | .otherwise =>
      ⟨depth, "else:"⟩ :: orPlaceholder (depth + 1) others

mutual

/- The rows of a block, whatever its else branches are. -/
def layout
    (depth : Nat)
    (chained : Bool) :
    Block →
    List Row
  | .function id name parameters body =>
      ⟨depth, headText chained (.function id name parameters body)⟩ ::
        orPlaceholder (depth + 1) (layoutAll (depth + 1) false body)
  | .assignment id name value =>
      [⟨depth, headText chained (.assignment id name value)⟩]
  | .conditional id condition body elseKind elseBody =>
      ⟨depth,
          headText chained
            (.conditional id condition body elseKind elseBody)⟩ ::
        (orPlaceholder (depth + 1)
            (layoutAll (depth + 1) false body) ++
          branchRows depth elseKind (layoutAll depth true elseBody)
            (layoutAll (depth + 1) false elseBody))
  | .loop id iterator iterable body =>
      ⟨depth, headText chained (.loop id iterator iterable body)⟩ ::
        orPlaceholder (depth + 1) (layoutAll (depth + 1) false body)
  | .ret id value => [⟨depth, headText chained (.ret id value)⟩]
  | .call id callee arguments =>
      [⟨depth, headText chained (.call id callee arguments)⟩]

/- The rows of a list of blocks, one block after another. -/
def layoutAll
    (depth : Nat)
    (chained : Bool) :
    List Block →
    List Row
  | [] => []
  | b :: bs => layout depth chained b ++ layoutAll depth chained bs

end

/- The text of a program, from the rows of its blocks. -/
def programText
    (width : Nat)
    (blocks : List Block) : String :=
  "\n\n".intercalate
    (blocks.map fun b =>
      "\n".intercalate ((layout 0 false b).map (Row.render width)))

------------------------------------------------------------
-- What Rows Say
------------------------------------------------------------

theorem mem_layoutAll
    {depth : Nat}
    {chained : Bool}
    {bs : List Block}
    {row : Row} :
    row ∈ layoutAll depth chained bs ↔
      ∃ b ∈ bs, row ∈ layout depth chained b := by
  induction bs with
  | nil => simp [layoutAll]
  | cons b bs ih => simp [layoutAll, ih]

/- A block's own row comes first. -/
theorem head?_layout
    (depth : Nat)
    (chained : Bool)
    (b : Block) :
    (layout depth chained b).head? =
      some ⟨depth, headText chained b⟩ := by
  cases b <;> rfl

/-
  A row at a depth or below it that stands for one of the
  blocks, for a body without blocks, or for the other case.
-/
def IsRowOf
    (depth : Nat)
    (blocks : List Block)
    (row : Row) : Prop :=
  depth ≤ row.depth ∧
    (row.text = placeholderText ∨
      row.text = "else:" ∨
        ∃ c ∈ blocks, ∃ chained, row.text = headText chained c)

theorem IsRowOf.mono
    {depth depth' : Nat}
    {blocks blocks' : List Block}
    {row : Row}
    (hRow : IsRowOf depth blocks row)
    (hDepth : depth' ≤ depth)
    (hBlocks : ∀ c ∈ blocks, c ∈ blocks') :
    IsRowOf depth' blocks' row := by
  rcases hRow with ⟨hLe, hText⟩
  refine ⟨Nat.le_trans hDepth hLe, ?_⟩
  rcases hText with hPass | hElse | ⟨c, hMember, hHead⟩
  · exact Or.inl hPass
  · exact Or.inr (Or.inl hElse)
  · exact Or.inr (Or.inr ⟨c, hBlocks c hMember, hHead⟩)

theorem isRowOf_of_mem_orPlaceholder
    {depth : Nat}
    {blocks : List Block}
    {rows : List Row}
    (hRows : ∀ row ∈ rows, IsRowOf depth blocks row) :
    ∀ row ∈ orPlaceholder depth rows,
      IsRowOf depth blocks row := by
  intro row hRow
  unfold orPlaceholder at hRow
  split at hRow
  · rcases List.mem_singleton.mp hRow with rfl
    exact ⟨Nat.le_refl _, Or.inl rfl⟩
  · exact hRows row hRow

theorem isRowOf_of_mem_layoutAll
    {bs : List Block}
    (h :
      ∀ b ∈ bs,
        ∀ depth chained,
          ∀ row ∈ layout depth chained b,
            IsRowOf depth b.inOrder row)
    (depth : Nat)
    (chained : Bool) :
    ∀ row ∈ layoutAll depth chained bs,
      IsRowOf depth (Block.inOrderAll bs) row := by
  intro row hRow
  rcases mem_layoutAll.mp hRow with ⟨b, hMember, hRow⟩
  refine (h b hMember depth chained row hRow).mono (Nat.le_refl _) ?_
  intro c hc
  exact Block.mem_inOrderAll.mpr ⟨b, hMember, hc⟩

/- The rows of a body, which lie below the block's own. -/
theorem isRowOf_of_mem_body
    {body blocks : List Block}
    (h :
      ∀ b ∈ body,
        ∀ depth chained,
          ∀ row ∈ layout depth chained b,
            IsRowOf depth b.inOrder row)
    (hBlocks : ∀ c ∈ Block.inOrderAll body, c ∈ blocks)
    (depth : Nat) :
    ∀ row ∈
        orPlaceholder (depth + 1)
          (layoutAll (depth + 1) false body),
      IsRowOf depth blocks row := by
  intro row hRow
  have hBelow :=
    isRowOf_of_mem_orPlaceholder
      (isRowOf_of_mem_layoutAll h (depth + 1) false) row hRow
  exact hBelow.mono (Nat.le_succ depth) hBlocks

/- No row of a block lies above the block. -/
theorem isRowOf_of_mem_layout
    (b : Block)
    (depth : Nat)
    (chained : Bool) :
    ∀ row ∈ layout depth chained b,
      IsRowOf depth b.inOrder row := by
  have hHead (b : Block) (depth : Nat) (chained : Bool) :
      IsRowOf depth b.inOrder ⟨depth, headText chained b⟩ :=
    ⟨Nat.le_refl _,
      Or.inr (Or.inr ⟨b, b.mem_inOrder_self, chained, rfl⟩)⟩
  induction b using Block.induction generalizing depth chained with
  | function id name parameters body ih =>
      refine List.forall_mem_cons.mpr ⟨hHead _ _ _, ?_⟩
      exact
        isRowOf_of_mem_body ih
          (fun c hc => List.mem_cons_of_mem _ hc) depth
  | assignment id name value =>
      exact List.forall_mem_singleton.mpr (hHead _ _ _)
  | conditional id condition body elseKind elseBody ihBody
      ihElse =>
      refine List.forall_mem_cons.mpr ⟨hHead _ _ _, ?_⟩
      refine List.forall_mem_append.mpr ⟨?_, ?_⟩
      · exact
          isRowOf_of_mem_body ihBody
            (fun c hc =>
              List.mem_cons_of_mem _ (List.mem_append_left _ hc))
            depth
      · cases elseKind with
        | none => exact List.forall_mem_nil _
        | elif =>
            intro row hRow
            have hBranch :=
              isRowOf_of_mem_layoutAll ihElse depth true row hRow
            refine hBranch.mono (Nat.le_refl _) ?_
            intro c hc
            exact
              List.mem_cons_of_mem _ (List.mem_append_right _ hc)
        | otherwise =>
            refine List.forall_mem_cons.mpr ⟨?_, ?_⟩
            · exact ⟨Nat.le_refl _, Or.inr (Or.inl rfl)⟩
            · exact
                isRowOf_of_mem_body ihElse
                  (fun c hc =>
                    List.mem_cons_of_mem _
                      (List.mem_append_right _ hc))
                  depth
  | loop id iterator iterable body ih =>
      refine List.forall_mem_cons.mpr ⟨hHead _ _ _, ?_⟩
      exact
        isRowOf_of_mem_body ih
          (fun c hc => List.mem_cons_of_mem _ hc) depth
  | ret id value =>
      exact List.forall_mem_singleton.mpr (hHead _ _ _)
  | call id callee arguments =>
      exact List.forall_mem_singleton.mpr (hHead _ _ _)

/- The rows of a body lie below the block that holds it. -/
theorem lt_depth_of_mem_body
    {body : List Block}
    {depth : Nat}
    {row : Row}
    (hRow :
      row ∈
        orPlaceholder (depth + 1)
          (layoutAll (depth + 1) false body)) :
    depth < row.depth := by
  have hBelow :=
    isRowOf_of_mem_orPlaceholder
      (isRowOf_of_mem_layoutAll
        (fun b _ => isRowOf_of_mem_layout b) (depth + 1) false)
      row hRow
  exact hBelow.1

------------------------------------------------------------
-- Rows And Faults
------------------------------------------------------------

theorem rowsOfAll_of_forall
    {bs : List Block}
    (h :
      ∀ b ∈ bs,
        ∀ depth chained,
          rowsOf depth chained b =
            (do
              outcomeOf (b.closing.findSome? fault?)
              return layout depth chained b))
    (depth : Nat)
    (chained : Bool) :
    rowsOfAll depth chained bs =
      (do
        outcomeOf ((closingAll bs).findSome? fault?)
        return layoutAll depth chained bs) := by
  induction bs with
  | nil => rfl
  | cons b bs ih =>
      rw [rowsOfAll, h b List.mem_cons_self,
        ih fun c hc => h c (List.mem_cons_of_mem b hc),
        closingAll, List.findSome?_append, Block.outcomeOf_or]
      simp only [bind_assoc, pure_bind]
      rfl

/-
  The rows of a block are its layout, unless a fault stands
  in the way.  Faults are met in closing order.
-/
theorem rowsOf_eq_layout
    (b : Block)
    (depth : Nat)
    (chained : Bool) :
    rowsOf depth chained b =
      (do
        outcomeOf (b.closing.findSome? fault?)
        return layout depth chained b) := by
  induction b using Block.induction generalizing depth chained with
  | function id name parameters body ih =>
      rw [rowsOf, rowsOfAll_of_forall ih]
      simp [Block.closing, fault?, layout, headText]
  | assignment id name value => rfl
  | conditional id condition body elseKind elseBody ihBody
      ihElse =>
      have hElseRows := rowsOfAll_of_forall ihElse
      rw [rowsOf, rowsOfAll_of_forall ihBody, Block.checkElse_eq]
      simp only [Block.closing, List.findSome?_append,
        List.findSome?_cons, fault?, Block.outcomeOf_or,
        bind_assoc, pure_bind]
      congr 1
      funext _
      cases hOwn : elseFault? id elseKind elseBody with
      | some fault => rfl
      | none =>
          -- A branch without a fault is written if it can be.
          cases elseKind with
          | none =>
              have hEmpty := Block.elseFault?_eq_none_iff.mp hOwn
              rcases hEmpty with rfl
              rfl
          | elif =>
              simp only [hElseRows]
              cases outcomeOf
                  ((closingAll elseBody).findSome? fault?) <;>
                rfl
          | otherwise =>
              simp only [hElseRows]
              cases outcomeOf
                  ((closingAll elseBody).findSome? fault?) <;>
                rfl
  | loop id iterator iterable body ih =>
      rw [rowsOf, rowsOfAll_of_forall ih]
      simp [Block.closing, fault?, layout, headText]
  | ret id value => rfl
  | call id callee arguments => rfl

/-
  A program is written as the text of its rows, unless a
  fault stands in the way.
-/
theorem compile_eq_programText
    (width : Nat)
    (blocks : List Block) :
    compile width blocks =
      (do
        outcomeOf ((closingAll blocks).findSome? fault?)
        return programText width blocks) := by
  have hTexts :
      blocks.mapM (blockText width) =
        (do
          outcomeOf ((closingAll blocks).findSome? fault?)
          return blocks.map fun b =>
            "\n".intercalate
              ((layout 0 false b).map (Row.render width))) := by
    induction blocks with
    | nil => rfl
    | cons b bs ih =>
        rw [List.mapM_cons, ih, blockText, rowsOf_eq_layout,
          closingAll, List.findSome?_append, Block.outcomeOf_or]
        simp only [bind_assoc, pure_bind]
        rfl
  rw [compile, hTexts]
  simp only [bind_assoc, pure_bind]
  rfl

/- A sound program is written as the text of its rows. -/
theorem compile_of_areSound
    {blocks : List Block}
    (hSound : Block.AreSound blocks)
    (width : Nat) :
    compile width blocks = .ok (programText width blocks) := by
  have hNone :
      (closingAll blocks).findSome? fault? = none := by
    rw [List.findSome?_eq_none_iff]
    intro b hMember
    exact
      Block.fault?_eq_none_iff.mpr
        (hSound b ((Block.closingAll_perm blocks).mem_iff.mp hMember))
  rw [compile_eq_programText, hNone]
  rfl

end Source

end BlockProgram
