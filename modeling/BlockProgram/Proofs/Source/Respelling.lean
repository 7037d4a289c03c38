import BlockProgram.Proofs.Source.Layout
import BlockProgram.Source.Parse

/-
  Trees that differ in their ids, or in how their values are
  spelled.

  A tree is respelled by giving new blocks for its
  assignments and returns; everything else stays, except that
  ids are dropped.  The rows of a tree depend on its spelling
  alone.

  Main declarations:
    * `Source.respell`
    * `Source.withoutIds`
    * `Source.withoutIds_renumberClosing`
    * `Source.layout_respell`
-/

namespace BlockProgram

namespace Source

------------------------------------------------------------
-- Respelling
------------------------------------------------------------

mutual

/- A block with other assignments and returns, and no ids. -/
def respell
    (assigned : String → Value → Block)
    (returns : String → Block) :
    Block →
    Block
  | .function _ name parameters body =>
      .function noId name parameters
        (respellAll assigned returns body)
  | .assignment _ name value => assigned name value
  | .conditional _ condition body elseKind elseBody =>
      .conditional noId condition
        (respellAll assigned returns body) elseKind
        (respellAll assigned returns elseBody)
  | .loop _ iterator iterable body =>
      .loop noId iterator iterable
        (respellAll assigned returns body)
  | .ret _ value => returns value
  | .call _ callee arguments => .call noId callee arguments

/- `respell` for the blocks of a list. -/
def respellAll
    (assigned : String → Value → Block)
    (returns : String → Block) :
    List Block →
    List Block
  | [] => []
  | b :: bs =>
      respell assigned returns b :: respellAll assigned returns bs

end

/- The same block without its ids. -/
def withoutIds : Block → Block :=
  respell (.assignment noId) (.ret noId)

/- The block says how it is spelled by itself. -/
def IsSpelled : Block → Prop
  | .assignment .. | .ret .. => True
  | .function .. | .conditional .. | .loop .. | .call .. => False

theorem respellAll_eq_map
    (assigned : String → Value → Block)
    (returns : String → Block)
    (bs : List Block) :
    respellAll assigned returns bs =
      bs.map (respell assigned returns) := by
  induction bs with
  | nil => rfl
  | cons b bs ih => rw [respellAll, ih, List.map_cons]

section Respell

variable {assigned assigned' : String → Value → Block}
variable {returns returns' : String → Block}

/- Only the assignments and returns in a block matter. -/
theorem respell_congr
    {b : Block}
    (hSpelled :
      ∀ c ∈ b.inOrder,
        IsSpelled c →
          respell assigned returns c =
            respell assigned' returns' c) :
    respell assigned returns b = respell assigned' returns' b := by
  induction b using Block.induction with
  | function id name parameters body ih =>
      rcases Block.forall_mem_inOrder_function.mp hSpelled with
        ⟨_, hBody⟩
      simp only [respell, respellAll_eq_map]
      rw [List.map_congr_left fun b hb => ih b hb (hBody b hb)]
  | assignment id name value =>
      exact hSpelled _ (Block.mem_inOrder_self _) trivial
  | conditional id condition body elseKind elseBody ihBody
      ihElse =>
      rcases Block.forall_mem_inOrder_conditional.mp hSpelled with
        ⟨_, hBody, hElse⟩
      simp only [respell, respellAll_eq_map]
      rw [List.map_congr_left fun b hb => ihBody b hb (hBody b hb),
        List.map_congr_left fun b hb => ihElse b hb (hElse b hb)]
  | loop id iterator iterable body ih =>
      rcases Block.forall_mem_inOrder_loop.mp hSpelled with
        ⟨_, hBody⟩
      simp only [respell, respellAll_eq_map]
      rw [List.map_congr_left fun b hb => ih b hb (hBody b hb)]
  | ret id value =>
      exact hSpelled _ (Block.mem_inOrder_self _) trivial
  | call id callee arguments => rfl

/- A tree is respelled twice as it is respelled once. -/
theorem respell_respell (b : Block) :
    respell assigned returns (respell assigned' returns' b) =
      respell
        (fun name value =>
          respell assigned returns (assigned' name value))
        (fun value => respell assigned returns (returns' value))
        b := by
  induction b using Block.induction with
  | function id name parameters body ih =>
      simp only [respell, respellAll_eq_map, List.map_map,
        Function.comp_def]
      rw [List.map_congr_left ih]
  | assignment id name value => rfl
  | conditional id condition body elseKind elseBody ihBody
      ihElse =>
      simp only [respell, respellAll_eq_map, List.map_map,
        Function.comp_def]
      rw [List.map_congr_left ihBody, List.map_congr_left ihElse]
  | loop id iterator iterable body ih =>
      simp only [respell, respellAll_eq_map, List.map_map,
        Function.comp_def]
      rw [List.map_congr_left ih]
  | ret id value => rfl
  | call id callee arguments => rfl

------------------------------------------------------------
-- Rows Of A Respelled Tree
------------------------------------------------------------

theorem layoutAll_respellAll_of_forall
    {bs : List Block}
    (h :
      ∀ b ∈ bs,
        ∀ depth chained,
          layout depth chained (respell assigned returns b) =
            layout depth chained b)
    (depth : Nat)
    (chained : Bool) :
    layoutAll depth chained (respellAll assigned returns bs) =
      layoutAll depth chained bs := by
  induction bs with
  | nil => rfl
  | cons b bs ih =>
      rw [respellAll, layoutAll, layoutAll,
        h b List.mem_cons_self,
        ih fun c hc => h c (List.mem_cons_of_mem b hc)]

/- Rows stay when those of assignments and returns do. -/
theorem layout_respell
    {b : Block}
    (hSpelled :
      ∀ c ∈ b.inOrder,
        IsSpelled c →
          ∀ depth chained,
            layout depth chained (respell assigned returns c) =
              layout depth chained c)
    (depth : Nat)
    (chained : Bool) :
    layout depth chained (respell assigned returns b) =
      layout depth chained b := by
  induction b using Block.induction generalizing depth chained with
  | function id name parameters body ih =>
      rcases Block.forall_mem_inOrder_function.mp hSpelled with
        ⟨_, hBody⟩
      have hRows :=
        layoutAll_respellAll_of_forall fun b hb =>
          ih b hb (hBody b hb)
      simp only [respell, layout, hRows, headText]
  | assignment id name value =>
      exact hSpelled _ (Block.mem_inOrder_self _) trivial _ _
  | conditional id condition body elseKind elseBody ihBody
      ihElse =>
      rcases Block.forall_mem_inOrder_conditional.mp hSpelled with
        ⟨_, hBody, hElse⟩
      have hBodyRows :=
        layoutAll_respellAll_of_forall fun b hb =>
          ihBody b hb (hBody b hb)
      have hElseRows :=
        layoutAll_respellAll_of_forall fun b hb =>
          ihElse b hb (hElse b hb)
      simp only [respell, layout, hBodyRows, hElseRows, headText]
  | loop id iterator iterable body ih =>
      rcases Block.forall_mem_inOrder_loop.mp hSpelled with
        ⟨_, hBody⟩
      have hRows :=
        layoutAll_respellAll_of_forall fun b hb =>
          ih b hb (hBody b hb)
      simp only [respell, layout, hRows, headText]
  | ret id value =>
      exact hSpelled _ (Block.mem_inOrder_self _) trivial _ _
  | call id callee arguments => rfl

end Respell

------------------------------------------------------------
-- Trees Without Ids
------------------------------------------------------------

theorem layout_withoutIds
    (depth : Nat)
    (chained : Bool)
    (b : Block) :
    layout depth chained (withoutIds b) = layout depth chained b := by
  apply layout_respell
  intro c _ hSpelled depth chained
  cases c with
  | assignment id name value => rfl
  | ret id value => rfl
  | function => cases hSpelled
  | conditional => cases hSpelled
  | loop => cases hSpelled
  | call => cases hSpelled

theorem withoutIds_renumberClosingAll_of_forall
    {bs : List Block}
    (h :
      ∀ b ∈ bs,
        ∀ n,
          withoutIds (Block.renumberClosing n b) = withoutIds b)
    (n : Nat) :
    (Block.renumberClosingAll n bs).map withoutIds =
      bs.map withoutIds := by
  induction bs generalizing n with
  | nil => rfl
  | cons b bs ih =>
      rw [Block.renumberClosingAll, List.map_cons, List.map_cons,
        h b List.mem_cons_self,
        ih fun c hc => h c (List.mem_cons_of_mem b hc)]

/- Numbering a tree changes nothing but its ids. -/
theorem withoutIds_renumberClosing
    (b : Block)
    (n : Nat) :
    withoutIds (Block.renumberClosing n b) = withoutIds b := by
  induction b using Block.induction generalizing n with
  | function id name parameters body ih =>
      have hBody := withoutIds_renumberClosingAll_of_forall ih
      simp only [withoutIds, Block.renumberClosing, respell,
        respellAll_eq_map] at hBody ⊢
      rw [hBody]
  | assignment id name value => rfl
  | conditional id condition body elseKind elseBody ihBody
      ihElse =>
      have hBody := withoutIds_renumberClosingAll_of_forall ihBody
      have hElse := withoutIds_renumberClosingAll_of_forall ihElse
      simp only [withoutIds, Block.renumberClosing, respell,
        respellAll_eq_map] at hBody hElse ⊢
      rw [hBody, hElse]
  | loop id iterator iterable body ih =>
      have hBody := withoutIds_renumberClosingAll_of_forall ih
      simp only [withoutIds, Block.renumberClosing, respell,
        respellAll_eq_map] at hBody ⊢
      rw [hBody]
  | ret id value => rfl
  | call id callee arguments => rfl

theorem map_withoutIds_renumberClosingAll
    (n : Nat)
    (bs : List Block) :
    (Block.renumberClosingAll n bs).map withoutIds =
      bs.map withoutIds :=
  withoutIds_renumberClosingAll_of_forall
    (fun b _ => withoutIds_renumberClosing b) n

theorem inOrderAll_withoutIds_of_forall
    {bs : List Block}
    (h :
      ∀ b ∈ bs,
        (withoutIds b).inOrder = b.inOrder.map withoutIds) :
    Block.inOrderAll (bs.map withoutIds) =
      (Block.inOrderAll bs).map withoutIds := by
  induction bs with
  | nil => rfl
  | cons b bs ih =>
      rw [List.map_cons, Block.inOrderAll, Block.inOrderAll,
        List.map_append, h b List.mem_cons_self,
        ih fun c hc => h c (List.mem_cons_of_mem b hc)]

/- The blocks inside a block, without their ids. -/
theorem inOrder_withoutIds (b : Block) :
    (withoutIds b).inOrder = b.inOrder.map withoutIds := by
  induction b using Block.induction with
  | function id name parameters body ih =>
      have hBody := inOrderAll_withoutIds_of_forall ih
      simp only [withoutIds, respell, respellAll_eq_map,
        Block.inOrder, List.map_cons] at hBody ⊢
      rw [hBody]
  | assignment id name value => rfl
  | conditional id condition body elseKind elseBody ihBody
      ihElse =>
      have hBody := inOrderAll_withoutIds_of_forall ihBody
      have hElse := inOrderAll_withoutIds_of_forall ihElse
      simp only [withoutIds, respell, respellAll_eq_map,
        Block.inOrder, List.map_cons, List.map_append]
        at hBody hElse ⊢
      rw [hBody, hElse]
  | loop id iterator iterable body ih =>
      have hBody := inOrderAll_withoutIds_of_forall ih
      simp only [withoutIds, respell, respellAll_eq_map,
        Block.inOrder, List.map_cons] at hBody ⊢
      rw [hBody]
  | ret id value => rfl
  | call id callee arguments => rfl

theorem kind_withoutIds (b : Block) :
    (withoutIds b).kind = b.kind := by
  cases b <;> rfl

theorem fits_withoutIds_iff
    {elseKind : ElseKind}
    {branch : List Block} :
    Block.Fits elseKind (branch.map withoutIds) ↔
      Block.Fits elseKind branch := by
  have hKinds :
      (branch.map withoutIds).map Block.kind =
        branch.map Block.kind := by
    rw [List.map_map]
    exact List.map_congr_left fun b _ => kind_withoutIds b
  cases elseKind with
  | none => simp [Block.Fits]
  | elif => rw [Block.Fits, Block.Fits, hKinds]
  | otherwise => rfl

/-
  What holds of the blocks of a drafted program, whatever
  their ids, holds of them once they are numbered.
-/
theorem forall_mem_renumberClosingAll
    {motive : Block → Prop}
    (hIds : ∀ b, motive (withoutIds b) ↔ motive b)
    {bs : List Block}
    (h : ∀ b ∈ Block.inOrderAll bs, motive b)
    (n : Nat) :
    ∀ b ∈ documentOrder (Block.renumberClosingAll n bs),
      motive b := by
  have hSame (bs : List Block) :=
    inOrderAll_withoutIds_of_forall fun b (_ : b ∈ bs) =>
      inOrder_withoutIds b
  intro b hb
  have hMember := List.mem_map_of_mem (f := withoutIds) hb
  rw [documentOrder, ← hSame, map_withoutIds_renumberClosingAll,
    hSame] at hMember
  rcases List.mem_map.mp hMember with ⟨c, hc, hEq⟩
  rw [← hIds, ← hEq, hIds]
  exact h c hc

end Source

end BlockProgram
