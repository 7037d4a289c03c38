import BlockProgram.Proofs.Block.Numbering

/-
  Copies of blocks.

  A copy has the blocks of the original with ids of its own,
  which take numbers in a row in document order.  Its else
  branches have the shapes of the original.

  Main declarations:
    * `Block.size_renumber`
    * `Block.areNumberedFrom_renumber`
    * `Block.isSound_renumber`
-/

namespace BlockProgram

namespace Block

------------------------------------------------------------
-- Sizes
------------------------------------------------------------

theorem sizeAll_renumberAll_of_forall
    {bs : List Block}
    (h : ∀ b ∈ bs, ∀ n, (renumber n b).size = b.size)
    (n : Nat) :
    sizeAll (renumberAll n bs) = sizeAll bs := by
  induction bs generalizing n with
  | nil => rfl
  | cons b bs ih =>
      rw [List.forall_mem_cons] at h
      rw [renumberAll, sizeAll, sizeAll, h.1, ih h.2]

theorem size_renumber
    (n : Nat)
    (b : Block) :
    (renumber n b).size = b.size := by
  induction b using Block.induction generalizing n with
  | function id name parameters body ih =>
      rw [renumber, size, size, sizeAll_renumberAll_of_forall ih]
  | assignment id name value => rfl
  | conditional id condition body elseKind elseBody ihBody
      ihElse =>
      rw [renumber, size, size,
        sizeAll_renumberAll_of_forall ihBody,
        sizeAll_renumberAll_of_forall ihElse]
  | loop id iterator iterable body ih =>
      rw [renumber, size, size, sizeAll_renumberAll_of_forall ih]
  | ret id value => rfl
  | call id callee arguments => rfl

@[simp] theorem sizeAll_renumberAll
    (n : Nat)
    (bs : List Block) :
    sizeAll (renumberAll n bs) = sizeAll bs :=
  sizeAll_renumberAll_of_forall (fun b _ n => size_renumber n b) n

------------------------------------------------------------
-- Numbers
------------------------------------------------------------

theorem areNumberedFrom_renumberAll_of_forall
    {bs : List Block}
    (h :
      ∀ b ∈ bs, ∀ n, AreNumberedFrom n (renumber n b).inOrder)
    (n : Nat) :
    AreNumberedFrom n (inOrderAll (renumberAll n bs)) := by
  induction bs generalizing n with
  | nil => trivial
  | cons b bs ih =>
      rw [List.forall_mem_cons] at h
      rw [renumberAll, inOrderAll, areNumberedFrom_append,
        length_inOrder, size_renumber]
      exact ⟨h.1 n, ih h.2 _⟩

/- A copy takes its numbers in document order. -/
theorem areNumberedFrom_renumber
    (n : Nat)
    (b : Block) :
    AreNumberedFrom n (renumber n b).inOrder := by
  induction b using Block.induction generalizing n with
  | function id name parameters body ih =>
      rw [renumber, inOrder_function]
      exact ⟨rfl, areNumberedFrom_renumberAll_of_forall ih _⟩
  | assignment id name value => exact ⟨rfl, trivial⟩
  | conditional id condition body elseKind elseBody ihBody
      ihElse =>
      rw [renumber, inOrder_conditional]
      refine ⟨rfl, areNumberedFrom_append.mpr ⟨?_, ?_⟩⟩
      · exact areNumberedFrom_renumberAll_of_forall ihBody _
      · rw [length_inOrderAll, sizeAll_renumberAll]
        exact areNumberedFrom_renumberAll_of_forall ihElse _
  | loop id iterator iterable body ih =>
      rw [renumber, inOrder_loop]
      exact ⟨rfl, areNumberedFrom_renumberAll_of_forall ih _⟩
  | ret id value => exact ⟨rfl, trivial⟩
  | call id callee arguments => exact ⟨rfl, trivial⟩

------------------------------------------------------------
-- Shapes
------------------------------------------------------------

theorem kind_renumber
    (n : Nat)
    (b : Block) :
    (renumber n b).kind = b.kind := by
  cases b <;> rfl

theorem map_kind_renumberAll
    (n : Nat)
    (bs : List Block) :
    (renumberAll n bs).map kind = bs.map kind := by
  induction bs generalizing n with
  | nil => rfl
  | cons b bs ih =>
      rw [renumberAll, List.map_cons, List.map_cons,
        kind_renumber, ih]

theorem fits_renumberAll_iff
    {elseKind : ElseKind}
    {n : Nat}
    {branch : List Block} :
    Fits elseKind (renumberAll n branch) ↔
      Fits elseKind branch := by
  cases elseKind with
  | none => cases branch <;> simp [Fits, renumberAll]
  | elif => rw [Fits, Fits, map_kind_renumberAll]
  | otherwise => rfl

theorem areSound_renumberAll_of_forall
    {bs : List Block}
    (h : ∀ b ∈ bs, ∀ n, (renumber n b).IsSound ↔ b.IsSound)
    {n : Nat} :
    AreSound (renumberAll n bs) ↔ AreSound bs := by
  induction bs generalizing n with
  | nil => rfl
  | cons b bs ih =>
      rw [List.forall_mem_cons] at h
      rw [renumberAll, areSound_cons, areSound_cons, h.1, ih h.2]

/- A copy is sound when the original is. -/
theorem isSound_renumber
    (n : Nat)
    (b : Block) :
    (renumber n b).IsSound ↔ b.IsSound := by
  induction b using Block.induction generalizing n with
  | function id name parameters body ih =>
      rw [renumber, isSound_function, isSound_function,
        areSound_renumberAll_of_forall ih]
  | assignment id name value => simp [renumber]
  | conditional id condition body elseKind elseBody ihBody
      ihElse =>
      rw [renumber, isSound_conditional, isSound_conditional,
        fits_renumberAll_iff,
        areSound_renumberAll_of_forall ihBody,
        areSound_renumberAll_of_forall ihElse]
  | loop id iterator iterable body ih =>
      rw [renumber, isSound_loop, isSound_loop,
        areSound_renumberAll_of_forall ih]
  | ret id value => simp [renumber]
  | call id callee arguments => simp [renumber]

end Block

end BlockProgram
