import BlockProgram.Proofs.Block.Search
import BlockProgram.Proofs.Edit.Steps

/-
  Edits that seek a block.

  An editor that seeks one block keeps all that it meets
  before it.  A sound tree in which it meets none stays as it
  is.

  Main declarations:
    * `Edit.met?`
    * `Edit.Seeks`
    * `Edit.rewrite_of_keeps`
    * `Edit.rewrite_of_not_met`
-/

namespace BlockProgram

namespace Edit

open Block (AreSound areSound_cons Fits inOrderAll)

------------------------------------------------------------
-- Chains Of Computations
------------------------------------------------------------

variable {σ α β : Type}

/- A chain goes on with what its first part gives. -/
theorem bind_of_ok
    {x : Editing σ α}
    {f : α → Editing σ β}
    {a : α}
    {s t : σ}
    (hFirst : x s = .ok a t) :
    (x >>= f) s = f a t := by
  simp [bind, EStateM.bind, hFirst]

/- A chain fails when its first part does. -/
theorem bind_of_error
    {x : Editing σ α}
    {f : α → Editing σ β}
    {fault : TreeError}
    {s t : σ}
    (hFirst : x s = .error fault t) :
    (x >>= f) s = .error fault t := by
  simp [bind, EStateM.bind, hFirst]

/- A check that is passed does nothing. -/
theorem checking_of_fits
    {id : BlockId}
    {elseKind : ElseKind}
    {elseBody : List Block}
    (hFits : Fits elseKind elseBody)
    (s : σ) :
    checking (checkElse id elseKind elseBody) s = .ok () s := by
  rw [Block.checkElse_eq_ok_iff.mpr hFits]
  rfl

/- A branch that fits is no `elif` without a conditional. -/
theorem collapsed_of_fits
    {elseKind : ElseKind}
    {elseBody : List Block}
    (hFits : Fits elseKind elseBody) :
    collapsed elseKind elseBody = elseKind := by
  cases elseKind with
  | none => rfl
  | otherwise => rfl
  | elif =>
      cases elseBody with
      | nil => simp [Fits] at hFits
      | cons b bs => rfl

------------------------------------------------------------
-- Trees That Are Kept
------------------------------------------------------------

section Kept

variable {editor : Editor σ}
variable {s : σ}

theorem rewrite_cons_of_keep
    {b b' : Block}
    {bs : List Block}
    {t : σ}
    (hKeep : editor b s = .ok .keep s)
    (hKept : rebuild editor b s = .ok b' t) :
    rewrite editor (b :: bs) s =
      (do
        let others ← rewrite editor bs
        return b' :: others) t := by
  rw [rewrite, bind_of_ok hKeep]
  exact bind_of_ok hKept

theorem rewrite_keeps_of_forall
    {bs : List Block}
    (hBlocks :
      ∀ b ∈ bs,
        b.IsSound →
          (∀ c ∈ b.inOrder, editor c s = .ok .keep s) →
            rebuild editor b s = .ok b s)
    (hSound : AreSound bs)
    (hKeeps :
      ∀ b ∈ bs, ∀ c ∈ b.inOrder, editor c s = .ok .keep s) :
    rewrite editor bs s = .ok bs s := by
  induction bs with
  | nil => rfl
  | cons b bs ih =>
      rw [List.forall_mem_cons] at hBlocks hKeeps
      rw [areSound_cons] at hSound
      have hKeep := hKeeps.1 b b.mem_inOrder_self
      have hKept := hBlocks.1 hSound.1 hKeeps.1
      rw [rewrite_cons_of_keep hKeep hKept]
      exact bind_of_ok (ih hBlocks.2 hSound.2 hKeeps.2)

theorem rebuild_of_keeps
    (b : Block)
    (hSound : b.IsSound)
    (hKeeps : ∀ c ∈ b.inOrder, editor c s = .ok .keep s) :
    rebuild editor b s = .ok b s := by
  induction b using Block.induction with
  | function id name parameters body ih =>
      rw [Block.forall_mem_inOrder_function] at hKeeps
      rw [Block.isSound_function] at hSound
      have hBody := rewrite_keeps_of_forall ih hSound hKeeps.2
      rw [rebuild, bind_of_ok hBody]
      rfl
  | assignment id name value => rfl
  | conditional id condition body elseKind elseBody ihBody
      ihElse =>
      rw [Block.forall_mem_inOrder_conditional] at hKeeps
      rw [Block.isSound_conditional] at hSound
      have hBody :=
        rewrite_keeps_of_forall ihBody hSound.2.1 hKeeps.2.1
      have hElse :=
        rewrite_keeps_of_forall ihElse hSound.2.2 hKeeps.2.2
      rw [rebuild, bind_of_ok hBody, bind_of_ok hElse,
        collapsed_of_fits hSound.1,
        bind_of_ok (checking_of_fits hSound.1 s)]
      rfl
  | loop id iterator iterable body ih =>
      rw [Block.forall_mem_inOrder_loop] at hKeeps
      rw [Block.isSound_loop] at hSound
      have hBody := rewrite_keeps_of_forall ih hSound hKeeps.2
      rw [rebuild, bind_of_ok hBody]
      rfl
  | ret id value => rfl
  | call id callee arguments => rfl

/- A sound tree stays as it is when all blocks are kept. -/
theorem rewrite_of_keeps
    {bs : List Block}
    (hSound : AreSound bs)
    (hKeeps :
      ∀ b ∈ documentOrder bs, editor b s = .ok .keep s) :
    rewrite editor bs s = .ok bs s :=
  rewrite_keeps_of_forall (fun b _ => rebuild_of_keeps b) hSound
    (Block.forall_mem_inOrderAll.mp hKeeps)

end Kept

------------------------------------------------------------
-- Blocks That Are Sought
------------------------------------------------------------

/- The first block that is sought, in document order. -/
def met?
    (sought : Block → Bool)
    (bs : List Block) : Option Block :=
  (documentOrder bs).find? sought

/- The editor keeps all but the blocks that are sought. -/
def Seeks
    (sought : Block → Bool)
    (s : σ)
    (editor : Editor σ) : Prop :=
  ∀ b, sought b = false → editor b s = .ok .keep s

/- Before the block is met all others are kept. -/
theorem rewrite_of_not_met
    {editor : Editor σ}
    {sought : Block → Bool}
    {s : σ}
    {bs : List Block}
    (hSeeks : Seeks sought s editor)
    (hSound : AreSound bs)
    (hNone : met? sought bs = none) :
    rewrite editor bs s = .ok bs s := by
  apply rewrite_of_keeps hSound
  intro b hb
  apply hSeeks
  simpa using List.find?_eq_none.mp hNone b hb

end Edit

end BlockProgram
