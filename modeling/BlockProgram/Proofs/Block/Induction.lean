import BlockProgram.Block.Basic

/-
  Induction over block trees.

  Blocks hold lists of blocks, so what is assumed of the
  contents of a block is said of every member of its bodies.

  Main declarations:
    * `Block.induction`
    * `Block.mem_inOrderAll`
    * `Block.forall_mem_inOrderAll`
-/

namespace BlockProgram

namespace Block

------------------------------------------------------------
-- The Induction Principle
------------------------------------------------------------

/-
  What holds of a block whenever it holds of the blocks
  directly inside it holds of every block.
-/
@[elab_as_elim]
theorem induction
    {motive : Block → Prop}
    (function :
      ∀ id name parameters body,
        (∀ b ∈ body, motive b) →
          motive (.function id name parameters body))
    (assignment :
      ∀ id name value, motive (.assignment id name value))
    (conditional :
      ∀ id condition body elseKind elseBody,
        (∀ b ∈ body, motive b) →
          (∀ b ∈ elseBody, motive b) →
            motive
              (.conditional id condition body elseKind
                elseBody))
    (loop :
      ∀ id iterator iterable body,
        (∀ b ∈ body, motive b) →
          motive (.loop id iterator iterable body))
    (ret : ∀ id value, motive (.ret id value))
    (call :
      ∀ id callee arguments,
        motive (.call id callee arguments))
    (b : Block) :
    motive b := by
  apply @Block.rec motive (fun bs => ∀ b ∈ bs, motive b)
  · exact function
  · exact assignment
  · exact conditional
  · exact loop
  · exact ret
  · exact call
  · intro b hMember
    simp at hMember
  · intro head tail hHead hTail b hMember
    rcases List.mem_cons.mp hMember with rfl | hMember
    · exact hHead
    · exact hTail b hMember

------------------------------------------------------------
-- Document Order
------------------------------------------------------------

/- A block before what is inside it, by its kind. -/
theorem inOrder_function
    {id name : String}
    {parameters : List String}
    {body : List Block} :
    (Block.function id name parameters body).inOrder =
      .function id name parameters body :: inOrderAll body := rfl

theorem inOrder_loop
    {id iterator iterable : String}
    {body : List Block} :
    (Block.loop id iterator iterable body).inOrder =
      .loop id iterator iterable body :: inOrderAll body := rfl

theorem inOrder_conditional
    {id condition : String}
    {body elseBody : List Block}
    {elseKind : ElseKind} :
    (Block.conditional id condition body elseKind
          elseBody).inOrder =
      .conditional id condition body elseKind elseBody ::
        (inOrderAll body ++ inOrderAll elseBody) := rfl

/- A block comes first in its own document order. -/
theorem mem_inOrder_self (b : Block) : b ∈ b.inOrder := by
  cases b <;> simp [inOrder]

/-
  The blocks of a program are those inside one of the blocks
  that stand under no other.
-/
theorem mem_inOrderAll
    {c : Block}
    {bs : List Block} :
    c ∈ inOrderAll bs ↔ ∃ b ∈ bs, c ∈ b.inOrder := by
  induction bs with
  | nil => simp [inOrderAll]
  | cons b bs ih => simp [inOrderAll, ih]

/- What holds of all blocks of a program, block by block. -/
theorem forall_mem_inOrderAll
    {motive : Block → Prop}
    {bs : List Block} :
    (∀ c ∈ inOrderAll bs, motive c) ↔
      ∀ b ∈ bs, ∀ c ∈ b.inOrder, motive c := by
  constructor
  · intro h b hMember c hc
    exact h c (mem_inOrderAll.mpr ⟨b, hMember, hc⟩)
  · intro h c hc
    rcases mem_inOrderAll.mp hc with ⟨b, hMember, hc⟩
    exact h b hMember c hc

/- What holds of a block and of all inside it, by its kind. -/
theorem forall_mem_inOrder_function
    {motive : Block → Prop}
    {id name : String}
    {parameters : List String}
    {body : List Block} :
    (∀ c ∈ (Block.function id name parameters body).inOrder,
        motive c) ↔
      motive (.function id name parameters body) ∧
        ∀ b ∈ body, ∀ c ∈ b.inOrder, motive c := by
  rw [inOrder_function, List.forall_mem_cons, forall_mem_inOrderAll]

theorem forall_mem_inOrder_loop
    {motive : Block → Prop}
    {id iterator iterable : String}
    {body : List Block} :
    (∀ c ∈ (Block.loop id iterator iterable body).inOrder,
        motive c) ↔
      motive (.loop id iterator iterable body) ∧
        ∀ b ∈ body, ∀ c ∈ b.inOrder, motive c := by
  rw [inOrder_loop, List.forall_mem_cons, forall_mem_inOrderAll]

theorem forall_mem_inOrder_conditional
    {motive : Block → Prop}
    {id condition : String}
    {body elseBody : List Block}
    {elseKind : ElseKind} :
    (∀ c ∈
        (Block.conditional id condition body elseKind
          elseBody).inOrder,
        motive c) ↔
      motive (.conditional id condition body elseKind elseBody) ∧
        (∀ b ∈ body, ∀ c ∈ b.inOrder, motive c) ∧
          ∀ b ∈ elseBody, ∀ c ∈ b.inOrder, motive c := by
  rw [inOrder_conditional, List.forall_mem_cons,
    List.forall_mem_append, forall_mem_inOrderAll,
    forall_mem_inOrderAll]

/- What is inside a block inside another is inside that. -/
theorem mem_inOrder_trans
    {b c d : Block}
    (hInner : d ∈ c.inOrder)
    (hOuter : c ∈ b.inOrder) :
    d ∈ b.inOrder := by
  have hBody {bs : List Block}
      (ih : ∀ e ∈ bs, c ∈ e.inOrder → d ∈ e.inOrder)
      (hMember : c ∈ inOrderAll bs) :
      d ∈ inOrderAll bs := by
    rcases mem_inOrderAll.mp hMember with ⟨e, he, hc⟩
    exact mem_inOrderAll.mpr ⟨e, he, ih e he hc⟩
  induction b using Block.induction with
  | function id name parameters body ih =>
      rcases List.mem_cons.mp hOuter with rfl | hOuter
      · exact hInner
      · exact List.mem_cons_of_mem _ (hBody ih hOuter)
  | assignment id name value =>
      rcases List.mem_singleton.mp hOuter with rfl
      exact hInner
  | conditional id condition body elseKind elseBody ihBody
      ihElse =>
      rcases List.mem_cons.mp hOuter with rfl | hOuter
      · exact hInner
      · apply List.mem_cons_of_mem
        rcases List.mem_append.mp hOuter with hOuter | hOuter
        · exact List.mem_append_left _ (hBody ihBody hOuter)
        · exact List.mem_append_right _ (hBody ihElse hOuter)
  | loop id iterator iterable body ih =>
      rcases List.mem_cons.mp hOuter with rfl | hOuter
      · exact hInner
      · exact List.mem_cons_of_mem _ (hBody ih hOuter)
  | ret id value =>
      rcases List.mem_singleton.mp hOuter with rfl
      exact hInner
  | call id callee arguments =>
      rcases List.mem_singleton.mp hOuter with rfl
      exact hInner

/- What is inside a block of a program is in the program. -/
theorem mem_inOrderAll_of_mem_inOrder
    {c d : Block}
    {bs : List Block}
    (hInner : d ∈ c.inOrder)
    (hOuter : c ∈ inOrderAll bs) :
    d ∈ inOrderAll bs := by
  rcases mem_inOrderAll.mp hOuter with ⟨b, hb, hc⟩
  exact mem_inOrderAll.mpr ⟨b, hb, mem_inOrder_trans hInner hc⟩

end Block

end BlockProgram
