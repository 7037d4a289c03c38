import Mathlib.Data.List.Nodup
import BlockProgram.Proofs.Block.Soundness

/-
  Looking up a block by its id.

  The block that is found is the first one with its id in
  document order.  It stands with everything inside it in one
  run of that order.

  Main declarations:
    * `Block.findInAll?_eq_find?`
    * `find?_eq_none_iff`
    * `find?_eq_some`
    * `find?_cons`
    * `find?_of_mem`
-/

namespace BlockProgram

namespace Block

------------------------------------------------------------
-- The First Block In Document Order
------------------------------------------------------------

theorem findInAll?_of_forall
    {target : BlockId}
    {bs : List Block}
    (h :
      ∀ b ∈ bs,
        findIn? target b = b.inOrder.find? (·.id = target)) :
    findInAll? target bs =
      (inOrderAll bs).find? (·.id = target) := by
  induction bs with
  | nil => rfl
  | cons b bs ih =>
      rw [findInAll?, inOrderAll, List.find?_append,
        h b List.mem_cons_self,
        ih fun c hc => h c (List.mem_cons_of_mem b hc)]

theorem findIn?_eq_find?
    (target : BlockId)
    (b : Block) :
    findIn? target b = b.inOrder.find? (·.id = target) := by
  induction b using Block.induction with
  | function id name parameters body ih =>
      rw [findIn?, inOrder, List.find?_cons,
        findInAll?_of_forall ih]
      by_cases hTarget : id = target <;> simp [Block.id, hTarget]
  | assignment id name value =>
      by_cases hTarget : id = target <;>
        simp [findIn?, inOrder, Block.id, hTarget]
  | conditional id condition body elseKind elseBody ihBody
      ihElse =>
      rw [findIn?, inOrder, List.find?_cons, List.find?_append,
        findInAll?_of_forall ihBody, findInAll?_of_forall ihElse]
      by_cases hTarget : id = target <;> simp [Block.id, hTarget]
  | loop id iterator iterable body ih =>
      rw [findIn?, inOrder, List.find?_cons,
        findInAll?_of_forall ih]
      by_cases hTarget : id = target <;> simp [Block.id, hTarget]
  | ret id value =>
      by_cases hTarget : id = target <;>
        simp [findIn?, inOrder, Block.id, hTarget]
  | call id callee arguments =>
      by_cases hTarget : id = target <;>
        simp [findIn?, inOrder, Block.id, hTarget]

/- A search meets the blocks of a list in document order. -/
theorem findInAll?_eq_find?
    (target : BlockId)
    (bs : List Block) :
    findInAll? target bs =
      (inOrderAll bs).find? (·.id = target) :=
  findInAll?_of_forall fun b _ => findIn?_eq_find? target b

theorem inOrderAll_append (bs cs : List Block) :
    inOrderAll (bs ++ cs) = inOrderAll bs ++ inOrderAll cs := by
  induction bs with
  | nil => rfl
  | cons b bs ih =>
      rw [List.cons_append, inOrderAll, inOrderAll, ih,
        List.append_assoc]

end Block

------------------------------------------------------------
-- Ids And Blocks
------------------------------------------------------------

@[simp] theorem idsOf_nil : idsOf [] = [] := rfl

/- The ids of a list are those of its members, in order. -/
theorem idsOf_cons
    (b : Block)
    (bs : List Block) :
    idsOf (b :: bs) = idsOf [b] ++ idsOf bs := by
  simp [idsOf, Block.inOrderAll]

@[simp] theorem idsOf_append
    (bs cs : List Block) :
    idsOf (bs ++ cs) = idsOf bs ++ idsOf cs := by
  simp [idsOf, Block.inOrderAll_append]

@[simp] theorem idsOf_function
    {id name : String}
    {parameters : List String}
    {body : List Block} :
    idsOf [.function id name parameters body] =
      id :: idsOf body := by
  simp [idsOf, Block.inOrderAll, Block.inOrder, Block.id]

@[simp] theorem idsOf_assignment
    {id name : String}
    {value : Value} :
    idsOf [.assignment id name value] = [id] := rfl

@[simp] theorem idsOf_conditional
    {id condition : String}
    {body elseBody : List Block}
    {elseKind : ElseKind} :
    idsOf [.conditional id condition body elseKind elseBody] =
      id :: (idsOf body ++ idsOf elseBody) := by
  simp [idsOf, Block.inOrderAll, Block.inOrder, Block.id]

@[simp] theorem idsOf_loop
    {id iterator iterable : String}
    {body : List Block} :
    idsOf [.loop id iterator iterable body] =
      id :: idsOf body := by
  simp [idsOf, Block.inOrderAll, Block.inOrder, Block.id]

@[simp] theorem idsOf_ret
    {id value : String} :
    idsOf [.ret id value] = [id] := rfl

@[simp] theorem idsOf_call
    {id callee : String}
    {arguments : List String} :
    idsOf [.call id callee arguments] = [id] := rfl

theorem Block.id_mem_idsOf (b : Block) : b.id ∈ idsOf [b] := by
  cases b <;> simp [Block.id]

/- A search goes through a list member by member. -/
theorem find?_cons
    (target : BlockId)
    (b : Block)
    (bs : List Block) :
    find? target (b :: bs) =
      (find? target [b]).or (find? target bs) := by
  simp [find?, Block.findInAll?]

theorem find?_append
    (target : BlockId)
    (bs cs : List Block) :
    find? target (bs ++ cs) =
      (find? target bs).or (find? target cs) := by
  induction bs with
  | nil => rfl
  | cons b bs ih =>
      rw [List.cons_append, find?_cons, find?_cons _ b bs, ih,
        Option.or_assoc]

/- A search goes on inside a block without the id. -/
theorem find?_function
    {target id name : String}
    {parameters : List String}
    {body : List Block}
    (hId : (Block.function id name parameters body).id ≠ target) :
    find? target [.function id name parameters body] =
      find? target body := by
  simp_all [find?, Block.findInAll?, Block.findIn?, Block.id]

theorem find?_conditional
    {target id condition : String}
    {body elseBody : List Block}
    {elseKind : ElseKind}
    (hId :
      (Block.conditional id condition body elseKind
        elseBody).id ≠ target) :
    find? target
        [.conditional id condition body elseKind elseBody] =
      find? target (body ++ elseBody) := by
  rw [find?_append]
  simp_all [find?, Block.findInAll?, Block.findIn?, Block.id]

theorem find?_loop
    {target id iterator iterable : String}
    {body : List Block}
    (hId : (Block.loop id iterator iterable body).id ≠ target) :
    find? target [.loop id iterator iterable body] =
      find? target body := by
  simp_all [find?, Block.findInAll?, Block.findIn?, Block.id]

theorem find?_eq_none_of_inOrder
    {target : BlockId}
    {b : Block}
    (hAlone : b.inOrder = [b])
    (hId : b.id ≠ target) :
    find? target [b] = none := by
  rw [find?, Block.findInAll?_eq_find?]
  simp [Block.inOrderAll, hAlone, hId]

/- A search meets a block before all inside it. -/
theorem find?_self
    {target : BlockId}
    {b : Block}
    (hId : b.id = target) :
    find? target [b] = some b := by
  rw [find?, Block.findInAll?_eq_find?]
  cases b <;> simp [Block.inOrderAll, Block.inOrder, hId]

------------------------------------------------------------
-- Found And Not Found
------------------------------------------------------------

/- Nothing is found exactly when the id is not there. -/
theorem find?_eq_none_iff
    {target : BlockId}
    {bs : List Block} :
    find? target bs = none ↔ target ∉ idsOf bs := by
  rw [find?, Block.findInAll?_eq_find?, List.find?_eq_none, idsOf]
  simp

/- What is found is in the program and has the id. -/
theorem find?_eq_some
    {target : BlockId}
    {bs : List Block}
    {b : Block}
    (hFind : find? target bs = some b) :
    b ∈ documentOrder bs ∧ b.id = target := by
  rw [find?, Block.findInAll?_eq_find?] at hFind
  exact
    ⟨List.mem_of_find?_eq_some hFind,
      by simpa using List.find?_some hFind⟩

theorem mem_idsOf_of_find?
    {target : BlockId}
    {bs : List Block}
    {b : Block}
    (hFind : find? target bs = some b) :
    target ∈ idsOf bs := by
  rcases find?_eq_some hFind with ⟨hMember, rfl⟩
  exact List.mem_map_of_mem hMember

/- A block is found by its id if no other block has it. -/
theorem find?_of_mem
    {blocks : List Block}
    {old : Block}
    (hNodup : (idsOf blocks).Nodup)
    (hOld : old ∈ documentOrder blocks) :
    find? old.id blocks = some old := by
  cases hFind : find? old.id blocks with
  | none =>
      exact
        absurd (List.mem_map_of_mem hOld)
          (find?_eq_none_iff.mp hFind)
  | some found =>
      rcases find?_eq_some hFind with ⟨hMember, hId⟩
      rw [List.inj_on_of_nodup_map hNodup hMember hOld hId]

end BlockProgram
