import BlockProgram.Proofs.Block.Copying

/-
  Copies that draw their ids one by one.

  A copy is made by drawing an id from the supply for a block
  and then for the blocks in its bodies, one body after the
  other.  The numbers that this hands out are those that the
  copy has when it is numbered by sizes.

  Main declarations:
    * `Block.copied`
    * `Block.copied_eq_renumber`
    * `Block.map_id_of_areNumberedFrom`
-/

namespace BlockProgram

/- Draw the next id for a block of a kind. -/
def Kind.drawId (kind : Kind) : StateM Nat BlockId := do
  let n ← get
  set (n + 1)
  return kind.freshId n

namespace Block

------------------------------------------------------------
-- Drawing
------------------------------------------------------------

mutual

/- A copy of a block, with ids drawn in document order. -/
def copied : Block → StateM Nat Block
  | .function _ name parameters body => do
      let id ← Kind.function.drawId
      let body ← copiedAll body
      return .function id name parameters body
  | .assignment _ name value => do
      let id ← Kind.assignment.drawId
      return .assignment id name value
  | .conditional _ condition body elseKind elseBody => do
      let id ← Kind.conditional.drawId
      let body ← copiedAll body
      let elseBody ← copiedAll elseBody
      return .conditional id condition body elseKind elseBody
  | .loop _ iterator iterable body => do
      let id ← Kind.loop.drawId
      let body ← copiedAll body
      return .loop id iterator iterable body
  | .ret _ value => do
      let id ← Kind.ret.drawId
      return .ret id value
  | .call _ callee arguments => do
      let id ← Kind.call.drawId
      return .call id callee arguments

/- `copied` for the blocks of a list, one after another. -/
def copiedAll : List Block → StateM Nat (List Block)
  | [] => return []
  | b :: bs => do
      let first ← b.copied
      let others ← copiedAll bs
      return first :: others

end

/- A computation goes on with what its first part gave. -/
theorem bind_of_drawn
    {first : StateM Nat α}
    {a : α}
    {n m : Nat}
    (hFirst : first n = (a, m))
    (next : α → StateM Nat β) :
    (first >>= next) n = next a m := by
  simp only [bind, StateT.bind, hFirst]

theorem drawId_eq (kind : Kind) (n : Nat) :
    kind.drawId n = (kind.freshId n, n + 1) := rfl

theorem copiedAll_of_forall
    {bs : List Block}
    (h : ∀ b ∈ bs, ∀ n, copied b n = (renumber n b, n + b.size))
    (n : Nat) :
    copiedAll bs n = (renumberAll n bs, n + sizeAll bs) := by
  induction bs generalizing n with
  | nil => rfl
  | cons b bs ih =>
      rw [List.forall_mem_cons] at h
      rw [copiedAll, bind_of_drawn (h.1 n),
        bind_of_drawn (ih h.2 (n + b.size)), renumberAll, sizeAll,
        Nat.add_assoc]
      rfl

/- Drawing gives the numbers that a copy has by its sizes. -/
theorem copied_eq_renumber
    (b : Block)
    (n : Nat) :
    copied b n = (renumber n b, n + b.size) := by
  induction b using Block.induction generalizing n with
  | function id name parameters body ih =>
      have hBody := copiedAll_of_forall ih (n + 1)
      rw [copied, bind_of_drawn (drawId_eq _ n),
        bind_of_drawn hBody, renumber, size, ← Nat.add_assoc]
      rfl
  | assignment id name value => rfl
  | conditional id condition body elseKind elseBody ihBody
      ihElse =>
      have hBody := copiedAll_of_forall ihBody (n + 1)
      have hElse :=
        copiedAll_of_forall ihElse (n + 1 + sizeAll body)
      rw [copied, bind_of_drawn (drawId_eq _ n),
        bind_of_drawn hBody, bind_of_drawn hElse, renumber, size,
        ← Nat.add_assoc, ← Nat.add_assoc]
      rfl
  | loop id iterator iterable body ih =>
      have hBody := copiedAll_of_forall ih (n + 1)
      rw [copied, bind_of_drawn (drawId_eq _ n),
        bind_of_drawn hBody, renumber, size, ← Nat.add_assoc]
      rfl
  | ret id value => rfl
  | call id callee arguments => rfl

------------------------------------------------------------
-- The Ids Of A Copy
------------------------------------------------------------

/- Blocks that are numbered in a row, by their kinds. -/
theorem map_id_of_areNumberedFrom
    {n : Nat}
    {bs : List Block}
    (hNumbered : AreNumberedFrom n bs) :
    bs.map id =
      List.zipWith Kind.freshId (bs.map kind)
        (List.range' n bs.length) := by
  induction bs generalizing n with
  | nil => rfl
  | cons b bs ih =>
      rw [List.map_cons, List.map_cons, List.length_cons,
        List.range'_succ, List.zipWith_cons_cons, ← hNumbered.1,
        ← ih hNumbered.2]

end Block

end BlockProgram
