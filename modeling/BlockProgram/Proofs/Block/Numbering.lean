import BlockProgram.Block.Numbering
import BlockProgram.Proofs.Block.Soundness
import BlockProgram.Proofs.Text.Runs

/-
  Numbers in ids.

  A fresh id tells its kind and its number, so ids that are
  numbered one after another differ.  Numbering in closing
  order gives the numbers in the order in which the bodies of
  a program end.

  Main declarations:
    * `freshId_inj`
    * `Block.closing`
    * `Block.AreNumberedFrom`
    * `Block.areNumberedFrom_renumberClosingAll`
    * `Block.nodup_idsOf_of_areNumberedFrom`
-/

namespace BlockProgram

------------------------------------------------------------
-- Fresh Ids
------------------------------------------------------------

/- The digits of a number end where its sign stands. -/
theorem reverse_freshId (kind : Kind) (n : Nat) :
    (kind.freshId n).toList.reverse =
      (Nat.toDigits 10 n).reverse ++
        '-' :: kind.tag.toList.reverse := by
  simp [Kind.freshId]

theorem eq_of_toDigits_eq
    {n m : Nat}
    (hDigits : Nat.toDigits 10 n = Nat.toDigits 10 m) :
    n = m := by
  simpa using congrArg (Nat.ofDigitChars 10 · 0) hDigits

theorem tag_inj
    {kind kind' : Kind}
    (hTag : kind.tag = kind'.tag) :
    kind = kind' := by
  revert hTag
  cases kind <;> cases kind' <;> decide

/- A fresh id tells its kind and its number. -/
theorem freshId_inj
    {kind kind' : Kind}
    {n m : Nat}
    (hId : kind.freshId n = kind'.freshId m) :
    kind = kind' ∧ n = m := by
  have hDigits (k : Nat) :
      ∀ c ∈ (Nat.toDigits 10 k).reverse, c.isDigit = true :=
    fun c hc =>
      Nat.isDigit_of_mem_toDigits (by decide) (by decide)
        (List.mem_reverse.mp hc)
  have hStop (kind : Kind) :
      ∀ c ∈ ('-' :: kind.tag.toList.reverse).head?,
        c.isDigit = false := by
    simp
  have hReverse :
      (Nat.toDigits 10 n).reverse ++ '-' :: kind.tag.toList.reverse =
        (Nat.toDigits 10 m).reverse ++
          '-' :: kind'.tag.toList.reverse := by
    rw [← reverse_freshId, ← reverse_freshId, hId]
  rcases
      Text.append_stop_inj (hDigits n) (hDigits m) (hStop kind)
        (hStop kind') hReverse with
    ⟨hNumber, hTag⟩
  constructor
  · apply tag_inj
    rw [← String.toList_inj]
    exact List.reverse_inj.mp (List.cons.inj hTag).2
  · exact eq_of_toDigits_eq (List.reverse_inj.mp hNumber)

namespace Block

------------------------------------------------------------
-- Closing Order
------------------------------------------------------------

mutual

/-
  A block and every block inside it, in the order in which
  their bodies end: a function or a loop behind all that is
  inside it, and a conditional behind its true branch and
  before its else branch.
-/
def closing : Block → List Block
  | b@(.function _ _ _ body) => closingAll body ++ [b]
  | b@(.assignment _ _ _) => [b]
  | b@(.conditional _ _ body _ elseBody) =>
      closingAll body ++ b :: closingAll elseBody
  | b@(.loop _ _ _ body) => closingAll body ++ [b]
  | b@(.ret _ _) => [b]
  | b@(.call _ _ _) => [b]

/- `closing` for the blocks of a list, one after another. -/
def closingAll : List Block → List Block
  | [] => []
  | b :: bs => b.closing ++ closingAll bs

end

theorem closingAll_perm_of_forall
    {bs : List Block}
    (h : ∀ b ∈ bs, b.closing.Perm b.inOrder) :
    (closingAll bs).Perm (inOrderAll bs) := by
  induction bs with
  | nil => exact List.Perm.refl _
  | cons b bs ih =>
      exact
        (h b List.mem_cons_self).append
          (ih fun c hc => h c (List.mem_cons_of_mem b hc))

theorem closing_perm (b : Block) : b.closing.Perm b.inOrder := by
  induction b using Block.induction with
  | function id name parameters body ih =>
      exact
        (List.perm_append_singleton _ _).trans
          ((closingAll_perm_of_forall ih).cons _)
  | assignment id name value => exact List.Perm.refl _
  | conditional id condition body elseKind elseBody ihBody
      ihElse =>
      exact
        List.perm_middle.trans
          (((closingAll_perm_of_forall ihBody).append
            (closingAll_perm_of_forall ihElse)).cons _)
  | loop id iterator iterable body ih =>
      exact
        (List.perm_append_singleton _ _).trans
          ((closingAll_perm_of_forall ih).cons _)
  | ret id value => exact List.Perm.refl _
  | call id callee arguments => exact List.Perm.refl _

/- Closing order has the blocks of document order. -/
theorem closingAll_perm (bs : List Block) :
    (closingAll bs).Perm (inOrderAll bs) :=
  closingAll_perm_of_forall fun b _ => closing_perm b

theorem length_inOrderAll_of_forall
    {bs : List Block}
    (h : ∀ b ∈ bs, b.inOrder.length = b.size) :
    (inOrderAll bs).length = sizeAll bs := by
  induction bs with
  | nil => rfl
  | cons b bs ih =>
      rw [inOrderAll, sizeAll, List.length_append,
        h b List.mem_cons_self,
        ih fun c hc => h c (List.mem_cons_of_mem b hc)]

theorem length_inOrder (b : Block) :
    b.inOrder.length = b.size := by
  induction b using Block.induction with
  | function id name parameters body ih =>
      have hBody := length_inOrderAll_of_forall ih
      simp only [inOrder, size, List.length_cons]
      omega
  | assignment id name value => rfl
  | conditional id condition body elseKind elseBody ihBody
      ihElse =>
      have hBody := length_inOrderAll_of_forall ihBody
      have hElse := length_inOrderAll_of_forall ihElse
      simp only [inOrder, size, List.length_cons,
        List.length_append]
      omega
  | loop id iterator iterable body ih =>
      have hBody := length_inOrderAll_of_forall ih
      simp only [inOrder, size, List.length_cons]
      omega
  | ret id value => rfl
  | call id callee arguments => rfl

/- The size of a program is the number of its blocks. -/
theorem length_inOrderAll (bs : List Block) :
    (inOrderAll bs).length = sizeAll bs :=
  length_inOrderAll_of_forall fun b _ => length_inOrder b

theorem length_closingAll (bs : List Block) :
    (closingAll bs).length = sizeAll bs := by
  rw [(closingAll_perm bs).length_eq, length_inOrderAll]

------------------------------------------------------------
-- Blocks With Numbers In A Row
------------------------------------------------------------

/-
  The ids of blocks in a row are fresh ids of their kinds,
  with numbers from `n` on.
-/
def AreNumberedFrom (n : Nat) : List Block → Prop
  | [] => True
  | b :: bs => b.id = b.kind.freshId n ∧ AreNumberedFrom (n + 1) bs

theorem areNumberedFrom_append
    {n : Nat}
    {bs cs : List Block} :
    AreNumberedFrom n (bs ++ cs) ↔
      AreNumberedFrom n bs ∧
        AreNumberedFrom (n + bs.length) cs := by
  induction bs generalizing n with
  | nil => simp [AreNumberedFrom]
  | cons b bs ih =>
      have hNext : n + (b :: bs).length = n + 1 + bs.length := by
        simp only [List.length_cons]
        omega
      simp only [List.cons_append, AreNumberedFrom, ih, hNext,
        and_assoc]

/- Each of them has its own number, not below the first. -/
theorem id_of_areNumberedFrom
    {n : Nat}
    {bs : List Block}
    (hNumbered : AreNumberedFrom n bs)
    {b : Block}
    (hMember : b ∈ bs) :
    ∃ m,
      n ≤ m ∧ m < n + bs.length ∧ b.id = b.kind.freshId m := by
  induction bs generalizing n with
  | nil => simp at hMember
  | cons c cs ih =>
      rcases List.mem_cons.mp hMember with rfl | hMember
      · exact ⟨n, Nat.le_refl n, by simp, hNumbered.1⟩
      · rcases ih hNumbered.2 hMember with ⟨m, hLow, hHigh, hId⟩
        refine ⟨m, by omega, ?_, hId⟩
        simp only [List.length_cons]
        omega

theorem nodup_of_areNumberedFrom
    {n : Nat}
    {bs : List Block}
    (hNumbered : AreNumberedFrom n bs) :
    (bs.map Block.id).Nodup := by
  induction bs generalizing n with
  | nil => exact List.nodup_nil
  | cons b bs ih =>
      rw [List.map_cons, List.nodup_cons]
      refine ⟨?_, ih hNumbered.2⟩
      intro hMember
      rcases List.mem_map.mp hMember with ⟨c, hc, hId⟩
      rcases id_of_areNumberedFrom hNumbered.2 hc with
        ⟨m, hLow, _, hFresh⟩
      rw [hFresh, hNumbered.1] at hId
      have hSame := (freshId_inj hId).2
      omega

/- A program whose ids are numbered repeats none. -/
theorem nodup_idsOf_of_areNumberedFrom
    {n : Nat}
    {bs : List Block}
    (hNumbered : AreNumberedFrom n (closingAll bs)) :
    (idsOf bs).Nodup :=
  ((closingAll_perm bs).map Block.id).nodup_iff.mp
    (nodup_of_areNumberedFrom hNumbered)

------------------------------------------------------------
-- Numbering In Closing Order
------------------------------------------------------------

theorem sizeAll_renumberClosingAll_of_forall
    {bs : List Block}
    (h : ∀ b ∈ bs, ∀ n, (renumberClosing n b).size = b.size)
    (n : Nat) :
    sizeAll (renumberClosingAll n bs) = sizeAll bs := by
  induction bs generalizing n with
  | nil => rfl
  | cons b bs ih =>
      rw [renumberClosingAll, sizeAll, sizeAll,
        h b List.mem_cons_self,
        ih fun c hc => h c (List.mem_cons_of_mem b hc)]

theorem size_renumberClosing
    (n : Nat)
    (b : Block) :
    (renumberClosing n b).size = b.size := by
  induction b using Block.induction generalizing n with
  | function id name parameters body ih =>
      rw [renumberClosing, size, size,
        sizeAll_renumberClosingAll_of_forall ih]
  | assignment id name value => rfl
  | conditional id condition body elseKind elseBody ihBody
      ihElse =>
      rw [renumberClosing, size, size,
        sizeAll_renumberClosingAll_of_forall ihBody,
        sizeAll_renumberClosingAll_of_forall ihElse]
  | loop id iterator iterable body ih =>
      rw [renumberClosing, size, size,
        sizeAll_renumberClosingAll_of_forall ih]
  | ret id value => rfl
  | call id callee arguments => rfl

@[simp] theorem sizeAll_renumberClosingAll
    (n : Nat)
    (bs : List Block) :
    sizeAll (renumberClosingAll n bs) = sizeAll bs :=
  sizeAll_renumberClosingAll_of_forall
    (fun b _ n => size_renumberClosing n b) n

theorem areNumberedFrom_closingAll_of_forall
    {bs : List Block}
    (h :
      ∀ b ∈ bs,
        ∀ n, AreNumberedFrom n (renumberClosing n b).closing)
    (n : Nat) :
    AreNumberedFrom n (closingAll (renumberClosingAll n bs)) := by
  induction bs generalizing n with
  | nil => trivial
  | cons b bs ih =>
      have hLength :
          (renumberClosing n b).closing.length = b.size := by
        rw [(closing_perm _).length_eq, length_inOrder,
          size_renumberClosing]
      rw [renumberClosingAll, closingAll, areNumberedFrom_append,
        hLength]
      exact
        ⟨h b List.mem_cons_self n,
          ih (fun c hc => h c (List.mem_cons_of_mem b hc)) _⟩

theorem areNumberedFrom_closing
    (n : Nat)
    (b : Block) :
    AreNumberedFrom n (renumberClosing n b).closing := by
  induction b using Block.induction generalizing n with
  | function id name parameters body ih =>
      rw [renumberClosing, closing, areNumberedFrom_append,
        length_closingAll, sizeAll_renumberClosingAll]
      exact
        ⟨areNumberedFrom_closingAll_of_forall ih n, rfl, trivial⟩
  | assignment id name value => exact ⟨rfl, trivial⟩
  | conditional id condition body elseKind elseBody ihBody
      ihElse =>
      rw [renumberClosing, closing, areNumberedFrom_append,
        length_closingAll, sizeAll_renumberClosingAll]
      exact
        ⟨areNumberedFrom_closingAll_of_forall ihBody n, rfl,
          areNumberedFrom_closingAll_of_forall ihElse _⟩
  | loop id iterator iterable body ih =>
      rw [renumberClosing, closing, areNumberedFrom_append,
        length_closingAll, sizeAll_renumberClosingAll]
      exact
        ⟨areNumberedFrom_closingAll_of_forall ih n, rfl, trivial⟩
  | ret id value => exact ⟨rfl, trivial⟩
  | call id callee arguments => exact ⟨rfl, trivial⟩

/- Blocks get numbers in the order in which they close. -/
theorem areNumberedFrom_renumberClosingAll
    (n : Nat)
    (bs : List Block) :
    AreNumberedFrom n (closingAll (renumberClosingAll n bs)) :=
  areNumberedFrom_closingAll_of_forall
    (fun b _ n => areNumberedFrom_closing n b) n

end Block

end BlockProgram
