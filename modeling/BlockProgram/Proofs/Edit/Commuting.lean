import BlockProgram.Proofs.Edit.InPlace
import BlockProgram.Proofs.Edit.Invariant

/-
  Edits that commute.

  Two blocks are apart when neither is inside the other.
  Edits of two such blocks make the same tree in either
  order, though the first may bring in blocks and empty a
  branch that the second then walks through.

  Main declarations:
    * `Edit.exchange_comm`
    * `Edit.around_mem_exchange`
    * `Edit.Operation`
    * `Edit.Operation.apply_eq_ok`
    * `Edit.independent_edits_commute`
-/

namespace BlockProgram

namespace Edit

open Block (AreSound inOrderAll)

------------------------------------------------------------
-- Two Exchanges
------------------------------------------------------------

section Exchanges

variable {a b : BlockId}
variable {newA newB : List Block}

/- A branch that is empty stays so, and has no clause. -/
theorem collapsed_exchange
    (elseKind : ElseKind)
    (bs : List Block) :
    collapsed (collapsed elseKind bs) (exchange a newA bs) =
      collapsed elseKind (exchange a newA bs) := by
  cases bs with
  | nil => cases elseKind <;> rfl
  | cons b bs => cases elseKind <;> rfl

theorem id_around
    (target : BlockId)
    (new : List Block)
    (c : Block) :
    (around target new c).id = c.id := by
  cases c <;> rfl

/- The block at the front is exchanged, or what it holds. -/
theorem exchange_cons_of_eq
    {c : Block}
    (hId : c.id = a)
    (new bs : List Block) :
    exchange a new (c :: bs) = new ++ exchange a new bs := by
  rw [exchange, if_pos hId]

theorem exchange_cons_of_ne
    {c : Block}
    (hId : c.id ≠ a)
    (new bs : List Block) :
    exchange a new (c :: bs) =
      around a new c :: exchange a new bs := by
  rw [exchange, if_neg hId]

theorem exchange_comm_of_forall
    (hApart : a ≠ b)
    (hNewA : exchange b newB newA = newA)
    (hNewB : exchange a newA newB = newB)
    {bs : List Block}
    (hBlocks :
      ∀ c ∈ bs,
        around b newB (around a newA c) =
          around a newA (around b newB c)) :
    exchange b newB (exchange a newA bs) =
      exchange a newA (exchange b newB bs) := by
  induction bs with
  | nil => rfl
  | cons c bs ih =>
      rw [List.forall_mem_cons] at hBlocks
      have hOthers := ih hBlocks.2
      have hIdA : (around a newA c).id = c.id :=
        id_around a newA c
      have hIdB : (around b newB c).id = c.id :=
        id_around b newB c
      by_cases hIsA : c.id = a
      · have hNotB : c.id ≠ b := hIsA ▸ hApart
        rw [exchange_cons_of_eq hIsA, exchange_append, hNewA,
          exchange_cons_of_ne hNotB,
          exchange_cons_of_eq (hIdB.trans hIsA), hOthers]
      · by_cases hIsB : c.id = b
        · rw [exchange_cons_of_ne hIsA,
            exchange_cons_of_eq (hIdA.trans hIsB),
            exchange_cons_of_eq hIsB, exchange_append, hNewB,
            hOthers]
        · rw [exchange_cons_of_ne hIsA,
            exchange_cons_of_ne (hIdA.trans_ne hIsB),
            exchange_cons_of_ne hIsB,
            exchange_cons_of_ne (hIdB.trans_ne hIsA), hBlocks.1,
            hOthers]

theorem around_comm
    (hApart : a ≠ b)
    (hNewA : exchange b newB newA = newA)
    (hNewB : exchange a newA newB = newB)
    (c : Block) :
    around b newB (around a newA c) =
      around a newA (around b newB c) := by
  have hLists {bs : List Block}
      (hBlocks :
        ∀ c ∈ bs,
          around b newB (around a newA c) =
            around a newA (around b newB c)) :=
    exchange_comm_of_forall hApart hNewA hNewB hBlocks
  induction c using Block.induction with
  | function id name parameters body ih =>
      simp only [around, hLists ih]
  | assignment id name value => rfl
  | conditional id condition body elseKind elseBody ihBody
      ihElse =>
      simp only [around, collapsed_exchange]
      rw [hLists ihBody, hLists ihElse]
  | loop id iterator iterable body ih =>
      simp only [around, hLists ih]
  | ret id value => rfl
  | call id callee arguments => rfl

/-
  Two exchanges commute when neither reaches into what the
  other one puts in.
-/
theorem exchange_comm
    (hApart : a ≠ b)
    (hNewA : exchange b newB newA = newA)
    (hNewB : exchange a newA newB = newB)
    (bs : List Block) :
    exchange b newB (exchange a newA bs) =
      exchange a newA (exchange b newB bs) :=
  exchange_comm_of_forall hApart hNewA hNewB
    fun c _ => around_comm hApart hNewA hNewB c

end Exchanges

------------------------------------------------------------
-- Blocks That Are Left
------------------------------------------------------------

section Left

variable {target : BlockId}
variable {new : List Block}

/- No block with the target's id has the block inside it. -/
def IsOutside
    (target : BlockId)
    (c : Block)
    (bs : List Block) : Prop :=
  ∀ b ∈ bs, b.id = target → c ∉ b.inOrder

theorem around_mem_exchange_of_forall
    {bs : List Block}
    {c : Block}
    (hBlocks :
      ∀ b ∈ bs,
        IsOutside target c b.inOrder →
          c ∈ b.inOrder →
            around target new c ∈ (around target new b).inOrder)
    (hOutside : IsOutside target c (inOrderAll bs))
    (hMember : c ∈ inOrderAll bs) :
    around target new c ∈ inOrderAll (exchange target new bs) := by
  induction bs with
  | nil => simp [inOrderAll] at hMember
  | cons b bs ih =>
      rw [List.forall_mem_cons] at hBlocks
      rw [IsOutside, inOrderAll, List.forall_mem_append] at hOutside
      rw [inOrderAll, List.mem_append] at hMember
      have hOthers := ih hBlocks.2 hOutside.2
      by_cases hId : b.id = target
      · have hNot := hOutside.1 b b.mem_inOrder_self hId
        rw [exchange, if_pos hId, Block.inOrderAll_append]
        exact
          List.mem_append_right _
            (hOthers (hMember.resolve_left hNot))
      · rw [exchange, if_neg hId, inOrderAll, List.mem_append]
        exact hMember.imp (hBlocks.1 hOutside.1) hOthers

theorem around_mem_inOrder
    (b : Block)
    {c : Block}
    (hOutside : IsOutside target c b.inOrder)
    (hMember : c ∈ b.inOrder) :
    around target new c ∈ (around target new b).inOrder := by
  induction b using Block.induction with
  | function id name parameters body ih =>
      rw [IsOutside, Block.inOrder_function, List.forall_mem_cons]
        at hOutside
      rcases List.mem_cons.mp hMember with rfl | hMember
      · exact Block.mem_inOrder_self _
      · exact
          List.mem_cons_of_mem _
            (around_mem_exchange_of_forall ih hOutside.2 hMember)
  | assignment id name value =>
      rcases List.mem_singleton.mp hMember with rfl
      exact Block.mem_inOrder_self _
  | conditional id condition body elseKind elseBody ihBody
      ihElse =>
      rw [IsOutside, Block.inOrder_conditional,
        List.forall_mem_cons, List.forall_mem_append] at hOutside
      rcases List.mem_cons.mp hMember with rfl | hMember
      · exact Block.mem_inOrder_self _
      · apply List.mem_cons_of_mem
        refine List.mem_append.mpr ?_
        exact
          (List.mem_append.mp hMember).imp
            (around_mem_exchange_of_forall ihBody hOutside.2.1)
            (around_mem_exchange_of_forall ihElse hOutside.2.2)
  | loop id iterator iterable body ih =>
      rw [IsOutside, Block.inOrder_loop, List.forall_mem_cons]
        at hOutside
      rcases List.mem_cons.mp hMember with rfl | hMember
      · exact Block.mem_inOrder_self _
      · exact
          List.mem_cons_of_mem _
            (around_mem_exchange_of_forall ih hOutside.2 hMember)
  | ret id value =>
      rcases List.mem_singleton.mp hMember with rfl
      exact Block.mem_inOrder_self _
  | call id callee arguments =>
      rcases List.mem_singleton.mp hMember with rfl
      exact Block.mem_inOrder_self _

/-
  A block that is not inside the target is met in the new
  tree, with what it holds exchanged.
-/
theorem around_mem_exchange
    {bs : List Block}
    {c : Block}
    (hOutside : IsOutside target c (inOrderAll bs))
    (hMember : c ∈ inOrderAll bs) :
    around target new c ∈ inOrderAll (exchange target new bs) :=
  around_mem_exchange_of_forall
    (fun b _ => around_mem_inOrder b) hOutside hMember

end Left

section Ids

variable {blocks : List Block}
variable {a b : Block}
variable (hNodup : (idsOf blocks).Nodup)
variable (hA : a ∈ documentOrder blocks)
variable (hOutside : b ∉ a.inOrder)
include hNodup hA hOutside

/- When no id repeats, one block alone has the id. -/
theorem isOutside_of_nodup :
    IsOutside a.id b (documentOrder blocks) := by
  intro c hc hId
  rw [List.inj_on_of_nodup_map hNodup hc hA hId]
  exact hOutside

variable (hB : b ∈ documentOrder blocks)
include hB

/- A block outside has an id that is not inside either. -/
theorem id_notMem_of_nodup : b.id ∉ idsOf [a] := by
  intro hMember
  rcases List.mem_map.mp hMember with ⟨c, hc, hId⟩
  have hInside : c ∈ a.inOrder := by
    simpa [inOrderAll] using hc
  have hSame : c = b := by
    apply List.inj_on_of_nodup_map hNodup _ hB hId
    exact Block.mem_inOrderAll_of_mem_inOrder hInside hA
  exact hOutside (hSame ▸ hInside)

/- What comes in cannot have the id of a block that stays. -/
theorem id_notMem_of_exchange
    {new : List Block}
    (hNew : (idsOf (exchange a.id new blocks)).Nodup) :
    b.id ∉ idsOf new := by
  have hNot := id_notMem_of_nodup hNodup hA hOutside hB
  have hStays : b.id ∈ idsOf blocks := List.mem_map_of_mem hB
  rcases exchangesRun_exchange hNodup (find?_of_mem hNodup hA) with
    ⟨before, behind, hOld, hRun⟩
  have hIds :
      idsOf (exchange a.id new blocks) =
        before ++ (idsOf new ++ behind) :=
    hRun new
  rw [hIds, List.nodup_append, List.nodup_append] at hNew
  rcases hNew with ⟨_, ⟨_, _, hBehind⟩, hBefore⟩
  rw [hOld, List.mem_append, List.mem_append] at hStays
  intro hMember
  rcases hStays with hStays | hStays | hStays
  · exact
      hBefore b.id hStays b.id (List.mem_append_left _ hMember) rfl
  · exact hNot hStays
  · exact hBehind b.id hMember b.id hStays rfl

end Ids

------------------------------------------------------------
-- Operations
------------------------------------------------------------

/- An edit of the block with an id. -/
inductive Operation where
  | replace (new : Block)
  | delete
  | setElse (kind : ElseKind)

namespace Operation

/-
  The tree that the operation makes, with fresh ids numbered
  from `n`.
-/
def apply
    (operation : Operation)
    (n : Nat)
    (target : BlockId)
    (blocks : List Block) : Except TreeError (List Block) :=
  match operation with
  | .replace new => Edit.replace target new blocks
  | .delete => Edit.delete target blocks
  | .setElse kind => (Edit.setElse target kind n blocks).1

/- What comes in is sound, and no fresh number is taken. -/
def IsPlain : Operation → Prop
  | .replace new => new.IsSound
  | .delete => True
  | .setElse kind => kind ≠ .elif

/- What stands in the place of the block afterwards. -/
def puts?
    (operation : Operation)
    (old : Block) : Option (List Block) :=
  match operation with
  | .replace new => some [new]
  | .delete => some []
  | .setElse kind =>
      (reclaused? kind 0 old).map fun made => [made.1]

end Operation

/- Only a placeholder takes a number. -/
theorem reclaused?_of_ne_elif
    {kind : ElseKind}
    (hKind : kind ≠ .elif)
    (n : Nat)
    (old : Block) :
    reclaused? kind n old =
      (reclaused? kind 0 old).map fun made => (made.1, n) := by
  cases old with
  | conditional id condition body elseKind elseBody =>
      by_cases hSame : elseKind = kind
      · simp only [reclaused?, if_pos hSame, Option.map_some]
      · simp only [reclaused?, if_neg hSame, Option.map_some]
        cases kind with
        | none => rfl
        | elif => exact absurd rfl hKind
        | otherwise => rfl
  | function => rfl
  | assignment => rfl
  | loop => rfl
  | ret => rfl
  | call => rfl

/- A new clause is sound by itself. -/
theorem isSound_of_reclaused?
    {kind : ElseKind}
    {n next : Nat}
    {old new : Block}
    (hSound : old.IsSound)
    (hNew : reclaused? kind n old = some (new, next)) :
    new.IsSound := by
  have hRun := settingElse_eq kind n (Eq.refl old.id)
  rw [hNew] at hRun
  exact isSound_of_settingElse hSound hRun

section Outcomes

variable {blocks edited : List Block}
variable {old : Block}
variable (hCheck : checkTree blocks = .ok ())
variable (hOld : old ∈ documentOrder blocks)
include hCheck hOld

theorem exchange_of_replace
    {new : Block}
    (hNew : new.IsSound)
    (hEdit : replace old.id new blocks = .ok edited) :
    edited = exchange old.id [new] blocks ∧
      checkTree edited = .ok () := by
  rcases checkTree_eq_ok_iff.mp hCheck with ⟨hNodup, hSound⟩
  have hPlaced :=
    placed_eq_ok (replacing_placesSoundly old.id new) hSound hEdit
  refine ⟨?_, hPlaced.2.mpr hNew⟩
  rw [replace_eq hSound hNodup, find?_of_mem hNodup hOld] at hEdit
  simp only [exchanged] at hEdit
  cases hMisfit : misfit? old.id [new] blocks with
  | some owner =>
      rw [hMisfit] at hEdit
      cases hEdit
  | none =>
      rw [hMisfit] at hEdit
      have hAnswer :=
        answers_withIdsChecked (exchange old.id [new] blocks)
      exact (Answers.eq_of_ok (hEdit ▸ hAnswer)).1

theorem exchange_of_delete
    (hEdit : delete old.id blocks = .ok edited) :
    edited = exchange old.id [] blocks ∧
      checkTree edited = .ok () := by
  rcases checkTree_eq_ok_iff.mp hCheck with ⟨hNodup, hSound⟩
  refine ⟨?_, checkTree_of_delete hCheck hEdit⟩
  rw [delete_eq hSound hNodup, find?_of_mem hNodup hOld] at hEdit
  exact (Except.ok.inj hEdit).symm

theorem exchange_of_setElse
    {kind : ElseKind}
    {n : Nat}
    (hKind : kind ≠ .elif)
    (hEdit : (setElse old.id kind n blocks).1 = .ok edited) :
    ∃ made,
      reclaused? kind 0 old = some made ∧
        edited = exchange old.id [made.1] blocks ∧
          checkTree edited = .ok () := by
  rcases checkTree_eq_ok_iff.mp hCheck with ⟨hNodup, hSound⟩
  have hRun := setElse_eq hSound hNodup old.id kind n
  rw [find?_of_mem hNodup hOld] at hRun
  simp only [reclaused?_of_ne_elif hKind n old] at hRun
  cases hNew : reclaused? kind 0 old with
  | none =>
      rw [hRun, hNew] at hEdit
      cases hEdit
  | some made =>
      rw [hNew] at hRun
      simp only [Option.map_some] at hRun
      rw [hRun] at hEdit
      rcases Except.ok.inj hEdit with rfl
      refine ⟨made, rfl, rfl, ?_⟩
      rcases setElse_eq_ok hRun with ⟨search, hRewrite, _, _⟩
      have hEdited :=
        areSound_of_rewrite
          (fun _ _ _ _ => isSound_of_settingElse) hSound hRewrite
      rcases idsOf_setElse hNodup hRun with
        ⟨_, hIds⟩ | ⟨hNext, _⟩
      · exact
          checkTree_eq_ok_iff.mpr ⟨hIds.nodup hNodup, hEdited⟩
      · simp at hNext

end Outcomes

namespace Operation

variable {operation : Operation}
variable {old : Block}

theorem areSound_of_puts?
    {new : List Block}
    (hPlain : operation.IsPlain)
    (hSound : old.IsSound)
    (hPuts : operation.puts? old = some new) :
    AreSound new := by
  cases operation with
  | replace made =>
      rcases Option.some.inj hPuts with rfl
      exact Block.areSound_cons.mpr ⟨hPlain, Block.areSound_nil⟩
  | delete =>
      rcases Option.some.inj hPuts with rfl
      exact Block.areSound_nil
  | setElse kind =>
      rcases Option.map_eq_some_iff.mp hPuts with
        ⟨made, hMade, rfl⟩
      exact
        Block.areSound_cons.mpr
          ⟨isSound_of_reclaused? hSound hMade, Block.areSound_nil⟩

/-
  A plain operation that succeeds exchanges its target for
  what it puts there, and the tree passes its check again.
-/
theorem apply_eq_ok
    {n : Nat}
    {blocks edited : List Block}
    (hPlain : operation.IsPlain)
    (hCheck : checkTree blocks = .ok ())
    (hOld : old ∈ documentOrder blocks)
    (hEdit : operation.apply n old.id blocks = .ok edited) :
    ∃ new,
      operation.puts? old = some new ∧
        edited = exchange old.id new blocks ∧
          checkTree edited = .ok () := by
  cases operation with
  | replace new =>
      exact
        ⟨[new], rfl, exchange_of_replace hCheck hOld hPlain hEdit⟩
  | delete =>
      exact ⟨[], rfl, exchange_of_delete hCheck hOld hEdit⟩
  | setElse kind =>
      rcases exchange_of_setElse hCheck hOld hPlain hEdit with
        ⟨made, hMade, hEdited⟩
      exact ⟨[made.1], by simp [puts?, hMade], hEdited⟩

end Operation

------------------------------------------------------------
-- Independent Edits
------------------------------------------------------------

/- Neither of two blocks is inside the other. -/
def AreApart (a b : Block) : Prop :=
  a ∉ b.inOrder ∧ b ∉ a.inOrder

section Independent

variable {blocks : List Block}
variable {a b : Block}
variable {first second : Operation}
variable (hCheck : checkTree blocks = .ok ())
variable (hA : a ∈ documentOrder blocks)
variable (hB : b ∈ documentOrder blocks)
variable (hFirst : first.IsPlain)
variable (hSecond : second.IsPlain)
include hCheck hA hB hFirst hSecond

/-
  The second of two edits finds its block as it was, and does
  not reach into what the first has put in.
-/
theorem apply_after_eq_ok
    {n m : Nat}
    {edited made : List Block}
    (hOutside : b ∉ a.inOrder)
    (hInside : a ∉ b.inOrder)
    (hEdited : first.apply n a.id blocks = .ok edited)
    (hMade : second.apply m b.id edited = .ok made) :
    ∃ newA newB,
      first.puts? a = some newA ∧
        second.puts? b = some newB ∧
          made = exchange b.id newB (exchange a.id newA blocks) ∧
            exchange b.id newB newA = newA := by
  rcases checkTree_eq_ok_iff.mp hCheck with ⟨hNodup, hSound⟩
  rcases first.apply_eq_ok hFirst hCheck hA hEdited with
    ⟨newA, hPutsA, rfl, hCheckEdited⟩
  have hKept : around a.id newA b = b :=
    around_of_notMem b (Block.isSound_of_mem hSound hB)
      (id_notMem_of_nodup hNodup hB hInside hA)
  have hStays : b ∈ documentOrder (exchange a.id newA blocks) := by
    rw [← hKept]
    exact
      around_mem_exchange (isOutside_of_nodup hNodup hA hOutside)
        hB
  rcases second.apply_eq_ok hSecond hCheckEdited hStays hMade with
    ⟨newB, hPutsB, rfl, _⟩
  refine ⟨newA, newB, hPutsA, hPutsB, rfl, ?_⟩
  apply exchange_of_notMem
  · exact
      Operation.areSound_of_puts? hFirst
        (Block.isSound_of_mem hSound hA) hPutsA
  · exact
      id_notMem_of_exchange hNodup hA hOutside hB
        (checkTree_eq_ok_iff.mp hCheckEdited).1

/-
  Edits of blocks that are apart make the same tree in either
  order, if both orders succeed.
-/
theorem independent_edits_commute
    (hApart : AreApart a b)
    {n m n' m' : Nat}
    {afterA afterB made other : List Block}
    (hAfterA : first.apply n a.id blocks = .ok afterA)
    (hMade : second.apply m b.id afterA = .ok made)
    (hAfterB : second.apply n' b.id blocks = .ok afterB)
    (hOther : first.apply m' a.id afterB = .ok other) :
    made = other := by
  rcases hApart with ⟨hInside, hOutside⟩
  rcases
    apply_after_eq_ok hCheck hA hB hFirst hSecond hOutside hInside
      hAfterA hMade
    with ⟨newA, newB, hPutsA, hPutsB, rfl, hNewA⟩
  rcases
    apply_after_eq_ok hCheck hB hA hSecond hFirst hInside hOutside
      hAfterB hOther
    with ⟨newB', newA', hPutsB', hPutsA', rfl, hNewB⟩
  rcases Option.some.inj (hPutsA.symm.trans hPutsA') with rfl
  rcases Option.some.inj (hPutsB.symm.trans hPutsB') with rfl
  have hIds : a.id ≠ b.id := by
    intro hSame
    have hNodup := (checkTree_eq_ok_iff.mp hCheck).1
    rw [List.inj_on_of_nodup_map hNodup hA hB hSame] at hInside
    exact hInside b.mem_inOrder_self
  exact exchange_comm hIds hNewA hNewB blocks

end Independent

/-
  In one conditional, the true branch gets a call for its
  statement while the clause goes with the chained one.
-/
theorem independent_edits_commute_rungs :
    checkTree sampleRungs = .ok () ∧
      ∃ made,
        (∃ edited,
            replace "r" (.call "c" "g" []) sampleRungs =
                .ok edited ∧
              delete "b" edited = .ok made) ∧
          ∃ edited,
            delete "b" sampleRungs = .ok edited ∧
              replace "r" (.call "c" "g" []) edited =
                .ok made := by
  have hCheck : checkTree sampleRungs = .ok () := by rfl
  have hA : .ret "r" "x" ∈ documentOrder sampleRungs := by
    simp [sampleRungs, Block.inOrder, inOrderAll]
  have hB :
      .conditional "b" "x < 0" [] .none [] ∈
        documentOrder sampleRungs := by
    simp [sampleRungs, Block.inOrder, inOrderAll]
  have hApart :
      AreApart (.ret "r" "x")
        (.conditional "b" "x < 0" [] .none []) := by
    simp [AreApart, Block.inOrder, inOrderAll]
  have hPlain :
      (Operation.replace (.call "c" "g" [])).IsPlain :=
    Block.isSound_call
  have hAfterA :
      Operation.apply (.replace (.call "c" "g" [])) 0 "r"
          sampleRungs =
        .ok (exchange "r" [.call "c" "g" []] sampleRungs) := rfl
  have hMade :
      Operation.apply .delete 0 "b"
          (exchange "r" [.call "c" "g" []] sampleRungs) =
        .ok _ := rfl
  have hAfterB :
      Operation.apply .delete 0 "b" sampleRungs =
        .ok (exchange "b" [] sampleRungs) := rfl
  have hOther :
      Operation.apply (.replace (.call "c" "g" [])) 0 "r"
          (exchange "b" [] sampleRungs) =
        .ok _ := rfl
  have hDelete : Operation.delete.IsPlain := trivial
  have hSame :=
    independent_edits_commute hCheck hA hB hPlain hDelete hApart
      hAfterA hMade hAfterB hOther
  exact
    ⟨hCheck, _, ⟨_, hAfterA, hMade⟩, _, hAfterB,
      hSame ▸ hOther⟩

end Edit

end BlockProgram
