import BlockProgram.Block.Check
import BlockProgram.Proofs.Block.Induction

/-
  What the check of a tree looks at.

  Both checks walk the blocks in document order: one stops at
  the first id met before, the other at the first else branch
  of a wrong shape.

  Main declarations:
    * `Block.HasSoundElse`
    * `Block.IsSound`
    * `Block.checkShapeAll_eq_firstFault`
    * `checkTree_eq_ok_iff`
-/

namespace BlockProgram

namespace Block

------------------------------------------------------------
-- Sound Else Branches
------------------------------------------------------------

/-
  An else branch of the kind may look so: it is empty without
  a clause, and one conditional after an `elif`.
-/
def Fits : ElseKind → List Block → Prop
  | .none, branch => branch = []
  | .elif, branch => branch.map kind = [.conditional]
  | .otherwise, _ => True

/- The else branch of the block itself has its shape. -/
def HasSoundElse : Block → Prop
  | .conditional _ _ _ elseKind elseBody =>
      Fits elseKind elseBody
  | .function .. | .assignment .. | .loop .. | .ret ..
  | .call .. => True

instance
    (elseKind : ElseKind)
    (branch : List Block) :
    Decidable (Fits elseKind branch) := by
  cases elseKind with
  | none => exact decidable_of_iff (branch.isEmpty) (by simp [Fits])
  | elif =>
      unfold Fits
      infer_instance
  | otherwise => exact isTrue trivial

instance (b : Block) : Decidable b.HasSoundElse := by
  cases b <;> unfold HasSoundElse <;> infer_instance

/- All else branches in a block have their shape. -/
def IsSound (b : Block) : Prop :=
  ∀ c ∈ b.inOrder, c.HasSoundElse

instance (b : Block) : Decidable b.IsSound := by
  unfold IsSound
  infer_instance

/- All else branches in a list of blocks have their shape. -/
def AreSound (bs : List Block) : Prop :=
  ∀ c ∈ inOrderAll bs, c.HasSoundElse

@[simp] theorem areSound_nil : AreSound [] := by
  simp [AreSound, inOrderAll]

@[simp] theorem areSound_cons
    {b : Block}
    {bs : List Block} :
    AreSound (b :: bs) ↔ b.IsSound ∧ AreSound bs := by
  simp only [AreSound, IsSound, inOrderAll, List.mem_append]
  constructor
  · intro h
    exact
      ⟨fun c hc => h c (Or.inl hc), fun c hc => h c (Or.inr hc)⟩
  · rintro ⟨hFirst, hOthers⟩ c (hc | hc)
    · exact hFirst c hc
    · exact hOthers c hc

@[simp] theorem areSound_append
    {bs cs : List Block} :
    AreSound (bs ++ cs) ↔ AreSound bs ∧ AreSound cs := by
  induction bs with
  | nil => simp [areSound_nil]
  | cons b bs ih =>
      simp only [List.cons_append, areSound_cons, ih, and_assoc]

/- Every block of a sound tree is sound. -/
theorem isSound_of_mem
    {bs : List Block}
    {b : Block}
    (hSound : AreSound bs)
    (hMember : b ∈ inOrderAll bs) :
    b.IsSound := by
  intro c hc
  exact hSound c (mem_inOrderAll_of_mem_inOrder hc hMember)

@[simp] theorem isSound_function
    {id name : String}
    {parameters : List String}
    {body : List Block} :
    (Block.function id name parameters body).IsSound ↔
      AreSound body := by
  simp [IsSound, AreSound, inOrder, HasSoundElse]

@[simp] theorem isSound_loop
    {id iterator iterable : String}
    {body : List Block} :
    (Block.loop id iterator iterable body).IsSound ↔
      AreSound body := by
  simp [IsSound, AreSound, inOrder, HasSoundElse]

@[simp] theorem isSound_conditional
    {id condition : String}
    {body elseBody : List Block}
    {elseKind : ElseKind} :
    (Block.conditional id condition body elseKind
        elseBody).IsSound ↔
      Fits elseKind elseBody ∧
        AreSound body ∧ AreSound elseBody := by
  simp only [IsSound, AreSound, inOrder, List.mem_cons,
    List.mem_append]
  constructor
  · intro h
    exact
      ⟨h _ (Or.inl rfl), fun c hc => h c (Or.inr (Or.inl hc)),
        fun c hc => h c (Or.inr (Or.inr hc))⟩
  · rintro ⟨hOwn, hBody, hElse⟩ c (rfl | hc | hc)
    · exact hOwn
    · exact hBody c hc
    · exact hElse c hc

@[simp] theorem isSound_assignment
    {id name : String}
    {value : Value} :
    (Block.assignment id name value).IsSound := by
  simp [IsSound, inOrder, HasSoundElse]

@[simp] theorem isSound_ret
    {id value : String} :
    (Block.ret id value).IsSound := by
  simp [IsSound, inOrder, HasSoundElse]

@[simp] theorem isSound_call
    {id callee : String}
    {arguments : List String} :
    (Block.call id callee arguments).IsSound := by
  simp [IsSound, inOrder, HasSoundElse]

------------------------------------------------------------
-- The Check Of Shapes
------------------------------------------------------------

/- What is wrong with a block's own else branch. -/
def fault? : Block → Option TreeError
  | .conditional id _ _ elseKind elseBody =>
      elseFault? id elseKind elseBody
  | .function .. | .assignment .. | .loop .. | .ret ..
  | .call .. => none

theorem elseFault?_eq_none_iff
    {id : BlockId}
    {elseKind : ElseKind}
    {elseBody : List Block} :
    elseFault? id elseKind elseBody = none ↔
      Fits elseKind elseBody := by
  cases elseKind with
  | none => cases elseBody <;> simp [elseFault?, Fits]
  | elif =>
      match elseBody with
      | [] => simp [elseFault?, Fits]
      | [b] => cases b <;> simp [elseFault?, Fits, kind]
      | _ :: _ :: _ => simp [elseFault?, Fits]
  | otherwise => simp [elseFault?, Fits]

theorem fault?_eq_none_iff
    {b : Block} :
    b.fault? = none ↔ b.HasSoundElse := by
  cases b with
  | conditional id condition body elseKind elseBody =>
      exact elseFault?_eq_none_iff
  | function => simp [fault?, HasSoundElse]
  | assignment => simp [fault?, HasSoundElse]
  | loop => simp [fault?, HasSoundElse]
  | ret => simp [fault?, HasSoundElse]
  | call => simp [fault?, HasSoundElse]

/- The outcome of a check that looked for a fault. -/
def outcomeOf : Option TreeError → Except TreeError Unit
  | some fault => .error fault
  | none => .ok ()

theorem outcomeOf_or (first second : Option TreeError) :
    outcomeOf (first.or second) =
      (do
        outcomeOf first
        outcomeOf second) := by
  cases first <;> rfl

theorem checkElse_eq
    (id : BlockId)
    (elseKind : ElseKind)
    (elseBody : List Block) :
    checkElse id elseKind elseBody =
      outcomeOf (elseFault? id elseKind elseBody) := by
  unfold checkElse
  cases elseFault? id elseKind elseBody <;> rfl

theorem checkElse_eq_ok_iff
    {id : BlockId}
    {elseKind : ElseKind}
    {elseBody : List Block} :
    checkElse id elseKind elseBody = .ok () ↔
      Fits elseKind elseBody := by
  rw [checkElse_eq, ← @elseFault?_eq_none_iff id]
  cases elseFault? id elseKind elseBody <;> simp [outcomeOf]

/- The check of a list is that of its members, in order. -/
theorem checkShapeAll_of_forall
    {bs : List Block}
    (h :
      ∀ b ∈ bs,
        b.checkShape = outcomeOf (b.inOrder.findSome? fault?)) :
    checkShapeAll bs =
      outcomeOf ((inOrderAll bs).findSome? fault?) := by
  induction bs with
  | nil => rfl
  | cons b bs ih =>
      rw [checkShapeAll, inOrderAll, List.findSome?_append,
        outcomeOf_or, h b List.mem_cons_self,
        ih fun c hc => h c (List.mem_cons_of_mem b hc)]

/- The check stops at the first fault in document order. -/
theorem checkShape_eq_firstFault (b : Block) :
    b.checkShape = outcomeOf (b.inOrder.findSome? fault?) := by
  induction b using Block.induction with
  | function id name parameters body ih =>
      rw [checkShape, checkShapeAll_of_forall ih]
      rfl
  | assignment id name value => rfl
  | conditional id condition body elseKind elseBody ihBody
      ihElse =>
      rw [checkShape, checkShapeAll_of_forall ihBody,
        checkShapeAll_of_forall ihElse, checkElse_eq]
      simp only [inOrder, List.findSome?_cons,
        List.findSome?_append, fault?]
      cases elseFault? id elseKind elseBody with
      | some fault => rfl
      | none => exact (outcomeOf_or _ _).symm
  | loop id iterator iterable body ih =>
      rw [checkShape, checkShapeAll_of_forall ih]
      rfl
  | ret id value => rfl
  | call id callee arguments => rfl

/- The same for a list of blocks. -/
theorem checkShapeAll_eq_firstFault (bs : List Block) :
    checkShapeAll bs =
      outcomeOf ((inOrderAll bs).findSome? fault?) :=
  checkShapeAll_of_forall fun b _ => checkShape_eq_firstFault b

/- Shapes pass exactly when all else branches are sound. -/
theorem checkShapeAll_eq_ok_iff
    {bs : List Block} :
    checkShapeAll bs = .ok () ↔ AreSound bs := by
  rw [checkShapeAll_eq_firstFault]
  cases hFault : (inOrderAll bs).findSome? fault? with
  | none =>
      rw [List.findSome?_eq_none_iff] at hFault
      simpa [outcomeOf, AreSound, fault?_eq_none_iff] using hFault
  | some fault =>
      simp only [outcomeOf, reduceCtorEq, false_iff]
      intro hSound
      rcases List.exists_of_findSome?_eq_some hFault with
        ⟨b, hMember, hOwn⟩
      rw [fault?_eq_none_iff.mpr (hSound b hMember)] at hOwn
      simp at hOwn

------------------------------------------------------------
-- The Check Of Ids
------------------------------------------------------------

/- Note the ids of blocks, one after another. -/
def noteEach
    (bs : List Block)
    (seen : List BlockId) :
    Except TreeError (List BlockId) :=
  bs.foldlM (fun seen b => noteId b.id seen) seen

theorem noteEach_cons
    (b : Block)
    (bs : List Block)
    (seen : List BlockId) :
    noteEach (b :: bs) seen =
      (do
        let seen ← noteId b.id seen
        noteEach bs seen) := by
  simp [noteEach]

theorem noteEach_append
    (bs cs : List Block)
    (seen : List BlockId) :
    noteEach (bs ++ cs) seen =
      (do
        let seen ← noteEach bs seen
        noteEach cs seen) := by
  simp [noteEach, List.foldlM_append]

/- Ids of a list are noted member by member. -/
theorem noteIdsAll_of_forall
    {bs : List Block}
    (h :
      ∀ b ∈ bs,
        ∀ seen, b.noteIds seen = noteEach b.inOrder seen)
    (seen : List BlockId) :
    noteIdsAll bs seen = noteEach (inOrderAll bs) seen := by
  induction bs generalizing seen with
  | nil => rfl
  | cons b bs ih =>
      rw [noteIdsAll, inOrderAll, noteEach_append,
        h b List.mem_cons_self]
      congr 1
      funext seen
      exact ih (fun c hc => h c (List.mem_cons_of_mem b hc)) seen

/- Ids are noted in document order. -/
theorem noteIds_eq_noteEach
    (b : Block)
    (seen : List BlockId) :
    b.noteIds seen = noteEach b.inOrder seen := by
  induction b using Block.induction generalizing seen with
  | function id name parameters body ih =>
      simp only [noteIds, inOrder, noteIdsAll_of_forall ih]
      rfl
  | assignment id name value =>
      simp [noteIds, inOrder, noteEach, Block.id]
  | conditional id condition body elseKind elseBody ihBody
      ihElse =>
      simp only [noteIds, inOrder, noteIdsAll_of_forall ihBody,
        noteIdsAll_of_forall ihElse, ← List.cons_append]
      rw [noteEach_append]
      simp [noteEach, Block.id]
  | loop id iterator iterable body ih =>
      simp only [noteIds, inOrder, noteIdsAll_of_forall ih]
      rfl
  | ret id value => simp [noteIds, inOrder, noteEach, Block.id]
  | call id callee arguments =>
      simp [noteIds, inOrder, noteEach, Block.id]

/- Ids can be noted when they are new and none repeats. -/
theorem noteEach_isOk_iff
    {bs : List Block}
    {seen : List BlockId} :
    (∃ noted, noteEach bs seen = .ok noted) ↔
      (bs.map Block.id).Nodup ∧ ∀ b ∈ bs, b.id ∉ seen := by
  induction bs generalizing seen with
  | nil => simp [noteEach, pure, Except.pure]
  | cons b bs ih =>
      rw [noteEach_cons]
      by_cases hSeen : b.id ∈ seen
      · simp [noteId, hSeen, bind, Except.bind]
      · have hNoted : noteId b.id seen = .ok (b.id :: seen) := by
          simp [noteId, hSeen]
        rw [hNoted]
        change (∃ noted, noteEach bs (b.id :: seen) = .ok noted) ↔ _
        rw [ih]
        simp only [List.map_cons, List.nodup_cons, List.mem_map,
          List.mem_cons, forall_eq_or_imp, not_or, not_exists,
          not_and]
        constructor
        · rintro ⟨hNodup, hNew⟩
          exact
            ⟨⟨fun c hc => (hNew c hc).1, hNodup⟩, hSeen,
              fun c hc => (hNew c hc).2⟩
        · rintro ⟨⟨hOther, hNodup⟩, _, hNew⟩
          exact ⟨hNodup, fun c hc => ⟨hOther c hc, hNew c hc⟩⟩

end Block

------------------------------------------------------------
-- The Check Of A Tree
------------------------------------------------------------

/- The ids of all blocks of a program, in document order. -/
def idsOf (blocks : List Block) : List BlockId :=
  (documentOrder blocks).map Block.id

/- Ids pass exactly when none repeats. -/
theorem checkIds_eq_ok_iff
    {blocks : List Block} :
    checkIds blocks = .ok () ↔ (idsOf blocks).Nodup := by
  have hNoted :=
    @Block.noteEach_isOk_iff (documentOrder blocks) []
  simp only [List.not_mem_nil, not_false_eq_true, implies_true,
    and_true] at hNoted
  rw [idsOf, ← hNoted, checkIds,
    Block.noteIdsAll_of_forall fun b _ =>
      b.noteIds_eq_noteEach]
  cases Block.noteEach (documentOrder blocks) [] <;>
    simp [bind, Except.bind, pure, Except.pure]

/-
  A tree passes exactly when no id repeats and every else
  branch has its shape.
-/
theorem checkTree_eq_ok_iff
    {blocks : List Block} :
    checkTree blocks = .ok () ↔
      (idsOf blocks).Nodup ∧ Block.AreSound blocks := by
  rw [← checkIds_eq_ok_iff, ← Block.checkShapeAll_eq_ok_iff,
    checkTree, checkShapes]
  cases checkIds blocks <;> simp [bind, Except.bind]

end BlockProgram
