import BlockProgram.Proofs.Block.Faults

/-
  The verdict of the check of a tree.

  A tree passes when its ids differ and its else branches
  have their shape.  Else the check reports one thing: the
  first id that repeats, and only in a tree without repeats
  the first fault of an else branch, both in document order.

  Main declarations:
    * `IsFirstRepeat.unique`
    * `checkIds_eq_error_iff`
    * `checkShapes_eq_error_iff`
    * `IsReport`
    * `checkTree_reports_first`
-/

namespace BlockProgram

open Block (AreSound IsFirstFault)

------------------------------------------------------------
-- Reported Ids
------------------------------------------------------------

/- An id that stands behind itself is there twice. -/
theorem not_nodup_of_mem
    {before : List BlockId}
    {id : BlockId}
    (hMember : id ∈ before)
    (behind : List BlockId) :
    ¬(before ++ id :: behind).Nodup := by
  rw [List.nodup_append]
  rintro ⟨_, _, hDiffer⟩
  exact hDiffer id hMember id List.mem_cons_self rfl

/- Ids with a first repeat do repeat. -/
theorem IsFirstRepeat.not_nodup
    {ids : List BlockId}
    {id : BlockId}
    (hRepeat : IsFirstRepeat ids id) :
    ¬ids.Nodup := by
  rcases hRepeat with ⟨before, behind, rfl, _, hMember⟩
  exact not_nodup_of_mem hMember behind

/- Only one id is the first to repeat. -/
theorem IsFirstRepeat.unique
    {ids : List BlockId}
    {id id' : BlockId}
    (hRepeat : IsFirstRepeat ids id)
    (hRepeat' : IsFirstRepeat ids id') :
    id = id' := by
  rcases hRepeat with ⟨before, behind, rfl, hNodup, hMember⟩
  rcases hRepeat' with
    ⟨before', behind', hSplit, hNodup', hMember'⟩
  -- The longer of the two runs would hold the other id twice.
  rcases List.append_eq_append_iff.mp hSplit with
    ⟨rest, rfl, hRest⟩ | ⟨rest, rfl, hRest⟩
  · cases rest with
    | nil => exact (List.cons.inj hRest).1
    | cons c cs =>
        rcases List.cons.inj hRest with ⟨rfl, _⟩
        exact absurd hNodup' (not_nodup_of_mem hMember cs)
  · cases rest with
    | nil => exact (List.cons.inj hRest).1.symm
    | cons c cs =>
        rcases List.cons.inj hRest with ⟨rfl, _⟩
        exact absurd hNodup (not_nodup_of_mem hMember' cs)

/- The check of ids fails with the first one that repeats. -/
theorem checkIds_eq_error_iff
    {blocks : List Block}
    {fault : TreeError} :
    checkIds blocks = .error fault ↔
      ∃ id,
        fault = .duplicateId id ∧
          IsFirstRepeat (idsOf blocks) id := by
  refine ⟨isFirstRepeat_of_checkIds, ?_⟩
  rintro ⟨id, rfl, hRepeat⟩
  cases hOutcome : checkIds blocks with
  | ok u =>
      exact
        absurd (checkIds_eq_ok_iff.mp hOutcome) hRepeat.not_nodup
  | error other =>
      rcases isFirstRepeat_of_checkIds hOutcome with
        ⟨id', rfl, hRepeat'⟩
      rw [hRepeat.unique hRepeat']

------------------------------------------------------------
-- Reported Branches
------------------------------------------------------------

/- The check of shapes fails with the first fault. -/
theorem checkShapes_eq_error_iff
    {blocks : List Block}
    {fault : TreeError} :
    checkShapes blocks = .error fault ↔
      IsFirstFault (documentOrder blocks) fault := by
  rw [checkShapes, Block.checkShapeAll_eq_firstFault,
    Block.outcomeOf_eq_error_iff,
    Block.findSome?_fault?_eq_some_iff]

------------------------------------------------------------
-- Reports About A Tree
------------------------------------------------------------

/-
  What is to be reported about a tree: a repeated id before
  any fault of an else branch.
-/
inductive IsReport (blocks : List Block) : TreeError → Prop where
  | repeated
      {id : BlockId}
      (hRepeat : IsFirstRepeat (idsOf blocks) id) :
      IsReport blocks (.duplicateId id)
  | misshapen
      {fault : TreeError}
      (hNodup : (idsOf blocks).Nodup)
      (hFault : IsFirstFault (documentOrder blocks) fault) :
      IsReport blocks fault

/- The second check is made when the first one is passed. -/
theorem checkTree_eq_error_iff
    {blocks : List Block}
    {fault : TreeError} :
    checkTree blocks = .error fault ↔
      checkIds blocks = .error fault ∨
        checkIds blocks = .ok () ∧
          checkShapes blocks = .error fault := by
  rw [checkTree]
  cases checkIds blocks <;> simp [bind, Except.bind]

theorem checkTree_eq_error_iff_isReport
    {blocks : List Block}
    {fault : TreeError} :
    checkTree blocks = .error fault ↔ IsReport blocks fault := by
  rw [checkTree_eq_error_iff, checkIds_eq_error_iff,
    checkIds_eq_ok_iff, checkShapes_eq_error_iff]
  constructor
  · rintro (⟨id, rfl, hRepeat⟩ | ⟨hNodup, hFault⟩)
    · exact .repeated hRepeat
    · exact .misshapen hNodup hFault
  · intro hReport
    cases hReport with
    | repeated hRepeat => exact Or.inl ⟨_, rfl, hRepeat⟩
    | misshapen hNodup hFault => exact Or.inr ⟨hNodup, hFault⟩

/-
  A tree passes its check exactly when no id stands twice in
  it and every else branch has its shape.  Else the check
  reports the first thing wrong.  When ids repeat, that is
  the id of the first block, in document order, that has the
  id of a block before it; and only when none does, it is
  the fault of the first block whose else branch is wrong.
-/
theorem checkTree_reports_first (blocks : List Block) :
    (checkTree blocks = .ok () ↔
        (idsOf blocks).Nodup ∧ AreSound blocks) ∧
      (∀ fault,
        checkTree blocks = .error fault ↔
          IsReport blocks fault) ∧
        ((∃ id, checkTree blocks = .error (.duplicateId id)) ↔
          ¬(idsOf blocks).Nodup) := by
  refine
    ⟨checkTree_eq_ok_iff,
      fun _ => checkTree_eq_error_iff_isReport, ?_⟩
  constructor
  · rintro ⟨id, hFails⟩
    cases checkTree_eq_error_iff_isReport.mp hFails with
    | repeated hRepeat => exact hRepeat.not_nodup
    | misshapen hNodup hFault =>
        rcases hFault with ⟨b, _, hOwn⟩
        cases hOwn
  · intro hTwice
    cases hOutcome : checkIds blocks with
    | ok u => exact absurd (checkIds_eq_ok_iff.mp hOutcome) hTwice
    | error fault =>
        rcases isFirstRepeat_of_checkIds hOutcome with
          ⟨id, rfl, hRepeat⟩
        exact
          ⟨id,
            checkTree_eq_error_iff_isReport.mpr
              (.repeated hRepeat)⟩

/-
  An else branch is wrong at the front, and both `b` and `a`
  repeat behind it; the repeat of `b` stands first.
-/
example :
    checkTree
        [.conditional "a" "x" [] .none [.ret "r" "1"],
          .loop "b" "i" "y" [.call "b" "f" [], .ret "a" "2"]] =
      .error (.duplicateId "b") :=
  rfl

end BlockProgram
