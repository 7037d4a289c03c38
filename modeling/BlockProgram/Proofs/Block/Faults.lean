import BlockProgram.Proofs.Block.Soundness

/-
  The first fault of some blocks.

  A search for a fault in a list of blocks finds that of the
  first conditional whose else branch has a wrong shape.  A
  check of ids that fails names the first one that stands
  there for the second time.

  Main declarations:
    * `Block.HasFault`
    * `Block.IsFirstFault`
    * `Block.findSome?_fault?_eq_some_iff`
    * `IsFirstRepeat`
    * `isFirstRepeat_of_checkIds`
-/

namespace BlockProgram

namespace Block

------------------------------------------------------------
-- Faults
------------------------------------------------------------

/- The fault is what is wrong with the block's own branch. -/
inductive HasFault : Block → TreeError → Prop where
  /- No clause, and yet statements in its branch. -/
  | stray
      {id condition : String}
      {body branch : List Block}
      (hBranch : branch ≠ []) :
      HasFault (.conditional id condition body .none branch)
        (.strayElseBody id)
  /- An `elif` without just one conditional. -/
  | malformed
      {id condition : String}
      {body branch : List Block}
      (hBranch : branch.map kind ≠ [.conditional]) :
      HasFault (.conditional id condition body .elif branch)
        (.malformedElif id)

/-
  The fault is that of the first block, in the given order,
  whose else branch is not sound.
-/
def IsFirstFault
    (bs : List Block)
    (fault : TreeError) : Prop :=
  ∃ b,
    bs.find? (fun b => ¬b.HasSoundElse) = some b ∧
      b.HasFault fault

theorem fault?_of_hasFault
    {b : Block}
    {fault : TreeError}
    (hFault : b.HasFault fault) :
    b.fault? = some fault := by
  cases hFault with
  | @stray id condition body branch hBranch =>
      cases branch with
      | nil => exact absurd rfl hBranch
      | cons c cs => rfl
  | @malformed id condition body branch hBranch =>
      match branch with
      | [] => rfl
      | [c] => cases c <;> simp_all [fault?, elseFault?, kind]
      | _ :: _ :: _ => simp [fault?, elseFault?]

/- An unsound branch has its fault. -/
theorem exists_hasFault
    {b : Block}
    (hUnsound : ¬b.HasSoundElse) :
    ∃ fault, b.HasFault fault := by
  cases b with
  | conditional id condition body elseKind elseBody =>
      cases elseKind with
      | none => exact ⟨_, .stray hUnsound⟩
      | elif => exact ⟨_, .malformed hUnsound⟩
      | otherwise => exact absurd trivial hUnsound
  | function => exact absurd trivial hUnsound
  | assignment => exact absurd trivial hUnsound
  | loop => exact absurd trivial hUnsound
  | ret => exact absurd trivial hUnsound
  | call => exact absurd trivial hUnsound

/- A search for a fault finds that of the first unsound. -/
theorem findSome?_fault?_eq_some_iff
    {bs : List Block}
    {fault : TreeError} :
    bs.findSome? fault? = some fault ↔ IsFirstFault bs fault := by
  unfold IsFirstFault
  induction bs with
  | nil => simp
  | cons b bs ih =>
      rw [List.findSome?_cons, List.find?_cons]
      by_cases hSound : b.HasSoundElse
      · rw [fault?_eq_none_iff.mpr hSound]
        simpa [hSound] using ih
      · rcases exists_hasFault hSound with ⟨own, hOwn⟩
        rw [fault?_of_hasFault hOwn]
        simp only [hSound, not_false_eq_true, decide_true,
          Option.some.injEq, exists_eq_left']
        constructor
        · rintro rfl
          exact hOwn
        · intro hFault
          have hSame := fault?_of_hasFault hFault
          rw [fault?_of_hasFault hOwn] at hSame
          exact Option.some.inj hSame

/- No fault is found exactly when all branches are sound. -/
theorem findSome?_fault?_eq_none_iff
    {bs : List Block} :
    bs.findSome? fault? = none ↔ ∀ b ∈ bs, b.HasSoundElse := by
  rw [List.findSome?_eq_none_iff]
  exact forall₂_congr fun b _ => fault?_eq_none_iff

/- An outcome fails with the fault that it is given. -/
theorem outcomeOf_eq_error_iff
    {found : Option TreeError}
    {fault : TreeError} :
    outcomeOf found = .error fault ↔ found = some fault := by
  cases found <;> simp [outcomeOf]

end Block

------------------------------------------------------------
-- Repeated Ids
------------------------------------------------------------

/- The first id, in the given order, that stood before. -/
def IsFirstRepeat
    (ids : List BlockId)
    (id : BlockId) : Prop :=
  ∃ before behind,
    ids = before ++ id :: behind ∧
      before.Nodup ∧ id ∈ before

namespace Block

/-
  Noting fails at the first id that was seen or noted before.
  The ids seen are those that came before, last one first.
-/
theorem isFirstRepeat_of_noteEach
    {bs : List Block}
    {seen : List BlockId}
    {fault : TreeError}
    (hSeen : seen.Nodup)
    (hFails : noteEach bs seen = .error fault) :
    ∃ id,
      fault = .duplicateId id ∧
        IsFirstRepeat (seen.reverse ++ bs.map Block.id) id := by
  induction bs generalizing seen with
  | nil => cases hFails
  | cons b bs ih =>
      rw [noteEach_cons, noteId] at hFails
      by_cases hOld : b.id ∈ seen
      · rw [if_pos hOld] at hFails
        cases hFails
        exact
          ⟨b.id, rfl, seen.reverse, bs.map Block.id, rfl,
            (List.reverse_perm seen).nodup_iff.mpr hSeen,
            List.mem_reverse.mpr hOld⟩
      · rw [if_neg hOld] at hFails
        have hNext : (b.id :: seen).Nodup :=
          List.nodup_cons.mpr ⟨hOld, hSeen⟩
        simpa using ih hNext hFails

end Block

/- A failing check of ids names the first that repeats. -/
theorem isFirstRepeat_of_checkIds
    {blocks : List Block}
    {fault : TreeError}
    (hFails : checkIds blocks = .error fault) :
    ∃ id,
      fault = .duplicateId id ∧
        IsFirstRepeat (idsOf blocks) id := by
  rw [checkIds,
    Block.noteIdsAll_of_forall fun b _ =>
      b.noteIds_eq_noteEach] at hFails
  cases hNoted : Block.noteEach (documentOrder blocks) [] with
  | ok seen =>
      rw [hNoted] at hFails
      cases hFails
  | error first =>
      rw [hNoted] at hFails
      cases hFails
      exact Block.isFirstRepeat_of_noteEach List.nodup_nil hNoted

end BlockProgram
