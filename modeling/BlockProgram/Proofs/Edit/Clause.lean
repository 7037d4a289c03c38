import BlockProgram.Proofs.Edit.Exchange

/-
  Changing the else clause of a conditional.

  A new clause is empty or holds one placeholder, so the
  shapes of a tree stay sound.  Its ids stay apart too, with
  one exception: the placeholder of an `elif` takes a fresh
  number, and a tree from elsewhere may have its id already.

  Main declarations:
    * `Edit.areSound_of_rewrite`
    * `Edit.settingElse_eq_ok`
    * `Edit.checkTree_setElse_iff`
    * `Edit.setElse_repeats_freshId`
-/

namespace BlockProgram

namespace Edit

open Block (IsSound AreSound areSound_cons)

------------------------------------------------------------
-- Shapes
------------------------------------------------------------

section Shapes

variable {σ : Type}
variable {editor : Editor σ}
variable
    (hEditor :
      ∀ b s new t,
        b.IsSound →
          editor b s = .ok (.replace new) t → new.IsSound)
include hEditor

theorem areSound_of_forall
    {bs : List Block}
    (hBlocks :
      ∀ b ∈ bs,
        b.IsSound →
          ∀ s s' b',
            rebuild editor b s = .ok b' s' → b'.IsSound)
    (hSound : AreSound bs)
    {s s' : σ}
    {bs' : List Block}
    (hRun : rewrite editor bs s = .ok bs' s') :
    AreSound bs' := by
  induction bs generalizing s bs' with
  | nil =>
      rcases rewrite_nil_eq_ok.mp hRun with ⟨rfl, rfl⟩
      exact hSound
  | cons b bs ih =>
      rcases areSound_cons.mp hSound with ⟨hFirst, hRest⟩
      have hOthers {t : σ} {others : List Block}
          (hRun : rewrite editor bs t = .ok others s') :
          AreSound others :=
        ih (fun c hc => hBlocks c (List.mem_cons_of_mem b hc))
          hRest hRun
      rcases rewrite_cons_eq_ok.mp hRun with
        ⟨t, u, kept, others, _, hKept, hOther, rfl⟩ |
          ⟨t, new, others, hReplace, hOther, rfl⟩ |
          ⟨t, _, hOther⟩
      · exact
          areSound_cons.mpr
            ⟨hBlocks b List.mem_cons_self hFirst t u kept hKept,
              hOthers hOther⟩
      · exact
          areSound_cons.mpr
            ⟨hEditor b s new t hFirst hReplace, hOthers hOther⟩
      · exact hOthers hOther

theorem isSound_of_rebuild
    (b : Block)
    (hSound : b.IsSound)
    (s s' : σ)
    (b' : Block)
    (hRun : rebuild editor b s = .ok b' s') :
    b'.IsSound := by
  induction b using Block.induction generalizing s s' b' with
  | function id name parameters body ih =>
      rcases rebuild_function_eq_ok.mp hRun with
        ⟨body', hBody, rfl⟩
      rw [Block.isSound_function] at hSound ⊢
      exact areSound_of_forall hEditor ih hSound hBody
  | assignment id name value =>
      rcases rebuild_assignment_eq_ok.mp hRun with ⟨rfl, rfl⟩
      exact hSound
  | conditional id condition body elseKind elseBody ihBody
      ihElse =>
      rcases rebuild_conditional_eq_ok.mp hRun with
        ⟨body', elseBody', t, hBody, hElse, hCheck, rfl⟩
      rw [Block.isSound_conditional] at hSound ⊢
      exact
        ⟨Block.checkElse_eq_ok_iff.mp hCheck,
          areSound_of_forall hEditor ihBody hSound.2.1 hBody,
          areSound_of_forall hEditor ihElse hSound.2.2 hElse⟩
  | loop id iterator iterable body ih =>
      rcases rebuild_loop_eq_ok.mp hRun with ⟨body', hBody, rfl⟩
      rw [Block.isSound_loop] at hSound ⊢
      exact areSound_of_forall hEditor ih hSound hBody
  | ret id value =>
      rcases rebuild_ret_eq_ok.mp hRun with ⟨rfl, rfl⟩
      exact hSound
  | call id callee arguments =>
      rcases rebuild_call_eq_ok.mp hRun with ⟨rfl, rfl⟩
      exact hSound

/-
  A run that puts sound blocks in the place of sound ones
  makes a sound tree, because every conditional on the way is
  checked again.
-/
theorem areSound_of_rewrite
    {bs bs' : List Block}
    {s s' : σ}
    (hSound : AreSound bs)
    (hRun : rewrite editor bs s = .ok bs' s') :
    AreSound bs' :=
  areSound_of_forall hEditor
    (fun b _ => isSound_of_rebuild hEditor b) hSound hRun

end Shapes

------------------------------------------------------------
-- The Editor Of A Clause
------------------------------------------------------------

variable {target : BlockId}
variable {kind : ElseKind}

/-
  The clause of a conditional stays when it is of the kind
  that is asked for.  Else it starts anew, and takes a number
  for the placeholder of an `elif`.
-/
theorem settingElse_eq_ok
    {b : Block}
    {s t : Search}
    {change : Change}
    (hId : b.id = target)
    (hRun : settingElse target kind b s = .ok change t) :
    ∃ id condition body elseKind elseBody,
      b = .conditional id condition body elseKind elseBody ∧
        t.found = true ∧
          ((elseKind = kind ∧ change = .replace b ∧
              t.next = s.next) ∨
            (kind ≠ .elif ∧
              change =
                .replace (.conditional id condition body kind []) ∧
              t.next = s.next) ∨
            kind = .elif ∧
              change =
                .replace
                  (.conditional id condition body .elif
                    [Kind.conditional.placeholder s.next]) ∧
              t.next = s.next + 1) := by
  simp only [settingElse, if_pos hId] at hRun
  rcases bind_eq_ok.mp hRun with ⟨_, u, hFound, hRest⟩
  cases hFound
  cases b with
  | conditional id condition body elseKind elseBody =>
      refine ⟨id, condition, body, elseKind, elseBody, rfl, ?_⟩
      by_cases hSame : elseKind = kind
      · simp only [hSame, if_true] at hRest
        rcases pure_eq_ok.mp hRest with ⟨rfl, rfl⟩
        exact ⟨rfl, Or.inl ⟨hSame, by rw [hSame], rfl⟩⟩
      · simp only [hSame, if_false] at hRest
        rcases bind_eq_ok.mp hRest with
          ⟨branch, v, hBranch, hRest⟩
        rcases pure_eq_ok.mp hRest with ⟨rfl, rfl⟩
        cases kind with
        | none =>
            rcases pure_eq_ok.mp hBranch with ⟨rfl, rfl⟩
            exact ⟨rfl, Or.inr (Or.inl ⟨by simp, rfl, rfl⟩)⟩
        | elif =>
            cases hBranch
            exact ⟨rfl, Or.inr (Or.inr ⟨rfl, rfl, rfl⟩)⟩
        | otherwise =>
            rcases pure_eq_ok.mp hBranch with ⟨rfl, rfl⟩
            exact ⟨rfl, Or.inr (Or.inl ⟨by simp, rfl, rfl⟩)⟩
  | function => cases hRest
  | assignment => cases hRest
  | loop => cases hRest
  | ret => cases hRest
  | call => cases hRest

/- Blocks with other ids are kept. -/
theorem settingElse_of_ne
    {b : Block}
    {s t : Search}
    {change : Change}
    (hId : b.id ≠ target)
    (hRun : settingElse target kind b s = .ok change t) :
    change = .keep ∧ t = s := by
  simp only [settingElse, if_neg hId] at hRun
  rcases pure_eq_ok.mp hRun with ⟨rfl, rfl⟩
  exact ⟨rfl, rfl⟩

theorem settingElse_actsOn
    (target : BlockId)
    (kind : ElseKind) :
    ActsOn target (settingElse target kind) where
  keeps := fun b s change t hId hRun => settingElse_of_ne hId hRun
  acts := by
    intro b s change t hId hRun
    rcases settingElse_eq_ok hId hRun with
      ⟨_, _, _, _, _, _, _,
        ⟨_, rfl, _⟩ | ⟨_, rfl, _⟩ | ⟨_, rfl, _⟩⟩
    · exact ⟨_, rfl⟩
    · exact ⟨_, rfl⟩
    · exact ⟨_, rfl⟩

/- A clause is changed for one that is sound by itself. -/
theorem isSound_of_settingElse
    {b new : Block}
    {s t : Search}
    (hSound : b.IsSound)
    (hRun : settingElse target kind b s = .ok (.replace new) t) :
    new.IsSound := by
  by_cases hId : b.id = target
  · rcases settingElse_eq_ok hId hRun with
      ⟨id, condition, body, elseKind, elseBody, rfl, _,
        ⟨_, hNew, _⟩ | ⟨hKind, hNew, _⟩ | ⟨_, hNew, _⟩⟩
    · rcases Change.replace.inj hNew with rfl
      exact hSound
    · rcases Change.replace.inj hNew with rfl
      have hBody := (Block.isSound_conditional.mp hSound).2.1
      cases kind <;> simp_all [Block.Fits]
    · rcases Change.replace.inj hNew with rfl
      have hBody := (Block.isSound_conditional.mp hSound).2.1
      simp [Kind.placeholder, Block.Fits, Block.kind, hBody]
  · cases (settingElse_of_ne hId hRun).1

------------------------------------------------------------
-- The Changed Tree
------------------------------------------------------------

/- A change that came to its end found its conditional. -/
theorem setElse_eq_ok
    {n next : Nat}
    {blocks edited : List Block}
    (hEdit :
      setElse target kind n blocks = (.ok edited, next)) :
    ∃ search,
      rewrite (settingElse target kind) blocks ⟨false, n⟩ =
          .ok edited search ∧
        search.found = true ∧ search.next = next := by
  unfold setElse at hEdit
  cases hRun :
      rewrite (settingElse target kind) blocks ⟨false, n⟩ with
  | error fault search =>
      simp [EStateM.run, hRun] at hEdit
  | ok made search =>
      simp only [EStateM.run, hRun] at hEdit
      split at hEdit
      · next hFound =>
          rcases Prod.mk.inj hEdit with ⟨hMade, rfl⟩
          rcases Except.ok.inj hMade with rfl
          exact ⟨search, rfl, hFound, rfl⟩
      · simp at hEdit

/-
  The ids of the changed tree: either no number was taken and
  no id is new, or the id of the number stands among ids of
  the old tree.
-/
theorem idsOf_setElse
    {n next : Nat}
    {blocks edited : List Block}
    (hNodup : (idsOf blocks).Nodup)
    (hEdit :
      setElse target kind n blocks = (.ok edited, next)) :
    (next = n ∧ (idsOf edited).Sublist (idsOf blocks)) ∨
      next = n + 1 ∧
        ∃ before behind,
          idsOf edited =
              before ++ Kind.conditional.freshId n :: behind ∧
            (before ++ behind).Sublist (idsOf blocks) := by
  rcases setElse_eq_ok hEdit with ⟨search, hRun, hFound, rfl⟩
  have hActed :=
    acted_of_rewrite (settingElse_actsOn target kind) hNodup hRun
  cases hFind : find? target blocks with
  | none =>
      rw [hFind] at hActed
      rcases hActed with ⟨rfl, _⟩
      cases hFound
  | some old =>
      rw [hFind] at hActed
      rcases hActed with ⟨new, hEditor, rfl⟩
      rcases exchangesRun_exchange hNodup hFind with
        ⟨before, behind, hOld, hNew⟩
      have hEdited :
          idsOf (exchange target [new] blocks) =
            before ++ (idsOf [new] ++ behind) :=
        hNew [new]
      rw [hEdited, hOld]
      rcases settingElse_eq_ok (find?_eq_some hFind).2 hEditor with
        ⟨id, condition, body, elseKind, elseBody, rfl, _,
          ⟨_, hChange, hNext⟩ | ⟨_, hChange, hNext⟩ |
          ⟨_, hChange, hNext⟩⟩
      · rcases Change.replace.inj hChange with rfl
        exact Or.inl ⟨hNext, List.Sublist.refl _⟩
      · rcases Change.replace.inj hChange with rfl
        refine Or.inl ⟨hNext, ?_⟩
        simp [idsOf_nil]
      · rcases Change.replace.inj hChange with rfl
        refine
          Or.inr
            ⟨hNext, before ++ id :: idsOf body, behind, ?_, ?_⟩
        · simp [Kind.placeholder, idsOf_nil]
        · simp

/-
  Changing a clause of a tree that passes its check.  All
  else branches of the new tree are sound.  The tree passes
  when no block has the id that the next number gives; and in
  any case exactly when no number was taken, or the id of the
  one that was taken stands once.
-/
theorem checkTree_setElse_iff
    {n next : Nat}
    {blocks edited : List Block}
    (hCheck : checkTree blocks = .ok ())
    (hEdit :
      setElse target kind n blocks = (.ok edited, next)) :
    AreSound edited ∧
      (checkTree edited = .ok () ↔
        next = n ∨
          (idsOf edited).count (Kind.conditional.freshId n) = 1) ∧
        (Kind.conditional.freshId n ∉ idsOf blocks →
          checkTree edited = .ok ()) := by
  rcases checkTree_eq_ok_iff.mp hCheck with ⟨hNodup, hSound⟩
  rcases setElse_eq_ok hEdit with ⟨search, hRun, _, _⟩
  have hEdited : AreSound edited :=
    areSound_of_rewrite
      (fun _ _ _ _ => isSound_of_settingElse) hSound hRun
  rw [checkTree_eq_ok_iff, and_iff_left hEdited]
  refine ⟨hEdited, ?_⟩
  rcases idsOf_setElse hNodup hEdit with
    ⟨hNext, hIds⟩ | ⟨hNext, before, behind, hIds, hOld⟩
  · have hOk := hIds.nodup hNodup
    simp [hNext, hOk]
  · have hOthers := hOld.nodup hNodup
    have hPerm :
        (idsOf edited).Perm
          (Kind.conditional.freshId n :: (before ++ behind)) :=
      hIds ▸ List.perm_middle
    rw [hPerm.nodup_iff, List.nodup_cons, and_iff_left hOthers,
      hPerm.count_eq, List.count_cons_self]
    constructor
    · simp [hNext, List.count_eq_zero]
    · intro hFresh hMember
      exact hFresh (hOld.subset hMember)

/- A ladder in a function, and an id that a number gives. -/
def sampleRungs : List Block :=
  [ .function "f" "run" []
      [.conditional "a" "x > 0" [.ret "r" "x"] .elif
        [.conditional "b" "x < 0" [] .none []]],
    .conditional "if-3" "y" [] .none [] ]

/-
  The ladder grows at its end.  With one number the new rung
  gets an id of its own, with the other one that is there.
-/
theorem checkTree_setElse_iff_rungs :
    checkTree sampleRungs = .ok () ∧
      (∃ edited,
        setElse "b" .elif 4 sampleRungs = (.ok edited, 5) ∧
          AreSound edited ∧ checkTree edited = .ok ()) ∧
        ∃ edited,
          setElse "b" .elif 3 sampleRungs = (.ok edited, 4) ∧
            AreSound edited ∧ checkTree edited ≠ .ok () := by
  have hCheck : checkTree sampleRungs = .ok () := by rfl
  refine ⟨hCheck, ?_, ?_⟩
  · have hEdit : setElse "b" .elif 4 sampleRungs = (_, _) := rfl
    rcases checkTree_setElse_iff hCheck hEdit with
      ⟨hSound, _, hFresh⟩
    exact ⟨_, hEdit, hSound, hFresh (by decide)⟩
  · have hEdit : setElse "b" .elif 3 sampleRungs = (_, _) := rfl
    rcases checkTree_setElse_iff hCheck hEdit with
      ⟨hSound, hIff, _⟩
    have hTwice : checkTree _ ≠ .ok () :=
      mt hIff.mp (by decide)
    exact ⟨_, hEdit, hSound, hTwice⟩

/-
  A tree from elsewhere has the id that the first number
  gives, and an `elif` makes it stand twice.
-/
theorem setElse_repeats_freshId :
    ∃ edited,
      checkTree [.conditional "if-1" "x" [] .none []] = .ok () ∧
        setElse "if-1" .elif 1
              [.conditional "if-1" "x" [] .none []] =
            (.ok edited, 2) ∧
          checkTree edited = .error (.duplicateId "if-1") :=
  ⟨_, rfl, rfl, rfl⟩

end Edit

end BlockProgram
