import BlockProgram.Proofs.Edit.InPlace

/-
  Edits that are undone.

  What was appended can be deleted again, and what was
  replaced can be put back.  Both find the new block at the
  site of the edit, since its id is nowhere else, and neither
  looks into it.

  Main declarations:
    * `Edit.OpensElse`
    * `Edit.delete_undoes_append`
    * `Edit.setElse_undoes_opening`
    * `Edit.replace_undoes_replace`
    * `Edit.edits_are_undone`
-/

namespace BlockProgram

namespace Edit

open Block (AreSound)

------------------------------------------------------------
-- Appending
------------------------------------------------------------

/- The name addresses a branch that has no clause so far. -/
def OpensElse
    (parent : String)
    (target : Block) : Prop :=
  ∃ id condition body elseBody,
    target = .conditional id condition body .none elseBody ∧
      id ++ elseSuffix = parent

section Appending

variable {site : Site}
variable {parent : String}
variable {child target new : Block}

/- Where no clause is opened, one body grows at its end. -/
theorem Appends.exists_shell
    (hAppends : Appends parent child target (.ok new))
    (hOpens : ¬OpensElse parent target) :
    ∃ (shell : Shell) (body : List Block),
      target = shell.close body ∧
        new = shell.close (body ++ [child]) := by
  cases hAppends with
  | @function id name parameters body =>
      exact ⟨.function id name parameters, body, rfl, rfl⟩
  | @branch id condition body elseBody elseKind =>
      exact
        ⟨.branch id condition elseKind elseBody, body, rfl, rfl⟩
  | @loop id iterator iterable body =>
      exact ⟨.loop id iterator iterable, body, rfl, rfl⟩
  | @elseBranch id condition body elseBody elseKind hName hKind =>
      cases elseKind with
      | none =>
          refine absurd ?_ hOpens
          exact ⟨id, condition, body, elseBody, rfl, hName⟩
      | elif => exact absurd rfl hKind
      | otherwise =>
          exact
            ⟨.elseBranch id condition body .otherwise, elseBody,
              rfl, rfl⟩

theorem append_elseSuffix_ne (id : String) :
    id ++ elseSuffix ≠ id := by
  intro hSame
  simpa [elseSuffix] using congrArg String.length hSame

/- A branch without a clause gets one, and the child in it. -/
theorem Appends.eq_otherwise
    {id condition : String}
    {body : List Block}
    (hAppends :
      Appends (id ++ elseSuffix) child
        (.conditional id condition body .none []) (.ok new)) :
    new = .conditional id condition body .otherwise [child] := by
  cases hAppends with
  | branch hId => exact absurd hId.symm (append_elseSuffix_ne id)
  | elseBranch => rfl

/- A tree that a block was appended to has it at the target. -/
theorem eq_fill_of_append
    {edited : List Block}
    (hNodup : (idsOf (site.fill [target])).Nodup)
    (hSound : AreSound (site.fill [target]))
    (hTarget :
      (documentOrder (site.fill [target])).find?
          (isAddressed parent) =
        some target)
    (hAppend :
      append parent child (site.fill [target]) = .ok edited) :
    ∃ new,
      Appends parent child target (.ok new) ∧
        edited = site.fill [new] ∧ (idsOf edited).Nodup := by
  rcases append_at_target hNodup hSound hTarget child with
    ⟨_, _, hFails⟩ | ⟨new, hAppends, hAnswer⟩
  · rw [hFails] at hAppend
    cases hAppend
  · rw [hAppend] at hAnswer
    exact ⟨new, hAppends, hAnswer.eq_of_ok⟩

theorem delete_undoes_append
    (hSound : AreSound (site.fill [target]))
    (hNodup : (idsOf (site.fill [new])).Nodup)
    (hAppends : Appends parent child target (.ok new))
    (hOpens : ¬OpensElse parent target) :
    delete child.id (site.fill [new]) =
      .ok (site.fill [target]) := by
  rcases hAppends.exists_shell hOpens with
    ⟨shell, body, rfl, rfl⟩
  exact delete_from_end shell body hNodup hSound

/-
  A clause that was opened stays when its block is deleted,
  and goes when the clause is changed back.
-/
theorem setElse_undoes_opening
    {id condition : String}
    {body : List Block}
    (hNodup :
      (idsOf
        (site.fill
          [.conditional id condition body .none []])).Nodup)
    (hSound :
      AreSound
        (site.fill [.conditional id condition body .none []]))
    (n : Nat) :
    setElse id .none n
        (site.fill
          [.conditional id condition body .otherwise []]) =
      (.ok
          (site.fill [.conditional id condition body .none []]),
        n) := by
  have hIds :
      idsOf
          (site.fill
            [.conditional id condition body .otherwise []]) =
        idsOf
          (site.fill
            [.conditional id condition body .none []]) := by
    rw [Site.idsOf_fill, Site.idsOf_fill, Site.map_id_ahead]
    rfl
  have hNew :
      reclaused? .none n
          (.conditional id condition body .otherwise []) =
        some (.conditional id condition body .none [], n) := by
    rfl
  exact
    setElse_fill (hIds.symm ▸ hNodup) hNew
      (Site.areSound_fill.mp hSound).1

end Appending

------------------------------------------------------------
-- Replacing
------------------------------------------------------------

section Replacing

variable {site : Site}
variable {old new : Block}
variable {edited : List Block}

/- A tree that a block was put into has it where the old was. -/
theorem eq_fill_of_replace
    (hNodup : (idsOf (site.fill [old])).Nodup)
    (hSound : AreSound (site.fill [old]))
    (hReplace :
      replace old.id new (site.fill [old]) = .ok edited) :
    edited = site.fill [new] ∧ (idsOf edited).Nodup := by
  have hAround := (Site.areSound_fill.mp hSound).1
  have hFits : site.IsSoundWith [new] := by
    rcases Site.takesAll_or_held hAround with
      hTakes | ⟨outer, owner, condition, body, rfl⟩
    · exact hTakes [new]
    · by_cases hKind : new.kind = .conditional
      · exact isSoundWith_of_conditional hAround hKind
      · rw [Site.fill_elifBranch] at hNodup hSound hReplace
        rw [replace_held hNodup hSound hKind] at hReplace
        cases hReplace
  rw [replace_fill hNodup hFits] at hReplace
  have hAnswer : Answers (site.fill [new]) (.ok edited) :=
    hReplace ▸ answers_withIdsChecked (site.fill [new])
  exact hAnswer.eq_of_ok

theorem replace_undoes_replace
    (hNodup : (idsOf (site.fill [old])).Nodup)
    (hSound : AreSound (site.fill [old]))
    (hEdited : (idsOf (site.fill [new])).Nodup) :
    find? new.id (site.fill [new]) = some new ∧
      replace new.id old (site.fill [new]) =
        .ok (site.fill [old]) := by
  constructor
  · apply find?_of_mem hEdited
    simp [Site.inOrderAll_fill, Block.inOrderAll,
      Block.mem_inOrder_self]
  · rw [replace_fill hEdited (Site.areSound_fill.mp hSound).1,
      withIdsChecked, checkIds_eq_ok_iff.mpr hNodup]
    rfl

end Replacing

------------------------------------------------------------
-- Every Edit
------------------------------------------------------------

/-
  Deleting the child takes an append back, but for the clause
  that the append may have opened.  Putting the old block
  back for the new one takes a replacement back.
-/
theorem edits_are_undone
    {blocks : List Block}
    (hCheck : checkTree blocks = .ok ()) :
    (∀ parent child edited,
        append parent child blocks = .ok edited →
          ∃ target,
            (documentOrder blocks).find? (isAddressed parent) =
                some target ∧
              (¬OpensElse parent target →
                delete child.id edited = .ok blocks) ∧
              ∀ id condition body elseBody,
                target =
                    .conditional id condition body .none
                      elseBody →
                  id ++ elseSuffix = parent →
                    ∃ site : Site,
                      blocks = site.fill [target] ∧
                        delete child.id edited =
                            .ok
                              (site.fill
                                [.conditional id condition body
                                  .otherwise []]) ∧
                          ∀ n,
                            setElse id .none n
                                (site.fill
                                  [.conditional id condition
                                    body .otherwise []]) =
                              (.ok blocks, n)) ∧
      ∀ target old new edited,
        find? target blocks = some old →
          replace target new blocks = .ok edited →
            find? new.id edited = some new ∧
              replace new.id old edited = .ok blocks := by
  rcases checkTree_eq_ok_iff.mp hCheck with ⟨hNodup, hSound⟩
  constructor
  · intro parent child edited hAppend
    cases hTarget :
        (documentOrder blocks).find? (isAddressed parent) with
    | none =>
        rw [append_eq hSound hNodup, met?, hTarget] at hAppend
        cases hAppend
    | some target =>
        rcases
          Site.exists_of_mem (List.mem_of_find?_eq_some hTarget)
          with ⟨site, rfl⟩
        rcases eq_fill_of_append hNodup hSound hTarget hAppend with
          ⟨new, hAppends, rfl, hEdited⟩
        refine ⟨target, rfl, ?_, ?_⟩
        · exact delete_undoes_append hSound hEdited hAppends
        · rintro id condition body elseBody rfl rfl
          -- Without a clause the branch was empty.
          rcases Site.areSound_fill.mp hSound with ⟨_, hOwn⟩
          rw [Block.areSound_cons, Block.isSound_conditional] at hOwn
          rcases (show elseBody = [] from hOwn.1.1) with rfl
          rcases hAppends.eq_otherwise with rfl
          exact
            ⟨site, rfl, delete_from_else hEdited hSound,
              setElse_undoes_opening hNodup hSound⟩
  · intro target old new edited hFind hReplace
    rcases find?_eq_some hFind with ⟨hOld, rfl⟩
    rcases Site.exists_of_mem hOld with ⟨site, rfl⟩
    rcases eq_fill_of_replace hNodup hSound hReplace with
      ⟨rfl, hEdited⟩
    exact replace_undoes_replace hNodup hSound hEdited

/-
  An `else` loses what was appended to it.  The clause that
  was opened is left empty, and then it goes too.  A broken
  rung gives way to the one that was there.
-/
theorem edits_are_undone_nest :
    checkTree sampleNest = .ok () ∧
      (∃ edited,
        append "w-else" (.ret "s" "") sampleNest = .ok edited ∧
          delete "s" edited = .ok sampleNest) ∧
        (∃ edited site,
          append "x-else" (.ret "s" "") sampleNest = .ok edited ∧
            delete "s" edited =
                .ok
                  (Site.fill site
                    [.conditional "x" "a" [.ret "r" "1"]
                      .otherwise []]) ∧
              setElse "x" .none 7
                  (Site.fill site
                    [.conditional "x" "a" [.ret "r" "1"]
                      .otherwise []]) =
                (.ok sampleNest, 7)) ∧
          ∃ edited,
            replace "z" (.conditional "s" "d" [] .elif [])
                sampleNest = .ok edited ∧
              replace "s" (.conditional "z" "c" [] .none [])
                  edited = .ok sampleNest := by
  have hCheck : checkTree sampleNest = .ok () := by rfl
  rcases edits_are_undone hCheck with ⟨hAppend, hReplace⟩
  refine ⟨hCheck, ?_, ?_, ?_⟩
  · have hEdit :
        append "w-else" (.ret "s" "") sampleNest = .ok _ := rfl
    rcases hAppend _ _ _ hEdit with ⟨target, hTarget, hUndone, _⟩
    rcases Option.some.inj hTarget with rfl
    refine ⟨_, hEdit, hUndone ?_⟩
    rintro ⟨_, _, _, _, hOther, _⟩
    cases hOther
  · have hEdit :
        append "x-else" (.ret "s" "") sampleNest = .ok _ := rfl
    rcases hAppend _ _ _ hEdit with ⟨target, hTarget, _, hOpened⟩
    rcases Option.some.inj hTarget with rfl
    rcases hOpened _ _ _ _ rfl rfl with
      ⟨site, _, hDelete, hSetElse⟩
    exact ⟨_, site, hEdit, hDelete, hSetElse 7⟩
  · have hEdit :
        replace "z" (.conditional "s" "d" [] .elif [])
          sampleNest = .ok _ := rfl
    exact ⟨_, hEdit, (hReplace "z" _ _ _ rfl hEdit).2⟩

end Edit

end BlockProgram
