import BlockProgram.Proofs.Block.Faults
import BlockProgram.Proofs.Edit.Exact

/-
  Edits in place.

  An edit of a tree that passes its check changes one block,
  at the site where it stands, and nothing around it.  When
  it brings a block in, the first id that repeats in the tree
  it would make is reported instead.

  Main declarations:
    * `Edit.Answers`
    * `Edit.append_adds_at_target`
    * `Edit.replace_exchanges_in_place`
    * `Edit.delete_removes_in_place`
-/

namespace BlockProgram

namespace Edit

open Block (AreSound areSound_cons Fits)

------------------------------------------------------------
-- Checked Answers
------------------------------------------------------------

/-
  The answer of an edit that would make the given tree: the
  tree itself, or the first id in it that repeats.
-/
inductive Answers (candidate : List Block) :
    Except TreeError (List Block) → Prop where
  | unique
      (hNodup : (idsOf candidate).Nodup) :
      Answers candidate (.ok candidate)
  | repeated
      {id : BlockId}
      (hRepeat : IsFirstRepeat (idsOf candidate) id) :
      Answers candidate (.error (.duplicateId id))

theorem answers_withIdsChecked (candidate : List Block) :
    Answers candidate (withIdsChecked candidate) := by
  unfold withIdsChecked
  cases hIds : checkIds candidate with
  | ok u => exact .unique (checkIds_eq_ok_iff.mp hIds)
  | error fault =>
      rcases isFirstRepeat_of_checkIds hIds with ⟨id, rfl, hRepeat⟩
      exact .repeated hRepeat

theorem Answers.ne_blockNotFound
    {candidate : List Block}
    {answer : Except TreeError (List Block)}
    (hAnswer : Answers candidate answer)
    (name : String) :
    answer ≠ .error (.blockNotFound name) := by
  cases hAnswer <;> simp

/- A tree that is answered is the one that was to be made. -/
theorem Answers.eq_of_ok
    {candidate edited : List Block}
    (hAnswer : Answers candidate (.ok edited)) :
    edited = candidate ∧ (idsOf edited).Nodup := by
  cases hAnswer with
  | unique hNodup => exact ⟨rfl, hNodup⟩

------------------------------------------------------------
-- Edits At A Site
------------------------------------------------------------

section Sites

variable {site : Site}
variable {old new : Block}
variable (hNodup : (idsOf (site.fill [old])).Nodup)
include hNodup

/- An edit that looks for an id exchanges the block with it. -/
theorem rewrite_at_id
    {σ : Type}
    {editor : Editor σ}
    {s t : σ}
    {made : List Block}
    (hEditor :
      Exchanges editor (fun b => b.id = old.id) s t old made)
    (hSound : site.IsSoundWith made) :
    rewrite editor (site.fill [old]) s = .ok (site.fill made) t := by
  rcases Site.id_ne_of_nodup hNodup with ⟨hAhead, hBehind⟩
  exact
    rewrite_at hEditor (by simpa using hAhead) hBehind hSound

theorem replace_fill
    (hSound : site.IsSoundWith [new]) :
    replace old.id new (site.fill [old]) =
      withIdsChecked (site.fill [new]) := by
  rw [replace, EStateM.run,
    rewrite_at_id hNodup (replacing_exchanges new rfl) hSound]
  rfl

theorem delete_fill
    (hSound : site.IsSoundWith []) :
    delete old.id (site.fill [old]) = .ok (site.fill []) := by
  rw [delete, EStateM.run,
    rewrite_at_id hNodup (deleting_exchanges rfl) hSound]

theorem setElse_fill
    {kind : ElseKind}
    {n next : Nat}
    (hNew : reclaused? kind n old = some (new, next))
    (hSound : site.IsSoundWith [new]) :
    setElse old.id kind n (site.fill [old]) =
      (.ok (site.fill [new]), next) := by
  rw [setElse, EStateM.run,
    rewrite_at_id hNodup (settingElse_exchanges rfl hNew) hSound]
  rfl

end Sites

------------------------------------------------------------
-- Deleting In A Body
------------------------------------------------------------

section Bodies

variable {site : Site}
variable {old : Block}

/- The last block of a body goes, if all else is sound then. -/
theorem delete_from_end
    (shell : Shell)
    (first : List Block)
    (hNodup :
      (idsOf (site.fill [shell.close (first ++ [old])])).Nodup)
    (hSound : AreSound (site.fill [shell.close first])) :
    delete old.id (site.fill [shell.close (first ++ [old])]) =
      .ok (site.fill [shell.close first]) := by
  have hOld :
      (site.deepen shell first []).fill [old] =
        site.fill [shell.close (first ++ [old])] := by
    rw [Site.fill_deepen, List.append_nil]
  have hOthers :
      (site.deepen shell first []).fill [] =
        site.fill [shell.close first] := by
    rw [Site.fill_deepen, List.append_nil, List.append_nil]
  rw [← hOld] at hNodup ⊢
  rw [← hOthers] at hSound ⊢
  exact delete_fill hNodup (Site.areSound_fill.mp hSound).1

variable {id condition : String}
variable {body elseBody : List Block}
variable {elseKind : ElseKind}

/- An `else` may be empty, whatever clause stood there. -/
theorem areSound_fill_otherwise
    (hSound :
      AreSound
        (site.fill
          [.conditional id condition body elseKind elseBody])) :
    AreSound
      (site.fill [.conditional id condition body .otherwise []]) := by
  rw [Site.areSound_fill, areSound_cons,
    Block.isSound_conditional] at hSound ⊢
  rcases hSound with ⟨hAround, ⟨_, hBody, _⟩, hNone⟩
  exact
    ⟨Site.isSoundWith_of_kinds (by rfl) hAround,
      ⟨trivial, hBody, hNone⟩, hNone⟩

/- The only block of an `else` goes, and the clause stays. -/
theorem delete_from_else
    (hNodup :
      (idsOf
        (site.fill
          [.conditional id condition body .otherwise
            [old]])).Nodup)
    (hSound :
      AreSound
        (site.fill
          [.conditional id condition body elseKind elseBody])) :
    delete old.id
        (site.fill
          [.conditional id condition body .otherwise [old]]) =
      .ok
        (site.fill
          [.conditional id condition body .otherwise []]) := by
  have hEmptied := areSound_fill_otherwise hSound
  exact
    delete_from_end (.elseBranch id condition body .otherwise) []
      hNodup hEmptied

end Bodies

------------------------------------------------------------
-- Edits Of An Elif Branch
------------------------------------------------------------

/- The block is the `elif` branch of that conditional. -/
def IsElifOf
    (owner : BlockId)
    (held : Block)
    (blocks : List Block) : Prop :=
  ∃ condition body,
    .conditional owner condition body .elif [held] ∈
      documentOrder blocks

section Branches

variable {outer site : Site}
variable {owner condition : String}
variable {body : List Block}
variable {old new : Block}

/- Where no conditional holds a block, all may follow it. -/
theorem takesAll_of_not_isElifOf
    (hSound : site.IsSoundWith [old])
    (hFree : ∀ owner, ¬IsElifOf owner old (site.fill [old])) :
    site.TakesAll := by
  rcases Site.takesAll_or_held hSound with
    hTakes | ⟨outer, owner, condition, body, rfl⟩
  · exact hTakes
  · refine absurd ⟨condition, body, ?_⟩ (hFree owner)
    simp [Site.inOrderAll_fill, Site.ahead_elifBranch]

/- A conditional can follow a block wherever that stands. -/
theorem isSoundWith_of_conditional
    (hSound : site.IsSoundWith [old])
    (hKind : new.kind = .conditional) :
    site.IsSoundWith [new] := by
  rcases Site.takesAll_or_held hSound with
    hTakes | ⟨outer, owner, condition, body, rfl⟩
  · exact hTakes [new]
  · have hFits := (Site.isSoundWith_elifBranch.mp hSound).2.1
    have hOld : old.kind = .conditional := by
      simpa [Fits] using hFits
    exact Site.isSoundWith_of_kind (hKind.trans hOld.symm) hSound

variable
    (hNodup :
      (idsOf
        (outer.fill
          [.conditional owner condition body .elif
            [old]])).Nodup)
variable
    (hSound :
      AreSound
        (outer.fill
          [.conditional owner condition body .elif [old]]))
include hNodup hSound

theorem rewrite_held_id
    {σ : Type}
    {editor : Editor σ}
    {s t : σ}
    {made : List Block}
    (hEditor :
      Exchanges editor (fun b => b.id = old.id) s t old made) :
    rewrite editor
        (outer.fill
          [.conditional owner condition body .elif [old]]) s =
      unlessMisfit (misfitOf owner made)
        (outer.fill
          [.conditional owner condition body
            (collapsed .elif made) made]) t := by
  rw [← Site.fill_elifBranch] at hNodup hSound ⊢
  rcases Site.id_ne_of_nodup hNodup with ⟨hAhead, hBehind⟩
  rw [Site.behind_elifBranch] at hBehind
  exact
    rewrite_held hEditor (by simpa using hAhead) hBehind
      (Site.areSound_fill.mp hSound).1

theorem replace_held
    (hKind : new.kind ≠ .conditional) :
    replace old.id new
        (outer.fill
          [.conditional owner condition body .elif [old]]) =
      .error (.malformedElif owner) := by
  have hNot : ¬Fits (collapsed .elif [new]) [new] := by
    simpa [collapsed, Fits] using hKind
  rw [replace, EStateM.run,
    rewrite_held_id hNodup hSound (replacing_exchanges new rfl),
    misfitOf, if_neg hNot]
  rfl

theorem delete_held :
    delete old.id
        (outer.fill
          [.conditional owner condition body .elif [old]]) =
      .ok
        (outer.fill
          [.conditional owner condition body .none []]) := by
  have hFits : Fits (collapsed .elif []) [] := by
    simp [collapsed, Fits]
  rw [delete, EStateM.run,
    rewrite_held_id hNodup hSound (deleting_exchanges rfl),
    misfitOf, if_pos hFits]
  rfl

end Branches

------------------------------------------------------------
-- Appending
------------------------------------------------------------

/- The target grows where it stands, or it is at fault. -/
theorem append_at_target
    {site : Site}
    {parent : String}
    {target : Block}
    (hNodup : (idsOf (site.fill [target])).Nodup)
    (hSound : AreSound (site.fill [target]))
    (hTarget :
      (documentOrder (site.fill [target])).find?
          (isAddressed parent) =
        some target)
    (child : Block) :
    (∃ fault,
        Appends parent child target (.error fault) ∧
          append parent child (site.fill [target]) =
            .error fault) ∨
      ∃ new,
        Appends parent child target (.ok new) ∧
          Answers (site.fill [new])
            (append parent child (site.fill [target])) := by
  have hAppends := appends_grown (List.find?_some hTarget) child
  rw [append_eq hSound hNodup, met?, hTarget]
  dsimp only
  cases hGrown : grown parent child target with
  | error fault =>
      rw [hGrown] at hAppends
      exact Or.inl ⟨fault, hAppends, rfl⟩
  | ok new =>
      rw [hGrown] at hAppends
      have hFits :=
        Site.isSoundWith_of_kind hAppends.kind_eq
          (Site.areSound_fill.mp hSound).1
      refine Or.inr ⟨new, hAppends, ?_⟩
      simp only [bind, Except.bind, exchange_old hNodup hFits]
      exact answers_withIdsChecked (site.fill [new])

/-
  Appending to a tree that passes its check.  The target is
  the first block, in document order, that has the name for
  its id or is a conditional whose else branch the name
  addresses.  The target grows where it stands, or its fault
  is the answer.
-/
theorem append_adds_at_target
    {blocks : List Block}
    (hCheck : checkTree blocks = .ok ())
    (parent : String)
    (child : Block) :
    ((documentOrder blocks).find? (isAddressed parent) = none →
        append parent child blocks =
          .error (.blockNotFound parent)) ∧
      ∀ target,
        (documentOrder blocks).find? (isAddressed parent) =
            some target →
          ∃ site : Site,
            blocks = site.fill [target] ∧
              ((∃ fault,
                  Appends parent child target (.error fault) ∧
                    append parent child blocks = .error fault) ∨
                ∃ new,
                  Appends parent child target (.ok new) ∧
                    Answers (site.fill [new])
                      (append parent child blocks)) := by
  rcases checkTree_eq_ok_iff.mp hCheck with ⟨hNodup, hSound⟩
  constructor
  · intro hNone
    rw [append_eq hSound hNodup, met?, hNone]
  · intro target hTarget
    rcases
      Site.exists_of_mem (List.mem_of_find?_eq_some hTarget) with
      ⟨site, rfl⟩
    exact ⟨site, rfl, append_at_target hNodup hSound hTarget child⟩

/-
  A conditional before a loop that has the name of its else
  branch, a ladder in that loop, and an `else` at the end.
-/
def sampleNest : List Block :=
  [.conditional "x" "a" [.ret "r" "1"] .none [],
    .loop "x-else" "i" "range(3)"
      [.conditional "y" "b" [] .elif
        [.conditional "z" "c" [] .none []]],
    .conditional "w" "d" [] .otherwise [.ret "t" ""]]

/-
  The name gives a branch to the conditional, not a statement
  to the loop.  The branch of the ladder is taken.
-/
theorem append_adds_at_target_nest :
    checkTree sampleNest = .ok () ∧
      append "q" (.ret "s" "") sampleNest =
          .error (.blockNotFound "q") ∧
        append "y-else" (.ret "s" "") sampleNest =
            .error (.elifBranchOccupied "y") ∧
          ∃ site : Site,
            sampleNest =
                site.fill
                  [.conditional "x" "a" [.ret "r" "1"] .none []] ∧
              Answers
                (site.fill
                  [.conditional "x" "a" [.ret "r" "1"] .otherwise
                    [.ret "s" ""]])
                (append "x-else" (.ret "s" "") sampleNest) := by
  have hCheck : checkTree sampleNest = .ok () := by rfl
  have hAppend (parent : String) :=
    append_adds_at_target hCheck parent (.ret "s" "")
  refine ⟨hCheck, (hAppend "q").1 rfl, ?_, ?_⟩
  · rcases (hAppend "y-else").2 _ rfl with
      ⟨_, _, ⟨_, hFault, hAnswer⟩ | ⟨_, hGrown, _⟩⟩
    · cases hFault with
      | bodyless hId => exact absurd hId (by decide)
      | occupied => exact hAnswer
    · cases hGrown with
      | branch hId => exact absurd hId (by decide)
      | elseBranch hName hKind => exact absurd rfl hKind
  · rcases (hAppend "x-else").2 _ rfl with
      ⟨site, hSite, ⟨_, hFault, _⟩ | ⟨_, hGrown, hAnswer⟩⟩
    · cases hFault with
      | bodyless hId => exact absurd hId (by decide)
    · cases hGrown with
      | branch hId => exact absurd hId (by decide)
      | elseBranch => exact ⟨site, hSite, hAnswer⟩

------------------------------------------------------------
-- Replacing
------------------------------------------------------------

theorem find?_eq_none_iff_forall
    {target : BlockId}
    {blocks : List Block} :
    find? target blocks = none ↔
      ∀ b ∈ documentOrder blocks, b.id ≠ target := by
  rw [find?_eq_none_iff, idsOf, List.mem_map]
  simp

theorem replace_eq_blockNotFound_iff
    {blocks : List Block}
    (hSound : AreSound blocks)
    (hNodup : (idsOf blocks).Nodup)
    (target : BlockId)
    (new : Block) :
    replace target new blocks = .error (.blockNotFound target) ↔
      find? target blocks = none := by
  rw [replace_eq hSound hNodup, exchanged]
  cases find? target blocks with
  | none => simp
  | some old =>
      cases misfit? target [new] blocks with
      | some owner => simp [bind, Except.bind]
      | none =>
          have hAnswer :=
            answers_withIdsChecked (exchange target [new] blocks)
          simpa [bind, Except.bind] using
            hAnswer.ne_blockNotFound target

/-
  Replacing in a tree that passes its check.  The block gives
  way to the new one where it stands, with all that is inside
  it.  The branch of an `elif` gives way to a conditional
  only.
-/
theorem replace_exchanges_in_place
    {blocks : List Block}
    (hCheck : checkTree blocks = .ok ())
    (target : BlockId)
    (new : Block) :
    (replace target new blocks = .error (.blockNotFound target) ↔
        ∀ b ∈ documentOrder blocks, b.id ≠ target) ∧
      ∀ old ∈ documentOrder blocks,
        old.id = target →
          ∃ site : Site,
            blocks = site.fill [old] ∧
              (∀ owner,
                IsElifOf owner old blocks →
                  new.kind ≠ .conditional →
                    replace target new blocks =
                      .error (.malformedElif owner)) ∧
                ((∀ owner, ¬IsElifOf owner old blocks) ∨
                    new.kind = .conditional →
                  Answers (site.fill [new])
                    (replace target new blocks)) := by
  rcases checkTree_eq_ok_iff.mp hCheck with ⟨hNodup, hSound⟩
  constructor
  · rw [replace_eq_blockNotFound_iff hSound hNodup,
      find?_eq_none_iff_forall]
  · intro old hOld hId
    subst hId
    rcases Site.exists_of_mem hOld with ⟨site, hSite⟩
    refine ⟨site, hSite, ?_, ?_⟩
    · rintro owner ⟨condition, body, hOwner⟩ hKind
      rcases Site.exists_of_mem hOwner with ⟨outer, rfl⟩
      exact replace_held hNodup hSound hKind
    · subst hSite
      intro hFree
      have hAround := (Site.areSound_fill.mp hSound).1
      have hFits : site.IsSoundWith [new] := by
        rcases hFree with hFree | hKind
        · exact takesAll_of_not_isElifOf hAround hFree [new]
        · exact isSoundWith_of_conditional hAround hKind
      rw [replace_fill hNodup hFits]
      exact answers_withIdsChecked _

/-
  The last rung gives way to a conditional but to no return.
-/
theorem replace_exchanges_in_place_nest :
    checkTree sampleNest = .ok () ∧
      replace "q" (.ret "s" "") sampleNest =
          .error (.blockNotFound "q") ∧
        replace "z" (.ret "s" "") sampleNest =
            .error (.malformedElif "y") ∧
          ∃ site : Site,
            sampleNest =
                site.fill [.conditional "z" "c" [] .none []] ∧
              Answers
                (site.fill [.conditional "s" "d" [] .none []])
                (replace "z" (.conditional "s" "d" [] .none [])
                  sampleNest) := by
  have hCheck : checkTree sampleNest = .ok () := by rfl
  have hOld :
      .conditional "z" "c" [] .none [] ∈
        documentOrder sampleNest := by
    simp [sampleNest, Block.inOrder, Block.inOrderAll]
  have hHeld :
      IsElifOf "y" (.conditional "z" "c" [] .none [])
        sampleNest := by
    refine ⟨"b", [], ?_⟩
    simp [sampleNest, Block.inOrder, Block.inOrderAll]
  refine ⟨hCheck, ?_, ?_, ?_⟩
  · have hAbsent : ∀ b ∈ documentOrder sampleNest, b.id ≠ "q" := by
      decide
    exact
      (replace_exchanges_in_place hCheck "q" _).1.mpr hAbsent
  · rcases (replace_exchanges_in_place hCheck "z"
      (.ret "s" "")).2 _ hOld rfl with ⟨_, _, hMalformed, _⟩
    exact hMalformed "y" hHeld (by decide)
  · rcases (replace_exchanges_in_place hCheck "z"
      (.conditional "s" "d" [] .none [])).2 _ hOld rfl with
      ⟨site, hSite, _, hAnswer⟩
    exact ⟨site, hSite, hAnswer (Or.inr rfl)⟩

------------------------------------------------------------
-- Deleting
------------------------------------------------------------

/-
  Deleting from a tree that passes its check.  The block goes
  with all that is inside it, and all others stay where they
  are.  A conditional that held it in an `elif` has no clause
  then, and one that held it in an `else` has an empty one.
-/
theorem delete_removes_in_place
    {blocks : List Block}
    (hCheck : checkTree blocks = .ok ())
    (target : BlockId) :
    ((∃ fault, delete target blocks = .error fault) ↔
        ∀ b ∈ documentOrder blocks, b.id ≠ target) ∧
      ((∀ b ∈ documentOrder blocks, b.id ≠ target) →
        delete target blocks = .error (.blockNotFound target)) ∧
      ∀ old ∈ documentOrder blocks,
        old.id = target →
          ((∀ owner, ¬IsElifOf owner old blocks) →
            ∃ site : Site,
              blocks = site.fill [old] ∧
                delete target blocks = .ok (site.fill [])) ∧
          (∀ owner condition body,
            .conditional owner condition body .elif [old] ∈
                documentOrder blocks →
              ∃ site : Site,
                blocks =
                    site.fill
                      [.conditional owner condition body .elif
                        [old]] ∧
                  delete target blocks =
                    .ok
                      (site.fill
                        [.conditional owner condition body
                          .none []])) ∧
          ∀ owner condition body,
            .conditional owner condition body .otherwise [old] ∈
                documentOrder blocks →
              ∃ site : Site,
                blocks =
                    site.fill
                      [.conditional owner condition body
                        .otherwise [old]] ∧
                  delete target blocks =
                    .ok
                      (site.fill
                        [.conditional owner condition body
                          .otherwise []]) := by
  rcases checkTree_eq_ok_iff.mp hCheck with ⟨hNodup, hSound⟩
  rw [← find?_eq_none_iff_forall]
  refine ⟨?_, ?_, ?_⟩
  · rw [delete_eq hSound hNodup]
    cases find? target blocks <;> simp
  · intro hNone
    rw [delete_eq hSound hNodup, hNone]
  · intro old hOld hId
    subst hId
    refine ⟨?_, ?_, ?_⟩
    · intro hFree
      rcases Site.exists_of_mem hOld with ⟨site, rfl⟩
      have hAround := (Site.areSound_fill.mp hSound).1
      have hTakes := takesAll_of_not_isElifOf hAround hFree
      exact ⟨site, rfl, delete_fill hNodup (hTakes [])⟩
    · intro owner condition body hOwner
      rcases Site.exists_of_mem hOwner with ⟨site, rfl⟩
      exact ⟨site, rfl, delete_held hNodup hSound⟩
    · intro owner condition body hOwner
      rcases Site.exists_of_mem hOwner with ⟨site, rfl⟩
      exact ⟨site, rfl, delete_from_else hNodup hSound⟩

/-
  The ladder loses its clause with its last rung, while an
  `else` that loses its block stays.
-/
theorem delete_removes_in_place_nest :
    checkTree sampleNest = .ok () ∧
      delete "q" sampleNest = .error (.blockNotFound "q") ∧
        (∃ site : Site,
          sampleNest = site.fill [.ret "r" "1"] ∧
            delete "r" sampleNest = .ok (site.fill [])) ∧
          (∃ site : Site,
            sampleNest =
                site.fill
                  [.conditional "y" "b" [] .elif
                    [.conditional "z" "c" [] .none []]] ∧
              delete "z" sampleNest =
                .ok
                  (site.fill
                    [.conditional "y" "b" [] .none []])) ∧
            ∃ site : Site,
              sampleNest =
                  site.fill
                    [.conditional "w" "d" [] .otherwise
                      [.ret "t" ""]] ∧
                delete "t" sampleNest =
                  .ok
                    (site.fill
                      [.conditional "w" "d" [] .otherwise
                        []]) := by
  have hCheck : checkTree sampleNest = .ok () := by rfl
  have hDelete (target : BlockId) :=
    delete_removes_in_place hCheck target
  refine ⟨hCheck, ?_, ?_, ?_, ?_⟩
  · exact (hDelete "q").2.1 (by decide)
  · have hOld : .ret "r" "1" ∈ documentOrder sampleNest := by
      simp [sampleNest, Block.inOrder, Block.inOrderAll]
    have hFree (owner : BlockId) :
        ¬IsElifOf owner (.ret "r" "1") sampleNest := by
      simp [IsElifOf, sampleNest, Block.inOrder, Block.inOrderAll]
    exact ((hDelete "r").2.2 _ hOld rfl).1 hFree
  · have hOld :
        .conditional "z" "c" [] .none [] ∈
          documentOrder sampleNest := by
      simp [sampleNest, Block.inOrder, Block.inOrderAll]
    refine ((hDelete "z").2.2 _ hOld rfl).2.1 "y" "b" [] ?_
    simp [sampleNest, Block.inOrder, Block.inOrderAll]
  · have hOld : .ret "t" "" ∈ documentOrder sampleNest := by
      simp [sampleNest, Block.inOrder, Block.inOrderAll]
    refine ((hDelete "t").2.2 _ hOld rfl).2.2 "w" "d" [] ?_
    simp [sampleNest, Block.inOrder, Block.inOrderAll]

end Edit

end BlockProgram
