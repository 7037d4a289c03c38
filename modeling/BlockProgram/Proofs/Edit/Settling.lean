import BlockProgram.Proofs.Edit.InPlace

/-
  A change of clause settles.

  Changing a clause touches one conditional and nothing
  around it.  The conditional then has a clause of the kind
  that was asked for, so the same change does nothing more.
  This does not need the new rung of an `elif` to have an id
  of its own: a search meets the conditional first, and does
  not look into it.

  Main declarations:
    * `Edit.IsMissed`
    * `Edit.Reclauses`
    * `Edit.setElse_eq_error_iff`
    * `Edit.setElse_settled`
    * `Edit.setElse_changes_one_clause`
-/

namespace BlockProgram

namespace Edit

open Block (AreSound)

variable {target : BlockId}
variable {kind : ElseKind}
variable {n next : Nat}
variable {old new : Block}

------------------------------------------------------------
-- The Changed Conditional
------------------------------------------------------------

/-
  A conditional, what it becomes with a clause of the kind,
  and the number that comes next.
-/
inductive Reclauses (n : Nat) :
    ElseKind →
    Block →
    Block →
    Nat →
    Prop where
  /- A clause of the kind stays as it is. -/
  | kept
      {id condition : String}
      {body elseBody : List Block}
      {kind : ElseKind} :
      Reclauses n kind
        (.conditional id condition body kind elseBody)
        (.conditional id condition body kind elseBody) n
  /- No clause, and a new `else`, hold no statements. -/
  | emptied
      {id condition : String}
      {body elseBody : List Block}
      {elseKind kind : ElseKind}
      (hOther : elseKind ≠ kind)
      (hKind : kind ≠ .elif) :
      Reclauses n kind
        (.conditional id condition body elseKind elseBody)
        (.conditional id condition body kind []) n
  /- A new `elif` holds a conditional to fill in. -/
  | chained
      {id condition : String}
      {body elseBody : List Block}
      {elseKind : ElseKind}
      (hOther : elseKind ≠ .elif) :
      Reclauses n .elif
        (.conditional id condition body elseKind elseBody)
        (.conditional id condition body .elif
          [.conditional (Kind.conditional.freshId n)
            defaultCondition [] .none []])
        (n + 1)

theorem reclauses_of_reclaused?
    (hNew : reclaused? kind n old = some (new, next)) :
    Reclauses n kind old new next := by
  cases old with
  | conditional id condition body elseKind elseBody =>
      rw [reclaused?] at hNew
      split at hNew
      · next hSame =>
          cases hNew
          cases hSame
          exact .kept
      · next hOther =>
          cases hNew
          cases kind with
          | none => exact .emptied hOther (by simp)
          | elif => exact .chained hOther
          | otherwise => exact .emptied hOther (by simp)
  | function => cases hNew
  | assignment => cases hNew
  | loop => cases hNew
  | ret => cases hNew
  | call => cases hNew

/- Only the clause of a conditional can be changed. -/
theorem reclaused?_eq_none_iff :
    reclaused? kind n old = none ↔ old.kind ≠ .conditional := by
  cases old with
  | conditional id condition body elseKind elseBody =>
      rw [reclaused?]
      split <;> simp [Block.kind]
  | function => simp [reclaused?, Block.kind]
  | assignment => simp [reclaused?, Block.kind]
  | loop => simp [reclaused?, Block.kind]
  | ret => simp [reclaused?, Block.kind]
  | call => simp [reclaused?, Block.kind]

theorem Reclauses.id_eq
    (hNew : Reclauses n kind old new next) :
    new.id = old.id := by
  cases hNew <;> rfl

/- What has the clause already is kept, with any number. -/
theorem Reclauses.reclaused?_again
    (hNew : Reclauses n kind old new next)
    (m : Nat) :
    reclaused? kind m new = some (new, m) := by
  cases hNew <;> simp [reclaused?]

------------------------------------------------------------
-- Failures
------------------------------------------------------------

/- Why a clause cannot be changed: no conditional is there. -/
inductive IsMissed
    (target : BlockId)
    (blocks : List Block) :
    TreeError →
    Prop where
  | absent
      (hNone : ∀ b ∈ documentOrder blocks, b.id ≠ target) :
      IsMissed target blocks (.blockNotFound target)
  | another
      {b : Block}
      (hMember : b ∈ documentOrder blocks)
      (hId : b.id = target)
      (hKind : b.kind ≠ .conditional) :
      IsMissed target blocks (.notAConditional target)

/- A change that fails takes no number. -/
theorem setElse_eq_error_iff
    {blocks : List Block}
    {fault : TreeError}
    (hSound : AreSound blocks)
    (hNodup : (idsOf blocks).Nodup) :
    setElse target kind n blocks = (.error fault, next) ↔
      IsMissed target blocks fault ∧ next = n := by
  rw [setElse_eq hSound hNodup]
  constructor
  · cases hFind : find? target blocks with
    | none =>
        rintro ⟨⟩
        exact ⟨.absent (find?_eq_none_iff_forall.mp hFind), rfl⟩
    | some old =>
        rcases find?_eq_some hFind with ⟨hMember, hId⟩
        cases hNew : reclaused? kind n old with
        | none =>
            simp only [hNew]
            rintro ⟨⟩
            exact
              ⟨.another hMember hId (reclaused?_eq_none_iff.mp hNew),
                rfl⟩
        | some made => simp [hNew]
  · rintro ⟨hMissed, rfl⟩
    cases hMissed with
    | absent hNone => rw [find?_eq_none_iff_forall.mpr hNone]
    | another hMember hId hKind =>
        subst hId
        rw [find?_of_mem hNodup hMember]
        simp only [reclaused?_eq_none_iff.mpr hKind]

------------------------------------------------------------
-- The Same Change Again
------------------------------------------------------------

variable {site : Site}

/-
  A conditional whose clause is of the kind, and that is met
  before any block with its id, is left as it is.
-/
theorem setElse_settled
    {m : Nat}
    (hAhead : ∀ b ∈ site.ahead [new], b.id ≠ new.id)
    (hBehind : ∀ b ∈ site.behind, b.id ≠ new.id)
    (hNew : reclaused? kind m new = some (new, m))
    (hSound : site.IsSoundWith [new]) :
    setElse new.id kind m (site.fill [new]) =
      (.ok (site.fill [new]), m) := by
  rw [setElse, EStateM.run,
    rewrite_at (settingElse_exchanges rfl hNew)
      (by simpa using hAhead) hBehind hSound]
  rfl

/-
  After a change the same change does nothing, and takes no
  number.  The ids around the conditional differed from its
  id before, and they are still the same.
-/
theorem setElse_again
    (hNodup : (idsOf (site.fill [old])).Nodup)
    (hSound : site.IsSoundWith [old])
    (hNew : reclaused? kind n old = some (new, next))
    (m : Nat) :
    setElse old.id kind m (site.fill [new]) =
      (.ok (site.fill [new]), m) := by
  have hReclauses := reclauses_of_reclaused? hNew
  rcases Site.id_ne_of_nodup hNodup with ⟨hAheadOld, hBehind⟩
  have hAhead : ∀ b ∈ site.ahead [new], b.id ≠ old.id :=
    Site.id_ne_ahead hAheadOld
  rw [← hReclauses.id_eq] at hAhead hBehind ⊢
  exact
    setElse_settled hAhead hBehind (hReclauses.reclaused?_again m)
      (Site.isSoundWith_of_kind (kind_reclaused? hNew) hSound)

------------------------------------------------------------
-- Changes Of A Checked Tree
------------------------------------------------------------

/-
  Changing a clause of a tree that passes its check.  It
  fails exactly when no block has the id, or the one that has
  it is no conditional, and then it takes no number.  Else
  the conditional gets its clause where it stands, and
  nothing around it changes.  The same change of the new tree
  gives that tree again and takes no number, whatever number
  comes next and also when the tree has an id twice.
-/
theorem setElse_changes_one_clause
    {blocks : List Block}
    (hCheck : checkTree blocks = .ok ())
    (target : BlockId)
    (kind : ElseKind)
    (n : Nat) :
    (∀ fault next,
      setElse target kind n blocks = (.error fault, next) ↔
        IsMissed target blocks fault ∧ next = n) ∧
      ∀ old ∈ documentOrder blocks,
        old.id = target →
          old.kind = .conditional →
            ∃ (site : Site) (new : Block) (next : Nat),
              blocks = site.fill [old] ∧
                Reclauses n kind old new next ∧
                  setElse target kind n blocks =
                      (.ok (site.fill [new]), next) ∧
                    ∀ m,
                      setElse target kind m (site.fill [new]) =
                        (.ok (site.fill [new]), m) := by
  rcases checkTree_eq_ok_iff.mp hCheck with ⟨hNodup, hSound⟩
  refine ⟨fun _ _ => setElse_eq_error_iff hSound hNodup, ?_⟩
  rintro old hOld rfl hKind
  rcases Site.exists_of_mem hOld with ⟨site, rfl⟩
  have hAround := (Site.areSound_fill.mp hSound).1
  cases hNew : reclaused? kind n old with
  | none => exact absurd hKind (reclaused?_eq_none_iff.mp hNew)
  | some made =>
      rcases made with ⟨new, next⟩
      have hFits :=
        Site.isSoundWith_of_kind (kind_reclaused? hNew) hAround
      exact
        ⟨site, new, next, rfl, reclauses_of_reclaused? hNew,
          setElse_fill hNodup hNew hFits,
          setElse_again hNodup hAround hNew⟩

/-
  The fresh id is that of the conditional itself, which then
  stands twice in the tree.
-/
theorem setElse_changes_one_clause_rungs :
    let chained : Block :=
      .conditional "if-3" "y" [] .elif
        [.conditional "if-3" "True" [] .none []]
    checkTree sampleRungs = .ok () ∧
      setElse "q" .elif 3 sampleRungs =
          (.error (.blockNotFound "q"), 3) ∧
        setElse "f" .elif 3 sampleRungs =
            (.error (.notAConditional "f"), 3) ∧
          ∃ site : Site,
            sampleRungs =
                site.fill [.conditional "if-3" "y" [] .none []] ∧
              setElse "if-3" .elif 3 sampleRungs =
                  (.ok (site.fill [chained]), 4) ∧
                ∀ m,
                  setElse "if-3" .elif m (site.fill [chained]) =
                    (.ok (site.fill [chained]), m) := by
  intro chained
  have hCheck : checkTree sampleRungs = .ok () := by rfl
  have hChange (target : BlockId) :=
    setElse_changes_one_clause hCheck target .elif 3
  refine ⟨hCheck, ?_, ?_, ?_⟩
  · exact ((hChange "q").1 _ _).mpr ⟨.absent (by decide), rfl⟩
  · have hFunction :
        .function "f" "run" []
            [.conditional "a" "x > 0" [.ret "r" "x"] .elif
              [.conditional "b" "x < 0" [] .none []]] ∈
          documentOrder sampleRungs := by
      simp [sampleRungs, Block.inOrder, Block.inOrderAll]
    exact
      ((hChange "f").1 _ _).mpr
        ⟨.another hFunction rfl (by simp [Block.kind]), rfl⟩
  · have hOld :
        .conditional "if-3" "y" [] .none [] ∈
          documentOrder sampleRungs := by
      simp [sampleRungs, Block.inOrder, Block.inOrderAll]
    rcases (hChange "if-3").2 _ hOld rfl rfl with
      ⟨site, new, next, hSite, hNew, hEdit, hAgain⟩
    cases hNew with
    | emptied _ hKind => exact absurd rfl hKind
    | chained _ => exact ⟨site, hSite, hEdit, hAgain⟩

end Edit

end BlockProgram
