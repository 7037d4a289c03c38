import BlockProgram.Proofs.Edit.Invariant
import BlockProgram.Proofs.Session.Supply
import BlockProgram.Proofs.Source.Freshness

/-
  Sessions that make all of their blocks themselves.

  Such a session starts without blocks and is owned from then
  on: each step leaves it so, whether it is done or fails.
  The tree passes its check after any number of steps.

  Main declarations:
    * `Session.IsExpected`
    * `Session.isExpected_of_perform`
    * `Session.isOwned_after`
    * `Session.isOwned_run`
    * `Session.own_steps_keep_tree_sound`
-/

namespace BlockProgram

namespace Session

open Block (AreSound)
open Edit (exchange)

------------------------------------------------------------
-- Own Steps
------------------------------------------------------------

/- The step brings in no block from elsewhere. -/
def Step.IsOwn : Step → Prop
  | .replace _ new => new.IsOwn
  | .append _ new => new.IsOwn
  | .push new => new.IsOwn
  | .delete _ => True
  | .setElse _ _ => True
  | .parse _ => True
  | .load _ => False
  | .reparse => True

/- The session behind a step, whether it fails or not. -/
def after
    (session : Session)
    (step : Step) : Session :=
  match perform step session with
  | .ok _ next => next
  | .error _ left => left

/- The session behind some steps, one after another. -/
def run
    (session : Session)
    (steps : List Step) : Session :=
  steps.foldl after session

------------------------------------------------------------
-- Steps With A New Block
------------------------------------------------------------

/-
  The step puts a block that is no conditional in the place
  of the one that the owner's `elif` branch holds.
-/
def Misplaces
    (session : Session)
    (step : Step)
    (owner : BlockId) : Prop :=
  ∃ target new b made,
    step = .replace target new ∧
      make new session = .ok b made ∧
        b.kind ≠ .conditional ∧
          ∃ condition body held,
            .conditional owner condition body .elif [held] ∈
                documentOrder session.blocks ∧
              held.id = target

/-
  A step that leaves an owned session: it was done, or it
  changed nothing but the supply, for a reason that is known.
-/
def IsExpected
    (session : Session)
    (step : Step) :
    EStateM.Result TreeError Session Unit →
    Prop
  | .ok _ next => IsOwned next
  | .error fault left =>
      left.blocks = session.blocks ∧
        session.next ≤ left.next ∧
          (IsOfName fault ∨
            ∃ owner,
              fault = .malformedElif owner ∧
                Misplaces session step owner)

theorem perform_eq
    (step : Step)
    (session : Session) :
    perform step session =
      match edited step session with
      | .ok blocks next => .ok () { next with blocks := blocks }
      | .error fault left => .error fault left := by
  simp only [perform, bind, EStateM.bind]
  cases edited step session <;> rfl

/- The ids of an edited tree are checked in vain. -/
theorem withIdsChecked_eq_ok
    {blocks : List Block}
    (hNodup : (idsOf blocks).Nodup) :
    Edit.withIdsChecked blocks = .ok blocks := by
  rw [Edit.withIdsChecked, checkIds_eq_ok_iff.mpr hNodup]
  rfl

/- A placed block leaves a tree as sound as itself. -/
theorem areSound_of_placed
    {editor : Edit.Editor (Option Block)}
    {name : String}
    {b : Block}
    {blocks placed : List Block}
    (hEditor : Edit.PlacesSoundly editor b)
    (hSound : AreSound blocks)
    (hNew : b.IsSound)
    (hEdit :
      Edit.placed name
          ((Edit.rewrite editor blocks).run (some b)) =
        .ok placed) :
    AreSound placed := by
  have hCheck := (Edit.placed_eq_ok hEditor hSound hEdit).2.mpr hNew
  exact (checkTree_eq_ok_iff.mp hCheck).2

/- A step with an own block is expected if its edit is. -/
theorem isExpected_of_make
    {session : Session}
    (hOwned : IsOwned session)
    {step : Step}
    {new : NewBlock}
    (hOwn : new.IsOwn)
    (edit : Block → List Block → Except TreeError (List Block))
    (hEdited :
      edited step =
        (do
          let b ← make new
          attempt (edit b (← get).blocks)))
    (hEdit :
      ∀ b made,
        make new session = .ok b made →
          IsMade session made b →
            match edit b session.blocks with
            | .ok blocks =>
                BringsIn b session.blocks blocks ∧ AreSound blocks
            | .error fault =>
                IsOfName fault ∨
                  ∃ owner,
                    fault = .malformedElif owner ∧
                      Misplaces session step owner) :
    IsExpected session step (perform step session) := by
  rw [perform_eq, hEdited]
  rcases make_own hOwned hOwn with
    ⟨b, made, hMake, hMade⟩ | ⟨fault, hMake, hName⟩
  · have hOutcome := hEdit b made hMake hMade
    rw [Edit.bind_of_ok hMake, Edit.get_bind, hMade.blocks]
    cases hRun : edit b session.blocks with
    | ok blocks =>
        rw [hRun] at hOutcome
        exact
          isOwned_of_bringsIn hOwned hMade hOutcome.1 hOutcome.2
    | error fault =>
        rw [hRun] at hOutcome
        exact ⟨hMade.blocks, hMade.next, hOutcome⟩
  · rw [Edit.bind_of_error hMake]
    exact ⟨rfl, Nat.le_refl _, Or.inl hName⟩

theorem isExpected_replace
    {session : Session}
    (hOwned : IsOwned session)
    (target : BlockId)
    {new : NewBlock}
    (hOwn : new.IsOwn) :
    IsExpected session (.replace target new)
      (perform (.replace target new) session) := by
  apply isExpected_of_make hOwned hOwn (Edit.replace target) rfl
  intro b made hMake hMade
  have hEq := Edit.replace_eq hOwned.sound hOwned.nodup target b
  cases hFind : find? target session.blocks with
  | none =>
      rw [hFind] at hEq
      rw [hEq]
      exact Or.inl trivial
  | some old =>
      have hId := (find?_eq_some hFind).2
      have hBrings :
          BringsIn b session.blocks
            (exchange target [b] session.blocks) := by
        rw [← hId] at hFind ⊢
        exact
          bringsIn_exchange hOwned.nodup hFind
            ⟨[], [], by simp, by simp⟩
      rw [hFind] at hEq
      cases hMisfit : Edit.misfit? target [b] session.blocks with
      | some owner =>
          rcases Edit.misfit?_eq_some hMisfit with ⟨hKind, hHeld⟩
          simp only [Edit.exchanged, hMisfit] at hEq
          rw [hEq]
          exact
            Or.inr
              ⟨owner, rfl, target, new, b, made, rfl, hMake, hKind,
                hHeld⟩
      | none =>
          have hNodup := nodup_of_bringsIn hOwned hMade hBrings
          simp only [Edit.exchanged, hMisfit] at hEq
          have hEdit := hEq.trans (withIdsChecked_eq_ok hNodup)
          rw [hEdit]
          exact
            ⟨hBrings,
              areSound_of_placed
                (Edit.replacing_placesSoundly target b)
                hOwned.sound hMade.sound hEdit⟩

/- Only a name can keep a block from being appended. -/
theorem isOfName_of_appends
    {parent : String}
    {child old : Block}
    {fault : TreeError}
    (hAppends : Edit.Appends parent child old (.error fault)) :
    IsOfName fault := by
  cases hAppends with
  | bodyless => trivial
  | occupied => trivial

theorem isExpected_append
    {session : Session}
    (hOwned : IsOwned session)
    (parent : String)
    {new : NewBlock}
    (hOwn : new.IsOwn) :
    IsExpected session (.append parent new)
      (perform (.append parent new) session) := by
  apply isExpected_of_make hOwned hOwn (Edit.append parent) rfl
  intro b made _ hMade
  have hEq := Edit.append_eq hOwned.sound hOwned.nodup parent b
  cases hMet :
      Edit.met? (Edit.isAddressed parent) session.blocks with
  | none =>
      rw [hMet] at hEq
      rw [hEq]
      exact Or.inl trivial
  | some old =>
      rw [hMet] at hEq
      have hAppends := Edit.appends_grown (List.find?_some hMet) b
      cases hGrown : Edit.grown parent b old with
      | error fault =>
          rw [hGrown] at hAppends
          simp only [hGrown] at hEq
          rw [hEq]
          exact Or.inl (isOfName_of_appends hAppends)
      | ok grown =>
          rw [hGrown] at hAppends
          have hOld := List.mem_of_find?_eq_some hMet
          have hBrings :
              BringsIn b session.blocks
                (exchange old.id [grown] session.blocks) :=
            bringsIn_exchange hOwned.nodup
              (find?_of_mem hOwned.nodup hOld)
              (bringsIn_of_appends hAppends)
          have hNodup := nodup_of_bringsIn hOwned hMade hBrings
          simp only [hGrown] at hEq
          have hEdit := hEq.trans (withIdsChecked_eq_ok hNodup)
          rw [hEdit]
          exact
            ⟨hBrings,
              areSound_of_placed
                (Edit.appending_placesSoundly parent b)
                hOwned.sound hMade.sound hEdit⟩

theorem isExpected_push
    {session : Session}
    (hOwned : IsOwned session)
    {new : NewBlock}
    (hOwn : new.IsOwn) :
    IsExpected session (.push new)
      (perform (.push new) session) := by
  apply isExpected_of_make hOwned hOwn
    (fun b blocks => .ok (blocks ++ [b])) rfl
  intro b made _ hMade
  constructor
  · exact ⟨idsOf session.blocks, [], by simp, by simp⟩
  · simpa using ⟨hOwned.sound, hMade.sound⟩

------------------------------------------------------------
-- Other Steps
------------------------------------------------------------

theorem isExpected_delete
    {session : Session}
    (hOwned : IsOwned session)
    (target : BlockId) :
    IsExpected session (.delete target)
      (perform (.delete target) session) := by
  have hRun :
      edited (.delete target) session =
        attempt (Edit.delete target session.blocks) session := rfl
  have hEq := Edit.delete_eq hOwned.sound hOwned.nodup target
  rw [perform_eq, hRun]
  cases hFind : find? target session.blocks with
  | none =>
      rw [hFind] at hEq
      rw [hEq]
      exact ⟨rfl, Nat.le_refl _, Or.inl trivial⟩
  | some old =>
      rw [hFind] at hEq
      have hId := (find?_eq_some hFind).2
      have hSublist :
          (idsOf (exchange target [] session.blocks)).Sublist
            (idsOf session.blocks) := by
        rcases Edit.exchangesRun_exchange hOwned.nodup hFind with
          ⟨before, behind, hOld, hNew⟩
        have hEdited := hNew []
        simp only at hEdited
        rw [hEdited, hOld]
        simp
      have hCheck :=
        Edit.checkTree_of_delete
          (checkTree_eq_ok_iff.mpr ⟨hOwned.nodup, hOwned.sound⟩)
          hEq
      rw [hEq]
      rcases checkTree_eq_ok_iff.mp hCheck with ⟨hNodup, hSound⟩
      exact
        { sound := hSound
          nodup := hNodup
          drawn := fun id hId =>
            hOwned.drawn id (hSublist.subset hId) }

/- Only a name can keep a clause from being changed. -/
theorem isOfName_of_setElse
    {session : Session}
    (hOwned : IsOwned session)
    {target : BlockId}
    {kind : ElseKind}
    {fault : TreeError}
    {next : Nat}
    (hEdit :
      Edit.setElse target kind session.next session.blocks =
        (.error fault, next)) :
    IsOfName fault ∧ next = session.next := by
  rw [Edit.setElse_eq hOwned.sound hOwned.nodup] at hEdit
  split at hEdit
  · cases hEdit
    exact ⟨trivial, rfl⟩
  · split at hEdit
    · cases hEdit
      exact ⟨trivial, rfl⟩
    · cases hEdit

theorem isOwned_of_setElse
    {session : Session}
    (hOwned : IsOwned session)
    {target : BlockId}
    {kind : ElseKind}
    {blocks : List Block}
    {next : Nat}
    (hEdit :
      Edit.setElse target kind session.next session.blocks =
        (.ok blocks, next)) :
    IsOwned ⟨next, blocks⟩ := by
  rcases Edit.setElse_eq_ok hEdit with ⟨search, hRun, _, _⟩
  have hSound : AreSound blocks :=
    Edit.areSound_of_rewrite
      (fun _ _ _ _ => Edit.isSound_of_settingElse) hOwned.sound
      hRun
  rcases Edit.idsOf_setElse hOwned.nodup hEdit with
    ⟨rfl, hIds⟩ | ⟨rfl, before, behind, hIds, hOld⟩
  · exact
      { sound := hSound
        nodup := hIds.nodup hOwned.nodup
        drawn := fun id hId =>
          hOwned.drawn id (hIds.subset hId) }
  · -- The new conditional is made as a placeholder is.
    have hMade := isMade_placeholder session .conditional
    have hBrings :
        BringsIn (Kind.conditional.placeholder session.next)
          session.blocks blocks := by
      refine ⟨before, behind, ?_, hOld⟩
      rw [hIds]
      simp [Kind.placeholder]
    exact isOwned_of_bringsIn hOwned hMade hBrings hSound

theorem isExpected_setElse
    {session : Session}
    (hOwned : IsOwned session)
    (target : BlockId)
    (kind : ElseKind) :
    IsExpected session (.setElse target kind)
      (perform (.setElse target kind) session) := by
  have hRun :
      edited (.setElse target kind) session =
        attempt
          (Edit.setElse target kind session.next
            session.blocks).1
          { session with
            next :=
              (Edit.setElse target kind session.next
                session.blocks).2 } :=
    rfl
  rw [perform_eq, hRun]
  cases hEdit :
      Edit.setElse target kind session.next session.blocks with
  | mk outcome next =>
      cases outcome with
      | error fault =>
          rcases isOfName_of_setElse hOwned hEdit with
            ⟨hName, rfl⟩
          exact ⟨rfl, Nat.le_refl _, Or.inl hName⟩
      | ok blocks => exact isOwned_of_setElse hOwned hEdit

/- What is read takes its ids from the supply. -/
theorem isOwned_parse
    (n : Nat)
    (source : String) :
    IsOwned
      ⟨n + Block.sizeAll (Source.parse n source),
        Source.parse n source⟩ where
  sound := Source.areSound_parse n source
  nodup :=
    Block.nodup_idsOf_of_areNumberedFrom
      (Source.areNumberedFrom_parse n source)
  drawn := by
    have hDrawn :=
      isDrawn_of_areNumberedFrom
        (Source.areNumberedFrom_parse n source)
    rw [Block.length_closingAll] at hDrawn
    intro id hId
    have hPerm :=
      (Block.closingAll_perm (Source.parse n source)).map Block.id
    exact
      isDrawn_mono (Nat.zero_le _) (Nat.le_refl _)
        (hDrawn id (hPerm.mem_iff.mpr hId))

theorem isExpected_of_parsed
    {session : Session}
    {step : Step}
    {source : String}
    (hRun : edited step session = parsed source session) :
    IsExpected session step (perform step session) := by
  rw [perform_eq, hRun]
  exact isOwned_parse session.next source

theorem isExpected_reparse
    {session : Session}
    (hOwned : IsOwned session) :
    IsExpected session .reparse (perform .reparse session) := by
  have hText :=
    Source.compile_of_areSound hOwned.sound Source.defaultWidth
  apply isExpected_of_parsed
  simp only [edited, Edit.get_bind, hText]
  rfl

------------------------------------------------------------
-- All Steps
------------------------------------------------------------

/- An own step of an owned session comes out as expected. -/
theorem isExpected_of_perform
    {session : Session}
    (hOwned : IsOwned session)
    {step : Step}
    (hOwn : step.IsOwn) :
    IsExpected session step (perform step session) := by
  cases step with
  | replace target new =>
      exact isExpected_replace hOwned target hOwn
  | append parent new =>
      exact isExpected_append hOwned parent hOwn
  | push new => exact isExpected_push hOwned hOwn
  | delete target => exact isExpected_delete hOwned target
  | setElse target kind =>
      exact isExpected_setElse hOwned target kind
  | parse source => exact isExpected_of_parsed rfl
  | load blocks => cases hOwn
  | reparse => exact isExpected_reparse hOwned

/- A step that fails takes numbers, and changes no id. -/
theorem isOwned_of_left
    {session left : Session}
    (hOwned : IsOwned session)
    (hBlocks : left.blocks = session.blocks)
    (hNext : session.next ≤ left.next) :
    IsOwned left where
  sound := hBlocks ▸ hOwned.sound
  nodup := hBlocks ▸ hOwned.nodup
  drawn := by
    intro id hId
    rw [hBlocks] at hId
    exact
      isDrawn_mono (Nat.le_refl _) hNext (hOwned.drawn id hId)

/- What one step leaves. -/
theorem isOwned_after
    {session : Session}
    (hOwned : IsOwned session)
    {step : Step}
    (hOwn : step.IsOwn) :
    IsOwned (session.after step) := by
  have hExpected := isExpected_of_perform hOwned hOwn
  unfold after
  cases hRun : perform step session with
  | ok u next =>
      rw [hRun] at hExpected
      exact hExpected
  | error fault left =>
      rw [hRun] at hExpected
      exact isOwned_of_left hOwned hExpected.1 hExpected.2.1

/- What any number of steps leaves, by induction on them. -/
theorem isOwned_run
    {session : Session}
    (hOwned : IsOwned session)
    {steps : List Step}
    (hOwn : ∀ step ∈ steps, step.IsOwn) :
    IsOwned (session.run steps) := by
  induction steps generalizing session with
  | nil => exact hOwned
  | cons step steps ih =>
      rw [List.forall_mem_cons] at hOwn
      exact ih (isOwned_after hOwned hOwn.1) hOwn.2

theorem isOwned_empty (n : Nat) : IsOwned ⟨n, []⟩ where
  sound := Block.areSound_nil
  nodup := List.nodup_nil
  drawn := fun id hId => by cases hId

/-
  A session that starts without blocks and makes all of its
  blocks itself, by any number of steps in any order, with
  any targets.  The tree passes its check and can be written.
  A further step that fails leaves the tree as it was.  It
  never finds an id twice or statements without a clause, and
  it finds an `elif` of a wrong shape only if it was to put
  another block for the conditional of that `elif`.
-/
theorem own_steps_keep_tree_sound
    (n : Nat)
    {steps : List Step}
    (hOwn : ∀ step ∈ steps, step.IsOwn) :
    checkTree (run ⟨n, []⟩ steps).blocks = .ok () ∧
      (∀ width, ∃ text,
        Source.compile width (run ⟨n, []⟩ steps).blocks =
          .ok text) ∧
        ∀ step fault left,
          step.IsOwn →
            perform step (run ⟨n, []⟩ steps) = .error fault left →
              left.blocks = (run ⟨n, []⟩ steps).blocks ∧
                (∀ id, fault ≠ .duplicateId id) ∧
                  (∀ id, fault ≠ .strayElseBody id) ∧
                    ∀ owner,
                      fault = .malformedElif owner →
                        Misplaces (run ⟨n, []⟩ steps) step
                          owner := by
  have hOwned := isOwned_run (isOwned_empty n) hOwn
  refine ⟨?_, ?_, ?_⟩
  · exact checkTree_eq_ok_iff.mpr ⟨hOwned.nodup, hOwned.sound⟩
  · intro width
    exact ⟨_, Source.compile_of_areSound hOwned.sound width⟩
  · intro step fault left hStep hRun
    have hExpected := isExpected_of_perform hOwned hStep
    rw [hRun] at hExpected
    rcases hExpected with
      ⟨hBlocks, _, hName | ⟨owner, rfl, hMisplaces⟩⟩
    · refine ⟨hBlocks, ?_, ?_, ?_⟩
      · rintro id rfl
        exact hName
      · rintro id rfl
        exact hName
      · rintro owner rfl
        exact absurd hName id
    · refine ⟨hBlocks, by simp, by simp, ?_⟩
      rintro owner' hSame
      rcases TreeError.malformedElif.inj hSame with rfl
      exact hMisplaces

/- A conditional gets an `elif`, and both are copied. -/
def ladderSteps : List Step :=
  [ .push (.ofKind "if"), .setElse "if-1" .elif,
    .push (.copyOf "if-1") ]

/-
  Behind these steps the first `elif` cannot be replaced by a
  return.  All that was made passes the check.
-/
theorem own_steps_keep_tree_sound_ladder :
    (∀ step ∈ ladderSteps, step.IsOwn) ∧
      idsOf (run ⟨1, []⟩ ladderSteps).blocks =
          ["if-1", "if-2", "if-3", "if-4"] ∧
        checkTree (run ⟨1, []⟩ ladderSteps).blocks = .ok () ∧
          ∃ left,
            perform (.replace "if-2" (.ofKind "return"))
                  (run ⟨1, []⟩ ladderSteps) =
                .error (.malformedElif "if-1") left ∧
              left.blocks = (run ⟨1, []⟩ ladderSteps).blocks ∧
                Misplaces (run ⟨1, []⟩ ladderSteps)
                  (.replace "if-2" (.ofKind "return")) "if-1" := by
  have hOwn : ∀ step ∈ ladderSteps, step.IsOwn := by
    simp [ladderSteps, Step.IsOwn, NewBlock.IsOwn]
  have hFails :
      perform (.replace "if-2" (.ofKind "return"))
          (run ⟨1, []⟩ ladderSteps) =
        .error (.malformedElif "if-1")
          ⟨6, (run ⟨1, []⟩ ladderSteps).blocks⟩ := by rfl
  rcases own_steps_keep_tree_sound 1 hOwn with
    ⟨hCheck, _, hFaults⟩
  have hStep :
      (Step.replace "if-2" (.ofKind "return")).IsOwn := trivial
  rcases hFaults _ _ _ hStep hFails with
    ⟨hBlocks, _, _, hMalformed⟩
  exact
    ⟨hOwn, rfl, hCheck, _, hFails, hBlocks, hMalformed _ rfl⟩

end Session

end BlockProgram
