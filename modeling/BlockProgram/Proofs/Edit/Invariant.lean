import BlockProgram.Proofs.Block.Soundness
import BlockProgram.Proofs.Edit.Steps

/-
  Edits and the check of a tree.

  The new block of an edit is put at one place, and the rest
  of the tree stays as it is.  So all that can go wrong with
  the new tree is inside the new block, or is a repeated id,
  and ids are checked at the end.

  Main declarations:
    * `Edit.PlacesSoundly`
    * `Edit.rewrite_placed`
    * `Edit.rewrite_deleting`
    * `Edit.edits_keep_tree_sound`
-/

namespace BlockProgram

namespace Edit

open Block (IsSound AreSound areSound_cons)

------------------------------------------------------------
-- Placing One Block
------------------------------------------------------------

/-
  An editor that has at most one block to place.  Once it has
  placed it, it keeps all others; and what it puts in the
  place of a sound block is as sound as the new block.
-/
structure PlacesSoundly
    (editor : Editor (Option Block))
    (new : Block) : Prop where
  keeps_after :
    ∀ b change s,
      editor b none = .ok change s → change = .keep ∧ s = none
  places :
    ∀ b change s,
      b.IsSound →
        editor b (some new) = .ok change s →
          (change = .keep ∧ s = some new) ∨
            ∃ c,
              change = .replace c ∧ s = none ∧
                (c.IsSound ↔ new.IsSound)

/-
  What became of a list of blocks: nothing, or the new block
  was placed among them.
-/
def Placed
    (new : Block)
    (s s' : Option Block)
    (bs bs' : List Block) : Prop :=
  (s' = s ∧ bs' = bs) ∨
    (s = some new ∧ s' = none ∧
      (AreSound bs' ↔ new.IsSound))

variable {editor : Editor (Option Block)}
variable {new : Block}

/- With nothing to place a list stays as it is. -/
theorem Placed.eq_of_none
    {s' : Option Block}
    {bs bs' : List Block}
    (h : Placed new none s' bs bs') :
    s' = none ∧ bs' = bs := by
  rcases h with h | ⟨hSome, _⟩
  · exact h
  · simp at hSome

/- The place is in a first block or among the others. -/
theorem Placed.cons
    {s t s' : Option Block}
    {b b' : Block}
    {bs bs' : List Block}
    (hFirst : Placed new s t [b] [b'])
    (hOthers : Placed new t s' bs bs')
    (hSound : AreSound (b :: bs)) :
    Placed new s s' (b :: bs) (b' :: bs') := by
  rcases areSound_cons.mp hSound with ⟨hSoundFirst, hSoundOthers⟩
  rcases hFirst with ⟨rfl, hSame⟩ | ⟨hNew, rfl, hPlaced⟩
  · rcases List.singleton_inj.mp hSame with rfl
    rcases hOthers with ⟨rfl, rfl⟩ | ⟨hNew, hNone, hPlaced⟩
    · exact Or.inl ⟨rfl, rfl⟩
    · refine Or.inr ⟨hNew, hNone, ?_⟩
      rw [areSound_cons, hPlaced]
      exact and_iff_right hSoundFirst
  · rcases hOthers.eq_of_none with ⟨rfl, rfl⟩
    refine Or.inr ⟨hNew, rfl, ?_⟩
    rw [areSound_cons, and_iff_left hSoundOthers, ← hPlaced]
    simp

/-
  A list is rebuilt soundly when the blocks in it are.  The
  induction is on the list; at each block the editor either
  keeps it, and then rebuilding decides, or has its place.
-/
theorem rewrite_placed_of_forall
    (hEditor : PlacesSoundly editor new)
    {bs : List Block}
    (hBlocks :
      ∀ b ∈ bs,
        b.IsSound →
          ∀ s s' b',
            s = none ∨ s = some new →
              rebuild editor b s = .ok b' s' →
                Placed new s s' [b] [b'])
    (hSound : AreSound bs)
    {s s' : Option Block}
    (hState : s = none ∨ s = some new)
    {bs' : List Block}
    (hRun : rewrite editor bs s = .ok bs' s') :
    Placed new s s' bs bs' := by
  induction bs generalizing s bs' with
  | nil =>
      rcases rewrite_nil_eq_ok.mp hRun with ⟨rfl, rfl⟩
      exact Or.inl ⟨rfl, rfl⟩
  | cons b bs ih =>
      have hParts := areSound_cons.mp hSound
      have hOthers :
          ∀ {t : Option Block} {others : List Block},
            t = none ∨ t = some new →
              rewrite editor bs t = .ok others s' →
                Placed new t s' bs others :=
        fun hState hRun =>
          ih (fun c hc => hBlocks c (List.mem_cons_of_mem b hc))
            hParts.2 hState hRun
      -- A block that is placed here leaves nothing to place.
      have hEdited :
          ∀ {change t},
            editor b s = .ok change t →
              (change = .keep ∧ t = s) ∨
                ∃ c,
                  change = .replace c ∧ s = some new ∧
                    t = none ∧ (c.IsSound ↔ new.IsSound) := by
        intro change t hChange
        rcases hState with rfl | rfl
        · exact Or.inl (hEditor.keeps_after b _ _ hChange)
        · rcases hEditor.places b _ _ hParts.1 hChange with
            hKeep | ⟨c, hReplace, hNone, hIff⟩
          · exact Or.inl hKeep
          · exact Or.inr ⟨c, hReplace, rfl, hNone, hIff⟩
      rcases rewrite_cons_eq_ok.mp hRun with
        ⟨t, u, kept, others, hKeep, hKept, hRest, rfl⟩ |
          ⟨t, c, others, hReplace, hRest, rfl⟩ |
          ⟨t, hRemove, _⟩
      · rcases hEdited hKeep with ⟨_, rfl⟩ | ⟨c, hChange, _⟩
        · have hFirst :=
            hBlocks b List.mem_cons_self hParts.1 t u kept hState
              hKept
          have hNext : u = none ∨ u = some new := by
            rcases hFirst with ⟨rfl, _⟩ | ⟨_, hNone, _⟩
            · exact hState
            · exact Or.inl hNone
          exact hFirst.cons (hOthers hNext hRest) hSound
        · simp at hChange
      · rcases hEdited hReplace with
          ⟨hChange, _⟩ | ⟨d, hChange, hSome, rfl, hIff⟩
        · simp at hChange
        · rcases Change.replace.inj hChange with rfl
          have hFirst : Placed new s none [b] [c] :=
            Or.inr ⟨hSome, rfl, by simpa using hIff⟩
          exact hFirst.cons (hOthers (Or.inl rfl) hRest) hSound
      · rcases hEdited hRemove with ⟨hChange, _⟩ | ⟨c, hChange, _⟩
        · simp at hChange
        · simp at hChange

/- A kept block is rebuilt as it was, or around the place. -/
theorem rebuild_placed
    (hEditor : PlacesSoundly editor new)
    (b : Block)
    (hSound : b.IsSound)
    (s s' : Option Block)
    (b' : Block)
    (hState : s = none ∨ s = some new)
    (hRun : rebuild editor b s = .ok b' s') :
    Placed new s s' [b] [b'] := by
  induction b using Block.induction generalizing s s' b' with
  | function id name parameters body ih =>
      rcases rebuild_function_eq_ok.mp hRun with
        ⟨body', hBody, rfl⟩
      have hPlaced :=
        rewrite_placed_of_forall hEditor ih
          (Block.isSound_function.mp hSound) hState hBody
      simpa [Placed] using hPlaced
  | assignment id name value =>
      rcases rebuild_assignment_eq_ok.mp hRun with ⟨rfl, rfl⟩
      exact Or.inl ⟨rfl, rfl⟩
  | conditional id condition body elseKind elseBody ihBody
      ihElse =>
      rcases rebuild_conditional_eq_ok.mp hRun with
        ⟨body', elseBody', t, hBody, hElse, hCheck, rfl⟩
      rcases Block.isSound_conditional.mp hSound with
        ⟨hShape, hSoundBody, hSoundElse⟩
      have hShape' := Block.checkElse_eq_ok_iff.mp hCheck
      have hPlacedBody :=
        rewrite_placed_of_forall hEditor ihBody hSoundBody
          hState hBody
      have hNext : t = none ∨ t = some new := by
        rcases hPlacedBody with ⟨rfl, _⟩ | ⟨_, hNone, _⟩
        · exact hState
        · exact Or.inl hNone
      have hPlacedElse :=
        rewrite_placed_of_forall hEditor ihElse hSoundElse hNext
          hElse
      -- A sound else branch does not collapse by itself.
      have hCollapsed : collapsed elseKind elseBody = elseKind := by
        cases elseKind <;> cases elseBody <;>
          simp_all [collapsed, Block.Fits]
      rcases hPlacedBody with ⟨rfl, rfl⟩ | ⟨hNew, rfl, hIff⟩
      · rcases hPlacedElse with ⟨rfl, rfl⟩ | ⟨hNew, hNone, hIff⟩
        · exact Or.inl ⟨rfl, by rw [hCollapsed]⟩
        · refine Or.inr ⟨hNew, hNone, ?_⟩
          simp [hShape', hSoundBody, hIff]
      · rcases hPlacedElse.eq_of_none with ⟨rfl, rfl⟩
        refine Or.inr ⟨hNew, rfl, ?_⟩
        simp [hShape', hSoundElse, hIff]
  | loop id iterator iterable body ih =>
      rcases rebuild_loop_eq_ok.mp hRun with ⟨body', hBody, rfl⟩
      have hPlaced :=
        rewrite_placed_of_forall hEditor ih
          (Block.isSound_loop.mp hSound) hState hBody
      simpa [Placed] using hPlaced
  | ret id value =>
      rcases rebuild_ret_eq_ok.mp hRun with ⟨rfl, rfl⟩
      exact Or.inl ⟨rfl, rfl⟩
  | call id callee arguments =>
      rcases rebuild_call_eq_ok.mp hRun with ⟨rfl, rfl⟩
      exact Or.inl ⟨rfl, rfl⟩

/- A rebuilt tree is as it was, or as sound as the new block. -/
theorem rewrite_placed
    (hEditor : PlacesSoundly editor new)
    {bs bs' : List Block}
    {s s' : Option Block}
    (hSound : AreSound bs)
    (hState : s = none ∨ s = some new)
    (hRun : rewrite editor bs s = .ok bs' s') :
    Placed new s s' bs bs' :=
  rewrite_placed_of_forall hEditor
    (fun b _ hSound s s' b' hState hRun =>
      rebuild_placed hEditor b hSound s s' b' hState hRun)
    hSound hState hRun

------------------------------------------------------------
-- The Editors That Place
------------------------------------------------------------

/- Replacing puts the new block in as it is. -/
theorem replacing_placesSoundly
    (target : BlockId)
    (new : Block) :
    PlacesSoundly (replacing target) new where
  keeps_after := by
    intro b change s hRun
    rcases bind_eq_ok.mp hRun with ⟨_, _, hGet, hRest⟩
    cases hGet
    rcases pure_eq_ok.mp hRest with ⟨rfl, rfl⟩
    exact ⟨rfl, rfl⟩
  places := by
    intro b change s _ hRun
    rcases bind_eq_ok.mp hRun with ⟨_, _, hGet, hRest⟩
    cases hGet
    by_cases hTarget : b.id = target
    · simp only [hTarget, if_true] at hRest
      rcases bind_eq_ok.mp hRest with ⟨_, _, hSet, hRest⟩
      cases hSet
      rcases pure_eq_ok.mp hRest with ⟨rfl, rfl⟩
      exact Or.inr ⟨new, rfl, rfl, Iff.rfl⟩
    · simp only [hTarget, if_false] at hRest
      rcases pure_eq_ok.mp hRest with ⟨rfl, rfl⟩
      exact Or.inl ⟨rfl, rfl⟩

/- A body grows by a block and by its faults. -/
theorem appended?_isSound_iff
    {b grown : Block}
    (hSound : b.IsSound)
    (hGrown : appended? new b = some grown) :
    grown.IsSound ↔ new.IsSound := by
  cases b with
  | function id name parameters body =>
      rcases Option.some.inj hGrown with rfl
      have hBody := Block.isSound_function.mp hSound
      simp [hBody]
  | conditional id condition body elseKind elseBody =>
      rcases Option.some.inj hGrown with rfl
      rcases Block.isSound_conditional.mp hSound with
        ⟨hShape, hBody, hElse⟩
      simp [hShape, hBody, hElse]
  | loop id iterator iterable body =>
      rcases Option.some.inj hGrown with rfl
      have hBody := Block.isSound_loop.mp hSound
      simp [hBody]
  | assignment => simp [appended?] at hGrown
  | ret => simp [appended?] at hGrown
  | call => simp [appended?] at hGrown

/- So does an else branch, which may have any shape then. -/
theorem elseAppended_isSound_iff
    {b grown : Block}
    (hSound : b.IsSound)
    (hGrown : elseAppended new b = .ok (some grown)) :
    grown.IsSound ↔ new.IsSound := by
  cases b with
  | conditional id condition body elseKind elseBody =>
      rcases Block.isSound_conditional.mp hSound with
        ⟨_, hBody, hElse⟩
      cases elseKind with
      | elif => simp [elseAppended] at hGrown
      | none =>
          rcases Option.some.inj (Except.ok.inj hGrown) with rfl
          simp [Block.Fits, hBody, hElse]
      | otherwise =>
          rcases Option.some.inj (Except.ok.inj hGrown) with rfl
          simp [Block.Fits, hBody, hElse]
  | function => simp [elseAppended] at hGrown
  | loop => simp [elseAppended] at hGrown
  | assignment => simp [elseAppended] at hGrown
  | ret => simp [elseAppended] at hGrown
  | call => simp [elseAppended] at hGrown

/- Appending replaces the parent by one that has grown. -/
theorem appending_placesSoundly
    (parent : String)
    (new : Block) :
    PlacesSoundly (appending parent) new where
  keeps_after := by
    intro b change s hRun
    rcases bind_eq_ok.mp hRun with ⟨_, _, hGet, hRest⟩
    cases hGet
    rcases pure_eq_ok.mp hRest with ⟨rfl, rfl⟩
    exact ⟨rfl, rfl⟩
  places := by
    intro b change s hSound hRun
    rcases bind_eq_ok.mp hRun with ⟨_, _, hGet, hRest⟩
    cases hGet
    by_cases hExact : b.id = parent
    · simp only [hExact, if_true] at hRest
      cases hGrown : appended? new b with
      | none =>
          rw [hGrown] at hRest
          cases hRest
      | some grown =>
          rw [hGrown] at hRest
          rcases bind_eq_ok.mp hRest with ⟨_, _, hSet, hRest⟩
          cases hSet
          rcases pure_eq_ok.mp hRest with ⟨rfl, rfl⟩
          exact
            Or.inr
              ⟨grown, rfl, rfl,
                appended?_isSound_iff hSound hGrown⟩
    · simp only [hExact, if_false] at hRest
      by_cases hElse : b.id ++ elseSuffix = parent
      · simp only [hElse, if_true] at hRest
        cases hGrown : elseAppended new b with
        | error fault =>
            rw [hGrown] at hRest
            cases hRest
        | ok grown? =>
            rw [hGrown] at hRest
            cases grown? with
            | none =>
                rcases pure_eq_ok.mp hRest with ⟨rfl, rfl⟩
                exact Or.inl ⟨rfl, rfl⟩
            | some grown =>
                rcases bind_eq_ok.mp hRest with
                  ⟨_, _, hSet, hRest⟩
                cases hSet
                rcases pure_eq_ok.mp hRest with ⟨rfl, rfl⟩
                exact
                  Or.inr
                    ⟨grown, rfl, rfl,
                      elseAppended_isSound_iff hSound hGrown⟩
      · simp only [hElse, if_false] at hRest
        rcases pure_eq_ok.mp hRest with ⟨rfl, rfl⟩
        exact Or.inl ⟨rfl, rfl⟩

/-
  An edit that placed its block made a tree without repeated
  ids, and one that is as sound as the block.
-/
theorem placed_eq_ok
    (hEditor : PlacesSoundly editor new)
    {name : String}
    {blocks edited : List Block}
    (hSound : AreSound blocks)
    (hEdit :
      placed name ((rewrite editor blocks).run (some new)) =
        .ok edited) :
    (idsOf edited).Nodup ∧
      (checkTree edited = .ok () ↔ new.IsSound) := by
  cases hRun : rewrite editor blocks (some new) with
  | error fault s => simp [EStateM.run, hRun, placed] at hEdit
  | ok edited' s =>
      simp only [EStateM.run, hRun] at hEdit
      have hPlaced :=
        rewrite_placed hEditor hSound (Or.inr rfl) hRun
      cases s with
      | some left => cases hEdit
      | none =>
          have hIff : AreSound edited' ↔ new.IsSound := by
            rcases hPlaced with ⟨hState, _⟩ | ⟨_, _, hIff⟩
            · simp at hState
            · exact hIff
          cases hIds : checkIds edited' with
          | error fault =>
              simp only [placed, hIds] at hEdit
              cases hEdit
          | ok u =>
              simp only [placed, hIds] at hEdit
              rcases Except.ok.inj hEdit with rfl
              have hNodup := checkIds_eq_ok_iff.mp hIds
              rw [checkTree_eq_ok_iff, ← hIff]
              exact ⟨hNodup, and_iff_right hNodup⟩

------------------------------------------------------------
-- Deleting
------------------------------------------------------------

/- What a deletion leaves of a list of blocks. -/
def Remains (bs bs' : List Block) : Prop :=
  AreSound bs' ∧ (idsOf bs').Sublist (idsOf bs)

theorem Remains.cons
    {b b' : Block}
    {bs bs' : List Block}
    (hFirst : Remains [b] [b'])
    (hOthers : Remains bs bs') :
    Remains (b :: bs) (b' :: bs') := by
  constructor
  · exact areSound_cons.mpr
      ⟨(areSound_cons.mp hFirst.1).1, hOthers.1⟩
  · simpa [idsOf, documentOrder, Block.inOrderAll] using
      hFirst.2.append hOthers.2

/- An emptied `elif` branch is no fault of what remains. -/
theorem rewrite_deleting_of_forall
    {target : BlockId}
    {bs : List Block}
    (hBlocks :
      ∀ b ∈ bs,
        ∀ s s' b',
          rebuild (deleting target) b s = .ok b' s' →
            Remains [b] [b'])
    {s s' : Bool}
    {bs' : List Block}
    (hRun : rewrite (deleting target) bs s = .ok bs' s') :
    Remains bs bs' := by
  induction bs generalizing s bs' with
  | nil =>
      rcases rewrite_nil_eq_ok.mp hRun with ⟨rfl, rfl⟩
      exact ⟨Block.areSound_nil, List.Sublist.refl _⟩
  | cons b bs ih =>
      have hOthers :
          ∀ {t : Bool} {others : List Block},
            rewrite (deleting target) bs t = .ok others s' →
              Remains bs others :=
        fun hRun =>
          ih (fun c hc => hBlocks c (List.mem_cons_of_mem b hc))
            hRun
      rcases rewrite_cons_eq_ok.mp hRun with
        ⟨t, u, kept, others, _, hKept, hRest, rfl⟩ |
          ⟨t, c, others, hReplace, _⟩ |
          ⟨t, _, hRest⟩
      · exact
          (hBlocks b List.mem_cons_self t u kept hKept).cons
            (hOthers hRest)
      · unfold deleting at hReplace
        split at hReplace <;> cases hReplace
      · have hRemains := hOthers hRest
        refine ⟨hRemains.1, hRemains.2.trans ?_⟩
        simp [idsOf, documentOrder, Block.inOrderAll]

theorem rebuild_deleting
    {target : BlockId}
    (b : Block)
    (s s' : Bool)
    (b' : Block)
    (hRun : rebuild (deleting target) b s = .ok b' s') :
    Remains [b] [b'] := by
  induction b using Block.induction generalizing s s' b' with
  | function id name parameters body ih =>
      rcases rebuild_function_eq_ok.mp hRun with
        ⟨body', hBody, rfl⟩
      have hRemains := rewrite_deleting_of_forall ih hBody
      constructor
      · simpa using hRemains.1
      · simpa [idsOf, documentOrder, Block.inOrderAll,
          Block.inOrder, Block.id] using hRemains.2
  | assignment id name value =>
      rcases rebuild_assignment_eq_ok.mp hRun with ⟨rfl, rfl⟩
      exact ⟨by simp, List.Sublist.refl _⟩
  | conditional id condition body elseKind elseBody ihBody
      ihElse =>
      rcases rebuild_conditional_eq_ok.mp hRun with
        ⟨body', elseBody', t, hBody, hElse, hCheck, rfl⟩
      have hRemainsBody := rewrite_deleting_of_forall ihBody hBody
      have hRemainsElse := rewrite_deleting_of_forall ihElse hElse
      have hShape := Block.checkElse_eq_ok_iff.mp hCheck
      constructor
      · simp [hShape, hRemainsBody.1, hRemainsElse.1]
      · simpa [idsOf, documentOrder, Block.inOrderAll,
          Block.inOrder, Block.id] using
          hRemainsBody.2.append hRemainsElse.2
  | loop id iterator iterable body ih =>
      rcases rebuild_loop_eq_ok.mp hRun with ⟨body', hBody, rfl⟩
      have hRemains := rewrite_deleting_of_forall ih hBody
      constructor
      · simpa using hRemains.1
      · simpa [idsOf, documentOrder, Block.inOrderAll,
          Block.inOrder, Block.id] using hRemains.2
  | ret id value =>
      rcases rebuild_ret_eq_ok.mp hRun with ⟨rfl, rfl⟩
      exact ⟨by simp, List.Sublist.refl _⟩
  | call id callee arguments =>
      rcases rebuild_call_eq_ok.mp hRun with ⟨rfl, rfl⟩
      exact ⟨by simp, List.Sublist.refl _⟩

/- What a deletion leaves passes the check of a tree. -/
theorem checkTree_of_delete
    {target : BlockId}
    {blocks edited : List Block}
    (hCheck : checkTree blocks = .ok ())
    (hEdit : delete target blocks = .ok edited) :
    checkTree edited = .ok () := by
  have hNodup := (checkTree_eq_ok_iff.mp hCheck).1
  unfold delete at hEdit
  split at hEdit
  · cases hEdit
  · cases hEdit
  · next edited' hRun =>
      rcases Except.ok.inj hEdit with rfl
      have hRemains : Remains blocks edited' :=
        rewrite_deleting_of_forall
          (fun b _ => rebuild_deleting b) hRun
      exact
        checkTree_eq_ok_iff.mpr
          ⟨hRemains.2.nodup hNodup, hRemains.1⟩

------------------------------------------------------------
-- Edits Of A Sound Tree
------------------------------------------------------------

/-
  Edits of a tree that passes its check.  When a block is
  replaced or appended, no id repeats in the new tree, and
  the tree passes exactly when all else branches inside the
  new block are sound.  When a block is deleted, the new tree
  passes.
-/
theorem edits_keep_tree_sound
    {blocks : List Block}
    (hCheck : checkTree blocks = .ok ()) :
    (∀ target new edited,
      replace target new blocks = .ok edited →
        (idsOf edited).Nodup ∧
          (checkTree edited = .ok () ↔ new.IsSound)) ∧
      (∀ parent new edited,
        append parent new blocks = .ok edited →
          (idsOf edited).Nodup ∧
            (checkTree edited = .ok () ↔ new.IsSound)) ∧
        ∀ target edited,
          delete target blocks = .ok edited →
            checkTree edited = .ok () := by
  have hSound := (checkTree_eq_ok_iff.mp hCheck).2
  refine ⟨?_, ?_, ?_⟩
  · intro target new edited hEdit
    exact
      placed_eq_ok (replacing_placesSoundly target new) hSound
        hEdit
  · intro parent new edited hEdit
    exact
      placed_eq_ok (appending_placesSoundly parent new) hSound
        hEdit
  · intro target edited hEdit
    exact checkTree_of_delete hCheck hEdit

/- A ladder of two conditionals in a function. -/
def sampleLadder : List Block :=
  [.function "f" "run" []
    [.conditional "a" "x > 0" [.ret "r" "x"] .elif
      [.conditional "b" "x < 0" [] .none []]]]

/-
  In a ladder, the chained conditional gives way to a broken
  one, gets an else branch, and goes.
-/
theorem edits_keep_ladder_sound :
    checkTree sampleLadder = .ok () ∧
      (∃ edited,
        replace "b" (.conditional "c" "y" [] .elif [])
            sampleLadder = .ok edited ∧
          (idsOf edited).Nodup ∧ checkTree edited ≠ .ok ()) ∧
      (∃ edited,
        append "b-else" (.call "c" "g" []) sampleLadder =
            .ok edited ∧
          (idsOf edited).Nodup ∧ checkTree edited = .ok ()) ∧
        ∃ edited,
          delete "b" sampleLadder = .ok edited ∧
            checkTree edited = .ok () := by
  have hCheck : checkTree sampleLadder = .ok () := by rfl
  rcases edits_keep_tree_sound hCheck with
    ⟨hReplace, hAppend, hDelete⟩
  refine ⟨hCheck, ?_, ?_, ?_⟩
  · rcases hReplace "b" (.conditional "c" "y" [] .elif []) _ rfl with
      ⟨hNodup, hIff⟩
    refine ⟨_, rfl, hNodup, fun hOk => ?_⟩
    exact absurd (hIff.mp hOk) (by decide)
  · rcases hAppend "b-else" (.call "c" "g" []) _ rfl with
      ⟨hNodup, hIff⟩
    exact ⟨_, rfl, hNodup, hIff.mpr (by decide)⟩
  · exact ⟨_, rfl, hDelete "b" _ rfl⟩

end Edit

end BlockProgram
