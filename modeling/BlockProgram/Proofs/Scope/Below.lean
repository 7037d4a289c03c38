import BlockProgram.Proofs.Edit.Undoing
import BlockProgram.Proofs.Scope.Visible

/-
  Edits that are not seen from above.

  What is visible at a block depends on the spots up to it.
  An edit changes the spots from its target on, and the
  clauses of conditionals are no part of any spot.  So it
  changes nothing for the blocks before.

  Main declarations:
    * `Scope.visibleNamesAt_of_spots`
    * `Scope.exists_spots_clause`
    * `Scope.edits_below_are_unseen`
-/

namespace BlockProgram

open Block (AreSound inOrderAll)

namespace Scope

------------------------------------------------------------
-- The Spots That Are Looked At
------------------------------------------------------------

/- What is declared before a stop can be read off the spots. -/
theorem declaredBefore_eq
    (target : BlockId)
    (blocks : List Block) :
    declaredBefore (some target) blocks =
      ((spotsAll [] blocks).takeWhile
        fun spot => spot.id ≠ target).filterMap
          Spot.declares := by
  have hMarks := map_mark_spotsAll [] blocks
  have hSpots (seen : List Spot) :
      (seen.takeWhile fun spot => spot.id ≠ target).filterMap
          Spot.declares =
        ((seen.map Spot.mark).takeWhile
          fun mark => mark.1 ≠ target).filterMap Prod.snd := by
    rw [List.takeWhile_map, List.filterMap_map]
    rfl
  rw [hSpots, hMarks, List.takeWhile_map, List.filterMap_map,
    declaredBefore, before]
  simp [Function.comp_def, eq_comm]

variable {blocks edited : List Block}
variable {ahead rest rest' : List Spot}

theorem takeWhile_append_of_mem
    {target : BlockId}
    (hMember : target ∈ ahead.map Spot.id) :
    ((ahead ++ rest).takeWhile fun spot => spot.id ≠ target) =
      ahead.takeWhile fun spot => spot.id ≠ target := by
  induction ahead with
  | nil => cases hMember
  | cons spot ahead ih =>
      rw [List.cons_append]
      by_cases hId : spot.id = target
      · rw [List.takeWhile_cons_of_neg (by simpa using hId),
          List.takeWhile_cons_of_neg (by simpa using hId)]
      · rw [List.takeWhile_cons_of_pos (by simpa using hId),
          List.takeWhile_cons_of_pos (by simpa using hId)]
        rw [List.map_cons, List.mem_cons] at hMember
        rw [ih (hMember.resolve_left (Ne.symm hId))]

/- Two trees with the same spots up to a block show it alike. -/
theorem visibleNamesAt_congr
    {target : BlockId}
    (hBlocks : spotsAll [] blocks = ahead ++ rest)
    (hEdited : spotsAll [] edited = ahead ++ rest')
    (hMember : target ∈ ahead.map Spot.id) :
    visibleNamesAt target edited = visibleNamesAt target blocks := by
  have hFound : parametersAt? target ahead ≠ none := by
    rw [ne_eq, parametersAt?_eq_none_iff, not_not]
    exact hMember
  rcases Option.ne_none_iff_exists'.mp hFound with
    ⟨parameters, hParameters⟩
  rw [visibleNamesAt_eq, visibleNamesAt_eq, declaredBefore_eq,
    declaredBefore_eq, hBlocks, hEdited,
    takeWhile_append_of_mem hMember,
    takeWhile_append_of_mem hMember, parametersAt?_append,
    parametersAt?_append, hParameters]
  rfl

/- Before one of two members that do not repeat. -/
theorem mem_of_sublist_append
    {x y : BlockId}
    {xs ys : List BlockId}
    (hNodup : (xs ++ y :: ys).Nodup)
    (hOrder : [x, y].Sublist (xs ++ y :: ys)) :
    x ∈ xs := by
  induction xs with
  | nil =>
      rw [List.nil_append, List.nodup_cons] at hNodup
      cases hOrder with
      | cons _ hRest =>
          exact absurd (hRest.subset (by simp)) hNodup.1
      | cons_cons _ hRest =>
          exact absurd (hRest.subset (by simp)) hNodup.1
  | cons z xs ih =>
      rw [List.cons_append, List.nodup_cons] at hNodup
      cases hOrder with
      | cons _ hRest =>
          exact List.mem_cons_of_mem z (ih hNodup.2 hRest)
      | cons_cons _ _ => exact List.mem_cons_self

/-
  Whatever becomes of a block and of all that follows it, the
  blocks before it show the same names.
-/
theorem visibleNamesAt_of_spots
    {x : BlockId}
    {spot : Spot}
    (hNodup : (idsOf blocks).Nodup)
    (hOrder : [x, spot.id].Sublist (idsOf blocks))
    (hBlocks : spotsAll [] blocks = ahead ++ spot :: rest)
    (hEdited : spotsAll [] edited = ahead ++ rest') :
    visibleNamesAt x edited = visibleNamesAt x blocks := by
  rw [← map_id_spotsAll [], hBlocks, List.map_append,
    List.map_cons] at hNodup hOrder
  exact
    visibleNamesAt_congr hBlocks hEdited
      (mem_of_sublist_append hNodup hOrder)

------------------------------------------------------------
-- Sites
------------------------------------------------------------

section Sites

variable {site : Site}
variable {x : BlockId}
variable {b : Block}

/- The block in a gap is not seen by those before it. -/
theorem visibleNamesAt_fill
    (bs : List Block)
    (hNodup : (idsOf (site.fill [b])).Nodup)
    (hOrder : [x, b.id].Sublist (idsOf (site.fill [b]))) :
    visibleNamesAt x (site.fill bs) =
      visibleNamesAt x (site.fill [b]) := by
  rcases exists_spots_fill none site with ⟨ahead, behind, hFill⟩
  rcases exists_spots_eq_cons (parametersOf site.function?) b with
    ⟨inside, hOwn⟩
  have hOld := (hFill [b]).2
  rw [← Site.function?, hOwn] at hOld
  exact visibleNamesAt_of_spots hNodup hOrder hOld (hFill bs).2

variable {id condition : String}
variable {body : List Block}

/- The clause of a conditional is no part of its spot. -/
theorem exists_spots_clause
    (site : Site)
    (id condition : String)
    (body : List Block) :
    ∃ ahead behind parameters,
      ∀ elseKind elseBody,
        spotsAll []
            (site.fill
              [.conditional id condition body elseKind
                elseBody]) =
          ahead ++ (spotsAll parameters elseBody ++ behind) := by
  rcases exists_spots_fill none site with ⟨ahead, behind, hFill⟩
  refine
    ⟨ahead ++
        spotOf (parametersOf site.function?)
            (.conditional id condition body .none []) ::
          spotsAll (parametersOf site.function?) body,
      behind, parametersOf site.function?, ?_⟩
  intro elseKind elseBody
  refine (hFill _).2.trans ?_
  simp [spotsAll, spots, spotOf, Block.id, Block.declared?,
    Site.function?]

/- The only block of a branch may go, and its clause with it. -/
theorem visibleNamesAt_clause
    {elseKind : ElseKind}
    (emptied : ElseKind)
    (hNodup :
      (idsOf
        (site.fill
          [.conditional id condition body elseKind [b]])).Nodup)
    (hOrder :
      [x, b.id].Sublist
        (idsOf
          (site.fill
            [.conditional id condition body elseKind [b]]))) :
    visibleNamesAt x
        (site.fill
          [.conditional id condition body emptied []]) =
      visibleNamesAt x
        (site.fill
          [.conditional id condition body elseKind [b]]) := by
  rcases exists_spots_clause site id condition body with
    ⟨ahead, behind, parameters, hClause⟩
  rcases exists_spots_eq_cons parameters b with ⟨inside, hOwn⟩
  have hHeld := hClause elseKind [b]
  rw [hOwn] at hHeld
  exact
    visibleNamesAt_of_spots hNodup hOrder hHeld (hClause emptied [])

end Sites

------------------------------------------------------------
-- Edits
------------------------------------------------------------

section Edits

variable {x : BlockId}

/- A block that comes after another one is in the tree. -/
theorem exists_site_of_sublist
    {target : BlockId}
    (hOrder : [x, target].Sublist (idsOf blocks)) :
    ∃ (site : Site) (old : Block),
      blocks = site.fill [old] ∧ old.id = target := by
  have hMember : target ∈ idsOf blocks := hOrder.subset (by simp)
  rcases List.mem_map.mp hMember with ⟨old, hOld, hId⟩
  rcases Site.exists_of_mem hOld with ⟨site, hFill⟩
  exact ⟨site, old, hFill, hId⟩

variable (hCheck : checkTree blocks = .ok ())
include hCheck

theorem replace_below_is_unseen
    {target : BlockId}
    {new : Block}
    (hEdit : Edit.replace target new blocks = .ok edited)
    (hOrder : [x, target].Sublist (idsOf blocks)) :
    visibleNamesAt x edited = visibleNamesAt x blocks := by
  rcases checkTree_eq_ok_iff.mp hCheck with ⟨hNodup, hSound⟩
  rcases exists_site_of_sublist hOrder with ⟨site, old, rfl, rfl⟩
  rcases Edit.eq_fill_of_replace hNodup hSound hEdit with ⟨rfl, _⟩
  exact visibleNamesAt_fill [new] hNodup hOrder

theorem delete_below_is_unseen
    {target : BlockId}
    (hEdit : Edit.delete target blocks = .ok edited)
    (hOrder : [x, target].Sublist (idsOf blocks)) :
    visibleNamesAt x edited = visibleNamesAt x blocks := by
  rcases checkTree_eq_ok_iff.mp hCheck with ⟨hNodup, hSound⟩
  rcases exists_site_of_sublist hOrder with ⟨site, old, rfl, rfl⟩
  rcases Site.takesAll_or_held (Site.areSound_fill.mp hSound).1 with
    hTakes | ⟨outer, owner, condition, body, rfl⟩
  · rw [Edit.delete_fill hNodup (hTakes [])] at hEdit
    rcases Except.ok.inj hEdit with rfl
    exact visibleNamesAt_fill [] hNodup hOrder
  · -- The clause of the conditional goes with its branch.
    rw [Site.fill_elifBranch] at hNodup hSound hEdit hOrder ⊢
    rw [Edit.delete_held hNodup hSound] at hEdit
    rcases Except.ok.inj hEdit with rfl
    exact visibleNamesAt_clause .none hNodup hOrder

theorem append_above_child_is_unseen
    {parent : String}
    {child : Block}
    (hEdit : Edit.append parent child blocks = .ok edited)
    (hOrder : [x, child.id].Sublist (idsOf edited)) :
    visibleNamesAt x edited = visibleNamesAt x blocks := by
  rcases checkTree_eq_ok_iff.mp hCheck with ⟨hNodup, hSound⟩
  cases hTarget :
      (documentOrder blocks).find? (Edit.isAddressed parent) with
  | none =>
      rw [Edit.append_eq hSound hNodup, Edit.met?, hTarget] at hEdit
      cases hEdit
  | some target =>
      rcases
        Site.exists_of_mem (List.mem_of_find?_eq_some hTarget)
        with ⟨site, rfl⟩
      rcases Edit.eq_fill_of_append hNodup hSound hTarget hEdit with
        ⟨new, hAppends, rfl, hEdited⟩
      by_cases hOpens : Edit.OpensElse parent target
      · -- A clause is opened, which is no part of any spot.
        rcases hOpens with
          ⟨id, condition, body, elseBody, rfl, rfl⟩
        rcases Site.areSound_fill.mp hSound with ⟨_, hOwn⟩
        rw [Block.areSound_cons, Block.isSound_conditional] at hOwn
        rcases (show elseBody = [] from hOwn.1.1) with rfl
        rcases hAppends.eq_otherwise with rfl
        exact (visibleNamesAt_clause .none hEdited hOrder).symm
      · rcases hAppends.exists_shell hOpens with
          ⟨shell, body, rfl, rfl⟩
        have hGap (bs : List Block) :
            (site.deepen shell body []).fill bs =
              site.fill [shell.close (body ++ bs)] := by
          rw [Site.fill_deepen, List.append_nil]
        rw [← hGap] at hEdited hOrder
        have hUnseen := visibleNamesAt_fill [] hEdited hOrder
        rw [hGap, hGap, List.append_nil] at hUnseen
        exact hUnseen.symm

end Edits

/-
  An edit of a tree that passes its check changes nothing
  that is visible at a block, if the block that is replaced,
  deleted or appended comes after it.
-/
theorem edits_below_are_unseen
    (hCheck : checkTree blocks = .ok ()) :
    (∀ x target new edited,
        Edit.replace target new blocks = .ok edited →
          [x, target].Sublist (idsOf blocks) →
            visibleNamesAt x edited = visibleNamesAt x blocks) ∧
      (∀ x target edited,
        Edit.delete target blocks = .ok edited →
          [x, target].Sublist (idsOf blocks) →
            visibleNamesAt x edited = visibleNamesAt x blocks) ∧
        ∀ x parent child edited,
          Edit.append parent child blocks = .ok edited →
            [x, child.id].Sublist (idsOf edited) →
              visibleNamesAt x edited =
                visibleNamesAt x blocks := by
  refine ⟨?_, ?_, ?_⟩
  · intro x target new edited hEdit hOrder
    exact replace_below_is_unseen hCheck hEdit hOrder
  · intro x target edited hEdit hOrder
    exact delete_below_is_unseen hCheck hEdit hOrder
  · intro x parent child edited hEdit hOrder
    exact append_above_child_is_unseen hCheck hEdit hOrder

/- A ladder in a function, and a conditional behind it. -/
def sampleGrowing : List Block :=
  [ .function "f" "run" ["n"]
      [ .assignment "v" "m" (.simple "0"),
        .conditional "a" "n > m" [.ret "r" "m"] .elif
          [.conditional "b" "n < m" [] .none []] ],
    .conditional "w" "m" [] .none [] ]

/- A rung with declarations of its own. -/
def sampleRung : Block :=
  .conditional "c" "n"
    [.assignment "s" "n" (.simple "1"), .loop "l" "i" "n" []]
    .none []

/-
  The ladder gets a new rung or loses its clause, and the
  conditional gets a clause.
-/
theorem edits_below_are_unseen_growing :
    checkTree sampleGrowing = .ok () ∧
      (∃ edited,
        Edit.replace "b" sampleRung sampleGrowing = .ok edited ∧
          visibleNamesAt "r" edited =
            visibleNamesAt "r" sampleGrowing) ∧
        (∃ edited,
          Edit.delete "b" sampleGrowing = .ok edited ∧
            visibleNamesAt "r" edited =
              visibleNamesAt "r" sampleGrowing) ∧
          ∃ edited,
            Edit.append "w-else" sampleRung sampleGrowing =
                .ok edited ∧
              visibleNamesAt "w" edited =
                visibleNamesAt "w" sampleGrowing := by
  have hCheck : checkTree sampleGrowing = .ok () := by rfl
  rcases edits_below_are_unseen hCheck with
    ⟨hReplace, hDelete, hAppend⟩
  have hRung : ["r", "b"].Sublist (idsOf sampleGrowing) := by
    decide
  refine
    ⟨hCheck, ⟨_, rfl, ?_⟩, ⟨_, rfl, ?_⟩, ⟨_, rfl, ?_⟩⟩
  · exact hReplace "r" "b" sampleRung _ rfl hRung
  · exact hDelete "r" "b" _ rfl hRung
  · exact hAppend "w" "w-else" sampleRung _ rfl (by decide)

end Scope

end BlockProgram
