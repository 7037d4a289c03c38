import BlockProgram.Proofs.Block.Copying
import BlockProgram.Proofs.Edit.Exact
import BlockProgram.Session

/-
  Sessions that make their ids themselves.

  Every number of an id is taken from the session's supply.
  No id of the tree can have a number that is still to come,
  so a block that is made repeats no id of the tree.

  Main declarations:
    * `Session.IsOwned`
    * `Session.IsMade`
    * `Session.make_own`
    * `Session.isOwned_of_bringsIn`
-/

namespace BlockProgram

namespace Session

open Block (AreSound isSound_of_mem)
open Edit (exchange)

------------------------------------------------------------
-- Own Blocks
------------------------------------------------------------

/- The session makes the block: it is not from elsewhere. -/
def NewBlock.IsOwn : NewBlock → Prop
  | .ofKind _ => True
  | .copyOf _ => True
  | .given _ => False

------------------------------------------------------------
-- Ids From The Supply
------------------------------------------------------------

/- The id was made with a number from `first` to `next`. -/
def IsDrawn
    (first next : Nat)
    (id : BlockId) : Prop :=
  ∃ (kind : Kind) (m : Nat),
    first ≤ m ∧ m < next ∧ id = kind.freshId m

/-
  The tree of the session is sound, and each of its ids was
  made once, with a number that has been taken.
-/
structure IsOwned (session : Session) : Prop where
  sound : AreSound session.blocks
  nodup : (idsOf session.blocks).Nodup
  drawn : ∀ id ∈ idsOf session.blocks, IsDrawn 0 session.next id

/- A block that was made with the next numbers. -/
structure IsMade
    (session made : Session)
    (b : Block) : Prop where
  blocks : made.blocks = session.blocks
  next : session.next ≤ made.next
  sound : b.IsSound
  nodup : (idsOf [b]).Nodup
  drawn :
    ∀ id ∈ idsOf [b], IsDrawn session.next made.next id

theorem isDrawn_mono
    {first first' next next' : Nat}
    {id : BlockId}
    (hFirst : first' ≤ first)
    (hNext : next ≤ next')
    (hDrawn : IsDrawn first next id) :
    IsDrawn first' next' id := by
  rcases hDrawn with ⟨kind, m, hLow, hHigh, hId⟩
  exact ⟨kind, m, by omega, by omega, hId⟩

/- Numbers that are still to come make other ids. -/
theorem ne_of_isDrawn
    {first next next' : Nat}
    {id id' : BlockId}
    (hOld : IsDrawn first next id)
    (hNew : IsDrawn next next' id') :
    id ≠ id' := by
  rcases hOld with ⟨kind, m, _, hHigh, rfl⟩
  rcases hNew with ⟨kind', m', hLow, _, rfl⟩
  intro hSame
  have hNumber := (freshId_inj hSame).2
  omega

/- Blocks that are numbered one after another are drawn. -/
theorem isDrawn_of_areNumberedFrom
    {n : Nat}
    {bs : List Block}
    (hNumbered : Block.AreNumberedFrom n bs) :
    ∀ id ∈ bs.map Block.id, IsDrawn n (n + bs.length) id := by
  intro id hId
  rcases List.mem_map.mp hId with ⟨b, hb, rfl⟩
  rcases Block.id_of_areNumberedFrom hNumbered hb with
    ⟨m, hLow, hHigh, hFresh⟩
  exact ⟨b.kind, m, hLow, hHigh, hFresh⟩

------------------------------------------------------------
-- New Blocks
------------------------------------------------------------

theorem isMade_of_areNumberedFrom
    {session : Session}
    {b : Block}
    (hSound : b.IsSound)
    (hNumbered : Block.AreNumberedFrom session.next b.inOrder) :
    IsMade session
      { session with next := session.next + b.size } b := by
  have hIds : idsOf [b] = b.inOrder.map Block.id := by
    simp [idsOf, Block.inOrderAll]
  have hDrawn := isDrawn_of_areNumberedFrom hNumbered
  rw [Block.length_inOrder] at hDrawn
  exact
    { blocks := rfl
      next := Nat.le_add_right _ _
      sound := hSound
      nodup := hIds ▸ Block.nodup_of_areNumberedFrom hNumbered
      drawn := hIds ▸ hDrawn }

theorem isMade_placeholder
    (session : Session)
    (kind : Kind) :
    IsMade session { session with next := session.next + 1 }
      (kind.placeholder session.next) := by
  have hSize : (kind.placeholder session.next).size = 1 := by
    cases kind <;> rfl
  rw [← hSize]
  apply isMade_of_areNumberedFrom
  · cases kind <;> simp [Kind.placeholder, Block.Fits]
  · cases kind <;> exact ⟨rfl, trivial⟩

/- The fault is about a name, and not about the tree. -/
def IsOfName : TreeError → Prop
  | .blockNotFound _ | .notAContainer _ | .notAConditional _
  | .elifBranchOccupied _ | .unknownKind _ => True
  | .malformedElif _ | .strayElseBody _ | .duplicateId _ => False

/- An own block is made, or its name says nothing. -/
theorem make_own
    {session : Session}
    (hOwned : IsOwned session)
    {new : NewBlock}
    (hOwn : new.IsOwn) :
    (∃ b made,
        make new session = .ok b made ∧ IsMade session made b) ∨
      ∃ fault,
        make new session = .error fault session ∧
          IsOfName fault := by
  cases new with
  | ofKind name =>
      cases hKind : Kind.ofName? name with
      | none =>
          refine Or.inr ⟨.unknownKind name, ?_, trivial⟩
          simp only [make, placeholder, hKind]
          rfl
      | some kind =>
          refine
            Or.inl ⟨_, _, ?_, isMade_placeholder session kind⟩
          simp only [make, placeholder, hKind]
          rfl
  | copyOf id =>
      cases hFind : find? id session.blocks with
      | none =>
          refine Or.inr ⟨.blockNotFound id, ?_, trivial⟩
          simp only [make, copy, Edit.get_bind, hFind]
          rfl
      | some b =>
          refine
            Or.inl
              ⟨b.renumber session.next, _, ?_,
                isMade_of_areNumberedFrom ?_ ?_⟩
          · rw [Block.size_renumber]
            simp only [make, copy, Edit.get_bind, hFind]
            rfl
          · rw [Block.isSound_renumber]
            exact
              isSound_of_mem hOwned.sound (find?_eq_some hFind).1
          · exact Block.areNumberedFrom_renumber _ b
  | given b => cases hOwn

------------------------------------------------------------
-- Trees With A New Block
------------------------------------------------------------

/- The new ids stand in one run, and all others are old. -/
def BringsIn
    (b : Block)
    (blocks edited : List Block) : Prop :=
  ∃ before behind,
    idsOf edited = before ++ (idsOf [b] ++ behind) ∧
      (before ++ behind).Sublist (idsOf blocks)

/- Ids that are brought in repeat none, if all are new. -/
theorem nodup_of_bringsIn_new
    {b : Block}
    {blocks edited : List Block}
    (hBrings : BringsIn b blocks edited)
    (hNodup : (idsOf blocks).Nodup)
    (hOwn : (idsOf [b]).Nodup)
    (hNew : ∀ id ∈ idsOf [b], id ∉ idsOf blocks) :
    (idsOf edited).Nodup := by
  rcases hBrings with ⟨before, behind, hIds, hOld⟩
  have hPerm :
      (idsOf edited).Perm (idsOf [b] ++ (before ++ behind)) := by
    rw [hIds]
    exact List.perm_append_comm_assoc _ _ _
  rw [hPerm.nodup_iff, List.nodup_append]
  refine ⟨hOwn, hOld.nodup hNodup, ?_⟩
  rintro id hId id' hId' rfl
  exact hNew id hId (hOld.subset hId')

/- A made block repeats no id of the tree. -/
theorem nodup_of_bringsIn
    {session made : Session}
    {b : Block}
    {edited : List Block}
    (hOwned : IsOwned session)
    (hMade : IsMade session made b)
    (hBrings : BringsIn b session.blocks edited) :
    (idsOf edited).Nodup := by
  apply nodup_of_bringsIn_new hBrings hOwned.nodup hMade.nodup
  intro id hId hOld
  exact ne_of_isDrawn (hOwned.drawn id hOld) (hMade.drawn id hId) rfl

theorem isOwned_of_bringsIn
    {session made : Session}
    {b : Block}
    {edited : List Block}
    (hOwned : IsOwned session)
    (hMade : IsMade session made b)
    (hBrings : BringsIn b session.blocks edited)
    (hSound : AreSound edited) :
    IsOwned { made with blocks := edited } where
  sound := hSound
  nodup := nodup_of_bringsIn hOwned hMade hBrings
  drawn := by
    rcases hBrings with ⟨before, behind, hIds, hOld⟩
    intro id hId
    rw [hIds, List.mem_append, List.mem_append, or_left_comm,
      ← List.mem_append] at hId
    rcases hId with hId | hId
    · exact
        isDrawn_mono (Nat.zero_le _) (Nat.le_refl _)
          (hMade.drawn id hId)
    · exact
        isDrawn_mono (Nat.le_refl _) hMade.next
          (hOwned.drawn id (hOld.subset hId))

/- A new block for an old one brings its ids in. -/
theorem bringsIn_exchange
    {blocks : List Block}
    {old b new : Block}
    (hNodup : (idsOf blocks).Nodup)
    (hFind : find? old.id blocks = some old)
    (hNew : BringsIn b [old] [new]) :
    BringsIn b blocks (exchange old.id [new] blocks) := by
  rcases Edit.exchangesRun_exchange hNodup hFind with
    ⟨before, behind, hOld, hExchanged⟩
  rcases hNew with ⟨before', behind', hIds, hInner⟩
  refine ⟨before ++ before', behind' ++ behind, ?_, ?_⟩
  · have hEdited := hExchanged [new]
    simp only at hEdited
    rw [hEdited, hIds]
    simp
  · rw [hOld]
    have hMiddle := hInner.append (List.Sublist.refl behind)
    simpa using (List.Sublist.refl before).append hMiddle

/- What has grown has brought in the child. -/
theorem bringsIn_of_appends
    {parent : String}
    {child old new : Block}
    (hAppends : Edit.Appends parent child old (.ok new)) :
    BringsIn child [old] [new] := by
  cases hAppends with
  | @function id name parameters body hId =>
      exact ⟨id :: idsOf body, [], by simp, by simp⟩
  | @branch id condition body elseBody elseKind hId =>
      exact ⟨id :: idsOf body, idsOf elseBody, by simp, by simp⟩
  | @loop id iterator iterable body hId =>
      exact ⟨id :: idsOf body, [], by simp, by simp⟩
  | @elseBranch id condition body elseBody elseKind hName =>
      exact
        ⟨id :: (idsOf body ++ idsOf elseBody), [], by simp,
          by simp⟩

end Session

end BlockProgram
