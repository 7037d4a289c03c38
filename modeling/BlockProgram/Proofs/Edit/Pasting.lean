import BlockProgram.Proofs.Block.Drawing
import BlockProgram.Proofs.Edit.InPlace
import BlockProgram.Proofs.Session.Own
import BlockProgram.Proofs.Source.Reformatting

/-
  Copies that are pasted into a tree.

  A copy differs from its original in the ids alone, so it is
  written as the original is.  Its ids are new to any tree
  that holds none from the supply's next number on, and so it
  can be appended wherever a block can be.

  Main declarations:
    * `Source.withoutIds_renumber`
    * `TreeError.withoutId`
    * `Source.compile_renumber`
    * `Edit.append_ne_duplicateId`
    * `Edit.copy_pastes`
-/

namespace BlockProgram

/- The same fault of a conditional that is not named. -/
def TreeError.withoutId : TreeError → TreeError
  | .malformedElif _ => .malformedElif Source.noId
  | .strayElseBody _ => .strayElseBody Source.noId
  | fault => fault

namespace Source

open Block (renumber renumberAll closing closingAll fault?)

------------------------------------------------------------
-- What A Copy Keeps
------------------------------------------------------------

theorem withoutIds_renumberAll_of_forall
    {bs : List Block}
    (h : ∀ b ∈ bs, ∀ n, withoutIds (renumber n b) = withoutIds b)
    (n : Nat) :
    (renumberAll n bs).map withoutIds = bs.map withoutIds := by
  induction bs generalizing n with
  | nil => rfl
  | cons b bs ih =>
      rw [List.forall_mem_cons] at h
      rw [renumberAll, List.map_cons, List.map_cons, h.1, ih h.2]

/- A copy is the original in all but its ids. -/
theorem withoutIds_renumber
    (b : Block)
    (n : Nat) :
    withoutIds (renumber n b) = withoutIds b := by
  induction b using Block.induction generalizing n with
  | function id name parameters body ih =>
      have hBody := withoutIds_renumberAll_of_forall ih
      simp only [withoutIds, renumber, respell,
        respellAll_eq_map] at hBody ⊢
      rw [hBody]
  | assignment id name value => rfl
  | conditional id condition body elseKind elseBody ihBody
      ihElse =>
      have hBody := withoutIds_renumberAll_of_forall ihBody
      have hElse := withoutIds_renumberAll_of_forall ihElse
      simp only [withoutIds, renumber, respell,
        respellAll_eq_map] at hBody hElse ⊢
      rw [hBody, hElse]
  | loop id iterator iterable body ih =>
      have hBody := withoutIds_renumberAll_of_forall ih
      simp only [withoutIds, renumber, respell,
        respellAll_eq_map] at hBody ⊢
      rw [hBody]
  | ret id value => rfl
  | call id callee arguments => rfl

/- The kinds of a copy stand where those of the original do. -/
theorem map_kind_inOrder_renumber
    (b : Block)
    (n : Nat) :
    (renumber n b).inOrder.map Block.kind =
      b.inOrder.map Block.kind := by
  have hKinds (c : Block) :
      (withoutIds c).inOrder.map Block.kind =
        c.inOrder.map Block.kind := by
    rw [inOrder_withoutIds, List.map_map]
    exact List.map_congr_left fun d _ => kind_withoutIds d
  rw [← hKinds, withoutIds_renumber, hKinds]

/- The ids of a copy, block by block. -/
theorem map_id_inOrder_renumber
    (b : Block)
    (n : Nat) :
    (renumber n b).inOrder.map Block.id =
      List.zipWith Kind.freshId (b.inOrder.map Block.kind)
        (List.range' n b.size) := by
  rw [Block.map_id_of_areNumberedFrom
      (Block.areNumberedFrom_renumber n b),
    map_kind_inOrder_renumber, Block.length_inOrder,
    Block.size_renumber]

------------------------------------------------------------
-- Writing A Copy
------------------------------------------------------------

theorem closingAll_withoutIds_of_forall
    {bs : List Block}
    (h :
      ∀ b ∈ bs,
        closing (withoutIds b) = (closing b).map withoutIds) :
    closingAll (bs.map withoutIds) =
      (closingAll bs).map withoutIds := by
  induction bs with
  | nil => rfl
  | cons b bs ih =>
      rw [List.forall_mem_cons] at h
      rw [List.map_cons, closingAll, closingAll, List.map_append,
        h.1, ih h.2]

theorem closing_withoutIds (b : Block) :
    closing (withoutIds b) = (closing b).map withoutIds := by
  induction b using Block.induction with
  | function id name parameters body ih =>
      have hBody := closingAll_withoutIds_of_forall ih
      simp only [withoutIds, respell, respellAll_eq_map, closing,
        List.map_append, List.map_cons, List.map_nil] at hBody ⊢
      rw [hBody]
  | assignment id name value => rfl
  | conditional id condition body elseKind elseBody ihBody
      ihElse =>
      have hBody := closingAll_withoutIds_of_forall ihBody
      have hElse := closingAll_withoutIds_of_forall ihElse
      simp only [withoutIds, respell, respellAll_eq_map, closing,
        List.map_append, List.map_cons] at hBody hElse ⊢
      rw [hBody, hElse]
  | loop id iterator iterable body ih =>
      have hBody := closingAll_withoutIds_of_forall ih
      simp only [withoutIds, respell, respellAll_eq_map, closing,
        List.map_append, List.map_cons, List.map_nil] at hBody ⊢
      rw [hBody]
  | ret id value => rfl
  | call id callee arguments => rfl

theorem fault?_withoutIds (b : Block) :
    fault? (withoutIds b) =
      (fault? b).map TreeError.withoutId := by
  cases b with
  | conditional id condition body elseKind elseBody =>
      simp only [withoutIds, respell, respellAll_eq_map, fault?]
      cases elseKind with
      | none => cases elseBody <;> rfl
      | elif =>
          rcases elseBody with _ | ⟨c, _ | ⟨d, ds⟩⟩
          · rfl
          · cases c <;> rfl
          · simp [elseFault?, TreeError.withoutId]
      | otherwise => rfl
  | function => rfl
  | assignment => rfl
  | loop => rfl
  | ret => rfl
  | call => rfl

/- Writing depends on ids only where it names one at fault. -/
theorem compile_withoutIds
    (width : Nat)
    (blocks : List Block) :
    compile width (blocks.map withoutIds) =
      (compile width blocks).mapError TreeError.withoutId := by
  have hClosing :
      closingAll (blocks.map withoutIds) =
        (closingAll blocks).map withoutIds :=
    closingAll_withoutIds_of_forall fun b _ => closing_withoutIds b
  have hFault :
      (closingAll (blocks.map withoutIds)).findSome? fault? =
        ((closingAll blocks).findSome? fault?).map
          TreeError.withoutId := by
    rw [hClosing, List.findSome?_map, List.map_findSome?]
    congr 1
    funext b
    exact fault?_withoutIds b
  rw [compile_eq_programText, compile_eq_programText, hFault,
    programText_withoutIds]
  cases (closingAll blocks).findSome? fault? <;> rfl

/- A copy is written as its original is. -/
theorem compile_renumber
    (width n : Nat)
    (b : Block) :
    (compile width [renumber n b]).mapError TreeError.withoutId =
      (compile width [b]).mapError TreeError.withoutId := by
  rw [← compile_withoutIds, ← compile_withoutIds, List.map_cons,
    withoutIds_renumber]
  rfl

end Source

namespace Edit

------------------------------------------------------------
-- Appending A Block With New Ids
------------------------------------------------------------

section New

variable {blocks : List Block}
variable {child : Block}
variable (hCheck : checkTree blocks = .ok ())
variable (hOwn : (idsOf [child]).Nodup)
variable (hNew : ∀ id ∈ idsOf [child], id ∉ idsOf blocks)

include hCheck hOwn hNew

/- New ids repeat none, wherever the block is appended. -/
theorem append_ne_duplicateId
    (parent : String)
    (id : BlockId) :
    append parent child blocks ≠ .error (.duplicateId id) := by
  rcases checkTree_eq_ok_iff.mp hCheck with ⟨hNodup, hSound⟩
  rw [append_eq hSound hNodup]
  cases hMet : met? (isAddressed parent) blocks with
  | none => simp
  | some old =>
      dsimp only
      have hAppends := appends_grown (List.find?_some hMet) child
      cases hGrown : grown parent child old with
      | error fault =>
          rw [hGrown] at hAppends
          have hName := Session.isOfName_of_appends hAppends
          intro hFault
          rcases Except.error.inj hFault with rfl
          exact hName
      | ok new =>
          rw [hGrown] at hAppends
          have hFind : find? old.id blocks = some old :=
            find?_of_mem hNodup (List.mem_of_find?_eq_some hMet)
          have hBrings :=
            Session.bringsIn_exchange hNodup hFind
              (Session.bringsIn_of_appends hAppends)
          have hEdited :=
            Session.nodup_of_bringsIn_new hBrings hNodup hOwn hNew
          simp only [bind, Except.bind,
            Session.withIdsChecked_eq_ok hEdited]
          simp

/- The block stands in its target, if the target takes it. -/
theorem append_of_takes
    {parent : String}
    {target : Block}
    (hTarget :
      (documentOrder blocks).find? (isAddressed parent) =
        some target)
    (hTakes :
      ∀ fault, ¬Appends parent child target (.error fault)) :
    ∃ (site : Site) (new : Block),
      blocks = site.fill [target] ∧
        Appends parent child target (.ok new) ∧
          append parent child blocks = .ok (site.fill [new]) := by
  rcases (append_adds_at_target hCheck parent child).2 target
      hTarget with
    ⟨site, hSite, ⟨fault, hFault, _⟩ | ⟨new, hGrows, hAnswer⟩⟩
  · exact absurd hFault (hTakes fault)
  · refine ⟨site, new, hSite, hGrows, ?_⟩
    cases hAppend : append parent child blocks with
    | ok edited =>
        rw [hAppend] at hAnswer
        rw [hAnswer.eq_of_ok.1]
    | error fault =>
        rw [hAppend] at hAnswer
        cases hAnswer with
        | repeated hRepeat =>
            exact
              absurd hAppend
                (append_ne_duplicateId hCheck hOwn hNew parent _)

end New

------------------------------------------------------------
-- Copying And Pasting
------------------------------------------------------------

/-
  A copy of a block with ids numbered from `n`.

    * It is made by drawing the ids one by one, and as many
      numbers are drawn as it has blocks.
    * It is the same block in all but its ids.
    * Its ids are the fresh ids of its kinds, numbered from
      `n` in document order, and none repeats.
    * It is written as the same text, or is refused for the
      same fault.
-/
structure IsFreshCopy
    (n : Nat)
    (b copy : Block) : Prop where
  drawn : b.copied n = (copy, n + b.size)
  same : Source.withoutIds copy = Source.withoutIds b
  ids :
    copy.inOrder.map Block.id =
      List.zipWith Kind.freshId (b.inOrder.map Block.kind)
        (List.range' n b.size)
  nodup : (idsOf [copy]).Nodup
  written :
    ∀ width,
      (Source.compile width [copy]).mapError
          TreeError.withoutId =
        (Source.compile width [b]).mapError TreeError.withoutId

theorem nodup_idsOf_renumber
    (n : Nat)
    (b : Block) :
    (idsOf [b.renumber n]).Nodup := by
  have hNumbered := Block.areNumberedFrom_renumber n b
  simpa [idsOf, Block.inOrderAll] using
    Block.nodup_of_areNumberedFrom hNumbered

theorem isFreshCopy_renumber
    (n : Nat)
    (b : Block) :
    IsFreshCopy n b (b.renumber n) where
  drawn := Block.copied_eq_renumber b n
  same := Source.withoutIds_renumber b n
  ids := Source.map_id_inOrder_renumber b n
  nodup := nodup_idsOf_renumber n b
  written := fun width => Source.compile_renumber width n b

/- The ids of a copy have numbers from the first one on. -/
theorem notMem_idsOf_renumber
    {n : Nat}
    {b : Block}
    {blocks : List Block}
    (hFree :
      ∀ kind m, n ≤ m → Kind.freshId kind m ∉ idsOf blocks) :
    ∀ id ∈ idsOf [b.renumber n], id ∉ idsOf blocks := by
  have hNumbered := Block.areNumberedFrom_renumber n b
  intro id hId
  have hOwn : id ∈ (b.renumber n).inOrder.map Block.id := by
    simpa [idsOf, Block.inOrderAll] using hId
  rcases List.mem_map.mp hOwn with ⟨c, hc, rfl⟩
  rcases Block.id_of_areNumberedFrom hNumbered hc with
    ⟨m, hLow, _, hFresh⟩
  rw [hFresh]
  exact hFree c.kind m hLow

/-
  What appending a block with new ids does to a tree: no id
  is found twice, and a target that takes a block holds it.
-/
structure Pastes
    (parent : String)
    (child : Block)
    (blocks : List Block) : Prop where
  unique :
    ∀ id, append parent child blocks ≠ .error (.duplicateId id)
  held :
    ∀ target,
      (documentOrder blocks).find? (isAddressed parent) =
          some target →
        (∀ fault,
          ¬Appends parent child target (.error fault)) →
          ∃ (site : Site) (new : Block),
            blocks = site.fill [target] ∧
              Appends parent child target (.ok new) ∧
                append parent child blocks =
                  .ok (site.fill [new])

/-
  Copying a block of a session takes a fresh copy and moves
  the supply on by its size.  Such a copy, of this or of any
  other block, can be pasted into every tree that passes its
  check and holds no fresh id from the supply's next number
  on.
-/
theorem copy_pastes
    (n : Nat)
    (b : Block) :
    IsFreshCopy n b (b.renumber n) ∧
      (∀ id (session : Session),
        session.next = n →
          find? id session.blocks = some b →
            Session.copy id session =
              .ok (b.renumber n)
                { session with next := n + b.size }) ∧
        ∀ blocks,
          checkTree blocks = .ok () →
            (∀ kind m,
              n ≤ m → Kind.freshId kind m ∉ idsOf blocks) →
              ∀ parent, Pastes parent (b.renumber n) blocks := by
  refine ⟨isFreshCopy_renumber n b, ?_, ?_⟩
  · rintro id session rfl hFind
    simp only [Session.copy, get_bind, hFind]
    rfl
  · intro blocks hCheck hFree parent
    have hOwn := nodup_idsOf_renumber n b
    have hNew := notMem_idsOf_renumber hFree (b := b)
    exact
      ⟨append_ne_duplicateId hCheck hOwn hNew parent,
        fun target hTarget hTakes =>
          append_of_takes hCheck hOwn hNew hTarget hTakes⟩

/- Two branches, and one id for all three blocks. -/
def sampleCase : Block :=
  .conditional "x" "a" [.ret "x" "1"] .otherwise
    [.call "x" "f" []]

/- A copy is pasted into a branch of what it is a copy of. -/
theorem copy_pastes_case :
    (idsOf [sampleCase.renumber 4]).Nodup ∧
      ∃ edited,
        append "if-1-else" (sampleCase.renumber 4)
            [sampleCase.renumber 1] =
          .ok edited := by
  have hPastes := copy_pastes 4 sampleCase
  refine ⟨hPastes.1.nodup, ?_⟩
  have hCheck : checkTree [sampleCase.renumber 1] = .ok () := by
    rfl
  have hFree :
      ∀ kind m,
        4 ≤ m →
          Kind.freshId kind m ∉ idsOf [sampleCase.renumber 1] := by
    intro kind m hLow hMember
    have hOwn :
        kind.freshId m ∈
          (sampleCase.renumber 1).inOrder.map Block.id := by
      simpa [idsOf, Block.inOrderAll] using hMember
    rcases List.mem_map.mp hOwn with ⟨c, hc, hId⟩
    rcases Block.id_of_areNumberedFrom
        (Block.areNumberedFrom_renumber 1 sampleCase) hc with
      ⟨k, _, hHigh, hFresh⟩
    have hSame := (freshId_inj (hFresh.symm.trans hId)).2
    have hLength :
        (sampleCase.renumber 1).inOrder.length = 3 := by
      rfl
    omega
  have hHeld :=
    (hPastes.2.2 _ hCheck hFree "if-1-else").held
      (sampleCase.renumber 1) (by rfl)
  have hTakes :
      ∀ fault,
        ¬Appends "if-1-else" (sampleCase.renumber 4)
          (sampleCase.renumber 1) (.error fault) := by
    intro fault hFault
    cases hFault with
    | bodyless hId => exact absurd hId (by decide)
  rcases hHeld hTakes with ⟨site, new, _, _, hAppend⟩
  exact ⟨_, hAppend⟩

end Edit

end BlockProgram
