import Mathlib.Data.List.Nodup
import BlockProgram.Proofs.Block.Faults
import BlockProgram.Proofs.Edit.Misfits
import BlockProgram.Proofs.Edit.Reaching

/-
  What an edit comes to.

  An editor exchanges the first block that it seeks and keeps
  all others.  The tree that is made has the new blocks in
  the place of the old one, and only a misfit can stand in
  the way.

  Main declarations:
    * `Edit.Exchanges`
    * `Edit.unlessMisfit`
    * `Edit.rewrite_at`
    * `Edit.rewrite_held`
    * `Edit.rewrite_of_met`
-/

namespace BlockProgram

namespace Edit

open Block (AreSound areSound_cons Fits inOrderAll)

variable {σ α : Type}

------------------------------------------------------------
-- Blocks That Are Exchanged
------------------------------------------------------------

/- The blocks that a change puts in the place of one. -/
def Change.put? : Change → Option (List Block)
  | .keep => none
  | .replace new => some [new]
  | .remove => some []

/- What was made, unless a conditional was left a misfit. -/
def unlessMisfit
    (misfit : Option BlockId)
    (made : α)
    (t : σ) : EStateM.Result TreeError σ α :=
  match misfit with
  | some owner => .error (.malformedElif owner) t
  | none => .ok made t

section Chains

variable {β : Type}
variable {x : Editing σ α}
variable {f : α → Editing σ β}
variable {a : α}
variable {b : β}
variable {misfit : Option BlockId}
variable {s t : σ}

/- The first misfit of a chain is the one that counts. -/
theorem bind_of_unlessMisfit
    {other : Option BlockId}
    (hFirst : x s = unlessMisfit misfit a t)
    (hRest : f a t = unlessMisfit other b t) :
    (x >>= f) s = unlessMisfit (misfit.or other) b t := by
  cases misfit with
  | some owner => exact bind_of_error hFirst
  | none => exact (bind_of_ok hFirst).trans hRest

/- A chain that goes on without a misfit. -/
theorem bind_ok_of_unlessMisfit
    (hFirst : x s = unlessMisfit misfit a t)
    (hRest : f a t = .ok b t) :
    (x >>= f) s = unlessMisfit misfit b t := by
  rw [← Option.or_none (o := misfit)]
  exact bind_of_unlessMisfit hFirst hRest

end Chains

/-
  The editor keeps all blocks but those that are sought.  It
  exchanges the old one for the new ones, and then keeps all
  blocks with other ids.
-/
structure Exchanges
    (editor : Editor σ)
    (sought : Block → Bool)
    (s t : σ)
    (old : Block)
    (new : List Block) : Prop where
  seeks : Seeks sought s editor
  acts :
    ∃ change,
      editor old s = .ok change t ∧ change.put? = some new
  keeps : ∀ b, b.id ≠ old.id → editor b t = .ok .keep t

section Exchanges

variable {editor : Editor σ}
variable {sought : Block → Bool}
variable {s t : σ}
variable {old : Block}
variable {new : List Block}

/- The old block alone gives way to the new ones. -/
theorem rewrite_old
    (hEditor : Exchanges editor sought s t old new) :
    rewrite editor [old] s = .ok new t := by
  rcases hEditor.acts with ⟨change, hChange, hPut⟩
  rw [rewrite, bind_of_ok hChange]
  cases change with
  | keep => cases hPut
  | replace c =>
      rcases Option.some.inj hPut with rfl
      rfl
  | remove =>
      rcases Option.some.inj hPut with rfl
      rfl

------------------------------------------------------------
-- At A Site
------------------------------------------------------------

variable {site : Site}

/- The new blocks fill the gap, if all around is sound then. -/
theorem rewrite_at
    (hEditor : Exchanges editor sought s t old new)
    (hAhead : ∀ b ∈ site.ahead [old], sought b = false)
    (hBehind : ∀ b ∈ site.behind, b.id ≠ old.id)
    (hSound : site.IsSoundWith new) :
    rewrite editor (site.fill [old]) s = .ok (site.fill new) t :=
  rewrite_fill (fun b hb => hEditor.seeks b (hAhead b hb))
    (rewrite_old hEditor)
    (fun b hb => hEditor.keeps b (hBehind b hb)) hSound

/- An `elif` branch of a wrong shape is a fault. -/
theorem checking_of_not_fits
    {id : BlockId}
    {branch : List Block}
    (hNot : ¬Fits .elif branch)
    (t : σ) :
    checking (checkElse id .elif branch) t =
      .error (.malformedElif id) t := by
  have hFault :
      (Block.conditional id "" [] .elif branch).HasFault
        (.malformedElif id) :=
    .malformed hNot
  have hOwn := Block.fault?_of_hasFault hFault
  rw [Block.fault?] at hOwn
  rw [Block.checkElse_eq, hOwn]
  rfl

/-
  The id of a conditional, if its `elif` branch would have
  the wrong shape with the new blocks.
-/
def misfitOf
    (owner : BlockId)
    (new : List Block) : Option BlockId :=
  if Fits (collapsed .elif new) new then none else some owner

theorem checking_misfitOf
    (owner : BlockId)
    (new : List Block)
    (t : σ) :
    checking
        (checkElse owner (collapsed .elif new) new) t =
      unlessMisfit (misfitOf owner new) () t := by
  unfold misfitOf
  by_cases hFits : Fits (collapsed .elif new) new
  · rw [if_pos hFits]
    exact checking_of_fits hFits t
  · rw [if_neg hFits]
    cases new with
    | nil => simp [collapsed, Fits] at hFits
    | cons c cs => exact checking_of_not_fits hFits t

/-
  The branch of an `elif` is exchanged.  Its conditional has
  no clause any more when nothing takes its place, and is a
  misfit when other blocks do.
-/
theorem rewrite_held
    (hEditor : Exchanges editor sought s t old new)
    {outer : Site}
    {owner condition : String}
    {body : List Block}
    (hAhead :
      ∀ b ∈ (outer.elifBranch owner condition body).ahead [old],
        sought b = false)
    (hBehind : ∀ b ∈ outer.behind, b.id ≠ old.id)
    (hSound :
      (outer.elifBranch owner condition body).IsSoundWith [old]) :
    rewrite editor
        ((outer.elifBranch owner condition body).fill [old]) s =
      unlessMisfit (misfitOf owner new)
        (outer.fill
          [.conditional owner condition body
            (collapsed .elif new) new]) t := by
  rw [Site.ahead_elifBranch, List.forall_mem_append,
    List.forall_mem_cons] at hAhead
  rw [Site.isSoundWith_elifBranch] at hSound
  rcases hAhead with ⟨hAround, hOwner, hBody⟩
  rcases hSound with ⟨hSoundAround, _, hSoundBody⟩
  have hKept :=
    rewrite_of_keeps hSoundBody fun b hb =>
      hEditor.seeks b (hBody b hb)
  have hRun :
      rewrite editor
          [.conditional owner condition body .elif [old]] s =
        unlessMisfit (misfitOf owner new)
          [.conditional owner condition body
            (collapsed .elif new) new] t := by
    rw [rewrite, bind_of_ok (hEditor.seeks _ hOwner)]
    refine bind_ok_of_unlessMisfit ?_ rfl
    rw [rebuild, bind_of_ok hKept, bind_of_ok (rewrite_old hEditor)]
    exact
      bind_ok_of_unlessMisfit (checking_misfitOf owner new t) rfl
  have hKeeps := fun b hb => hEditor.seeks b (hAround b hb)
  rw [Site.fill_elifBranch]
  cases hMisfit : misfitOf owner new with
  | some misfit =>
      rw [hMisfit] at hRun
      exact rewrite_fill_error hKeeps hRun hSoundAround
  | none =>
      rw [hMisfit] at hRun
      exact
        rewrite_fill hKeeps hRun
          (fun b hb => hEditor.keeps b (hBehind b hb))
          (Site.isSoundWith_of_kinds (by rfl) hSoundAround)

------------------------------------------------------------
-- In A Program
------------------------------------------------------------

section Programs

variable (hEditor : Exchanges editor sought s t old new)
variable {bs : List Block}
variable (hSound : AreSound bs)
variable (hNodup : (idsOf bs).Nodup)
variable (hMet : met? sought bs = some old)
include hEditor hSound hNodup hMet

/- A conditional that holds the old block is left a misfit. -/
theorem rewrite_of_misfit
    {owner : BlockId}
    (hMisfit : misfit? old.id new bs = some owner) :
    rewrite editor bs s = .error (.malformedElif owner) t := by
  rw [misfit?, Option.ite_none_left_eq_some] at hMisfit
  rcases hMisfit with ⟨hNot, hHolder⟩
  rcases elifHolder?_eq_some hHolder with
    ⟨condition, body, held, hOwner, hId⟩
  have hSame : held = old :=
    List.inj_on_of_nodup_map hNodup
      (held_mem_documentOrder hOwner)
      (List.mem_of_find?_eq_some hMet) hId
  rw [hSame] at hOwner
  rcases Site.exists_of_mem hOwner with ⟨outer, rfl⟩
  rw [← Site.fill_elifBranch] at hSound hNodup hMet ⊢
  have hApart := (Site.id_ne_of_nodup hNodup).2
  rw [Site.behind_elifBranch] at hApart
  rw [rewrite_held hEditor (sought_ahead_eq_false hNodup hMet)
    hApart (Site.areSound_fill.mp hSound).1, misfitOf, if_neg hNot]
  rfl

/-
  The edit of a sound tree without repeated ids exchanges the
  first block that is sought, and changes nothing else.  It
  fails if the block was the branch of an `elif`, and the new
  ones are not.
-/
theorem rewrite_of_met :
    rewrite editor bs s =
      unlessMisfit (misfit? old.id new bs)
        (exchange old.id new bs) t := by
  cases hMisfit : misfit? old.id new bs with
  | some owner =>
      exact rewrite_of_misfit hEditor hSound hNodup hMet hMisfit
  | none =>
      rcases exists_site_of_met hMet with ⟨site, rfl, hAhead⟩
      have hAround := (Site.areSound_fill.mp hSound).1
      have hBehind := (Site.id_ne_of_nodup hNodup).2
      rcases Site.takesAll_or_held hAround with
        hTakes | ⟨outer, owner, condition, body, rfl⟩
      · rw [rewrite_at hEditor hAhead hBehind (hTakes new),
          exchange_old hNodup (hTakes new)]
        rfl
      · -- Nothing is a misfit here, so the branch fits.
        have hOwner :
            .conditional owner condition body .elif [old] ∈
              documentOrder
                ((outer.elifBranch owner condition body).fill
                  [old]) := by
          simp [Site.inOrderAll_fill, Site.ahead_elifBranch]
        have hFits : Fits (collapsed .elif new) new := by
          by_contra hNot
          rw [misfit?, if_neg hNot, elifHolder?,
            List.findSome?_eq_none_iff] at hMisfit
          simpa [holder?] using hMisfit _ hOwner
        rw [Site.behind_elifBranch] at hBehind
        rw [rewrite_held hEditor hAhead hBehind hAround, misfitOf,
          if_pos hFits, exchange_elifBranch hNodup hAround]

end Programs

end Exchanges

end Edit

end BlockProgram
