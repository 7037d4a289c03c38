import BlockProgram.Proofs.Block.Site
import BlockProgram.Proofs.Edit.Exchange
import BlockProgram.Proofs.Edit.Seeking

/-
  Conditionals that an exchange would spoil.

  The branch of an `elif` is one conditional.  When another
  block is to stand in its place, the conditional that holds
  the branch is left a misfit.  All other conditionals of a
  sound tree stay sound.

  Main declarations:
    * `Edit.elifHolder?`
    * `Edit.misfit?`
    * `Edit.exchange_of_notMem`
    * `Edit.exchange_fill`
-/

namespace BlockProgram

namespace Edit

open Block (AreSound areSound_cons Fits inOrderAll)

------------------------------------------------------------
-- Holders
------------------------------------------------------------

/- The conditional's id, if its `elif` holds the target. -/
def holder?
    (target : BlockId) :
    Block →
    Option BlockId
  | .conditional id _ _ .elif [held] =>
      if held.id = target then some id else none
  | _ => none

/- The conditional with the target for its `elif` branch. -/
def elifHolder?
    (target : BlockId)
    (bs : List Block) : Option BlockId :=
  (documentOrder bs).findSome? (holder? target)

theorem holder?_eq_some
    {target owner : BlockId}
    {b : Block}
    (hHolder : holder? target b = some owner) :
    ∃ condition body held,
      b = .conditional owner condition body .elif [held] ∧
        held.id = target := by
  unfold holder? at hHolder
  split at hHolder
  · next id condition body held =>
      rw [Option.ite_none_right_eq_some] at hHolder
      rcases hHolder with ⟨hId, hOwner⟩
      rcases Option.some.inj hOwner with rfl
      exact ⟨condition, body, held, rfl, hId⟩
  · cases hHolder

theorem elifHolder?_eq_some
    {target owner : BlockId}
    {bs : List Block}
    (hHolder : elifHolder? target bs = some owner) :
    ∃ condition body held,
      .conditional owner condition body .elif [held] ∈
          documentOrder bs ∧
        held.id = target := by
  rcases List.exists_of_findSome?_eq_some hHolder with
    ⟨b, hMember, hOwn⟩
  rcases holder?_eq_some hOwn with
    ⟨condition, body, held, rfl, hId⟩
  exact ⟨condition, body, held, hMember, hId⟩

/- What a conditional of a program holds is in the program. -/
theorem held_mem_documentOrder
    {owner condition : String}
    {body : List Block}
    {held : Block}
    {bs : List Block}
    (hOwner :
      .conditional owner condition body .elif [held] ∈
        documentOrder bs) :
    held ∈ documentOrder bs := by
  have hInside :
      held ∈
        (Block.conditional owner condition body .elif
          [held]).inOrder := by
    simp [Block.inOrder, Block.inOrderAll, Block.mem_inOrder_self]
  exact Block.mem_inOrderAll_of_mem_inOrder hInside hOwner

/-
  The conditional whose branch would have the wrong shape
  with the new blocks for the target.
-/
def misfit?
    (target : BlockId)
    (new bs : List Block) : Option BlockId :=
  if Fits (collapsed .elif new) new then none
  else elifHolder? target bs

------------------------------------------------------------
-- Exchanges That Change Nothing
------------------------------------------------------------

section Exchanges

variable {target : BlockId}
variable {new : List Block}

theorem exchange_of_notMem_of_forall
    {bs : List Block}
    (hBlocks :
      ∀ b ∈ bs,
        b.IsSound → target ∉ idsOf [b] → around target new b = b)
    (hSound : AreSound bs)
    (hAbsent : target ∉ idsOf bs) :
    exchange target new bs = bs := by
  induction bs with
  | nil => rfl
  | cons b bs ih =>
      rw [List.forall_mem_cons] at hBlocks
      rw [areSound_cons] at hSound
      rw [idsOf_cons, List.mem_append, not_or] at hAbsent
      have hId : b.id ≠ target := by
        rintro rfl
        exact hAbsent.1 b.id_mem_idsOf
      rw [exchange, if_neg hId, hBlocks.1 hSound.1 hAbsent.1,
        ih hBlocks.2 hSound.2 hAbsent.2]

theorem around_of_notMem
    (b : Block)
    (hSound : b.IsSound)
    (hAbsent : target ∉ idsOf [b]) :
    around target new b = b := by
  induction b using Block.induction with
  | function id name parameters body ih =>
      rw [idsOf_function, List.mem_cons, not_or] at hAbsent
      rw [Block.isSound_function] at hSound
      rw [around, exchange_of_notMem_of_forall ih hSound hAbsent.2]
  | assignment id name value => rfl
  | conditional id condition body elseKind elseBody ihBody
      ihElse =>
      rw [idsOf_conditional, List.mem_cons, List.mem_append,
        not_or, not_or] at hAbsent
      rw [Block.isSound_conditional] at hSound
      rw [around,
        exchange_of_notMem_of_forall ihBody hSound.2.1
          hAbsent.2.1,
        exchange_of_notMem_of_forall ihElse hSound.2.2
          hAbsent.2.2,
        collapsed_of_fits hSound.1]
  | loop id iterator iterable body ih =>
      rw [idsOf_loop, List.mem_cons, not_or] at hAbsent
      rw [Block.isSound_loop] at hSound
      rw [around, exchange_of_notMem_of_forall ih hSound hAbsent.2]
  | ret id value => rfl
  | call id callee arguments => rfl

/- Where the target is not, nothing is exchanged. -/
theorem exchange_of_notMem
    {bs : List Block}
    (hSound : AreSound bs)
    (hAbsent : target ∉ idsOf bs) :
    exchange target new bs = bs :=
  exchange_of_notMem_of_forall (fun b _ => around_of_notMem b)
    hSound hAbsent

------------------------------------------------------------
-- Exchanges In A Gap
------------------------------------------------------------

/- A block is exchanged in, if its branch fits as it is. -/
theorem around_close
    {shell : Shell}
    {bs : List Block}
    (hBefore : exchange target new shell.before = shell.before)
    (hBehind : exchange target new shell.behind = shell.behind)
    (hSound :
      (shell.close (exchange target new bs)).HasSoundElse) :
    around target new (shell.close bs) =
      shell.close (exchange target new bs) := by
  cases shell with
  | function => rfl
  | branch =>
      simp only [Shell.behind] at hBehind
      rw [Shell.close, around, hBehind, collapsed_of_fits hSound]
      rfl
  | elseBranch =>
      simp only [Shell.before] at hBefore
      rw [Shell.close, around, hBefore, collapsed_of_fits hSound]
      rfl
  | loop => rfl

/- Where no block around has the id, all is in the gap. -/
theorem exchange_fill
    {site : Site}
    {bs : List Block}
    (hAhead : ∀ b ∈ site.ahead bs, b.id ≠ target)
    (hBehind : ∀ b ∈ site.behind, b.id ≠ target)
    (hSound : site.IsSoundWith (exchange target new bs)) :
    exchange target new (site.fill bs) =
      site.fill (exchange target new bs) := by
  have hKept {cs : List Block}
      (hSound : AreSound cs)
      (hApart : ∀ b ∈ inOrderAll cs, b.id ≠ target) :
      exchange target new cs = cs :=
    exchange_of_notMem hSound (by simpa [idsOf] using hApart)
  induction site with
  | here before behind =>
      rw [Site.isSoundWith_here] at hSound
      rw [Site.fill, exchange_append, exchange_append,
        hKept hSound.1 hAhead, hKept hSound.2 hBehind]
      rfl
  | within before shell inner behind ih =>
      simp only [Site.ahead, Site.behind, List.forall_mem_append,
        List.forall_mem_cons] at hAhead hBehind
      rcases hAhead with ⟨hBefore, hOwn, hFirst, hInner⟩
      rcases hBehind with ⟨hInnerBehind, hSecond, hOthers⟩
      rw [Site.isSoundWith_within] at hSound
      rcases hSound with
        ⟨hSoundBefore, hFits, hSoundFirst, hSoundInner,
          hSoundSecond, hSoundOthers⟩
      have hInside := ih hInner hInnerBehind hSoundInner
      rw [Site.fill, exchange_append, exchange, if_neg hOwn,
        hKept hSoundBefore hBefore, hKept hSoundOthers hOthers,
        around_close (hKept hSoundFirst hFirst)
          (hKept hSoundSecond hSecond) (hInside.symm ▸ hFits),
        hInside]
      rfl

/- When no id repeats, the block alone is exchanged. -/
theorem exchange_old
    {site : Site}
    {old : Block}
    (hNodup : (idsOf (site.fill [old])).Nodup)
    (hSound : site.IsSoundWith new) :
    exchange old.id new (site.fill [old]) = site.fill new := by
  have hOld : exchange old.id new [old] = new := by
    simp [exchange]
  rcases Site.id_ne_of_nodup hNodup with ⟨hAhead, hBehind⟩
  rw [exchange_fill hAhead hBehind (hOld.symm ▸ hSound), hOld]

/- The clause of an `elif` goes with the block it held. -/
theorem exchange_elifBranch
    {outer : Site}
    {owner condition : String}
    {body : List Block}
    {old : Block}
    (hNodup :
      (idsOf
        ((outer.elifBranch owner condition body).fill
          [old])).Nodup)
    (hSound :
      (outer.elifBranch owner condition body).IsSoundWith [old]) :
    exchange old.id new
        ((outer.elifBranch owner condition body).fill [old]) =
      outer.fill
        [.conditional owner condition body
          (collapsed .elif new) new] := by
  rcases Site.id_ne_of_nodup hNodup with ⟨hAhead, hBehind⟩
  rw [Site.ahead_elifBranch, List.forall_mem_append,
    List.forall_mem_cons] at hAhead
  rw [Site.behind_elifBranch] at hBehind
  rw [Site.isSoundWith_elifBranch] at hSound
  rcases hAhead with ⟨hAround, hOwner, hBody⟩
  rcases hSound with ⟨hSoundAround, _, hSoundBody⟩
  have hKept : exchange old.id new body = body :=
    exchange_of_notMem hSoundBody (by simpa [idsOf] using hBody)
  have hOwn :
      exchange old.id new
          [.conditional owner condition body .elif [old]] =
        [.conditional owner condition body
          (collapsed .elif new) new] := by
    rw [exchange, if_neg hOwner, around, hKept]
    simp [exchange]
  rw [Site.fill_elifBranch, exchange_fill hAround hBehind, hOwn]
  rw [hOwn]
  exact Site.isSoundWith_of_kinds (by rfl) hSoundAround

end Exchanges

end Edit

end BlockProgram
