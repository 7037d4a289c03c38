import BlockProgram.Proofs.Block.Site
import BlockProgram.Proofs.Edit.Seeking

/-
  Edits that reach a site.

  An editor that keeps all blocks around a gap rebuilds the
  program around what it makes of the blocks in the gap.  If
  it fails there, the whole edit fails.

  Main declarations:
    * `Edit.rewrite_append`
    * `Edit.rewrite_fill`
    * `Edit.rewrite_fill_error`
    * `Edit.exists_site_of_met`
    * `Edit.rewrite_of_fault`
-/

namespace BlockProgram

namespace Edit

open Block (AreSound HasSoundElse Fits inOrderAll)

variable {σ : Type}
variable {editor : Editor σ}
variable {s t : σ}
variable {bs bs' : List Block}

------------------------------------------------------------
-- Lists In Parts
------------------------------------------------------------

/- A list is rebuilt one part after the other. -/
theorem rewrite_append (bs cs : List Block) :
    rewrite editor (bs ++ cs) =
      (do
        let first ← rewrite editor bs
        let second ← rewrite editor cs
        return first ++ second) := by
  induction bs with
  | nil => simp [rewrite]
  | cons b bs ih =>
      rw [List.cons_append, rewrite, rewrite, bind_assoc]
      congr 1
      funext change
      cases change <;> simp [ih]

/- Blocks that are kept stay before whatever follows. -/
theorem rewrite_append_of_ok
    {before cs : List Block}
    (hBefore : rewrite editor before s = .ok before s)
    (hRun : rewrite editor cs s = .ok bs' t) :
    rewrite editor (before ++ cs) s = .ok (before ++ bs') t := by
  rw [rewrite_append, bind_of_ok hBefore, bind_of_ok hRun]
  rfl

theorem rewrite_append_of_error
    {before cs : List Block}
    {fault : TreeError}
    (hBefore : rewrite editor before s = .ok before s)
    (hRun : rewrite editor cs s = .error fault t) :
    rewrite editor (before ++ cs) s = .error fault t := by
  rw [rewrite_append, bind_of_ok hBefore, bind_of_error hRun]

------------------------------------------------------------
-- Shells
------------------------------------------------------------

section Shells

variable {shell : Shell}
variable
    (hBefore :
      rewrite editor shell.before s = .ok shell.before s)
include hBefore

/- A block is rebuilt around a body, if its branch fits. -/
theorem rebuild_close
    (hRun : rewrite editor bs s = .ok bs' t)
    (hBehind :
      rewrite editor shell.behind t = .ok shell.behind t)
    (hSound : (shell.close bs').HasSoundElse) :
    rebuild editor (shell.close bs) s =
      .ok (shell.close bs') t := by
  cases shell with
  | function =>
      rw [Shell.close, rebuild, bind_of_ok hRun]
      rfl
  | branch =>
      simp only [Shell.behind] at hBehind
      rw [Shell.close, rebuild, bind_of_ok hRun,
        bind_of_ok hBehind, collapsed_of_fits hSound,
        bind_of_ok (checking_of_fits hSound t)]
      rfl
  | elseBranch =>
      simp only [Shell.before] at hBefore
      rw [Shell.close, rebuild, bind_of_ok hBefore,
        bind_of_ok hRun, collapsed_of_fits hSound,
        bind_of_ok (checking_of_fits hSound t)]
      rfl
  | loop =>
      rw [Shell.close, rebuild, bind_of_ok hRun]
      rfl

theorem rebuild_close_error
    {fault : TreeError}
    (hRun : rewrite editor bs s = .error fault t) :
    rebuild editor (shell.close bs) s = .error fault t := by
  cases shell with
  | function => rw [Shell.close, rebuild, bind_of_error hRun]
  | branch => rw [Shell.close, rebuild, bind_of_error hRun]
  | elseBranch =>
      simp only [Shell.before] at hBefore
      rw [Shell.close, rebuild, bind_of_ok hBefore,
        bind_of_error hRun]
  | loop => rw [Shell.close, rebuild, bind_of_error hRun]

end Shells

------------------------------------------------------------
-- Sites
------------------------------------------------------------

variable {site : Site}

/-
  The program is rebuilt around what becomes of the blocks
  in the gap.  The editor meets the blocks around as they
  were, and their else branches are checked as they come out.
-/
theorem rewrite_fill
    (hAhead : ∀ b ∈ site.ahead bs, editor b s = .ok .keep s)
    (hRun : rewrite editor bs s = .ok bs' t)
    (hBehind : ∀ b ∈ site.behind, editor b t = .ok .keep t)
    (hSound : site.IsSoundWith bs') :
    rewrite editor (site.fill bs) s = .ok (site.fill bs') t := by
  induction site with
  | here before behind =>
      rw [Site.isSoundWith_here] at hSound
      have hBefore := rewrite_of_keeps hSound.1 hAhead
      have hRest := rewrite_of_keeps hSound.2 hBehind
      apply rewrite_append_of_ok hBefore
      rw [rewrite_append, bind_of_ok hRun, bind_of_ok hRest]
      rfl
  | within before shell inner behind ih =>
      simp only [Site.ahead, Site.behind, List.forall_mem_append,
        List.forall_mem_cons] at hAhead hBehind
      rcases hAhead with ⟨hBefore, hOwn, hFirst, hInner⟩
      rcases hBehind with ⟨hInnerBehind, hSecond, hOthers⟩
      rw [Site.isSoundWith_within] at hSound
      rcases hSound with
        ⟨hSoundBefore, hFits, hSoundFirst, hSoundInner,
          hSoundSecond, hSoundOthers⟩
      have hKept :=
        rebuild_close (rewrite_of_keeps hSoundFirst hFirst)
          (ih hInner hInnerBehind hSoundInner)
          (rewrite_of_keeps hSoundSecond hSecond) hFits
      apply
        rewrite_append_of_ok (rewrite_of_keeps hSoundBefore hBefore)
      rw [rewrite_cons_of_keep hOwn hKept]
      exact bind_of_ok (rewrite_of_keeps hSoundOthers hOthers)

/- An edit that fails in the gap fails on the program. -/
theorem rewrite_fill_error
    {fault : TreeError}
    (hAhead : ∀ b ∈ site.ahead bs, editor b s = .ok .keep s)
    (hRun : rewrite editor bs s = .error fault t)
    (hSound : site.IsSoundWith bs) :
    rewrite editor (site.fill bs) s = .error fault t := by
  induction site with
  | here before behind =>
      rw [Site.isSoundWith_here] at hSound
      have hBefore := rewrite_of_keeps hSound.1 hAhead
      apply rewrite_append_of_error hBefore
      rw [rewrite_append, bind_of_error hRun]
  | within before shell inner behind ih =>
      simp only [Site.ahead, List.forall_mem_append,
        List.forall_mem_cons] at hAhead
      rcases hAhead with ⟨hBefore, hOwn, hFirst, hInner⟩
      rw [Site.isSoundWith_within] at hSound
      rcases hSound with
        ⟨hSoundBefore, _, hSoundFirst, hSoundInner, _⟩
      have hFails :=
        rebuild_close_error (rewrite_of_keeps hSoundFirst hFirst)
          (ih hInner hSoundInner)
      apply
        rewrite_append_of_error
          (rewrite_of_keeps hSoundBefore hBefore)
      rw [rewrite, bind_of_ok hOwn]
      exact bind_of_error hFails

------------------------------------------------------------
-- The Block That Is Met
------------------------------------------------------------

variable {sought : Block → Bool}
variable {old : Block}

/- No block that is sought stands before the one met. -/
theorem exists_site_of_met
    (hMet : met? sought bs = some old) :
    ∃ site : Site,
      bs = site.fill [old] ∧
        ∀ b ∈ site.ahead [old], sought b = false := by
  rcases List.find?_eq_some_iff_append.mp hMet with
    ⟨_, before, behind, hSplit, hBefore⟩
  rcases Site.exists_of_inOrderAll hSplit with ⟨site, hFill, rfl⟩
  exact ⟨site, hFill, by simpa using hBefore⟩

/- The same for any gap of the block, if no id repeats. -/
theorem sought_ahead_eq_false
    (hNodup : (idsOf (site.fill [old])).Nodup)
    (hMet : met? sought (site.fill [old]) = some old) :
    ∀ b ∈ site.ahead [old], sought b = false := by
  intro b hb
  rw [met?, documentOrder, Site.inOrderAll_fill,
    List.find?_append] at hMet
  cases hFirst : (site.ahead [old]).find? sought with
  | none => simpa using List.find?_eq_none.mp hFirst b hb
  | some c =>
      rw [hFirst, Option.some_or] at hMet
      rcases Option.some.inj hMet with rfl
      have hAhead := List.mem_of_find?_eq_some hFirst
      exact absurd rfl ((Site.id_ne_of_nodup hNodup).1 c hAhead)

/- A block that cannot be edited fails the whole edit. -/
theorem rewrite_of_fault
    {fault : TreeError}
    (hSeeks : Seeks sought s editor)
    (hOld : editor old s = .error fault t)
    (hSound : AreSound bs)
    (hMet : met? sought bs = some old) :
    rewrite editor bs s = .error fault t := by
  rcases exists_site_of_met hMet with ⟨site, rfl, hAhead⟩
  have hRun : rewrite editor [old] s = .error fault t := by
    rw [rewrite, bind_of_error hOld]
  exact
    rewrite_fill_error (fun b hb => hSeeks b (hAhead b hb)) hRun
      (Site.areSound_fill.mp hSound).1

end Edit

end BlockProgram
