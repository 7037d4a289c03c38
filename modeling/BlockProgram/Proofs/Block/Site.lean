import BlockProgram.Proofs.Block.Search

/-
  Sites: where blocks stand in a program.

  A site is a program with a gap in one of its lists.  The
  gap can be filled with other blocks while all around it
  stays.  Every block of a program fills such a gap, and the
  blocks around it are those met before and behind it.

  Main declarations:
    * `Shell`
    * `Site`
    * `Site.fill`
    * `Site.deepen`
    * `Site.elifBranch`
    * `Site.inOrderAll_fill`
    * `Site.exists_of_inOrderAll`
    * `Site.takesAll_or_held`
-/

namespace BlockProgram

open Block (inOrderAll AreSound Fits HasSoundElse)

------------------------------------------------------------
-- Shells
------------------------------------------------------------

/- A block but for one of its bodies. -/
inductive Shell where
  | function
      (id : BlockId)
      (name : String)
      (parameters : List String)
  | branch
      (id : BlockId)
      (condition : String)
      (elseKind : ElseKind)
      (elseBody : List Block)
  | elseBranch
      (id : BlockId)
      (condition : String)
      (body : List Block)
      (elseKind : ElseKind)
  | loop
      (id : BlockId)
      (iterator : String)
      (iterable : String)

namespace Shell

/- The block, with some blocks for its body. -/
def close : Shell → List Block → Block
  | .function id name parameters, body =>
      .function id name parameters body
  | .branch id condition elseKind elseBody, body =>
      .conditional id condition body elseKind elseBody
  | .elseBranch id condition body elseKind, elseBody =>
      .conditional id condition body elseKind elseBody
  | .loop id iterator iterable, body =>
      .loop id iterator iterable body

/- The other body of the block, when it comes before. -/
def before : Shell → List Block
  | .elseBranch _ _ body _ => body
  | .function .. | .branch .. | .loop .. => []

/- The other body of the block, when it comes behind. -/
def behind : Shell → List Block
  | .branch _ _ _ elseBody => elseBody
  | .function .. | .elseBranch .. | .loop .. => []

variable {shell : Shell}
variable {bs cs : List Block}

/- A block is met before its bodies, and these in order. -/
theorem inOrder_close :
    (shell.close bs).inOrder =
      shell.close bs ::
        (inOrderAll shell.before ++
          (inOrderAll bs ++ inOrderAll shell.behind)) := by
  cases shell <;>
    simp [close, before, behind, Block.inOrder, inOrderAll]

theorem id_close :
    (shell.close bs).id = (shell.close cs).id := by
  cases shell <;> rfl

theorem kind_close :
    (shell.close bs).kind = (shell.close cs).kind := by
  cases shell <;> rfl

/- Whether a branch fits depends on the kinds in it alone. -/
theorem fits_of_kinds
    {elseKind : ElseKind}
    (hKinds : bs.map Block.kind = cs.map Block.kind)
    (hFits : Fits elseKind bs) :
    Fits elseKind cs := by
  cases elseKind with
  | none =>
      rcases (show bs = [] from hFits) with rfl
      exact List.map_eq_nil_iff.mp hKinds.symm
  | elif => exact hKinds.symm.trans hFits
  | otherwise => trivial

theorem hasSoundElse_close_of_kinds
    (hKinds : bs.map Block.kind = cs.map Block.kind)
    (hSound : (shell.close bs).HasSoundElse) :
    (shell.close cs).HasSoundElse := by
  cases shell with
  | elseBranch => exact fits_of_kinds hKinds hSound
  | function => trivial
  | branch => exact hSound
  | loop => trivial

end Shell

------------------------------------------------------------
-- Sites
------------------------------------------------------------

/- A program with a gap in one of its lists of blocks. -/
inductive Site where
  /- The gap is among the blocks of the list itself. -/
  | here
      (before : List Block)
      (behind : List Block)
  /- The gap is in a body of one block of the list. -/
  | within
      (before : List Block)
      (shell : Shell)
      (inner : Site)
      (behind : List Block)

namespace Site

/- The program, with some blocks in the gap. -/
def fill : Site → List Block → List Block
  | .here before behind, bs => before ++ (bs ++ behind)
  | .within before shell inner behind, bs =>
      before ++ shell.close (inner.fill bs) :: behind

/-
  The blocks that a reader meets before the gap.  Those that
  the gap lies in have what fills it inside them.
-/
def ahead : Site → List Block → List Block
  | .here before _, _ => inOrderAll before
  | .within before shell inner _, bs =>
      inOrderAll before ++
        shell.close (inner.fill bs) ::
          (inOrderAll shell.before ++ inner.ahead bs)

/- The blocks that a reader meets behind the gap. -/
def behind : Site → List Block
  | .here _ behind => inOrderAll behind
  | .within _ shell inner behind =>
      inner.behind ++
        (inOrderAll shell.behind ++ inOrderAll behind)

variable {site : Site}
variable {bs cs : List Block}

/- What fills the gap stands between what is around it. -/
theorem inOrderAll_fill :
    inOrderAll (site.fill bs) =
      site.ahead bs ++ (inOrderAll bs ++ site.behind) := by
  induction site with
  | here before behind =>
      simp [fill, ahead, Site.behind, Block.inOrderAll_append]
  | within before shell inner behind ih =>
      simp [fill, ahead, Site.behind, Block.inOrderAll_append,
        inOrderAll, Shell.inOrder_close, ih]

theorem map_id_ahead :
    (site.ahead bs).map Block.id =
      (site.ahead cs).map Block.id := by
  induction site with
  | here => rfl
  | within before shell inner behind ih =>
      simp only [ahead, List.map_append, List.map_cons, ih]
      rw [Shell.id_close]

/- No id ahead depends on what fills the gap. -/
theorem id_ne_ahead
    {target : BlockId}
    (hAhead : ∀ b ∈ site.ahead bs, b.id ≠ target) :
    ∀ c ∈ site.ahead cs, c.id ≠ target := by
  intro c hc hId
  have hIds :
      (site.ahead cs).map Block.id =
        (site.ahead bs).map Block.id :=
    map_id_ahead
  have hTarget : target ∈ (site.ahead bs).map Block.id := by
    rw [← hIds, ← hId]
    exact List.mem_map_of_mem hc
  rcases List.mem_map.mp hTarget with ⟨b, hb, hSame⟩
  exact hAhead b hb hSame

/- The ids of a program around those in a gap. -/
theorem idsOf_fill :
    idsOf (site.fill bs) =
      (site.ahead bs).map Block.id ++
        (idsOf bs ++ site.behind.map Block.id) := by
  simp [idsOf, inOrderAll_fill]

theorem map_kind_fill
    (hKinds : bs.map Block.kind = cs.map Block.kind) :
    (site.fill bs).map Block.kind =
      (site.fill cs).map Block.kind := by
  cases site with
  | here => simp [fill, hKinds]
  | within before shell inner behind =>
      simp only [fill, List.map_append, List.map_cons]
      rw [Shell.kind_close]

/- When no id repeats, no block around has one in the gap. -/
theorem id_ne_of_nodup
    {old : Block}
    (hNodup : (idsOf (site.fill [old])).Nodup) :
    (∀ b ∈ site.ahead [old], b.id ≠ old.id) ∧
      ∀ b ∈ site.behind, b.id ≠ old.id := by
  rw [idsOf_fill, List.nodup_append, List.nodup_append] at hNodup
  rcases hNodup with ⟨_, ⟨_, _, hBehind⟩, hAhead⟩
  have hOld := old.id_mem_idsOf
  constructor
  · intro b hb
    exact
      hAhead b.id (List.mem_map_of_mem hb) old.id
        (List.mem_append_left _ hOld)
  · intro b hb
    exact (hBehind old.id hOld b.id (List.mem_map_of_mem hb)).symm

------------------------------------------------------------
-- Gaps In The Filling
------------------------------------------------------------

/-
  The gap in a body of a block that fills the gap, with what
  stands before and behind it in that body.
-/
def deepen
    (shell : Shell)
    (first last : List Block) :
    Site →
    Site
  | .here before behind =>
      .within before shell (.here first last) behind
  | .within before outer inner behind =>
      .within before outer (inner.deepen shell first last) behind

variable {shell : Shell}
variable {first last : List Block}

theorem fill_deepen :
    (site.deepen shell first last).fill bs =
      site.fill [shell.close (first ++ (bs ++ last))] := by
  induction site with
  | here => simp [deepen, fill]
  | within before outer inner behind ih => simp [deepen, fill, ih]

theorem ahead_deepen :
    (site.deepen shell first last).ahead bs =
      site.ahead [shell.close (first ++ (bs ++ last))] ++
        shell.close (first ++ (bs ++ last)) ::
          (inOrderAll shell.before ++ inOrderAll first) := by
  induction site with
  | here => simp [deepen, ahead, fill]
  | within before outer inner behind ih =>
      simp [deepen, ahead, ih, fill_deepen]

theorem behind_deepen :
    (site.deepen shell first last).behind =
      inOrderAll last ++
        (inOrderAll shell.behind ++ site.behind) := by
  induction site with
  | here => simp [deepen, Site.behind]
  | within before outer inner behind ih =>
      simp [deepen, Site.behind, ih]

/- The gap that is the whole branch of an `elif`. -/
def elifBranch
    (outer : Site)
    (owner : BlockId)
    (condition : String)
    (body : List Block) : Site :=
  outer.deepen (.elseBranch owner condition body .elif) [] []

variable {owner condition : String}
variable {body : List Block}

theorem fill_elifBranch :
    (site.elifBranch owner condition body).fill bs =
      site.fill [.conditional owner condition body .elif bs] := by
  simp [elifBranch, fill_deepen, Shell.close]

theorem ahead_elifBranch :
    (site.elifBranch owner condition body).ahead bs =
      site.ahead [.conditional owner condition body .elif bs] ++
        .conditional owner condition body .elif bs ::
          inOrderAll body := by
  simp [elifBranch, ahead_deepen, Shell.close, Shell.before,
    inOrderAll]

theorem behind_elifBranch :
    (site.elifBranch owner condition body).behind =
      site.behind := by
  simp [elifBranch, behind_deepen, Shell.behind, inOrderAll]

------------------------------------------------------------
-- The Site Of A Block
------------------------------------------------------------

section Splits

variable {α : Type}
variable {xs ys before behind : List α}
variable {a b : α}

/- A list is split at its first member or behind it. -/
theorem split_cons
    (hSplit : b :: xs = before ++ a :: behind) :
    (before = [] ∧ b = a) ∨
      ∃ rest, before = b :: rest ∧ xs = rest ++ a :: behind := by
  rcases List.cons_eq_append_iff.mp hSplit with
    ⟨hNone, hOwn⟩ | hRest
  · exact Or.inl ⟨hNone, (List.cons.inj hOwn).1.symm⟩
  · exact Or.inr hRest

/- A split of two lists in a row is in one of them. -/
theorem split_append
    (hSplit : xs ++ ys = before ++ a :: behind) :
    (∃ rest, xs = before ++ a :: rest) ∨
      ∃ rest, before = xs ++ rest ∧ ys = rest ++ a :: behind := by
  rcases List.append_eq_append_iff.mp hSplit with
    ⟨rest, hBefore, hYs⟩ | ⟨rest, hXs, hBehind⟩
  · exact Or.inr ⟨rest, hBefore, hYs⟩
  · cases rest with
    | nil => exact Or.inr ⟨[], by simpa using hXs.symm, hBehind.symm⟩
    | cons c rest =>
        rcases List.cons.inj hBehind with ⟨rfl, _⟩
        exact Or.inl ⟨rest, hXs⟩

end Splits

/- The site in a list with one more block at its front. -/
def behindOf
    (b : Block) :
    Site →
    Site
  | .here before behind => .here (b :: before) behind
  | .within before shell inner behind =>
      .within (b :: before) shell inner behind

theorem fill_behindOf (b : Block) :
    (site.behindOf b).fill bs = b :: site.fill bs := by
  cases site <;> rfl

theorem ahead_behindOf (b : Block) :
    (site.behindOf b).ahead bs = b.inOrder ++ site.ahead bs := by
  cases site <;> simp [behindOf, ahead, inOrderAll]

variable {old : Block}

theorem exists_of_forall
    (hBlocks :
      ∀ b ∈ bs,
        ∀ before behind,
          b.inOrder = before ++ old :: behind →
            (before = [] ∧ b = old) ∨
              ∃ (shell : Shell) (site : Site),
                b = shell.close (site.fill [old]) ∧
                  before =
                    b ::
                      (inOrderAll shell.before ++
                        site.ahead [old]))
    {before behind : List Block}
    (hSplit : inOrderAll bs = before ++ old :: behind) :
    ∃ site : Site,
      bs = site.fill [old] ∧ before = site.ahead [old] := by
  induction bs generalizing before with
  | nil => simp [inOrderAll] at hSplit
  | cons b bs ih =>
      rw [List.forall_mem_cons] at hBlocks
      rw [inOrderAll] at hSplit
      rcases split_append hSplit with
        ⟨rest, hFirst⟩ | ⟨rest, rfl, hOthers⟩
      · rcases hBlocks.1 before rest hFirst with
          ⟨rfl, rfl⟩ | ⟨shell, site, rfl, rfl⟩
        · exact ⟨.here [] bs, rfl, rfl⟩
        · exact ⟨.within [] shell site bs, rfl, rfl⟩
      · rcases ih hBlocks.2 hOthers with ⟨site, rfl, rfl⟩
        exact
          ⟨site.behindOf b, (fill_behindOf b).symm,
            (ahead_behindOf b).symm⟩

/- A block is met first, or it is in a body of the block. -/
theorem exists_of_inOrder
    (b : Block)
    (before behind : List Block)
    (hSplit : b.inOrder = before ++ old :: behind) :
    (before = [] ∧ b = old) ∨
      ∃ (shell : Shell) (site : Site),
        b = shell.close (site.fill [old]) ∧
          before =
            b ::
              (inOrderAll shell.before ++ site.ahead [old]) := by
  induction b using Block.induction generalizing before behind with
  | function id name parameters body ih =>
      rcases split_cons hSplit with hOwn | ⟨inside, rfl, hInside⟩
      · exact Or.inl hOwn
      · rcases exists_of_forall ih hInside with ⟨site, rfl, rfl⟩
        exact Or.inr ⟨.function id name parameters, site, rfl, rfl⟩
  | assignment id name value =>
      rcases split_cons hSplit with hOwn | ⟨inside, _, hInside⟩
      · exact Or.inl hOwn
      · simp at hInside
  | conditional id condition body elseKind elseBody ihBody
      ihElse =>
      rcases split_cons hSplit with hOwn | ⟨inside, rfl, hInside⟩
      · exact Or.inl hOwn
      · rcases split_append hInside with
          ⟨rest, hBody⟩ | ⟨rest, rfl, hElse⟩
        · rcases exists_of_forall ihBody hBody with
            ⟨site, rfl, rfl⟩
          exact
            Or.inr
              ⟨.branch id condition elseKind elseBody, site, rfl,
                rfl⟩
        · rcases exists_of_forall ihElse hElse with
            ⟨site, rfl, rfl⟩
          exact
            Or.inr
              ⟨.elseBranch id condition body elseKind, site, rfl,
                rfl⟩
  | loop id iterator iterable body ih =>
      rcases split_cons hSplit with hOwn | ⟨inside, rfl, hInside⟩
      · exact Or.inl hOwn
      · rcases exists_of_forall ih hInside with ⟨site, rfl, rfl⟩
        exact Or.inr ⟨.loop id iterator iterable, site, rfl, rfl⟩
  | ret id value =>
      rcases split_cons hSplit with hOwn | ⟨inside, _, hInside⟩
      · exact Or.inl hOwn
      · simp at hInside
  | call id callee arguments =>
      rcases split_cons hSplit with hOwn | ⟨inside, _, hInside⟩
      · exact Or.inl hOwn
      · simp at hInside

/- Every block of a program fills a gap of it. -/
theorem exists_of_inOrderAll
    {before behind : List Block}
    (hSplit : inOrderAll bs = before ++ old :: behind) :
    ∃ site : Site,
      bs = site.fill [old] ∧ before = site.ahead [old] :=
  exists_of_forall (fun b _ => exists_of_inOrder b) hSplit

theorem exists_of_mem
    (hMember : old ∈ documentOrder bs) :
    ∃ site : Site, bs = site.fill [old] := by
  rcases List.append_of_mem hMember with
    ⟨before, behind, hSplit⟩
  rcases exists_of_inOrderAll hSplit with ⟨site, hFill, _⟩
  exact ⟨site, hFill⟩

------------------------------------------------------------
-- Sound Surroundings
------------------------------------------------------------

/- All else branches around the gap have their shape. -/
def IsSoundWith
    (site : Site)
    (bs : List Block) : Prop :=
  (∀ b ∈ site.ahead bs, b.HasSoundElse) ∧
    ∀ b ∈ site.behind, b.HasSoundElse

theorem isSoundWith_here
    {before behind : List Block} :
    (here before behind).IsSoundWith bs ↔
      AreSound before ∧ AreSound behind :=
  Iff.rfl

theorem isSoundWith_within
    {before behind : List Block}
    {shell : Shell}
    {inner : Site} :
    (within before shell inner behind).IsSoundWith bs ↔
      AreSound before ∧
        (shell.close (inner.fill bs)).HasSoundElse ∧
          AreSound shell.before ∧
            inner.IsSoundWith bs ∧
              AreSound shell.behind ∧ AreSound behind := by
  simp only [IsSoundWith, ahead, Site.behind, AreSound,
    List.forall_mem_append, List.forall_mem_cons]
  tauto

theorem isSoundWith_deepen :
    (site.deepen shell first last).IsSoundWith bs ↔
      site.IsSoundWith [shell.close (first ++ (bs ++ last))] ∧
        (shell.close (first ++ (bs ++ last))).HasSoundElse ∧
          (AreSound shell.before ∧ AreSound first) ∧
            AreSound last ∧ AreSound shell.behind := by
  simp only [IsSoundWith, ahead_deepen, behind_deepen, AreSound,
    List.forall_mem_append, List.forall_mem_cons]
  tauto

theorem isSoundWith_elifBranch :
    (site.elifBranch owner condition body).IsSoundWith bs ↔
      site.IsSoundWith
          [.conditional owner condition body .elif bs] ∧
        Fits .elif bs ∧ AreSound body := by
  simp [elifBranch, isSoundWith_deepen, Shell.close, Shell.before,
    Shell.behind, HasSoundElse]

/- A program is sound around a gap and in it. -/
theorem areSound_fill :
    AreSound (site.fill bs) ↔
      site.IsSoundWith bs ∧ AreSound bs := by
  simp only [IsSoundWith, AreSound, inOrderAll_fill,
    List.forall_mem_append]
  tauto

/- Other blocks of the same kinds do as well in the gap. -/
theorem isSoundWith_of_kinds
    (hKinds : bs.map Block.kind = cs.map Block.kind)
    (hSound : site.IsSoundWith bs) :
    site.IsSoundWith cs := by
  induction site with
  | here => exact hSound
  | within before shell inner behind ih =>
      rw [isSoundWith_within] at hSound ⊢
      rcases hSound with ⟨hBefore, hOwn, hFirst, hInner, hRest⟩
      exact
        ⟨hBefore,
          Shell.hasSoundElse_close_of_kinds (map_kind_fill hKinds)
            hOwn,
          hFirst, ih hInner, hRest⟩

/- So does another block of the same kind. -/
theorem isSoundWith_of_kind
    {old new : Block}
    (hKind : new.kind = old.kind)
    (hSound : site.IsSoundWith [old]) :
    site.IsSoundWith [new] :=
  isSoundWith_of_kinds (by simp [hKind]) hSound

/- Whatever fills the gap, all around it stays sound. -/
def TakesAll (site : Site) : Prop :=
  ∀ new, site.IsSoundWith new

/-
  A branch that is sound stays sound whatever is put into it,
  unless it is an `elif` with the gap for its branch.
-/
theorem fits_fill_or_elif
    {elseKind : ElseKind}
    (hFits : Fits elseKind (site.fill [old])) :
    (∀ new, Fits elseKind (site.fill new)) ∨
      elseKind = .elif ∧ site = .here [] [] := by
  cases elseKind with
  | none => cases site <;> simp [Fits, fill] at hFits
  | otherwise => exact Or.inl fun _ => trivial
  | elif =>
      rcases List.map_eq_singleton_iff.mp hFits with
        ⟨only, hOnly, hKind⟩
      cases site with
      | here before behind =>
          simp only [fill, List.append_eq_singleton_iff,
            List.singleton_append, List.cons.injEq,
            List.cons_ne_nil, and_false, or_false] at hOnly
          rcases hOnly with ⟨rfl, _, rfl⟩
          exact Or.inr ⟨rfl, rfl⟩
      | within before shell inner behind =>
          simp only [fill, List.append_eq_singleton_iff,
            List.cons.injEq, List.cons_ne_nil, and_false,
            or_false] at hOnly
          rcases hOnly with ⟨rfl, rfl, rfl⟩
          refine Or.inl fun new => ?_
          have hNew :
              (shell.close (inner.fill new)).kind = .conditional :=
            Shell.kind_close.trans hKind
          simp [Fits, fill, hNew]

/-
  A gap in a sound program takes any blocks, unless it is the
  branch of an `elif`.
-/
theorem takesAll_or_held
    (hSound : site.IsSoundWith [old]) :
    site.TakesAll ∨
      ∃ (outer : Site) (owner condition : String)
        (body : List Block),
        site = outer.elifBranch owner condition body := by
  induction site with
  | here => exact Or.inl fun _ => hSound
  | within before shell inner behind ih =>
      rw [isSoundWith_within] at hSound
      rcases hSound with ⟨hBefore, hOwn, hFirst, hInner, hRest⟩
      rcases ih hInner with
        hTakes | ⟨outer, owner, condition, body, rfl⟩
      · -- Then all depends on the block that the gap is in.
        have hTakesAll
            (hOwn :
              ∀ new,
                (shell.close (inner.fill new)).HasSoundElse) :
            (within before shell inner behind).TakesAll :=
          fun new =>
            isSoundWith_within.mpr
              ⟨hBefore, hOwn new, hFirst, hTakes new, hRest⟩
        cases shell with
        | elseBranch id condition body elseKind =>
            rcases fits_fill_or_elif hOwn with
              hFits | ⟨rfl, rfl⟩
            · exact Or.inl (hTakesAll hFits)
            · exact
                Or.inr
                  ⟨.here before behind, id, condition, body, rfl⟩
        | function => exact Or.inl (hTakesAll fun _ => trivial)
        | branch => exact Or.inl (hTakesAll fun _ => hOwn)
        | loop => exact Or.inl (hTakesAll fun _ => trivial)
      · exact
          Or.inr
            ⟨.within before shell outer behind, owner, condition,
              body, rfl⟩

end Site

end BlockProgram
