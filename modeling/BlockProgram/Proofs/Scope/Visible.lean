import BlockProgram.Block.Equality
import BlockProgram.Proofs.Block.Site
import BlockProgram.Proofs.Scope.Walking

/-
  What it means that a name is visible.

  The names visible at a block are the parameters of the
  innermost function around it, and all that is declared
  before it.  The search for the function and the walk that
  collects names stop at the same block: the first one with
  the id.

  Main declarations:
    * `Scope.spotsAll`
    * `Scope.enclosingAll?_eq_parametersAt?`
    * `Site.function?`
    * `Scope.exists_spots_fill`
    * `Scope.visible_names_are_first_occurrences`
-/

namespace BlockProgram

open Block (inOrderAll)

namespace Scope

------------------------------------------------------------
-- Spots
------------------------------------------------------------

/-
  What a search for visible names sees of a block: its id,
  the name that it declares, and the parameters of the
  innermost function around it.
-/
structure Spot where
  id : BlockId
  declares : Option String
  parameters : List String

def spotOf
    (parameters : List String)
    (b : Block) : Spot :=
  ⟨b.id, b.declared?, parameters⟩

mutual

/-
  The spots of a block and of all inside it, in document
  order, given the parameters around the block.
-/
def spots
    (parameters : List String) :
    Block →
    List Spot
  | b@(.function _ _ own body) =>
      spotOf parameters b :: spotsAll own body
  | b@(.conditional _ _ body _ elseBody) =>
      spotOf parameters b ::
        (spotsAll parameters body ++ spotsAll parameters elseBody)
  | b@(.loop _ _ _ body) =>
      spotOf parameters b :: spotsAll parameters body
  | b@(.assignment _ _ _) => [spotOf parameters b]
  | b@(.ret _ _) => [spotOf parameters b]
  | b@(.call _ _ _) => [spotOf parameters b]

/- `spots` for the blocks of a list, one after another. -/
def spotsAll
    (parameters : List String) :
    List Block →
    List Spot
  | [] => []
  | b :: bs => spots parameters b ++ spotsAll parameters bs

end

theorem spotsAll_append
    (parameters : List String)
    (bs cs : List Block) :
    spotsAll parameters (bs ++ cs) =
      spotsAll parameters bs ++ spotsAll parameters cs := by
  induction bs with
  | nil => rfl
  | cons b bs ih =>
      rw [List.cons_append, spotsAll, spotsAll, ih,
        List.append_assoc]

/- The parameters at the first spot with an id. -/
def parametersAt?
    (target : BlockId)
    (seen : List Spot) : Option (List String) :=
  (seen.find? fun spot => spot.id = target).map Spot.parameters

section Searches

variable {target : BlockId}
variable {parameters : List String}

theorem parametersAt?_append (xs ys : List Spot) :
    parametersAt? target (xs ++ ys) =
      (parametersAt? target xs).or (parametersAt? target ys) := by
  rw [parametersAt?, List.find?_append, Option.map_or]
  rfl

theorem parametersAt?_cons
    (spot : Spot)
    (xs : List Spot) :
    parametersAt? target (spot :: xs) =
      if spot.id = target then some spot.parameters
      else parametersAt? target xs := by
  by_cases hId : spot.id = target
  · simp [parametersAt?, hId]
  · simp [parametersAt?, hId]

theorem enclosingAll?_of_forall
    {bs : List Block}
    (hBlocks :
      ∀ b ∈ bs,
        ∀ parameters,
          enclosing? target parameters b =
            parametersAt? target (spots parameters b)) :
    enclosingAll? target parameters bs =
      parametersAt? target (spotsAll parameters bs) := by
  induction bs with
  | nil => rfl
  | cons b bs ih =>
      rw [List.forall_mem_cons] at hBlocks
      rw [enclosingAll?, spotsAll, parametersAt?_append,
        hBlocks.1, ih hBlocks.2]

theorem enclosing?_eq_parametersAt?
    (b : Block)
    (parameters : List String) :
    enclosing? target parameters b =
      parametersAt? target (spots parameters b) := by
  induction b using Block.induction generalizing parameters with
  | function id name own body ih =>
      rw [enclosing?, spots, parametersAt?_cons,
        enclosingAll?_of_forall ih]
      rfl
  | assignment id name value =>
      rw [enclosing?, spots, parametersAt?_cons]
      rfl
  | conditional id condition body elseKind elseBody ihBody
      ihElse =>
      rw [enclosing?, spots, parametersAt?_cons,
        parametersAt?_append, enclosingAll?_of_forall ihBody,
        enclosingAll?_of_forall ihElse]
      rfl
  | loop id iterator iterable body ih =>
      rw [enclosing?, spots, parametersAt?_cons,
        enclosingAll?_of_forall ih]
      rfl
  | ret id value =>
      rw [enclosing?, spots, parametersAt?_cons]
      rfl
  | call id callee arguments =>
      rw [enclosing?, spots, parametersAt?_cons]
      rfl

/- The search stops at the first spot with the id. -/
theorem enclosingAll?_eq_parametersAt? (bs : List Block) :
    enclosingAll? target parameters bs =
      parametersAt? target (spotsAll parameters bs) :=
  enclosingAll?_of_forall fun b _ => enclosing?_eq_parametersAt? b

/- Without the id no function is found. -/
theorem parametersAt?_eq_none_iff {seen : List Spot} :
    parametersAt? target seen = none ↔
      target ∉ seen.map Spot.id := by
  simp [parametersAt?]

end Searches

/- A spot shows what a block declares. -/
def Spot.mark (spot : Spot) : BlockId × Option String :=
  (spot.id, spot.declares)

theorem map_mark_of_forall
    {parameters : List String}
    {bs : List Block}
    (hBlocks :
      ∀ b ∈ bs,
        ∀ parameters,
          (spots parameters b).map Spot.mark =
            b.inOrder.map fun c => (c.id, c.declared?)) :
    (spotsAll parameters bs).map Spot.mark =
      (inOrderAll bs).map fun c => (c.id, c.declared?) := by
  induction bs with
  | nil => rfl
  | cons b bs ih =>
      rw [List.forall_mem_cons] at hBlocks
      rw [spotsAll, inOrderAll, List.map_append, List.map_append,
        hBlocks.1, ih hBlocks.2]

theorem map_mark_spots
    (b : Block)
    (parameters : List String) :
    (spots parameters b).map Spot.mark =
      b.inOrder.map fun c => (c.id, c.declared?) := by
  induction b using Block.induction generalizing parameters with
  | function id name own body ih =>
      rw [spots, Block.inOrder_function, List.map_cons,
        List.map_cons, map_mark_of_forall ih]
      rfl
  | assignment id name value => rfl
  | conditional id condition body elseKind elseBody ihBody
      ihElse =>
      rw [spots, Block.inOrder_conditional, List.map_cons,
        List.map_cons, List.map_append, List.map_append,
        map_mark_of_forall ihBody, map_mark_of_forall ihElse]
      rfl
  | loop id iterator iterable body ih =>
      rw [spots, Block.inOrder_loop, List.map_cons,
        List.map_cons, map_mark_of_forall ih]
      rfl
  | ret id value => rfl
  | call id callee arguments => rfl

/- The spots of a tree are its blocks in document order. -/
theorem map_mark_spotsAll
    (parameters : List String)
    (bs : List Block) :
    (spotsAll parameters bs).map Spot.mark =
      (inOrderAll bs).map fun c => (c.id, c.declared?) :=
  map_mark_of_forall fun b _ => map_mark_spots b

theorem map_id_spotsAll
    (parameters : List String)
    (bs : List Block) :
    (spotsAll parameters bs).map Spot.id = idsOf bs := by
  have hMarks :=
    congrArg (List.map Prod.fst) (map_mark_spotsAll parameters bs)
  simpa [idsOf, Function.comp_def, Spot.mark] using hMarks

end Scope

------------------------------------------------------------
-- The Function Around A Site
------------------------------------------------------------

/-
  The innermost function in which a body of the shell lies,
  given the one around the shell.
-/
def Shell.innermost
    (outer : Option Shell) :
    Shell →
    Option Shell
  | .function id name parameters =>
      some (.function id name parameters)
  | .branch .. | .elseBranch .. | .loop .. => outer

/- The parameters of a function; other blocks have none. -/
def Shell.parameters : Shell → List String
  | .function _ _ parameters => parameters
  | .branch .. | .elseBranch .. | .loop .. => []

/-
  The innermost function in which the gap lies, given the one
  around the program.
-/
def Site.innermost
    (outer : Option Shell) :
    Site →
    Option Shell
  | .here _ _ => outer
  | .within _ shell inner _ =>
      inner.innermost (shell.innermost outer)

/- The innermost function whose body has the gap in it. -/
def Site.function? (site : Site) : Option Shell :=
  site.innermost none

namespace Scope

/- The parameters of a function, if there is one. -/
def parametersOf (function? : Option Shell) : List String :=
  (function?.map Shell.parameters).getD []

theorem spots_close
    (outer : Option Shell)
    (shell : Shell)
    (bs : List Block) :
    spots (parametersOf outer) (shell.close bs) =
      spotOf (parametersOf outer) (shell.close []) ::
        (spotsAll (parametersOf outer) shell.before ++
          (spotsAll (parametersOf (shell.innermost outer)) bs ++
            spotsAll (parametersOf outer) shell.behind)) := by
  cases shell with
  | function =>
      simp [Shell.close, Shell.before, Shell.behind, spots,
        spotsAll, Shell.innermost, parametersOf, spotOf,
        Shell.parameters, Block.id, Block.declared?]
  | branch =>
      simp [Shell.close, Shell.before, Shell.behind, spots,
        spotsAll, Shell.innermost, spotOf, Block.id,
        Block.declared?]
  | elseBranch =>
      simp [Shell.close, Shell.before, Shell.behind, spots,
        spotsAll, Shell.innermost, spotOf, Block.id,
        Block.declared?]
  | loop =>
      simp [Shell.close, Shell.before, Shell.behind, spots,
        spotsAll, Shell.innermost, spotOf, Block.id,
        Block.declared?]

/-
  What fills a gap is seen between what is around it, with
  the parameters of the innermost function that it lies in.
-/
theorem exists_spots_fill
    (outer : Option Shell)
    (site : Site) :
    ∃ ahead behind,
      ∀ bs,
        ahead.map Spot.id = (site.ahead bs).map Block.id ∧
          spotsAll (parametersOf outer) (site.fill bs) =
            ahead ++
              (spotsAll (parametersOf (site.innermost outer)) bs ++
                behind) := by
  induction site generalizing outer with
  | here before behind =>
      refine
        ⟨spotsAll (parametersOf outer) before,
          spotsAll (parametersOf outer) behind, fun bs => ?_⟩
      rw [map_id_spotsAll, Site.fill, spotsAll_append,
        spotsAll_append]
      exact ⟨rfl, rfl⟩
  | within before shell inner behind ih =>
      rcases ih (shell.innermost outer) with
        ⟨ahead, innerBehind, hInner⟩
      refine
        ⟨spotsAll (parametersOf outer) before ++
            spotOf (parametersOf outer) (shell.close []) ::
              (spotsAll (parametersOf outer) shell.before ++
                ahead),
          innerBehind ++
            (spotsAll (parametersOf outer) shell.behind ++
              spotsAll (parametersOf outer) behind),
          fun bs => ?_⟩
      rcases hInner bs with ⟨hIds, hSpots⟩
      constructor
      · simp only [Site.ahead, List.map_append, List.map_cons,
          map_id_spotsAll, hIds, idsOf, spotOf]
        rw [Shell.id_close]
      · rw [Site.fill, spotsAll_append, spotsAll, spots_close,
          hSpots]
        simp [Site.innermost]

------------------------------------------------------------
-- Names At A Block
------------------------------------------------------------

/-
  The block stands at the site, and it is the first one with
  the id in document order.
-/
structure IsFirstAt
    (target : BlockId)
    (site : Site)
    (old : Block)
    (blocks : List Block) : Prop where
  fill : blocks = site.fill [old]
  id : old.id = target
  first : ∀ b ∈ site.ahead [old], b.id ≠ target

section Names

variable {target : BlockId}
variable {blocks : List Block}

theorem exists_isFirstAt
    (hMember : target ∈ idsOf blocks) :
    ∃ site old, IsFirstAt target site old blocks := by
  cases hFind :
      (documentOrder blocks).find? fun b => b.id = target with
  | none =>
      rcases List.mem_map.mp hMember with ⟨b, hb, hId⟩
      have hNot := List.find?_eq_none.mp hFind b hb
      exact absurd hId (by simpa using hNot)
  | some old =>
      rcases List.find?_eq_some_iff_append.mp hFind with
        ⟨hId, before, behind, hSplit, hBefore⟩
      rcases Site.exists_of_inOrderAll hSplit with
        ⟨site, hFill, rfl⟩
      exact
        ⟨site, old, hFill, by simpa using hId,
          by simpa using hBefore⟩

theorem visibleNamesAt_eq
    (target : BlockId)
    (blocks : List Block) :
    visibleNamesAt target blocks =
      ((parametersAt? target (spotsAll [] blocks)).getD [] ++
          declaredBefore (some target) blocks).eraseDups := by
  rw [visibleNamesAt, visibleNames_eq,
    enclosingAll?_eq_parametersAt?]

/- Where the id is nowhere, no parameters are visible. -/
theorem visibleNamesAt_of_notMem
    (hAbsent : target ∉ idsOf blocks) :
    visibleNamesAt target blocks =
      (declaredBefore (some target) blocks).eraseDups := by
  rw [← map_id_spotsAll []] at hAbsent
  rw [visibleNamesAt_eq, parametersAt?_eq_none_iff.mpr hAbsent]
  rfl

/- A block is seen before all inside it. -/
theorem exists_spots_eq_cons
    (parameters : List String)
    (b : Block) :
    ∃ inside,
      spotsAll parameters [b] =
        spotOf parameters b :: inside := by
  cases b <;> exact ⟨_, rfl⟩

theorem parametersAt?_self
    {old : Block}
    (hId : old.id = target)
    (parameters : List String) :
    parametersAt? target (spotsAll parameters [old]) =
      some parameters := by
  rcases exists_spots_eq_cons parameters old with ⟨inside, hOwn⟩
  have hSpot : (spotOf parameters old).id = target := hId
  rw [hOwn, parametersAt?_cons, if_pos hSpot, spotOf]

theorem visibleNamesAt_of_isFirstAt
    {site : Site}
    {old : Block}
    (hFirst : IsFirstAt target site old blocks) :
    visibleNamesAt target blocks =
      (parametersOf site.function? ++
          declaredBefore (some target) blocks).eraseDups := by
  rcases hFirst with ⟨rfl, hId, hAhead⟩
  rcases exists_spots_fill none site with ⟨ahead, behind, hFill⟩
  rcases hFill [old] with ⟨hIds, hSpots⟩
  have hNone : parametersAt? target ahead = none := by
    rw [parametersAt?_eq_none_iff, hIds]
    simpa using hAhead
  have hParameters :
      parametersAt? target (spotsAll [] (site.fill [old])) =
        some (parametersOf site.function?) := by
    rw [show [] = parametersOf none from rfl, hSpots,
      parametersAt?_append, parametersAt?_append, hNone,
      parametersAt?_self hId]
    rfl
  rw [visibleNamesAt_eq, hParameters]
  rfl

end Names

------------------------------------------------------------
-- Names That Stay
------------------------------------------------------------

section Prefixes

variable {a b : Block}

/- More stands before the later of two blocks. -/
theorem before_isPrefix
    {bs : List Block}
    (hNodup : (bs.map Block.id).Nodup)
    (hOrder : [a, b].Sublist bs) :
    before (some a.id) bs <+: before (some b.id) bs := by
  induction bs with
  | nil => cases hOrder
  | cons c bs ih =>
      rw [List.map_cons, List.nodup_cons] at hNodup
      have hApart (d : Block) (hMember : d ∈ bs) :
          c.id ≠ d.id := by
        intro hSame
        exact hNodup.1 (hSame ▸ List.mem_map_of_mem hMember)
      cases hOrder with
      | cons_cons _ hOrder =>
          rw [before, List.takeWhile_cons_of_neg (by simp)]
          exact List.nil_prefix
      | cons _ hOrder =>
          have hFirst := hApart a (hOrder.subset (by simp))
          have hSecond := hApart b (hOrder.subset (by simp))
          rw [before, before,
            List.takeWhile_cons_of_pos (by simp [hFirst.symm]),
            List.takeWhile_cons_of_pos (by simp [hSecond.symm])]
          exact
            (List.prefix_cons_inj c).mpr (ih hNodup.2 hOrder)

/- The first occurrences in a list begin those in a longer one. -/
theorem eraseDups_isPrefix
    {xs ys : List String}
    (hPrefix : xs <+: ys) :
    xs.eraseDups <+: ys.eraseDups := by
  rcases hPrefix with ⟨rest, rfl⟩
  rw [List.eraseDups_append]
  exact List.prefix_append _ _

/- What is visible stays visible in the same function. -/
theorem visibleNamesAt_isPrefix
    {first second : Site}
    {blocks : List Block}
    (hNodup : (idsOf blocks).Nodup)
    (hFirst : blocks = first.fill [a])
    (hSecond : blocks = second.fill [b])
    (hFunction : first.function? = second.function?)
    (hOrder : [a, b].Sublist (documentOrder blocks)) :
    visibleNamesAt a.id blocks <+: visibleNamesAt b.id blocks := by
  have hFirstAt : IsFirstAt a.id first a blocks :=
    ⟨hFirst, rfl, (Site.id_ne_of_nodup (hFirst ▸ hNodup)).1⟩
  have hSecondAt : IsFirstAt b.id second b blocks :=
    ⟨hSecond, rfl, (Site.id_ne_of_nodup (hSecond ▸ hNodup)).1⟩
  rw [visibleNamesAt_of_isFirstAt hFirstAt,
    visibleNamesAt_of_isFirstAt hSecondAt, hFunction]
  apply eraseDups_isPrefix
  apply (List.prefix_append_right_inj _).mpr
  exact (before_isPrefix hNodup hOrder).filterMap _

end Prefixes

/-
  The names visible at a stop are the first occurrences among
  the parameters and all that is declared before it.  At a
  block the parameters are those of the innermost function
  around the first block with the id.  So within a function
  the names at one block begin those at a later one, if no
  id repeats.
-/
theorem visible_names_are_first_occurrences (blocks : List Block) :
    (∀ stop parameters,
        visibleNames stop parameters blocks =
          (parameters ++ declaredBefore stop blocks).eraseDups) ∧
      (∀ target,
        (target ∉ idsOf blocks →
            visibleNamesAt target blocks =
              (declaredBefore (some target) blocks).eraseDups) ∧
          (target ∈ idsOf blocks →
            ∃ site old, IsFirstAt target site old blocks) ∧
            ∀ site old,
              IsFirstAt target site old blocks →
                visibleNamesAt target blocks =
                  (parametersOf site.function? ++
                      declaredBefore (some target)
                        blocks).eraseDups) ∧
        ((idsOf blocks).Nodup →
          ∀ (first second : Site) (a b : Block),
            blocks = first.fill [a] →
              blocks = second.fill [b] →
                first.function? = second.function? →
                  [a, b].Sublist (documentOrder blocks) →
                    visibleNamesAt a.id blocks <+:
                      visibleNamesAt b.id blocks) := by
  refine ⟨?_, ?_, ?_⟩
  · intro stop parameters
    exact visibleNames_eq stop parameters blocks
  · intro target
    refine ⟨visibleNamesAt_of_notMem, exists_isFirstAt, ?_⟩
    intro site old hFirst
    exact visibleNamesAt_of_isFirstAt hFirst
  · intro hNodup first second a b hFirst hSecond
    exact visibleNamesAt_isPrefix hNodup hFirst hSecond

/- A function with a loop, and a variable before it. -/
def sampleScopes : List Block :=
  [ .assignment "v" "m" (.simple "0"),
    .function "f" "run" ["n", "k"]
      [ .loop "l" "i" "range(n)"
          [.assignment "a" "k" (.simple "i"), .ret "r" "k"],
        .call "c" "print" ["k"] ],
    .ret "e" "m" ]

/- The end of the loop in the function. -/
def sampleLoopEnd : Site :=
  .within [.assignment "v" "m" (.simple "0")]
    (.function "f" "run" ["n", "k"])
    (.within [] (.loop "l" "i" "range(n)")
      (.here [.assignment "a" "k" (.simple "i")] [])
      [.call "c" "print" ["k"]])
    [.ret "e" "m"]

/- The end of the function, behind the loop. -/
def sampleFunctionEnd : Site :=
  .within [.assignment "v" "m" (.simple "0")]
    (.function "f" "run" ["n", "k"])
    (.here
      [.loop "l" "i" "range(n)"
        [.assignment "a" "k" (.simple "i"), .ret "r" "k"]]
      [])
    [.ret "e" "m"]

/-
  In the loop the parameters come first, and they stay so
  behind it.  Without the id all names count, and no
  parameters.
-/
theorem visible_names_are_first_occurrences_scopes :
    visibleNamesAt "r" sampleScopes = ["n", "k", "m", "i"] ∧
      visibleNamesAt "r" sampleScopes <+:
          visibleNamesAt "c" sampleScopes ∧
        visibleNamesAt "q" sampleScopes = ["m", "i", "k"] := by
  rcases visible_names_are_first_occurrences sampleScopes with
    ⟨_, hNames, hPrefix⟩
  refine ⟨?_, ?_, ?_⟩
  · have hFirst :
        IsFirstAt "r" sampleLoopEnd (.ret "r" "k")
          sampleScopes :=
      ⟨rfl, rfl, by decide⟩
    rw [(hNames "r").2.2 _ _ hFirst]
    rfl
  · have hOrder :
        [Block.ret "r" "k", .call "c" "print" ["k"]].Sublist
          (documentOrder sampleScopes) := by
      decide
    exact
      hPrefix (by decide) sampleLoopEnd sampleFunctionEnd
        (.ret "r" "k") (.call "c" "print" ["k"]) rfl rfl rfl
        hOrder
  · rw [(hNames "q").1 (by decide)]
    rfl

end Scope

end BlockProgram
