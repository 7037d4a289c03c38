import Mathlib.Algebra.Ring.Nat
import Mathlib.Data.List.Chain
import BlockProgram.Proofs.Block.Soundness
import BlockProgram.Proofs.Source.Accounting
import BlockProgram.Proofs.Source.Layout

/-
  Where the lines of a written program stand.

  A line belongs to a block, opens the other case of a
  conditional, or stands for a body without blocks.  Every
  body lies one level below the line that opens it, and a
  chained conditional beside the one it is chained to.

  Main declarations:
    * `Source.Post`
    * `Source.posts`
    * `Source.places`
    * `Source.IsLaidOut`
    * `Source.compile_isLaidOut`
-/

namespace BlockProgram

------------------------------------------------------------
-- The Bodies Of A Block
------------------------------------------------------------

namespace Block

/- The bodies that lie below a line of the block. -/
def bodies : Block → List (List Block)
  | .function _ _ _ body => [body]
  | .conditional _ _ body .otherwise elseBody => [body, elseBody]
  | .conditional _ _ body .none _ => [body]
  | .conditional _ _ body .elif _ => [body]
  | .loop _ _ _ body => [body]
  | .assignment .. | .ret .. | .call .. => []

end Block

/- How many bodies of a program have no blocks. -/
def emptyBodies (blocks : List Block) : Nat :=
  ((documentOrder blocks).flatMap Block.bodies).countP
    List.isEmpty

namespace Source

/- How many else clauses a program has. -/
def elseClauses (blocks : List Block) : Nat :=
  (documentOrder blocks).countP hasElse

------------------------------------------------------------
-- Lines And What They Are For
------------------------------------------------------------

/- What a line of a written program is for. -/
inductive Mark where
  /- The own line of a block, which may be chained. -/
  | own (chained : Bool) (b : Block)
  /- The line above the blocks for the other case. -/
  | otherwise (body : List Block)
  /- The line of a body that has no blocks. -/
  | placeholder

/- A line of a written program, under a number of bodies. -/
structure Post where
  depth : Nat
  mark : Mark

namespace Mark

/- What the line says. -/
def text : Mark → String
  | .own chained b => headText chained b
  | .otherwise _ => "else:"
  | .placeholder => placeholderText

/- The body that the line is the header of. -/
def opens : Mark → Option (List Block)
  | .own _ (.function _ _ _ body) => some body
  | .own _ (.conditional _ _ body _ _) => some body
  | .own _ (.loop _ _ _ body) => some body
  | .own _ (.assignment ..) => none
  | .own _ (.ret ..) => none
  | .own _ (.call ..) => none
  | .otherwise body => some body
  | .placeholder => none

/- The block whose own line it is. -/
def block? : Mark → Option Block
  | .own _ b => some b
  | .otherwise _ => none
  | .placeholder => none

end Mark

namespace Post

/- The line as a row. -/
def row (post : Post) : Row where
  depth := post.depth
  text := post.mark.text

/-
  A line may be followed by another one.  Under a header the
  body begins, with a placeholder if it has no blocks.  After
  any other line a body may go on or end, and after a
  placeholder it has to end.
-/
def MayPrecede (first second : Post) : Prop :=
  match first.mark.opens with
  | some body =>
      second.depth = first.depth + 1 ∧
        (second.mark = .placeholder ↔ body = [])
  | none =>
      second.depth ≤ first.depth ∧
        second.mark ≠ .placeholder ∧
          (first.mark = .placeholder → second.depth < first.depth)

end Post

/- The lines of a body, which cannot stay without any. -/
def filled
    (depth : Nat)
    (inner : List Post) : List Post :=
  if inner.isEmpty then [⟨depth, .placeholder⟩] else inner

/- The lines of an else branch, given those of its blocks. -/
def branchPosts
    (depth : Nat)
    (elseKind : ElseKind)
    (elseBody : List Block)
    (chained others : List Post) : List Post :=
  match elseKind with
  | .none => []
  | .elif => chained
  | .otherwise =>
      ⟨depth, .otherwise elseBody⟩ :: filled (depth + 1) others

mutual

/- The lines of a block and what each of them is for. -/
def posts
    (depth : Nat)
    (chained : Bool) :
    Block →
    List Post
  | .function id name parameters body =>
      ⟨depth, .own chained (.function id name parameters body)⟩ ::
        filled (depth + 1) (postsAll (depth + 1) false body)
  | .assignment id name value =>
      [⟨depth, .own chained (.assignment id name value)⟩]
  | .conditional id condition body elseKind elseBody =>
      ⟨depth,
          .own chained
            (.conditional id condition body elseKind elseBody)⟩ ::
        (filled (depth + 1) (postsAll (depth + 1) false body) ++
          branchPosts depth elseKind elseBody
            (postsAll depth true elseBody)
            (postsAll (depth + 1) false elseBody))
  | .loop id iterator iterable body =>
      ⟨depth, .own chained (.loop id iterator iterable body)⟩ ::
        filled (depth + 1) (postsAll (depth + 1) false body)
  | .ret id value => [⟨depth, .own chained (.ret id value)⟩]
  | .call id callee arguments =>
      [⟨depth, .own chained (.call id callee arguments)⟩]

/- The lines of a list of blocks, one block after another. -/
def postsAll
    (depth : Nat)
    (chained : Bool) :
    List Block →
    List Post
  | [] => []
  | b :: bs => posts depth chained b ++ postsAll depth chained bs

end

/- A block has a line, and a list of blocks one for each. -/
theorem posts_ne_nil
    (depth : Nat)
    (chained : Bool)
    (b : Block) :
    posts depth chained b ≠ [] := by
  cases b <;> exact List.cons_ne_nil _ _

theorem postsAll_eq_nil_iff
    {depth : Nat}
    {chained : Bool}
    {bs : List Block} :
    postsAll depth chained bs = [] ↔ bs = [] := by
  cases bs with
  | nil => simp [postsAll]
  | cons b bs => simp [postsAll, posts_ne_nil]

------------------------------------------------------------
-- Lines As Rows
------------------------------------------------------------

theorem map_row_filled
    (depth : Nat)
    (inner : List Post) :
    (filled depth inner).map Post.row =
      orPlaceholder depth (inner.map Post.row) := by
  cases inner <;> rfl

theorem map_row_postsAll
    {bs : List Block}
    (h :
      ∀ b ∈ bs,
        ∀ depth chained,
          (posts depth chained b).map Post.row =
            layout depth chained b)
    (depth : Nat)
    (chained : Bool) :
    (postsAll depth chained bs).map Post.row =
      layoutAll depth chained bs := by
  induction bs with
  | nil => rfl
  | cons b bs ih =>
      rcases List.forall_mem_cons.mp h with ⟨hFirst, hOthers⟩
      rw [postsAll, List.map_append, hFirst, ih hOthers, layoutAll]

/- The rows of a block are its lines. -/
theorem map_row_posts
    (b : Block)
    (depth : Nat)
    (chained : Bool) :
    (posts depth chained b).map Post.row =
      layout depth chained b := by
  induction b using Block.induction generalizing depth chained with
  | function id name parameters body ih =>
      rw [posts, List.map_cons, map_row_filled,
        map_row_postsAll ih, layout]
      rfl
  | assignment id name value => rfl
  | conditional id condition body elseKind elseBody ihBody
      ihElse =>
      rw [posts, List.map_cons, List.map_append, map_row_filled,
        map_row_postsAll ihBody, layout]
      cases elseKind with
      | none => rfl
      | elif =>
          rw [branchPosts, map_row_postsAll ihElse]
          rfl
      | otherwise =>
          rw [branchPosts, List.map_cons, map_row_filled,
            map_row_postsAll ihElse]
          rfl
  | loop id iterator iterable body ih =>
      rw [posts, List.map_cons, map_row_filled,
        map_row_postsAll ih, layout]
      rfl
  | ret id value => rfl
  | call id callee arguments => rfl

------------------------------------------------------------
-- Lines That Follow One Another
------------------------------------------------------------

/-
  The lines of blocks at a depth.  They begin there and never
  go above, a placeholder lies in a body of theirs, and the
  last line is no header.
-/
structure IsLaidOut
    (depth : Nat)
    (lines : List Post) : Prop where
  chain : lines.IsChain Post.MayPrecede
  first :
    ∀ post ∈ lines.head?,
      post.depth = depth ∧ post.mark ≠ .placeholder
  below :
    ∀ post ∈ lines,
      depth ≤ post.depth ∧
        (post.mark = .placeholder → depth < post.depth)
  last : ∀ post ∈ lines.getLast?, post.mark.opens = none

section LaidOut

variable {depth : Nat}
variable {lines others inner : List Post}

theorem isLaidOut_nil : IsLaidOut depth [] where
  chain := .nil
  first := by simp
  below := by simp
  last := by simp

/- A line without a body. -/
theorem isLaidOut_singleton
    {mark : Mark}
    (hOwn : mark ≠ .placeholder)
    (hOpens : mark.opens = none) :
    IsLaidOut depth [⟨depth, mark⟩] where
  chain := .singleton _
  first := by simpa using hOwn
  below := by simp [hOwn]
  last := by simpa using hOpens

/- Blocks may stand one after another. -/
theorem isLaidOut_append
    (hLines : IsLaidOut depth lines)
    (hOthers : IsLaidOut depth others) :
    IsLaidOut depth (lines ++ others) where
  chain := by
    rw [List.isChain_append]
    refine ⟨hLines.chain, hOthers.chain, ?_⟩
    intro before hBefore after hAfter
    have hMember := List.mem_of_getLast? hBefore
    rcases hLines.below before hMember with ⟨hBelow, hDeeper⟩
    rcases hOthers.first after hAfter with ⟨rfl, hOwn⟩
    rw [Post.MayPrecede, hLines.last before hBefore]
    exact ⟨hBelow, hOwn, hDeeper⟩
  first := by
    intro post hPost
    cases lines with
    | nil => exact hOthers.first post hPost
    | cons line lines => exact hLines.first post hPost
  below := by
    intro post hPost
    rcases List.mem_append.mp hPost with hMember | hMember
    · exact hLines.below post hMember
    · exact hOthers.below post hMember
  last := by
    intro post hPost
    rw [List.getLast?_append] at hPost
    cases hLast : others.getLast? with
    | none =>
        rw [hLast] at hPost
        exact hLines.last post hPost
    | some found =>
        rw [hLast] at hPost
        exact hOthers.last post (hLast.trans hPost)

/- A header may stand above the lines of its body. -/
theorem isLaidOut_opened
    {mark : Mark}
    {body : List Block}
    (hInner : IsLaidOut (depth + 1) inner)
    (hOwn : mark ≠ .placeholder)
    (hOpens : mark.opens = some body)
    (hEmpty : inner = [] ↔ body = []) :
    IsLaidOut depth
      (⟨depth, mark⟩ :: filled (depth + 1) inner) := by
  cases inner with
  | nil =>
      have hBody : body = [] := hEmpty.mp rfl
      rw [filled, List.isEmpty_nil, if_pos rfl]
      exact
        { chain := by
            simp [Post.MayPrecede, hOpens, hBody]
          first := by simpa using hOwn
          below := by simp [hOwn]
          last := by simp [Mark.opens] }
  | cons line inner =>
      have hBody : body ≠ [] :=
        fun hNil => List.cons_ne_nil _ _ (hEmpty.mpr hNil)
      have hFirst := hInner.first line rfl
      rw [filled, List.isEmpty_cons, if_neg Bool.false_ne_true]
      exact
        { chain := by
            rw [List.isChain_cons_cons]
            refine ⟨?_, hInner.chain⟩
            simp [Post.MayPrecede, hOpens, hBody, hFirst]
          first := by simpa using hOwn
          below := by
            rw [List.forall_mem_cons]
            refine ⟨⟨Nat.le_refl _, fun h => absurd h hOwn⟩, ?_⟩
            intro post hPost
            rcases hInner.below post hPost with
              ⟨hBelow, hDeeper⟩
            exact
              ⟨Nat.le_of_succ_le hBelow,
                fun _ => hBelow⟩
          last := by
            intro post hPost
            rw [List.getLast?_cons_cons] at hPost
            exact hInner.last post hPost }

theorem isLaidOut_postsAll
    {bs : List Block}
    {chained : Bool}
    (h : ∀ b ∈ bs, IsLaidOut depth (posts depth chained b)) :
    IsLaidOut depth (postsAll depth chained bs) := by
  induction bs with
  | nil => exact isLaidOut_nil
  | cons b bs ih =>
      rcases List.forall_mem_cons.mp h with ⟨hFirst, hOthers⟩
      exact isLaidOut_append hFirst (ih hOthers)

end LaidOut

/- The lines of a block are laid out. -/
theorem isLaidOut_posts
    (b : Block)
    (depth : Nat)
    (chained : Bool) :
    IsLaidOut depth (posts depth chained b) := by
  induction b using Block.induction generalizing depth chained with
  | function id name parameters body ih =>
      have hBody :=
        isLaidOut_postsAll fun b hb => ih b hb (depth + 1) false
      exact
        isLaidOut_opened hBody nofun rfl postsAll_eq_nil_iff
  | assignment id name value =>
      exact isLaidOut_singleton nofun rfl
  | conditional id condition body elseKind elseBody ihBody
      ihElse =>
      have hBody :=
        isLaidOut_postsAll fun b hb =>
          ihBody b hb (depth + 1) false
      rw [posts, ← List.cons_append]
      apply isLaidOut_append
      · exact
          isLaidOut_opened hBody nofun rfl postsAll_eq_nil_iff
      · cases elseKind with
        | none => exact isLaidOut_nil
        | elif =>
            exact
              isLaidOut_postsAll fun b hb =>
                ihElse b hb depth true
        | otherwise =>
            have hElse :=
              isLaidOut_postsAll fun b hb =>
                ihElse b hb (depth + 1) false
            exact
              isLaidOut_opened hElse nofun rfl
                postsAll_eq_nil_iff
  | loop id iterator iterable body ih =>
      have hBody :=
        isLaidOut_postsAll fun b hb => ih b hb (depth + 1) false
      exact
        isLaidOut_opened hBody nofun rfl postsAll_eq_nil_iff
  | ret id value => exact isLaidOut_singleton nofun rfl
  | call id callee arguments =>
      exact isLaidOut_singleton nofun rfl

------------------------------------------------------------
-- The Lines Of Blocks
------------------------------------------------------------

mutual

/-
  The own lines of a block and the blocks inside it.  A body
  lies one level below its block, except that a chained
  conditional is on the level of the one before it.
-/
def places
    (depth : Nat)
    (chained : Bool) :
    Block →
    List Post
  | .function id name parameters body =>
      ⟨depth, .own chained (.function id name parameters body)⟩ ::
        placesAll (depth + 1) false body
  | .assignment id name value =>
      [⟨depth, .own chained (.assignment id name value)⟩]
  | .conditional id condition body elseKind elseBody =>
      ⟨depth,
          .own chained
            (.conditional id condition body elseKind elseBody)⟩ ::
        (placesAll (depth + 1) false body ++
          if elseKind = .elif then placesAll depth true elseBody
          else placesAll (depth + 1) false elseBody)
  | .loop id iterator iterable body =>
      ⟨depth, .own chained (.loop id iterator iterable body)⟩ ::
        placesAll (depth + 1) false body
  | .ret id value => [⟨depth, .own chained (.ret id value)⟩]
  | .call id callee arguments =>
      [⟨depth, .own chained (.call id callee arguments)⟩]

/- The own lines in a list of blocks. -/
def placesAll
    (depth : Nat)
    (chained : Bool) :
    List Block →
    List Post
  | [] => []
  | b :: bs => places depth chained b ++ placesAll depth chained bs

end

/- The lines that are a block's own. -/
def ownPosts (lines : List Post) : List Post :=
  lines.filter fun post => post.mark.block?.isSome

theorem ownPosts_append (lines others : List Post) :
    ownPosts (lines ++ others) =
      ownPosts lines ++ ownPosts others :=
  List.filter_append _ _

theorem ownPosts_filled
    (depth : Nat)
    (inner : List Post) :
    ownPosts (filled depth inner) = ownPosts inner := by
  cases inner <;> rfl

theorem ownPosts_postsAll
    {bs : List Block}
    (h :
      ∀ b ∈ bs,
        b.IsSound →
          ∀ depth chained,
            ownPosts (posts depth chained b) =
              places depth chained b)
    (hSound : Block.AreSound bs)
    (depth : Nat)
    (chained : Bool) :
    ownPosts (postsAll depth chained bs) =
      placesAll depth chained bs := by
  induction bs with
  | nil => rfl
  | cons b bs ih =>
      rcases List.forall_mem_cons.mp h with ⟨hFirst, hOthers⟩
      rcases Block.areSound_cons.mp hSound with ⟨hOwn, hRest⟩
      rw [postsAll, ownPosts_append, hFirst hOwn,
        ih hOthers hRest, placesAll]

/- The line of an empty body is no block's own. -/
theorem ownPosts_body
    {body : List Block}
    (h :
      ∀ b ∈ body,
        b.IsSound →
          ∀ depth chained,
            ownPosts (posts depth chained b) =
              places depth chained b)
    (hSound : Block.AreSound body)
    (depth : Nat) :
    ownPosts
        (filled (depth + 1) (postsAll (depth + 1) false body)) =
      placesAll (depth + 1) false body := by
  rw [ownPosts_filled, ownPosts_postsAll h hSound]

/- The own lines are those of the blocks, at their places. -/
theorem ownPosts_posts
    {b : Block}
    (hSound : b.IsSound)
    (depth : Nat)
    (chained : Bool) :
    ownPosts (posts depth chained b) = places depth chained b := by
  induction b using Block.induction generalizing depth chained with
  | function id name parameters body ih =>
      have hInner :=
        ownPosts_body ih (Block.isSound_function.mp hSound) depth
      rw [places, ← hInner]
      rfl
  | assignment id name value => rfl
  | conditional id condition body elseKind elseBody ihBody
      ihElse =>
      rcases Block.isSound_conditional.mp hSound with
        ⟨hFits, hBody, hElse⟩
      have hBranch :
          ownPosts
              (branchPosts depth elseKind elseBody
                (postsAll depth true elseBody)
                (postsAll (depth + 1) false elseBody)) =
            if elseKind = .elif then placesAll depth true elseBody
            else placesAll (depth + 1) false elseBody := by
        cases elseKind with
        | none =>
            rcases hFits with rfl
            rfl
        | elif => exact ownPosts_postsAll ihElse hElse depth true
        | otherwise =>
            rw [if_neg nofun, ← ownPosts_body ihElse hElse]
            rfl
      rw [places, ← hBranch, ← ownPosts_body ihBody hBody,
        ← ownPosts_append]
      rfl
  | loop id iterator iterable body ih =>
      have hInner :=
        ownPosts_body ih (Block.isSound_loop.mp hSound) depth
      rw [places, ← hInner]
      rfl
  | ret id value => rfl
  | call id callee arguments => rfl

/- The blocks of some lines. -/
def ownBlocks (lines : List Post) : List Block :=
  lines.filterMap fun post => post.mark.block?

theorem ownBlocks_append (lines others : List Post) :
    ownBlocks (lines ++ others) =
      ownBlocks lines ++ ownBlocks others :=
  List.filterMap_append

theorem ownBlocks_placesAll
    {bs : List Block}
    (h :
      ∀ b ∈ bs,
        ∀ depth chained,
          ownBlocks (places depth chained b) = b.inOrder)
    (depth : Nat)
    (chained : Bool) :
    ownBlocks (placesAll depth chained bs) =
      Block.inOrderAll bs := by
  induction bs with
  | nil => rfl
  | cons b bs ih =>
      rcases List.forall_mem_cons.mp h with ⟨hFirst, hOthers⟩
      rw [placesAll, ownBlocks_append, hFirst, ih hOthers,
        Block.inOrderAll]

/- Each block has one place, and they are in order. -/
theorem ownBlocks_places
    (b : Block)
    (depth : Nat)
    (chained : Bool) :
    ownBlocks (places depth chained b) = b.inOrder := by
  induction b using Block.induction generalizing depth chained with
  | function id name parameters body ih =>
      rw [Block.inOrder, ← ownBlocks_placesAll ih (depth + 1) false]
      rfl
  | assignment id name value => rfl
  | conditional id condition body elseKind elseBody ihBody
      ihElse =>
      have hBranch :
          ownBlocks
              (if elseKind = .elif then
                placesAll depth true elseBody
              else placesAll (depth + 1) false elseBody) =
            Block.inOrderAll elseBody := by
        split
        · exact ownBlocks_placesAll ihElse _ _
        · exact ownBlocks_placesAll ihElse _ _
      rw [Block.inOrder, ← hBranch,
        ← ownBlocks_placesAll ihBody (depth + 1) false,
        ← ownBlocks_append]
      rfl
  | loop id iterator iterable body ih =>
      rw [Block.inOrder, ← ownBlocks_placesAll ih (depth + 1) false]
      rfl
  | ret id value => rfl
  | call id callee arguments => rfl

------------------------------------------------------------
-- How Many Lines There Are
------------------------------------------------------------

/- The lines of a block, save those of the blocks inside it. -/
def ownCount (b : Block) : Nat :=
  1 + b.bodies.countP List.isEmpty + (hasElse b).toNat

theorem sum_ownCount (bs : List Block) :
    (bs.map ownCount).sum =
      bs.length + (bs.flatMap Block.bodies).countP List.isEmpty +
        bs.countP hasElse := by
  induction bs with
  | nil => rfl
  | cons b bs ih =>
      rw [List.map_cons, List.sum_cons, ih, List.length_cons,
        List.flatMap_cons, List.countP_append, List.countP_cons,
        ownCount]
      cases hasElse b <;> simp <;> omega

theorem length_filled_postsAll
    (depth : Nat)
    (chained : Bool)
    (body : List Block) :
    (filled depth (postsAll depth chained body)).length =
      (postsAll depth chained body).length +
        [body].countP List.isEmpty := by
  cases body with
  | nil => rfl
  | cons b bs =>
      have hSome : postsAll depth chained (b :: bs) ≠ [] :=
        mt postsAll_eq_nil_iff.mp (List.cons_ne_nil b bs)
      simp [filled, hSome]

theorem length_postsAll
    {bs : List Block}
    (h :
      ∀ b ∈ bs,
        b.IsSound →
          ∀ depth chained,
            (posts depth chained b).length =
              (b.inOrder.map ownCount).sum)
    (hSound : Block.AreSound bs)
    (depth : Nat)
    (chained : Bool) :
    (postsAll depth chained bs).length =
      ((Block.inOrderAll bs).map ownCount).sum := by
  induction bs with
  | nil => rfl
  | cons b bs ih =>
      rcases List.forall_mem_cons.mp h with ⟨hFirst, hOthers⟩
      rcases Block.areSound_cons.mp hSound with ⟨hOwn, hRest⟩
      rw [postsAll, List.length_append, hFirst hOwn,
        ih hOthers hRest, Block.inOrderAll, List.map_append,
        List.sum_append]

/- Each block has as many lines as it needs. -/
theorem length_posts
    {b : Block}
    (hSound : b.IsSound)
    (depth : Nat)
    (chained : Bool) :
    (posts depth chained b).length =
      (b.inOrder.map ownCount).sum := by
  induction b using Block.induction generalizing depth chained with
  | function id name parameters body ih =>
      have hBody := Block.isSound_function.mp hSound
      rw [posts, List.length_cons, length_filled_postsAll,
        length_postsAll ih hBody, Block.inOrder, List.map_cons,
        List.sum_cons]
      simp only [ownCount, Block.bodies, hasElse, Bool.toNat_false]
      omega
  | assignment id name value => rfl
  | conditional id condition body elseKind elseBody ihBody
      ihElse =>
      rcases Block.isSound_conditional.mp hSound with
        ⟨hFits, hBody, hElse⟩
      rw [posts, List.length_cons, List.length_append,
        length_filled_postsAll, length_postsAll ihBody hBody,
        Block.inOrder, List.map_cons, List.map_append,
        List.sum_cons, List.sum_append]
      cases elseKind with
      | none =>
          rcases hFits with rfl
          simp only [branchPosts, ownCount, Block.bodies, hasElse,
            reduceCtorEq, decide_false, Bool.toNat_false,
            Block.inOrderAll, List.length_nil, List.map_nil,
            List.sum_nil]
          omega
      | elif =>
          simp only [branchPosts, length_postsAll ihElse hElse,
            ownCount, Block.bodies, hasElse, reduceCtorEq,
            decide_false, Bool.toNat_false]
          omega
      | otherwise =>
          simp only [branchPosts, List.length_cons,
            length_filled_postsAll, length_postsAll ihElse hElse,
            ownCount, Block.bodies, hasElse, decide_true,
            Bool.toNat_true, List.countP_cons, List.countP_nil]
          omega
  | loop id iterator iterable body ih =>
      have hBody := Block.isSound_loop.mp hSound
      rw [posts, List.length_cons, length_filled_postsAll,
        length_postsAll ih hBody, Block.inOrder, List.map_cons,
        List.sum_cons]
      simp only [ownCount, Block.bodies, hasElse, Bool.toNat_false]
      omega
  | ret id value => rfl
  | call id callee arguments => rfl

end Source

end BlockProgram
