import BlockProgram.Block.Ladder
import BlockProgram.Proofs.Session.Supply
import BlockProgram.Proofs.Source.Layout

/-
  Ladders pass their check, and are written flat.

  A chained conditional stands inside the one before it, but
  its rows go on at the same depth.  So the tree of a ladder
  is as deep as it has rungs, while its text has two levels.

  Main declarations:
    * `Source.layout_withElif`
    * `Source.layout_withElse`
    * `Source.IsLadder`
    * `Source.checkTree_ladder`
    * `Source.compile_ladder`
-/

namespace BlockProgram

namespace Source

open Block (AreSound Fits ladder rung)

------------------------------------------------------------
-- Clauses
------------------------------------------------------------

/- The rows of a conditional, but for its else branch. -/
def clauseRows
    (depth : Nat)
    (chained : Bool) :
    Block →
    List Row
  | .conditional _ condition body _ _ =>
      ⟨depth, conditionalText chained condition⟩ ::
        orPlaceholder (depth + 1)
          (layoutAll (depth + 1) false body)
  | .function .. | .assignment .. | .loop .. | .ret ..
  | .call .. => []

/- What is chained goes on at the depth of the conditional. -/
theorem layout_withElif
    {b : Block}
    (hKind : b.kind = .conditional)
    (next : Block)
    (depth : Nat)
    (chained : Bool) :
    layout depth chained (b.withElif next) =
      clauseRows depth chained b ++ layout depth true next := by
  cases b with
  | conditional id condition body elseKind elseBody =>
      simp [Block.withElif, layout, layoutAll, branchRows, headText,
        clauseRows]
  | function | assignment | loop | ret | call => cases hKind

/- What is for all other cases goes one level deeper. -/
theorem layout_withElse
    {b : Block}
    (hKind : b.kind = .conditional)
    (elseBody : List Block)
    (depth : Nat)
    (chained : Bool) :
    layout depth chained (b.withElse elseBody) =
      clauseRows depth chained b ++
        ⟨depth, "else:"⟩ ::
          orPlaceholder (depth + 1)
            (layoutAll (depth + 1) false elseBody) := by
  cases b with
  | conditional id condition body elseKind _ =>
      simp [Block.withElse, layout, branchRows, headText,
        clauseRows]
  | function | assignment | loop | ret | call => cases hKind

theorem isSound_withElif
    {b next : Block}
    (hSound : b.IsSound)
    (hKind : next.kind = .conditional)
    (hNext : next.IsSound) :
    (b.withElif next).IsSound := by
  cases b with
  | conditional id condition body elseKind elseBody =>
      have hBody := (Block.isSound_conditional.mp hSound).2.1
      have hFits : Fits .elif [next] := by simp [Fits, hKind]
      exact
        Block.isSound_conditional.mpr
          ⟨hFits, hBody, by simpa using hNext⟩
  | function | assignment | loop | ret | call => exact hSound

theorem isSound_withElse
    {b : Block}
    {elseBody : List Block}
    (hSound : b.IsSound)
    (hElse : AreSound elseBody) :
    (b.withElse elseBody).IsSound := by
  cases b with
  | conditional id condition body elseKind _ =>
      have hBody := (Block.isSound_conditional.mp hSound).2.1
      exact Block.isSound_conditional.mpr ⟨trivial, hBody, hElse⟩
  | function | assignment | loop | ret | call => exact hSound

------------------------------------------------------------
-- Ids In Turn
------------------------------------------------------------

/- The ids were made with different numbers from a range. -/
structure AreDrawn
    (first next : Nat)
    (ids : List BlockId) : Prop where
  nodup : ids.Nodup
  drawn : ∀ id ∈ ids, Session.IsDrawn first next id

theorem areDrawn_nil (first next : Nat) :
    AreDrawn first next [] :=
  ⟨List.nodup_nil, List.forall_mem_nil _⟩

/- The number that comes next makes an id of its own. -/
theorem areDrawn_cons
    {first next : Nat}
    {ids : List BlockId}
    (kind : Kind)
    (hNext : first ≤ next)
    (hDrawn : AreDrawn first next ids) :
    AreDrawn first (next + 1) (kind.freshId next :: ids) where
  nodup := by
    have hOwn :
        Session.IsDrawn next (next + 1) (kind.freshId next) :=
      ⟨kind, next, Nat.le_refl _, Nat.lt_succ_self _, rfl⟩
    refine List.nodup_cons.mpr ⟨?_, hDrawn.nodup⟩
    intro hMember
    exact
      Session.ne_of_isDrawn (hDrawn.drawn _ hMember) hOwn rfl
  drawn := by
    refine List.forall_mem_cons.mpr ⟨?_, ?_⟩
    · exact ⟨kind, next, hNext, Nat.lt_succ_self _, rfl⟩
    · intro id hId
      exact
        Session.isDrawn_mono (Nat.le_refl _) (Nat.le_succ _)
          (hDrawn.drawn id hId)

theorem AreDrawn.perm
    {first next : Nat}
    {ids ids' : List BlockId}
    (hDrawn : AreDrawn first next ids)
    (hPerm : ids.Perm ids') :
    AreDrawn first next ids' where
  nodup := hPerm.nodup_iff.mp hDrawn.nodup
  drawn := fun id hId => hDrawn.drawn id (hPerm.mem_iff.mpr hId)

------------------------------------------------------------
-- Rungs
------------------------------------------------------------

/- A header, and the one row that stands under it. -/
def rungRows
    (depth : Nat)
    (chained : Bool)
    (condition : String) : List Row :=
  [⟨depth, conditionalText chained condition⟩,
    ⟨depth + 1, callText condition [condition]⟩]

/- The rows at the end of a ladder, if it is closed. -/
def endRows
    (closed : Bool)
    (depth : Nat) : List Row :=
  if closed then
    [⟨depth, "else:"⟩, ⟨depth + 1, retText ""⟩]
  else []

/-
  The rows of a ladder.  Only its first rung may begin with
  an `if`, and all its rungs stand at one depth.
-/
def ladderRows
    (closed : Bool)
    (depth : Nat)
    (chained : Bool) :
    List String →
    List Row
  | [] => []
  | condition :: conditions =>
      rungRows depth chained condition ++
        (conditions.flatMap (rungRows depth true) ++
          endRows closed depth)

theorem clauseRows_rung
    (depth : Nat)
    (chained : Bool)
    (condition : String)
    (n : Nat) :
    clauseRows depth chained (rung condition n) =
      rungRows depth chained condition :=
  rfl

theorem isSound_rung
    (condition : String)
    (n : Nat) :
    (rung condition n).IsSound := by
  simp [rung, Fits]

/- The call in a rung is numbered before the rung. -/
theorem areDrawn_rung
    (condition : String)
    (n : Nat) :
    AreDrawn n (n + 2) (idsOf [rung condition n]) := by
  have hCall :=
    areDrawn_cons .call (Nat.le_refl n) (areDrawn_nil n n)
  have hRung := areDrawn_cons .conditional (Nat.le_succ n) hCall
  simpa [rung] using hRung

------------------------------------------------------------
-- Whole Ladders
------------------------------------------------------------

/-
  A sound conditional with ids of its own, which has the rows
  of a ladder at any depth.
-/
structure IsLadder
    (closed : Bool)
    (first next : Nat)
    (conditions : List String)
    (b : Block) : Prop where
  kind : b.kind = .conditional
  sound : b.IsSound
  le : first ≤ next
  drawn : AreDrawn first next (idsOf [b])
  rows :
    ∀ depth chained,
      layout depth chained b =
        ladderRows closed depth chained conditions

theorem isLadder_rung
    (condition : String)
    (n : Nat) :
    IsLadder false n (n + 2) [condition] (rung condition n) where
  kind := rfl
  sound := isSound_rung condition n
  le := Nat.le_add_right n 2
  drawn := areDrawn_rung condition n
  rows := fun _ _ => rfl

theorem isLadder_withElse
    (condition : String)
    (n : Nat) :
    IsLadder true n (n + 3) [condition]
      ((rung condition n).withElse
        [.ret (Kind.ret.freshId (n + 2)) ""]) where
  kind := rfl
  sound :=
    isSound_withElse (isSound_rung condition n)
      (by simp)
  le := Nat.le_add_right n 3
  drawn := by
    have hEnd :=
      areDrawn_cons .ret (Nat.le_add_right n 2)
        (areDrawn_rung condition n)
    exact hEnd.perm (List.perm_append_singleton _ _).symm
  rows := by
    intro depth chained
    rw [layout_withElse rfl, clauseRows_rung]
    rfl

/- A rung in front of a ladder makes a longer one. -/
theorem isLadder_withElif
    {closed : Bool}
    {first next : Nat}
    {condition' : String}
    {conditions : List String}
    {b : Block}
    (condition : String)
    (hLadder :
      IsLadder closed first next (condition' :: conditions) b) :
    IsLadder closed first (next + 2)
      (condition :: condition' :: conditions)
      ((rung condition next).withElif b) where
  kind := rfl
  sound :=
    isSound_withElif (isSound_rung condition next) hLadder.kind
      hLadder.sound
  le := Nat.le_trans hLadder.le (Nat.le_add_right next 2)
  drawn := by
    have hCall := areDrawn_cons .call hLadder.le hLadder.drawn
    have hRung :=
      areDrawn_cons .conditional
        (Nat.le_trans hLadder.le (Nat.le_succ next)) hCall
    simpa [rung, Block.withElif] using hRung
  rows := by
    intro depth chained
    rw [layout_withElif rfl, clauseRows_rung, hLadder.rows]
    simp [ladderRows]

/-
  A ladder with at least one rung is a single block.  By
  induction on the rungs behind the first, since it is built
  from its end.
-/
theorem exists_isLadder
    (closed : Bool)
    (n : Nat)
    (condition : String)
    (conditions : List String) :
    ∃ b next,
      ladder closed n (condition :: conditions) = ([b], next) ∧
        IsLadder closed n next (condition :: conditions) b := by
  induction conditions generalizing condition with
  | nil =>
      cases closed with
      | false =>
          exact ⟨_, _, rfl, isLadder_rung condition n⟩
      | true =>
          exact ⟨_, _, rfl, isLadder_withElse condition n⟩
  | cons condition' conditions ih =>
      rcases ih condition' with ⟨b, next, hMade, hLadder⟩
      refine
        ⟨(rung condition next).withElif b, next + 2, ?_,
          isLadder_withElif condition hLadder⟩
      rw [ladder, hMade]

/- No ladder repeats an id or has a wrong else branch. -/
theorem checkTree_ladder
    (closed : Bool)
    (n : Nat)
    (conditions : List String) :
    checkTree (ladder closed n conditions).1 = .ok () := by
  cases conditions with
  | nil => rfl
  | cons condition conditions =>
      rcases exists_isLadder closed n condition conditions with
        ⟨b, next, hMade, hLadder⟩
      rw [hMade, checkTree_eq_ok_iff]
      exact ⟨hLadder.drawn.nodup, by simpa using hLadder.sound⟩

/- A ladder of any length is written as one flat ladder. -/
theorem compile_ladder
    (closed : Bool)
    (n : Nat)
    (conditions : List String)
    (width : Nat) :
    compile width (ladder closed n conditions).1 =
      .ok
        ("\n".intercalate
          ((ladderRows closed 0 false conditions).map
            (Row.render width))) := by
  cases conditions with
  | nil => rfl
  | cons condition conditions =>
      rcases exists_isLadder closed n condition conditions with
        ⟨b, next, hMade, hLadder⟩
      have hSound : AreSound [b] := by simpa using hLadder.sound
      rw [hMade, compile_of_areSound hSound, programText,
        List.map_singleton, hLadder.rows,
        String.intercalate_singleton]

end Source

end BlockProgram
