import Mathlib.Data.List.TakeWhile
import BlockProgram.Proofs.Block.Search
import BlockProgram.Scope

/-
  Collecting names along the document order.

  A walk through a tree that halts early meets what is
  declared before the stop, as if the tree were the list of
  its blocks.  What it has met in the end are the first
  occurrences in that list.

  Main declarations:
    * `Block.declared?`
    * `Scope.declaredBefore`
    * `Scope.collectAll_eq_walkThrough`
    * `Scope.visibleNames_eq`
-/

namespace BlockProgram

open Block (inOrderAll)

------------------------------------------------------------
-- Declared Names
------------------------------------------------------------

/- The name of a variable, or the iterator of a loop. -/
def Block.declared? : Block → Option String
  | .assignment _ name _ => some name
  | .loop _ iterator _ _ => some iterator
  | .function .. | .conditional .. | .ret .. | .call .. => none

namespace Scope

/- The blocks before the first one with the id, if any. -/
def before
    (stop : Option BlockId)
    (bs : List Block) : List Block :=
  bs.takeWhile fun b => stop ≠ some b.id

/- All that is declared before the stop, as it is met. -/
def declaredBefore
    (stop : Option BlockId)
    (blocks : List Block) : List String :=
  (before stop (documentOrder blocks)).filterMap Block.declared?

/- Up to the end of a program all declarations count. -/
theorem declaredBefore_none (blocks : List Block) :
    declaredBefore none blocks =
      (documentOrder blocks).filterMap Block.declared? := by
  rw [declaredBefore, before, List.takeWhile_eq_self_iff.mpr]
  simp

------------------------------------------------------------
-- Meeting Names
------------------------------------------------------------

variable {walk : Walk}

theorem Walk.halted_meet (name : String) :
    (walk.meet name).halted = walk.halted := by
  unfold meet
  split <;> rfl

theorem Walk.halted_meetAll (names : List String) :
    (walk.meetAll names).halted = walk.halted := by
  induction names generalizing walk with
  | nil => rfl
  | cons name names ih => rw [meetAll, ih, halted_meet]

theorem Walk.inOrder_meet
    {names : List String}
    (hNames : walk.inOrder = names.eraseDups)
    (name : String) :
    (walk.meet name).inOrder = (names ++ [name]).eraseDups := by
  have hMember : name ∈ walk.names ↔ name ∈ names := by
    rw [← List.mem_reverse, ← List.mem_eraseDups (l := names),
      ← hNames, inOrder]
  rw [List.eraseDups_append, ← hNames]
  by_cases hMet : name ∈ names
  · rw [meet, if_pos (hMember.mpr hMet)]
    simp [List.removeAll, hMet]
  · rw [meet, if_neg (mt hMember.mp hMet)]
    simp [List.removeAll, hMet, inOrder, List.eraseDups_cons]

/- Each name counts where it is met for the first time. -/
theorem Walk.inOrder_meetAll
    {names : List String}
    (hNames : walk.inOrder = names.eraseDups)
    (others : List String) :
    (walk.meetAll others).inOrder =
      (names ++ others).eraseDups := by
  induction others generalizing walk names with
  | nil => rw [meetAll, hNames, List.append_nil]
  | cons name others ih =>
      rw [meetAll, ih (inOrder_meet hNames name),
        List.append_assoc, List.singleton_append]

------------------------------------------------------------
-- Walking In Document Order
------------------------------------------------------------

variable {stop : Option BlockId}

/- The walk through blocks that are not looked into. -/
def walkThrough
    (stop : Option BlockId) :
    List Block →
    Walk →
    Walk
  | [], walk => walk
  | b :: bs, walk =>
      if stop = some b.id then { walk with halted := true }
      else
        walkThrough stop bs (walk.meetAll b.declared?.toList)

/- A walk that has halted does not go on. -/
theorem walkThrough_append
    (hGoing : walk.halted = false)
    (bs cs : List Block) :
    walkThrough stop (bs ++ cs) walk =
      if (walkThrough stop bs walk).halted then
        walkThrough stop bs walk
      else walkThrough stop cs (walkThrough stop bs walk) := by
  induction bs generalizing walk with
  | nil => simp [walkThrough, hGoing]
  | cons b bs ih =>
      rw [List.cons_append, walkThrough, walkThrough]
      by_cases hStop : stop = some b.id
      · simp only [if_pos hStop, if_true]
      · simp only [if_neg hStop]
        exact ih ((Walk.halted_meetAll _).trans hGoing)

theorem collectAll_of_forall
    {bs : List Block}
    (hBlocks :
      ∀ b ∈ bs,
        ∀ walk : Walk,
          walk.halted = false →
            collect stop b walk = walkThrough stop b.inOrder walk)
    (hGoing : walk.halted = false) :
    collectAll stop bs walk =
      walkThrough stop (inOrderAll bs) walk := by
  induction bs generalizing walk with
  | nil => rfl
  | cons b bs ih =>
      rw [List.forall_mem_cons] at hBlocks
      rw [collectAll, hBlocks.1 walk hGoing, inOrderAll,
        walkThrough_append hGoing]
      by_cases hHalted : (walkThrough stop b.inOrder walk).halted
      · simp only [if_pos hHalted]
      · simp only [if_neg hHalted]
        exact ih hBlocks.2 (Bool.eq_false_iff.mpr hHalted)

theorem collect_eq_walkThrough
    (b : Block)
    (walk : Walk)
    (hGoing : walk.halted = false) :
    collect stop b walk = walkThrough stop b.inOrder walk := by
  induction b using Block.induction generalizing walk with
  | function id name parameters body ih =>
      rw [collect, collectAll_of_forall ih hGoing]
      rfl
  | assignment id name value => rfl
  | conditional id condition body elseKind elseBody ihBody
      ihElse =>
      have hWalk :
          walkThrough stop
              (Block.conditional id condition body elseKind
                elseBody).inOrder walk =
            if stop = some id then { walk with halted := true }
            else
              walkThrough stop
                (inOrderAll body ++ inOrderAll elseBody) walk :=
        rfl
      rw [hWalk, walkThrough_append hGoing, collect,
        collectAll_of_forall ihBody hGoing]
      by_cases hHalted :
          (walkThrough stop (inOrderAll body) walk).halted
      · simp only [if_pos hHalted]
      · simp only [if_neg hHalted]
        rw [collectAll_of_forall ihElse
          (Bool.eq_false_iff.mpr hHalted)]
  | loop id iterator iterable body ih =>
      rw [collect,
        collectAll_of_forall ih
          ((Walk.halted_meet iterator).trans hGoing)]
      rfl
  | ret id value => rfl
  | call id callee arguments => rfl

/- A walk through a tree goes along its document order. -/
theorem collectAll_eq_walkThrough
    (hGoing : walk.halted = false)
    (bs : List Block) :
    collectAll stop bs walk =
      walkThrough stop (inOrderAll bs) walk :=
  collectAll_of_forall (fun b _ => collect_eq_walkThrough b) hGoing

/- A walk meets what is declared before it halts. -/
theorem names_walkThrough (bs : List Block) :
    (walkThrough stop bs walk).names =
      (walk.meetAll
        ((before stop bs).filterMap Block.declared?)).names := by
  induction bs generalizing walk with
  | nil => rfl
  | cons b bs ih =>
      rw [walkThrough]
      by_cases hStop : stop = some b.id
      · rw [if_pos hStop, before,
          List.takeWhile_cons_of_neg (by simpa using hStop)]
        rfl
      · rw [if_neg hStop, ih, before, before,
          List.takeWhile_cons_of_pos (by simpa using hStop)]
        cases hName : b.declared? with
        | none =>
            rw [List.filterMap_cons_none hName]
            rfl
        | some name =>
            rw [List.filterMap_cons_some hName]
            rfl

/-
  The names at a stop: the parameters given, and all that is
  declared before it.
-/
theorem visibleNames_eq
    (stop : Option BlockId)
    (parameters : List String)
    (blocks : List Block) :
    visibleNames stop parameters blocks =
      (parameters ++ declaredBefore stop blocks).eraseDups := by
  have hEmpty :
      (Walk.mk [] false).inOrder = ([] : List String).eraseDups :=
    rfl
  have hStart :
      (Walk.meetAll parameters ⟨[], false⟩).inOrder =
        parameters.eraseDups :=
    Walk.inOrder_meetAll hEmpty parameters
  rw [visibleNames,
    collectAll_eq_walkThrough (Walk.halted_meetAll parameters),
    Walk.inOrder, names_walkThrough]
  exact Walk.inOrder_meetAll hStart _

end Scope

end BlockProgram
