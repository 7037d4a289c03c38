import BlockProgram.Proofs.Block.Faults
import BlockProgram.Proofs.Source.Layout

/-
  Trees that cannot be written.

  Writing and checking refuse the same trees, namely those
  with an else branch of a wrong shape.  They look at the
  conditionals in different orders, so of several wrong ones
  each names its own first.

  Main declarations:
    * `Source.compile_eq_error_iff`
    * `Source.checkTree_eq_error_iff`
    * `Source.compile_refuses_unsound`
-/

namespace BlockProgram

namespace Source

open Block (AreSound IsFirstFault closingAll fault? outcomeOf)

------------------------------------------------------------
-- Writing
------------------------------------------------------------

theorem compile_eq_ok_iff
    {width : Nat}
    {blocks : List Block} :
    (∃ text, compile width blocks = .ok text) ↔
      AreSound blocks := by
  have hSame :
      (∀ b ∈ closingAll blocks, b.HasSoundElse) ↔
        AreSound blocks :=
    forall_congr' fun b =>
      imp_congr_left (Block.closingAll_perm blocks).mem_iff
  rw [← hSame, ← Block.findSome?_fault?_eq_none_iff,
    compile_eq_programText]
  cases (closingAll blocks).findSome? fault? <;>
    simp [outcomeOf, bind, Except.bind, pure, Except.pure]

/- Writing stops at the first fault in closing order. -/
theorem compile_eq_error_iff
    {width : Nat}
    {blocks : List Block}
    {fault : TreeError} :
    compile width blocks = .error fault ↔
      IsFirstFault (closingAll blocks) fault := by
  rw [← Block.findSome?_fault?_eq_some_iff,
    compile_eq_programText]
  cases (closingAll blocks).findSome? fault? <;>
    simp [outcomeOf, bind, Except.bind, pure, Except.pure]

/- Checking stops at the first one in document order. -/
theorem checkTree_eq_error_iff
    {blocks : List Block}
    (hNodup : (idsOf blocks).Nodup)
    {fault : TreeError} :
    checkTree blocks = .error fault ↔
      IsFirstFault (documentOrder blocks) fault := by
  rw [checkTree, checkIds_eq_ok_iff.mpr hNodup, checkShapes,
    Block.checkShapeAll_eq_firstFault,
    ← Block.findSome?_fault?_eq_some_iff]
  exact Block.outcomeOf_eq_error_iff

------------------------------------------------------------
-- Writing And Checking
------------------------------------------------------------

/-
  A program can be written, with any indent, exactly if all
  of its else branches are sound, so it can be if it passes
  its check.  When it cannot be written, what is reported is
  the fault of the first wrong conditional in closing order,
  in which each stands behind its true branch and before its
  else branch.  The check of the same program, if no id
  repeats in it, reports the first in document order.
-/
theorem compile_refuses_unsound (blocks : List Block) :
    (∀ width,
        ((∃ text, compile width blocks = .ok text) ↔
            AreSound blocks) ∧
          ∀ fault,
            compile width blocks = .error fault ↔
              IsFirstFault (closingAll blocks) fault) ∧
      (checkTree blocks = .ok () →
          ∀ width, ∃ text, compile width blocks = .ok text) ∧
        ((idsOf blocks).Nodup →
          ∀ fault,
            checkTree blocks = .error fault ↔
              IsFirstFault (documentOrder blocks) fault) := by
  refine ⟨?_, ?_, ?_⟩
  · intro width
    exact ⟨compile_eq_ok_iff, fun _ => compile_eq_error_iff⟩
  · intro hCheck width
    exact compile_eq_ok_iff.mpr (checkTree_eq_ok_iff.mp hCheck).2
  · intro hNodup fault
    exact checkTree_eq_error_iff hNodup

/-
  Three wrong conditionals: one, another in its true branch,
  and one chained to a third, behind them.
-/
def sampleFaults : List Block :=
  [ .function "f" "run" []
      [.conditional "a" "x > 0"
        [.conditional "b" "x > 1" [] .elif [.ret "r" "x"]]
        .none [.call "c" "g" []]],
    .conditional "d" "y" [] .elif
      [.conditional "e" "z" [] .elif []] ]

/-
  Writing reports the inner of two wrong conditionals, and
  checking the outer.
-/
theorem compile_refuses_sampleFaults :
    (idsOf sampleFaults).Nodup ∧
      compile 4 sampleFaults = .error (.malformedElif "b") ∧
        checkTree sampleFaults = .error (.strayElseBody "a") := by
  have hNodup : (idsOf sampleFaults).Nodup := by decide
  rcases compile_refuses_unsound sampleFaults with
    ⟨hCompile, _, hCheck⟩
  refine ⟨hNodup, ?_, ?_⟩
  · rw [(hCompile 4).2]
    exact ⟨_, rfl, .malformed (by decide)⟩
  · rw [hCheck hNodup]
    exact ⟨_, rfl, .stray (by decide)⟩

end Source

end BlockProgram
