import BlockProgram.TreeError

/-
  The two things that a sound block tree keeps to: no id
  stands twice, and every else branch has the shape that its
  kind asks for.

  Key definitions:
    * `elseFault?`
    * `chained?`
    * `checkIds`
    * `checkShapes`
    * `checkTree`
-/

namespace BlockProgram

------------------------------------------------------------
-- Else Branches
------------------------------------------------------------

/-
  What is wrong with an else branch: without a clause it
  holds nothing, and an `elif` holds exactly one conditional.
-/
def elseFault?
    (id : BlockId) :
    ElseKind →
    List Block →
    Option TreeError
  | .none, [] => none
  | .none, _ :: _ => some (.strayElseBody id)
  | .elif, [.conditional _ _ _ _ _] => none
  | .elif, _ => some (.malformedElif id)
  | .otherwise, _ => none

/- Fail with the fault of an else branch, if it has one. -/
def checkElse
    (id : BlockId)
    (elseKind : ElseKind)
    (elseBody : List Block) : Except TreeError Unit :=
  match elseFault? id elseKind elseBody with
  | some fault => .error fault
  | none => .ok ()

/-
  The id of the conditional chained to one with the given
  else branch, once the branch has passed its check.
-/
def chained?
    (id : BlockId)
    (elseKind : ElseKind)
    (elseBody : List Block) :
    Except TreeError (Option BlockId) := do
  checkElse id elseKind elseBody
  match elseKind, elseBody with
  | .elif, next :: _ => return some next.id
  | _, _ => return none

namespace Block

------------------------------------------------------------
-- Shapes
------------------------------------------------------------

mutual

/-
  Check the else branches of a block and of all inside it,
  in document order.
-/
def checkShape : Block → Except TreeError Unit
  | .function _ _ _ body => checkShapeAll body
  | .conditional id _ body elseKind elseBody => do
      checkElse id elseKind elseBody
      checkShapeAll body
      checkShapeAll elseBody
  | .loop _ _ _ body => checkShapeAll body
  | .assignment _ _ _ => .ok ()
  | .ret _ _ => .ok ()
  | .call _ _ _ => .ok ()

/- `checkShape` for the blocks of a list, in order. -/
def checkShapeAll : List Block → Except TreeError Unit
  | [] => .ok ()
  | b :: bs => do
      b.checkShape
      checkShapeAll bs

end

------------------------------------------------------------
-- Ids
------------------------------------------------------------

/- Add an id to those seen, unless it is there already. -/
def noteId
    (id : BlockId)
    (seen : List BlockId) :
    Except TreeError (List BlockId) :=
  if id ∈ seen then .error (.duplicateId id)
  else .ok (id :: seen)

mutual

/-
  Add the ids of a block and of all inside it to those seen,
  in document order, failing at the first one met before.
-/
def noteIds :
    Block →
    List BlockId →
    Except TreeError (List BlockId)
  | .function id _ _ body, seen => do
      noteIdsAll body (← noteId id seen)
  | .conditional id _ body _ elseBody, seen => do
      noteIdsAll elseBody
        (← noteIdsAll body (← noteId id seen))
  | .loop id _ _ body, seen => do
      noteIdsAll body (← noteId id seen)
  | .assignment id _ _, seen => noteId id seen
  | .ret id _, seen => noteId id seen
  | .call id _ _, seen => noteId id seen

/- `noteIds` for the blocks of a list, in order. -/
def noteIdsAll :
    List Block →
    List BlockId →
    Except TreeError (List BlockId)
  | [], seen => .ok seen
  | b :: bs, seen => do
      noteIdsAll bs (← b.noteIds seen)

end

end Block

------------------------------------------------------------
-- Programs
------------------------------------------------------------

/- Fail with the first id that stands twice. -/
def checkIds (blocks : List Block) : Except TreeError Unit := do
  let _ ← Block.noteIdsAll blocks []

/- Fail with the first else branch of a wrong shape. -/
def checkShapes (blocks : List Block) : Except TreeError Unit :=
  Block.checkShapeAll blocks

/-
  Check a whole program.  A repeated id is reported before
  any else branch is looked at.
-/
def checkTree (blocks : List Block) : Except TreeError Unit := do
  checkIds blocks
  checkShapes blocks

end BlockProgram
