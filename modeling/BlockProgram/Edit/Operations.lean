import BlockProgram.Block.Numbering
import BlockProgram.Edit.Rewrite

/-
  The edits of a block tree.

  An edit makes a new tree and leaves the old one alone.  Its
  target is a block at any depth, addressed by its id.

  Key definitions:
    * `replace`
    * `delete`
    * `append`
    * `setElse`
-/

namespace BlockProgram

namespace Edit

------------------------------------------------------------
-- Replacing
------------------------------------------------------------

/- Put the new block, while there is one, for its target. -/
def replacing (target : BlockId) : Editor (Option Block) :=
  fun b => do
    match ← get with
    | none => return .keep
    | some new =>
        if b.id = target then
          set (none : Option Block)
          return .replace new
        else return .keep

/-
  The tree that an edit made, when it found a place for its
  new block and no id stands twice.
-/
def placed
    (name : String)
    (outcome :
      EStateM.Result TreeError (Option Block) (List Block)) :
    Except TreeError (List Block) := do
  match outcome with
  | .error fault _ => throw fault
  | .ok _ (some _) => throw (.blockNotFound name)
  | .ok blocks none => do
      checkIds blocks
      return blocks

/-
  Put a new block where the first block with an id was.  The
  conditional of an `elif` can only give way to another.
-/
def replace
    (target : BlockId)
    (new : Block)
    (blocks : List Block) : Except TreeError (List Block) :=
  placed target ((rewrite (replacing target) blocks).run (some new))

------------------------------------------------------------
-- Deleting
------------------------------------------------------------

/- Remove the target, and remember that it was met. -/
def deleting (target : BlockId) : Editor Bool :=
  fun b => do
    if b.id = target then
      set true
      return .remove
    else return .keep

/-
  Drop a block and everything inside it.  A conditional that
  loses its `elif` has no clause any more.
-/
def delete
    (target : BlockId)
    (blocks : List Block) : Except TreeError (List Block) :=
  match (rewrite (deleting target) blocks).run false with
  | .error fault _ => .error fault
  | .ok _ false => .error (.blockNotFound target)
  | .ok blocks true => .ok blocks

------------------------------------------------------------
-- Appending
------------------------------------------------------------

/- What follows a conditional's id to address its branch. -/
def elseSuffix : String :=
  "-else"

/- A block with one more at the end of its body. -/
def appended?
    (child : Block) :
    Block →
    Option Block
  | .function id name parameters body =>
      some (.function id name parameters (body ++ [child]))
  | .conditional id condition body elseKind elseBody =>
      some
        (.conditional id condition (body ++ [child]) elseKind
          elseBody)
  | .loop id iterator iterable body =>
      some (.loop id iterator iterable (body ++ [child]))
  | .assignment .. | .ret .. | .call .. => none

/- A conditional with one more block in its else branch. -/
def elseAppended
    (child : Block) :
    Block →
    Except TreeError (Option Block)
  | .conditional id _ _ .elif _ =>
      .error (.elifBranchOccupied id)
  | .conditional id condition body _ elseBody =>
      .ok
        (some
          (.conditional id condition body .otherwise
            (elseBody ++ [child])))
  | .function .. | .loop .. | .assignment .. | .ret ..
  | .call .. => .ok none

/-
  Append the child, while there is one, to the block with the
  parent's name.  A name that addresses an else branch passes
  over blocks that can have none.
-/
def appending (parent : String) : Editor (Option Block) :=
  fun b => do
    match ← get with
    | none => return .keep
    | some child =>
        if b.id = parent then
          match appended? child b with
          | none => throw (.notAContainer b.id)
          | some grown => do
              set (none : Option Block)
              return .replace grown
        else if b.id ++ elseSuffix = parent then
          match elseAppended child b with
          | .error fault => throw fault
          | .ok none => return .keep
          | .ok (some grown) => do
              set (none : Option Block)
              return .replace grown
        else return .keep

/-
  Append a block to the body of the parent, or to the else
  branch of a conditional that the name addresses.  A
  conditional without a clause gets one so.
-/
def append
    (parent : String)
    (child : Block)
    (blocks : List Block) : Except TreeError (List Block) :=
  placed parent
    ((rewrite (appending parent) blocks).run (some child))

------------------------------------------------------------
-- Changing The Else Clause
------------------------------------------------------------

/- Whether the target was met, and the next fresh number. -/
structure Search where
  found : Bool
  next : Nat

/- The else branch that a kind of clause begins with. -/
def freshElse
    (kind : ElseKind) : Editing Search (List Block) := do
  match kind with
  | .none | .otherwise => return []
  | .elif => do
      let search ← get
      set { search with next := search.next + 1 }
      return [Kind.conditional.placeholder search.next]

/- Change the clause of the target. -/
def settingElse
    (target : BlockId)
    (kind : ElseKind) : Editor Search :=
  fun b => do
    if b.id = target then
      modify fun search => { search with found := true }
      match b with
      | .conditional id condition body elseKind elseBody => do
          if elseKind = kind then
            return .replace
              (.conditional id condition body elseKind elseBody)
          else
            let elseBody ← freshElse kind
            return .replace
              (.conditional id condition body kind elseBody)
      | .function .. | .loop .. | .assignment .. | .ret ..
      | .call .. => throw (.notAConditional target)
    else return .keep

/-
  Change the clause of a conditional, with fresh ids numbered
  from `n`.  A clause of the kind wanted stays as it is.  The
  number that comes next is given back even when the change
  fails.
-/
def setElse
    (target : BlockId)
    (kind : ElseKind)
    (n : Nat)
    (blocks : List Block) :
    Except TreeError (List Block) × Nat :=
  match (rewrite (settingElse target kind) blocks).run ⟨false, n⟩ with
  | .error fault search => (.error fault, search.next)
  | .ok blocks search =>
      if search.found then (.ok blocks, search.next)
      else (.error (.blockNotFound target), search.next)

end Edit

end BlockProgram
