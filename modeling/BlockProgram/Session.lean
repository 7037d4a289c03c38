import BlockProgram.Edit.Operations
import BlockProgram.Source.Layout
import BlockProgram.Source.Parse

/-
  Editing sessions.

  A session holds the current tree and the supply of fresh
  numbers.  A step that fails leaves the tree as it was, but
  numbers that it has taken are not taken back.

  Key definitions:
    * `Session`
    * `Session.NewBlock`
    * `Session.Step`
    * `Session.perform`
-/

namespace BlockProgram

------------------------------------------------------------
-- Sessions
------------------------------------------------------------

/- The current tree and the next fresh number. -/
structure Session where
  next : Nat
  blocks : List Block

namespace Session

/- A session before its first step. -/
def start : Session where
  next := 1
  blocks := []

/- A computation in a session, which may fail. -/
abbrev Action : Type → Type :=
  EStateM TreeError Session

/- The outcome of a check in a session. -/
def attempt
    (outcome : Except TreeError α) : Action α :=
  match outcome with
  | .ok a => pure a
  | .error fault => throw fault

/- Take a number of fresh numbers, and give the first. -/
def take (count : Nat) : Action Nat := do
  let session ← get
  set { session with next := session.next + count }
  return session.next

/- Make a tree the current one. -/
def put (blocks : List Block) : Action Unit :=
  modify fun session => { session with blocks := blocks }

------------------------------------------------------------
-- New Blocks
------------------------------------------------------------

/- Where a new block comes from. -/
inductive NewBlock where
  /- A placeholder of the kind with this name. -/
  | ofKind (name : String)
  /- A copy of a block of the current tree. -/
  | copyOf (id : BlockId)
  /- A block from elsewhere. -/
  | given (b : Block)

/- A copy of a block of the current tree, with fresh ids. -/
def copy (id : BlockId) : Action Block := do
  let session ← get
  match find? id session.blocks with
  | none => throw (.blockNotFound id)
  | some b => do
      let n ← take b.size
      return b.renumber n

/- A placeholder of the kind with a name. -/
def placeholder (name : String) : Action Block := do
  match Kind.ofName? name with
  | none => throw (.unknownKind name)
  | some kind => do
      let n ← take 1
      return kind.placeholder n

/- Make a new block. -/
def make : NewBlock → Action Block
  | .ofKind name => placeholder name
  | .copyOf id => copy id
  | .given b => return b

------------------------------------------------------------
-- Steps
------------------------------------------------------------

/- A step that changes the tree. -/
inductive Step where
  /- Put a new block in the place of a block. -/
  | replace
      (id : BlockId)
      (new : NewBlock)
  /- Append a new block to a body. -/
  | append
      (parent : String)
      (new : NewBlock)
  /- Put a new block at the end, under no other. -/
  | push (new : NewBlock)
  /- Drop a block. -/
  | delete (id : BlockId)
  /- Change the clause of a conditional. -/
  | setElse
      (id : BlockId)
      (kind : ElseKind)
  /- Read the tree from source text. -/
  | parse (source : String)
  /- Use a tree from elsewhere. -/
  | load (blocks : List Block)
  /- Read the tree again from its own source text. -/
  | reparse

/- Read a tree from source text. -/
def parsed (source : String) : Action (List Block) := do
  let session ← get
  let blocks := Source.parse session.next source
  let _ ← take (Block.sizeAll blocks)
  return blocks

/- The tree after a step. -/
def edited (step : Step) : Action (List Block) := do
  match step with
  | .replace id new => do
      let b ← make new
      attempt (Edit.replace id b (← get).blocks)
  | .append parent new => do
      let b ← make new
      attempt (Edit.append parent b (← get).blocks)
  | .push new => do
      let b ← make new
      return (← get).blocks ++ [b]
  | .delete id => attempt (Edit.delete id (← get).blocks)
  | .setElse id kind => do
      let session ← get
      let (outcome, next) :=
        Edit.setElse id kind session.next session.blocks
      set { session with next := next }
      attempt outcome
  | .parse source => parsed source
  | .load blocks => return blocks
  | .reparse => do
      let source ←
        attempt
          (Source.compile Source.defaultWidth (← get).blocks)
      parsed source

/- Perform a step; a tree that it makes becomes current. -/
def perform (step : Step) : Action Unit := do
  let blocks ← edited step
  put blocks

end Session

end BlockProgram
