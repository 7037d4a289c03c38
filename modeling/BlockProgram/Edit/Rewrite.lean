import BlockProgram.Block.Check

/-
  Rebuilding a block tree.

  An edit looks at every block in document order and says
  what becomes of it.  Blocks that are kept are rebuilt
  around what became of their contents, and the else branch
  of a conditional is checked again on the way up.

  Key definitions:
    * `Change`
    * `Editor`
    * `rewrite`
-/

namespace BlockProgram

namespace Edit

------------------------------------------------------------
-- Changes
------------------------------------------------------------

/- What becomes of one block. -/
inductive Change where
  /- It stays, and its contents are looked at. -/
  | keep
  /- This block takes its place, and is not looked into. -/
  | replace (new : Block)
  /- It goes, with everything inside it. -/
  | remove

/- A computation that may fail and remembers something. -/
abbrev Editing (σ : Type) : Type → Type :=
  EStateM TreeError σ

/- What becomes of each block, decided as it is met. -/
abbrev Editor (σ : Type) : Type :=
  Block → Editing σ Change

/- A check inside an edit. -/
def checking
    (outcome : Except TreeError Unit) : Editing σ Unit :=
  match outcome with
  | .ok () => pure ()
  | .error fault => throw fault

/-
  The else kind of a rebuilt conditional.  An `elif` branch
  that has lost its conditional is no clause any more.
-/
def collapsed
    (elseKind : ElseKind)
    (elseBody : List Block) : ElseKind :=
  match elseKind, elseBody with
  | .elif, [] => .none
  | kind, _ => kind

------------------------------------------------------------
-- Rewriting
------------------------------------------------------------

mutual

/- Rebuild a block that is kept. -/
def rebuild
    (editor : Editor σ) :
    Block →
    Editing σ Block
  | .function id name parameters body => do
      let body ← rewrite editor body
      return .function id name parameters body
  | .conditional id condition body elseKind elseBody => do
      let body ← rewrite editor body
      let elseBody ← rewrite editor elseBody
      let elseKind := collapsed elseKind elseBody
      checking (checkElse id elseKind elseBody)
      return .conditional id condition body elseKind elseBody
  | .loop id iterator iterable body => do
      let body ← rewrite editor body
      return .loop id iterator iterable body
  | .assignment id name value =>
      return .assignment id name value
  | .ret id value => return .ret id value
  | .call id callee arguments => return .call id callee arguments

/- Rebuild a list of blocks as an editor says. -/
def rewrite
    (editor : Editor σ) :
    List Block →
    Editing σ (List Block)
  | [] => return []
  | b :: bs => do
      match ← editor b with
      | .keep => do
          let kept ← rebuild editor b
          let others ← rewrite editor bs
          return kept :: others
      | .replace new => do
          let others ← rewrite editor bs
          return new :: others
      | .remove => rewrite editor bs

end

end Edit

end BlockProgram
