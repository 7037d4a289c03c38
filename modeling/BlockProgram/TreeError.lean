import BlockProgram.Block.Basic
import BlockProgram.Text.Printable

/-
  Why an operation on a block tree can fail.

  Key definitions:
    * `TreeError`
    * `TreeError.message`
-/

namespace BlockProgram

------------------------------------------------------------
-- Causes
------------------------------------------------------------

/- A fault of a tree, or a target that an edit cannot use. -/
inductive TreeError where
  /- An `elif` branch without its single conditional. -/
  | malformedElif (id : BlockId)
  /- Else statements under a conditional without a clause. -/
  | strayElseBody (id : BlockId)
  /- Two blocks of one tree with the same id. -/
  | duplicateId (id : BlockId)
  /- No block answers to this name. -/
  | blockNotFound (name : String)
  /- The block has no body to append to. -/
  | notAContainer (id : BlockId)
  /- The block is not a conditional. -/
  | notAConditional (id : BlockId)
  /- The `elif` branch already holds its conditional. -/
  | elifBranchOccupied (id : BlockId)
  /- No kind of block has this name. -/
  | unknownKind (name : String)
  deriving DecidableEq, Repr

------------------------------------------------------------
-- Messages
------------------------------------------------------------

namespace TreeError

open Text (inQuotes)

/- What a user is told. -/
def message : TreeError → String
  | .malformedElif id =>
      "conditional " ++ inQuotes id ++
        " is marked elif but its else branch is not exactly" ++
        " one conditional"
  | .strayElseBody id =>
      "conditional " ++ inQuotes id ++
        " has no else clause but carries else statements"
  | .duplicateId id =>
      "block id " ++ inQuotes id ++
        " appears more than once in the tree"
  | .blockNotFound name =>
      "no block with id " ++ inQuotes name
  | .notAContainer id =>
      "block " ++ inQuotes id ++ " has no body to append to"
  | .notAConditional id =>
      "block " ++ inQuotes id ++ " is not a conditional"
  | .elifBranchOccupied id =>
      "the elif branch of " ++ inQuotes id ++
        " already holds its conditional"
  | .unknownKind name =>
      "unknown block kind " ++ inQuotes name

end TreeError

end BlockProgram
