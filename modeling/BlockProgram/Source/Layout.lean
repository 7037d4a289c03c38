import BlockProgram.Block.Check
import BlockProgram.Block.Numbering
import BlockProgram.Value.Source

/-
  The source text of a program.

  Every block becomes a row of text at the depth of the
  bodies around it.  A chained conditional stays at the depth
  of the one that it is chained to, and an empty body becomes
  a row that does nothing.

  Key definitions:
    * `Row`
    * `rowsOf`
    * `compile`
-/

namespace BlockProgram

namespace Source

------------------------------------------------------------
-- Conventions
------------------------------------------------------------

/- The language that source texts are written in. -/
def languageName : String :=
  "Python"

/- The spaces for one body, unless a user asks otherwise. -/
def defaultWidth : Nat :=
  4

/- The statement of a body that has none. -/
def placeholderText : String :=
  "pass"

------------------------------------------------------------
-- Rows
------------------------------------------------------------

/- A line of text under a number of bodies. -/
structure Row where
  depth : Nat
  text : String
  deriving DecidableEq, Repr

namespace Row

/- A row with `width` spaces for each body around it. -/
def render
    (width : Nat)
    (row : Row) : String :=
  String.ofList (List.replicate (width * row.depth) ' ') ++
    row.text

end Row

/- Rows of a body, which cannot stay without any. -/
def orPlaceholder
    (depth : Nat)
    (rows : List Row) : List Row :=
  if rows.isEmpty then [⟨depth, placeholderText⟩] else rows

------------------------------------------------------------
-- Statement Texts
------------------------------------------------------------

/- The header of a function. -/
def functionText
    (name : String)
    (parameters : List String) : String :=
  "def " ++ name ++ "(" ++ ", ".intercalate parameters ++ "):"

/- The header of a conditional, chained or not. -/
def conditionalText
    (chained : Bool)
    (condition : String) : String :=
  (if chained then "elif " else "if ") ++ condition ++ ":"

/- The header of a loop. -/
def loopText (iterator iterable : String) : String :=
  "for " ++ iterator ++ " in " ++ iterable ++ ":"

/- A return, which always names a value. -/
def retText (value : String) : String :=
  let value := Text.trimmed value
  "return " ++ (if value = "" then noValue else value)

/- An assignment. -/
def assignmentText
    (name : String)
    (value : Value) : String :=
  name ++ " = " ++ value.source

/- A call. -/
def callText
    (callee : String)
    (arguments : List String) : String :=
  callee ++ "(" ++ ", ".intercalate arguments ++ ")"

------------------------------------------------------------
-- The Rows Of A Block
------------------------------------------------------------

mutual

/-
  The rows of a block at a depth.  An else branch is checked
  once the rows of the true branch are there.
-/
def rowsOf
    (depth : Nat)
    (chained : Bool) :
    Block →
    Except TreeError (List Row)
  | .function _ name parameters body => do
      let inner ← rowsOfAll (depth + 1) false body
      return ⟨depth, functionText name parameters⟩ ::
        orPlaceholder (depth + 1) inner
  | .assignment _ name value =>
      return [⟨depth, assignmentText name value⟩]
  | .conditional id condition body elseKind elseBody => do
      let inner ← rowsOfAll (depth + 1) false body
      checkElse id elseKind elseBody
      let branch ←
        match elseKind with
        | .none => pure []
        | .elif => rowsOfAll depth true elseBody
        | .otherwise => do
            let other ← rowsOfAll (depth + 1) false elseBody
            pure
              (⟨depth, "else:"⟩ ::
                orPlaceholder (depth + 1) other)
      return ⟨depth, conditionalText chained condition⟩ ::
        (orPlaceholder (depth + 1) inner ++ branch)
  | .loop _ iterator iterable body => do
      let inner ← rowsOfAll (depth + 1) false body
      return ⟨depth, loopText iterator iterable⟩ ::
        orPlaceholder (depth + 1) inner
  | .ret _ value => return [⟨depth, retText value⟩]
  | .call _ callee arguments =>
      return [⟨depth, callText callee arguments⟩]

/- The rows of a list of blocks, one block after another. -/
def rowsOfAll
    (depth : Nat)
    (chained : Bool) :
    List Block →
    Except TreeError (List Row)
  | [] => return []
  | b :: bs => do
      let first ← rowsOf depth chained b
      let others ← rowsOfAll depth chained bs
      return first ++ others

end

------------------------------------------------------------
-- The Text Of A Program
------------------------------------------------------------

/- The text of a block that stands under no other. -/
def blockText
    (width : Nat)
    (b : Block) : Except TreeError String := do
  let rows ← rowsOf 0 false b
  return "\n".intercalate (rows.map (Row.render width))

/-
  The text of a program, with `width` spaces for each body
  and a blank line between blocks that stand under no other.
  Only a wrong else branch stands in the way of a text.
-/
def compile
    (width : Nat)
    (blocks : List Block) : Except TreeError String := do
  let texts ← blocks.mapM (blockText width)
  return "\n\n".intercalate texts

end Source

end BlockProgram
