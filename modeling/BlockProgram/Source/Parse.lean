import BlockProgram.Source.Diagnostic

/-
  Programs read from source text.

  The outline of a text says which lines make blocks and
  which blocks hold them.  The blocks are drafted without ids
  and then numbered in the order in which their bodies close.

  Key definitions:
    * `draft`
    * `Reading`
    * `parse`
-/

namespace BlockProgram

namespace Source

------------------------------------------------------------
-- Drafts
------------------------------------------------------------

/- The id of a block that has not been numbered yet. -/
def noId : BlockId :=
  ""

/- The parts of a function header, or defaults. -/
def functionParts
    (header : Option (String × List String)) :
    String × List String :=
  header.getD (defaultFunctionName, [])

/- The parts of a loop header, or defaults. -/
def loopParts
    (header : Option (String × String)) :
    String × String :=
  header.getD (defaultIterator, defaultIterable)

mutual

/- The block that an entry makes, if it makes one. -/
def Entry.draft : Entry → List Block
  | .function _ header body =>
      let (name, parameters) := functionParts header
      [.function noId name parameters (draft body)]
  | .conditional _ condition body clause =>
      let (elseKind, elseBody) := clause.draft
      [.conditional noId (condition.getD defaultCondition)
        (draft body) elseKind elseBody]
  | .loop _ header body =>
      let (iterator, iterable) := loopParts header
      [.loop noId iterator iterable (draft body)]
  | .ret _ value => [.ret noId value]
  | .assignment _ target value =>
      [.assignment noId target (.simple value)]
  | .call _ callee arguments => [.call noId callee arguments]
  | .unrecognized _ => []

/- The else branch that a clause makes. -/
def Clause.draft : Clause → ElseKind × List Block
  | .none => (.none, [])
  | .elif _ condition body clause =>
      let (elseKind, elseBody) := clause.draft
      (.elif,
        [.conditional noId (condition.getD defaultCondition)
          (draft body) elseKind elseBody])
  | .otherwise _ body => (.otherwise, draft body)

/- The blocks that a list of entries makes, in order. -/
def draft : List Entry → List Block
  | [] => []
  | e :: es => e.draft ++ draft es

end

------------------------------------------------------------
-- Reading A Text
------------------------------------------------------------

/- What a source text was read as. -/
structure Reading where
  blocks : List Block
  diagnostics : List Diagnostic

/-
  Read a source text, with block ids numbered from `n`.
  Every text can be read; the diagnostics tell which of its
  lines were skipped or guessed.
-/
def read
    (n : Nat)
    (source : String) : Reading :=
  let entries := outline (significantLines source)
  { blocks := Block.renumberClosingAll n (draft entries)
    diagnostics := diagnosticsOf entries }

/- The blocks of a source text, numbered from `n`. -/
def parse
    (n : Nat)
    (source : String) : List Block :=
  (read n source).blocks

end Source

end BlockProgram
