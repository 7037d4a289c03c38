import BlockProgram.Block.Basic

/-
  Fresh ids, and the two orders in which they are handed out.

  Ids are numbered by one supply that only grows.  An
  operation that hands out ids is a function of the supply's
  next number, and it takes as many numbers as its result has
  blocks, so the supply goes on at `n + size`.

  Key definitions:
    * `Kind.freshId`
    * `Kind.placeholder`
    * `Block.renumber`
    * `Block.renumberClosing`
-/

namespace BlockProgram

------------------------------------------------------------
-- Fresh Ids
------------------------------------------------------------

/- The id that a block of a kind gets for a number. -/
def Kind.freshId
    (kind : Kind)
    (n : Nat) : BlockId :=
  kind.tag ++ "-" ++ toString n

/- The condition of a conditional that was given none. -/
def defaultCondition : String :=
  "True"

/- The name of a function that was given none. -/
def defaultFunctionName : String :=
  "new_function"

/- The loop variable of a loop that was given none. -/
def defaultIterator : String :=
  "i"

/- What a loop runs over when it was given nothing. -/
def defaultIterable : String :=
  "range(10)"

/- The value that stands for no value. -/
def noValue : String :=
  "None"

/- A new block of a kind, for a user to fill in. -/
def Kind.placeholder
    (kind : Kind)
    (n : Nat) : Block :=
  let id := kind.freshId n
  match kind with
  | .function => .function id defaultFunctionName [] []
  | .assignment => .assignment id "new_var" (.simple "0")
  | .conditional => .conditional id defaultCondition [] .none []
  | .loop => .loop id defaultIterator defaultIterable []
  | .ret => .ret id noValue
  | .call => .call id "print" []

namespace Block

------------------------------------------------------------
-- Document Order
------------------------------------------------------------

mutual

/-
  Give new ids to a block and to all inside it, numbered
  from `n` in document order.  A copy of a block is made so.
-/
def renumber
    (n : Nat) :
    Block →
    Block
  | .function _ name parameters body =>
      .function (Kind.function.freshId n) name parameters
        (renumberAll (n + 1) body)
  | .assignment _ name value =>
      .assignment (Kind.assignment.freshId n) name value
  | .conditional _ condition body elseKind elseBody =>
      .conditional (Kind.conditional.freshId n) condition
        (renumberAll (n + 1) body) elseKind
        (renumberAll (n + 1 + sizeAll body) elseBody)
  | .loop _ iterator iterable body =>
      .loop (Kind.loop.freshId n) iterator iterable
        (renumberAll (n + 1) body)
  | .ret _ value => .ret (Kind.ret.freshId n) value
  | .call _ callee arguments =>
      .call (Kind.call.freshId n) callee arguments

/- `renumber` for the blocks of a list, one after another. -/
def renumberAll
    (n : Nat) :
    List Block →
    List Block
  | [] => []
  | b :: bs => renumber n b :: renumberAll (n + b.size) bs

end

------------------------------------------------------------
-- Closing Order
------------------------------------------------------------

mutual

/-
  Give new ids to a block and to all inside it, numbered
  from `n` in the order in which bodies close: a function or
  loop comes after its body, and a conditional after its true
  branch and before its else branch.
-/
def renumberClosing
    (n : Nat) :
    Block →
    Block
  | .function _ name parameters body =>
      .function (Kind.function.freshId (n + sizeAll body))
        name parameters (renumberClosingAll n body)
  | .assignment _ name value =>
      .assignment (Kind.assignment.freshId n) name value
  | .conditional _ condition body elseKind elseBody =>
      .conditional (Kind.conditional.freshId (n + sizeAll body))
        condition (renumberClosingAll n body) elseKind
        (renumberClosingAll (n + sizeAll body + 1) elseBody)
  | .loop _ iterator iterable body =>
      .loop (Kind.loop.freshId (n + sizeAll body))
        iterator iterable (renumberClosingAll n body)
  | .ret _ value => .ret (Kind.ret.freshId n) value
  | .call _ callee arguments =>
      .call (Kind.call.freshId n) callee arguments

/- `renumberClosing` for a list, one block after another. -/
def renumberClosingAll
    (n : Nat) :
    List Block →
    List Block
  | [] => []
  | b :: bs =>
      renumberClosing n b ::
        renumberClosingAll (n + b.size) bs

end

end Block

end BlockProgram
