import BlockProgram.Value.Basic

/-
  Blocks: the statements of a visual program.

  A program is a list of blocks, and blocks hold lists of
  blocks.  Every block carries an id, which is how an editor
  addresses it.  Nothing here demands that ids differ or
  that an else branch has its proper shape; that is what
  `BlockProgram.Block.Check` decides.

  Key definitions:
    * `Kind`
    * `ElseKind`
    * `Block`
    * `Block.size`
    * `documentOrder`
    * `find?`
-/

namespace BlockProgram

------------------------------------------------------------
-- Kinds
------------------------------------------------------------

/- The kinds of blocks. -/
inductive Kind where
  | function
  | assignment
  | conditional
  | loop
  | ret
  | call
  deriving DecidableEq, Repr

namespace Kind

/- The word that stands for a kind in documents and ids. -/
def tag : Kind → String
  | .function => "function"
  | .assignment => "variable"
  | .conditional => "if"
  | .loop => "for"
  | .ret => "return"
  | .call => "function-call"

/- All kinds, in the order in which they are listed. -/
def all : List Kind :=
  [.function, .assignment, .conditional, .loop, .ret, .call]

/- The kind that a tag stands for. -/
def ofTag? (tag : String) : Option Kind :=
  all.find? fun kind => kind.tag = tag

/-
  The kind that a user's word stands for: its tag, or the
  plain word for a call.
-/
def ofName? (name : String) : Option Kind :=
  if name = "call" then some .call else ofTag? name

end Kind

/- What follows the true branch of a conditional. -/
inductive ElseKind where
  /- Nothing follows. -/
  | none
  /- One chained conditional follows. -/
  | elif
  /- Statements for the other case follow. -/
  | otherwise
  deriving DecidableEq, Repr

------------------------------------------------------------
-- Blocks
------------------------------------------------------------

/- The identity of a block. -/
abbrev BlockId :=
  String

/-
  A statement.  Conditions, iterables, return values and call
  arguments are opaque expression text.
-/
inductive Block where
  | function
      (id : BlockId)
      (name : String)
      (parameters : List String)
      (body : List Block)
  | assignment
      (id : BlockId)
      (name : String)
      (value : Value)
  | conditional
      (id : BlockId)
      (condition : String)
      (body : List Block)
      (elseKind : ElseKind)
      (elseBody : List Block)
  | loop
      (id : BlockId)
      (iterator : String)
      (iterable : String)
      (body : List Block)
  | ret
      (id : BlockId)
      (value : String)
  | call
      (id : BlockId)
      (callee : String)
      (arguments : List String)
  deriving Repr

namespace Block

/- The identity of a block. -/
def id : Block → BlockId
  | .function id _ _ _ => id
  | .assignment id _ _ => id
  | .conditional id _ _ _ _ => id
  | .loop id _ _ _ => id
  | .ret id _ => id
  | .call id _ _ => id

/- The kind of a block. -/
def kind : Block → Kind
  | .function .. => .function
  | .assignment .. => .assignment
  | .conditional .. => .conditional
  | .loop .. => .loop
  | .ret .. => .ret
  | .call .. => .call

------------------------------------------------------------
-- Size
------------------------------------------------------------

mutual

/- The number of blocks in a block, itself included. -/
def size : Block → Nat
  | .function _ _ _ body => 1 + sizeAll body
  | .assignment _ _ _ => 1
  | .conditional _ _ body _ elseBody =>
      1 + sizeAll body + sizeAll elseBody
  | .loop _ _ _ body => 1 + sizeAll body
  | .ret _ _ => 1
  | .call _ _ _ => 1

/- The number of blocks in a list of blocks, at any depth. -/
def sizeAll : List Block → Nat
  | [] => 0
  | b :: bs => b.size + sizeAll bs

end

------------------------------------------------------------
-- Document Order
------------------------------------------------------------

mutual

/-
  A block and every block inside it, each before its
  contents, and a true branch before its else branch.
-/
def inOrder : Block → List Block
  | b@(.function _ _ _ body) => b :: inOrderAll body
  | b@(.assignment _ _ _) => [b]
  | b@(.conditional _ _ body _ elseBody) =>
      b :: (inOrderAll body ++ inOrderAll elseBody)
  | b@(.loop _ _ _ body) => b :: inOrderAll body
  | b@(.ret _ _) => [b]
  | b@(.call _ _ _) => [b]

/- `inOrder` for the blocks of a list, one after another. -/
def inOrderAll : List Block → List Block
  | [] => []
  | b :: bs => b.inOrder ++ inOrderAll bs

end

end Block

/- All blocks of a program, as a reader meets them. -/
abbrev documentOrder (blocks : List Block) : List Block :=
  Block.inOrderAll blocks

------------------------------------------------------------
-- Looking Up
------------------------------------------------------------

namespace Block

mutual

/- The first block with an id, in document order. -/
def findIn?
    (target : BlockId) :
    Block →
    Option Block
  | b@(.function id _ _ body) =>
      if id = target then some b else findInAll? target body
  | b@(.assignment id _ _) =>
      if id = target then some b else none
  | b@(.conditional id _ body _ elseBody) =>
      if id = target then some b
      else
        (findInAll? target body).or
          (findInAll? target elseBody)
  | b@(.loop id _ _ body) =>
      if id = target then some b else findInAll? target body
  | b@(.ret id _) => if id = target then some b else none
  | b@(.call id _ _) => if id = target then some b else none

/- `findIn?` in a list of blocks. -/
def findInAll?
    (target : BlockId) :
    List Block →
    Option Block
  | [] => none
  | b :: bs => (findIn? target b).or (findInAll? target bs)

end

end Block

/- The first block of a program with an id. -/
def find?
    (target : BlockId)
    (blocks : List Block) : Option Block :=
  Block.findInAll? target blocks

end BlockProgram
