import BlockProgram.Block.Basic

/-
  Which names are in scope at a point of a program.

  A variable is visible after its own block, and the variable
  of a loop from the loop on, also behind it.  Names come in
  document order, each at its first occurrence.

  Key definitions:
    * `visibleNames`
    * `functionNames?`
    * `visibleNamesAt`
-/

namespace BlockProgram

namespace Scope

------------------------------------------------------------
-- Collecting Names
------------------------------------------------------------

/-
  A walk through a program: the names met so far, newest
  first, and whether the walk has come to its end.
-/
structure Walk where
  names : List String
  halted : Bool

namespace Walk

/- Meet a name; only the first time counts. -/
def meet
    (name : String)
    (walk : Walk) : Walk :=
  if name ∈ walk.names then walk
  else { walk with names := name :: walk.names }

/- Meet names one after another. -/
def meetAll :
    List String →
    Walk →
    Walk
  | [], walk => walk
  | name :: names, walk => meetAll names (walk.meet name)

/- The names met, oldest first. -/
def inOrder (walk : Walk) : List String :=
  walk.names.reverse

end Walk

mutual

/- Walk through a block, halting before the block `stop`. -/
def collect
    (stop : Option BlockId) :
    Block →
    Walk →
    Walk
  | .function id _ _ body, walk =>
      if stop = some id then { walk with halted := true }
      else collectAll stop body walk
  | .assignment id name _, walk =>
      if stop = some id then { walk with halted := true }
      else walk.meet name
  | .conditional id _ body _ elseBody, walk =>
      if stop = some id then { walk with halted := true }
      else
        let walk := collectAll stop body walk
        if walk.halted then walk
        else collectAll stop elseBody walk
  | .loop id iterator _ body, walk =>
      if stop = some id then { walk with halted := true }
      else collectAll stop body (walk.meet iterator)
  | .ret id _, walk =>
      if stop = some id then { walk with halted := true }
      else walk
  | .call id _ _, walk =>
      if stop = some id then { walk with halted := true }
      else walk

/- Walk through blocks until one of them halts the walk. -/
def collectAll
    (stop : Option BlockId) :
    List Block →
    Walk →
    Walk
  | [], walk => walk
  | b :: bs, walk =>
      let walk := collect stop b walk
      if walk.halted then walk else collectAll stop bs walk

end

end Scope

------------------------------------------------------------
-- Visible Names
------------------------------------------------------------

/-
  The names visible before the block `stop`, or at the end of
  the program: first the given parameters, then those that
  the walk meets on its way.
-/
def visibleNames
    (stop : Option BlockId)
    (parameters : List String)
    (blocks : List Block) : List String :=
  let start := Scope.Walk.meetAll parameters ⟨[], false⟩
  (Scope.collectAll stop blocks start).inOrder

/-
  All names of a function: its parameters and whatever its
  body declares, at any depth.  Other blocks have none.
-/
def functionNames? : Block → Option (List String)
  | .function _ _ parameters body =>
      some (visibleNames none parameters body)
  | .assignment .. | .conditional .. | .loop .. | .ret ..
  | .call .. => none

------------------------------------------------------------
-- Names At A Block
------------------------------------------------------------

namespace Scope

mutual

/-
  The parameters of the innermost function around the first
  block with an id, given those of the function around the
  block that is searched.
-/
def enclosing?
    (target : BlockId)
    (current : List String) :
    Block →
    Option (List String)
  | .function id _ parameters body =>
      if id = target then some current
      else enclosingAll? target parameters body
  | .conditional id _ body _ elseBody =>
      if id = target then some current
      else
        (enclosingAll? target current body).or
          (enclosingAll? target current elseBody)
  | .loop id _ _ body =>
      if id = target then some current
      else enclosingAll? target current body
  | .assignment id _ _ =>
      if id = target then some current else none
  | .ret id _ => if id = target then some current else none
  | .call id _ _ => if id = target then some current else none

/- `enclosing?` in a list of blocks. -/
def enclosingAll?
    (target : BlockId)
    (current : List String) :
    List Block →
    Option (List String)
  | [] => none
  | b :: bs =>
      (enclosing? target current b).or
        (enclosingAll? target current bs)

end

end Scope

/-
  The names visible just before a block, the parameters of
  the innermost function around it among them.
-/
def visibleNamesAt
    (target : BlockId)
    (blocks : List Block) : List String :=
  visibleNames (some target)
    ((Scope.enclosingAll? target [] blocks).getD []) blocks

end BlockProgram
