import BlockProgram.Block.Numbering

/-
  Ladders: conditionals that are chained one to another.

  `withElif` and `withElse` give a conditional its else
  branch.  `ladder` makes samples of any length with them.

  Key definitions:
    * `withElif`
    * `withElse`
    * `ladder`
-/

namespace BlockProgram

namespace Block

------------------------------------------------------------
-- Clauses
------------------------------------------------------------

/- A conditional with another chained to it. -/
def withElif (b next : Block) : Block :=
  match b with
  | .conditional id condition body _ _ =>
      .conditional id condition body .elif [next]
  | b => b

/- A conditional with statements for all other cases. -/
def withElse
    (b : Block)
    (elseBody : List Block) : Block :=
  match b with
  | .conditional id condition body _ _ =>
      .conditional id condition body .otherwise elseBody
  | b => b

------------------------------------------------------------
-- Ladders
------------------------------------------------------------

/-
  A conditional whose body calls a function named like the
  condition, with the condition as its argument.
-/
def rung
    (condition : String)
    (n : Nat) : Block :=
  .conditional (Kind.conditional.freshId (n + 1)) condition
    [.call (Kind.call.freshId n) condition [condition]]
    .none []

/-
  A ladder with a rung for each condition, built from the
  last to the first, with ids numbered from `n`.  At its end
  it may return nothing in all other cases.  The number that
  comes next is given with it.
-/
def ladder
    (closed : Bool)
    (n : Nat) :
    List String →
    List Block × Nat
  | [] => ([], n)
  | condition :: conditions =>
      match ladder closed n conditions with
      | (next :: _, m) =>
          ([(rung condition m).withElif next], m + 2)
      | ([], m) =>
          if closed then
            ([(rung condition m).withElse
                [.ret (Kind.ret.freshId (m + 2)) ""]],
              m + 3)
          else ([rung condition m], m + 2)

end Block

end BlockProgram
