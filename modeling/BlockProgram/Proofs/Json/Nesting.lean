import BlockProgram.Json.Basic

/-
  Induction over JSON values, and how deep they are nested.

  Main declarations:
    * `Json.induction`
    * `Json.depth`
    * `Json.isNumberFree`
-/

namespace BlockProgram

namespace Json

------------------------------------------------------------
-- The Induction Principle
------------------------------------------------------------

/-
  What holds of a value whenever it holds of the values
  directly inside it holds of every value.
-/
@[elab_as_elim]
theorem induction
    {motive : Json → Prop}
    (null : motive .null)
    (bool : ∀ b, motive (.bool b))
    (number : ∀ n, motive (.number n))
    (text : ∀ s, motive (.text s))
    (array :
      ∀ items, (∀ v ∈ items, motive v) → motive (.array items))
    (object :
      ∀ members,
        (∀ m ∈ members, motive m.2) → motive (.object members))
    (v : Json) :
    motive v := by
  apply
    @Json.rec motive (fun items => ∀ v ∈ items, motive v)
      (fun members => ∀ m ∈ members, motive m.2)
      (fun m => motive m.2)
  · exact null
  · exact bool
  · exact number
  · exact text
  · exact array
  · exact object
  · intro v hMember
    cases hMember
  · intro head tail hHead hTail v hMember
    rcases List.mem_cons.mp hMember with rfl | hMember
    · exact hHead
    · exact hTail v hMember
  · intro m hMember
    cases hMember
  · intro head tail hHead hTail m hMember
    rcases List.mem_cons.mp hMember with rfl | hMember
    · exact hHead
    · exact hTail m hMember
  · intro key value hValue
    exact hValue

------------------------------------------------------------
-- Nesting
------------------------------------------------------------

mutual

/- How many lists and objects stand one inside another. -/
def depth : Json → Nat
  | .null => 0
  | .bool _ => 0
  | .number _ => 0
  | .text _ => 0
  | .array items => 1 + depthItems items
  | .object members => 1 + depthMembers members

/- The nesting of the deepest item of an array. -/
def depthItems : List Json → Nat
  | [] => 0
  | v :: vs => max v.depth (depthItems vs)

/- The nesting of the deepest member of an object. -/
def depthMembers : List (String × Json) → Nat
  | [] => 0
  | (_, v) :: ms => max v.depth (depthMembers ms)

end

------------------------------------------------------------
-- Numbers Inside A Value
------------------------------------------------------------

mutual

/- No number stands in the value. -/
def isNumberFree : Json → Bool
  | .null => true
  | .bool _ => true
  | .number _ => false
  | .text _ => true
  | .array items => areNumberFree items
  | .object members => areMembersNumberFree members

/- No number stands in the items of an array. -/
def areNumberFree : List Json → Bool
  | [] => true
  | v :: vs => v.isNumberFree && areNumberFree vs

/- No number stands in the members of an object. -/
def areMembersNumberFree : List (String × Json) → Bool
  | [] => true
  | (_, v) :: ms => v.isNumberFree && areMembersNumberFree ms

end

end Json

end BlockProgram
