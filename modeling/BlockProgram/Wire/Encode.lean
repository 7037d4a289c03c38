import BlockProgram.Json.Printer
import BlockProgram.Wire.Decode

/-
  Blocks and values as JSON.

  Every block and value is an object that begins with its tag
  and goes on with its fields in their order.  Nothing is
  left out but the name of a positional argument.

  Key definitions:
    * `Value.toJson`
    * `Block.toJson`
    * `Wire.encode`
-/

namespace BlockProgram

------------------------------------------------------------
-- Values
------------------------------------------------------------

namespace Value

/- An object that begins with the tag of a form. -/
def tagged
    (form : Form)
    (members : List (String × Json)) : Json :=
  .object ((Wire.tagKey, .text form.tag) :: members)

/- The member for the name of an argument, if it has one. -/
def nameMember : Option String → List (String × Json)
  | none => []
  | some name => [("name", .text name)]

mutual

/- A value as JSON. -/
def toJson : Value → Json
  | .simple text => tagged .simple [("value", .text text)]
  | .array items =>
      tagged .array [("items", .array (itemsToJson items))]
  | .object properties =>
      tagged .object
        [("properties", .array (propertiesToJson properties))]
  | .call callee arguments =>
      tagged .call
        [ ("functionName", .text callee),
          ("arguments", .array (argumentsToJson arguments)) ]

/- The items of an array as JSON. -/
def itemsToJson : List Value → List Json
  | [] => []
  | v :: vs => v.toJson :: itemsToJson vs

/- The properties of an object as JSON. -/
def propertiesToJson : List (String × Value) → List Json
  | [] => []
  | (k, v) :: ps =>
      .object [("key", .text k), ("value", v.toJson)] ::
        propertiesToJson ps

/- The arguments of a call as JSON. -/
def argumentsToJson : List (Option String × Value) → List Json
  | [] => []
  | (n, v) :: as =>
      .object (nameMember n ++ [("value", v.toJson)]) ::
        argumentsToJson as

end

end Value

------------------------------------------------------------
-- Blocks
------------------------------------------------------------

namespace Block

/- An object that begins with a kind's tag and an id. -/
def tagged
    (kind : Kind)
    (id : BlockId)
    (members : List (String × Json)) : Json :=
  .object
    ((Wire.tagKey, .text kind.tag) :: ("id", .text id) :: members)

mutual

/- A block as JSON. -/
def toJson : Block → Json
  | .function id name parameters body =>
      tagged .function id
        [ ("name", .text name),
          ("parameters", .ofTexts parameters),
          ("children", .array (bodyToJson body)) ]
  | .assignment id name value =>
      tagged .assignment id
        [("name", .text name), ("value", value.toJson)]
  | .conditional id condition body elseKind elseBody =>
      tagged .conditional id
        [ ("condition", .text condition),
          ("ifBody", .array (bodyToJson body)),
          ("elseType", .text (Wire.elseWord elseKind)),
          ("elseBody", .array (bodyToJson elseBody)) ]
  | .loop id iterator iterable body =>
      tagged .loop id
        [ ("iterator", .text iterator),
          ("iterable", .text iterable),
          ("children", .array (bodyToJson body)) ]
  | .ret id value => tagged .ret id [("value", .text value)]
  | .call id callee arguments =>
      tagged .call id
        [ ("functionName", .text callee),
          ("arguments", .ofTexts arguments) ]

/- The blocks of a body as JSON. -/
def bodyToJson : List Block → List Json
  | [] => []
  | b :: bs => b.toJson :: bodyToJson bs

end

end Block

------------------------------------------------------------
-- Programs
------------------------------------------------------------

namespace Wire

/- A program as JSON. -/
def encode (blocks : List Block) : Json :=
  .array (Block.bodyToJson blocks)

/- A program as a compact JSON text. -/
def compactText (blocks : List Block) : String :=
  (encode blocks).compact

/- A program as a JSON text with a line for each item. -/
def prettyText (blocks : List Block) : String :=
  (encode blocks).pretty

end Wire

end BlockProgram
