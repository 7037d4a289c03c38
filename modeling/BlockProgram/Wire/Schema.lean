import BlockProgram.Block.Basic
import BlockProgram.Wire.Mismatch

/-
  The fields of blocks and values in JSON.

  A shape says what may stand in a field, and a record lists
  the fields of one kind of block or value in their order.
  What has been read of a record is kept in one slot for each
  of its fields, so that a block is built from parts of the
  right types.

  Key definitions:
    * `Wire.Shape`
    * `Wire.Slots`
    * `Wire.Field`
    * `Wire.Record`
    * `Kind.record`
    * `Value.Form.record`
-/

namespace BlockProgram

namespace Wire

------------------------------------------------------------
-- Shapes
------------------------------------------------------------

/-
  How a tag may be spelled.  Inside a block or value the
  place of a tag among all tags serves as well as its word.
-/
inductive Tags where
  | words
  | wordsAndPlaces
  deriving DecidableEq, Repr

/- What may stand in a field. -/
inductive Shape where
  | text
  | optionalText
  | elseKind
  | block (tags : Tags)
  | value (tags : Tags)
  | property
  | argument
  | list (item : Shape)
  deriving DecidableEq, Repr

namespace Shape

/- What a shape is read as. -/
abbrev Content : Shape → Type
  | .text => String
  | .optionalText => Option String
  | .elseKind => ElseKind
  | .block _ => Block
  | .value _ => Value
  | .property => String × Value
  | .argument => Option String × Value
  | .list item => List item.Content

/- What is wanted where a shape stands. -/
def wanted : Shape → Wanted
  | .text => .text
  | .optionalText => .text
  | .elseKind => .elseKind
  | .block _ => .block
  | .value _ => .value
  | .property => .property
  | .argument => .argument
  | .list _ => .sequence

/- Blocks inside a block. -/
abbrev body : Shape :=
  .list (.block .wordsAndPlaces)

/- A value inside a block or value. -/
abbrev inner : Shape :=
  .value .wordsAndPlaces

end Shape

------------------------------------------------------------
-- Parts
------------------------------------------------------------

/- What a field was read as, with the shape it was read by. -/
abbrev Part : Type :=
  (shape : Shape) × shape.Content

/- What has been read of the fields of a record, by name. -/
abbrev Slots : Type :=
  List (String × Part)

namespace Slots

/- What was read of a field as a certain shape. -/
def get?
    (name : String)
    (shape : Shape)
    (slots : Slots) : Option shape.Content :=
  match slots.lookup name with
  | none => none
  | some ⟨found, content⟩ =>
      if h : found = shape then some (h ▸ content) else none

/- What was read of a field that must be there. -/
def required
    (name : String)
    (shape : Shape)
    (slots : Slots) : Except Mismatch shape.Content :=
  match slots.get? name shape with
  | some content => .ok content
  | none => .error (.missingField name)

/- What was read of a field that may be left out. -/
def optional
    (name : String)
    (shape : Shape)
    (fallback : shape.Content)
    (slots : Slots) : shape.Content :=
  (slots.get? name shape).getD fallback

end Slots

------------------------------------------------------------
-- Fields
------------------------------------------------------------

/-
  A field of a record.  Where an older spelling is known it
  is tried before the shape, and no closer reason is given
  for what fits neither.
-/
structure Field where
  name : String
  shape : Shape
  isRequired : Bool
  older : Json → Option Part
  refusal : Option Mismatch

namespace Field

/- A field that must be there. -/
def required
    (name : String)
    (shape : Shape) : Field where
  name := name
  shape := shape
  isRequired := true
  older := fun _ => none
  refusal := none

/- A field that may be left out. -/
def optional
    (name : String)
    (shape : Shape) : Field where
  name := name
  shape := shape
  isRequired := false
  older := fun _ => none
  refusal := none

/- The plain text of a value, as older documents hold it. -/
def plainValue : Json → Option Part
  | .text s => some ⟨.inner, .ofText s⟩
  | .null | .bool _ | .number _ | .array _ | .object _ => none

/- The value of an assignment. -/
def stored (name : String) : Field where
  name := name
  shape := .inner
  isRequired := true
  older := plainValue
  refusal := some .notStored

/- Read a field, given what its shape is read as. -/
def part
    (field : Field)
    (json : Json)
    (content : Except Mismatch field.shape.Content) :
    Except Mismatch Part :=
  match field.older json with
  | some part => .ok part
  | none =>
      match content with
      | .ok content => .ok ⟨field.shape, content⟩
      | .error reason => .error (field.refusal.getD reason)

end Field

------------------------------------------------------------
-- Records
------------------------------------------------------------

/- The fields of a form, under the name of the form. -/
structure Record where
  form : String
  fields : List Field

namespace Record

/- The field with a name. -/
def field?
    (name : String)
    (record : Record) : Option Field :=
  record.fields.find? fun field => field.name = name

/-
  A record that was written as a list is too short at the
  place of the first field that must be there and is not.
-/
def checkLength
    (record : Record)
    (slots : Slots) : Except Mismatch Unit :=
  let isMissing (field : Field) :=
    field.isRequired && (slots.lookup field.name).isNone
  match record.fields.findIdx? isMissing with
  | none => .ok ()
  | some place =>
      .error (.tooShort place record.form record.fields.length)

end Record

end Wire

------------------------------------------------------------
-- Blocks
------------------------------------------------------------

open Wire

namespace Kind

/- The fields of a kind of block. -/
def record : Kind → Record
  | .function =>
      { form := "struct FunctionBlock"
        fields :=
          [ .required "id" .text,
            .required "name" .text,
            .optional "parameters" (.list .text),
            .optional "children" .body ] }
  | .assignment =>
      { form := "struct VariableBlock"
        fields :=
          [ .required "id" .text,
            .required "name" .text,
            .stored "value" ] }
  | .conditional =>
      { form := "struct ConditionalBlock"
        fields :=
          [ .required "id" .text,
            .required "condition" .text,
            .optional "ifBody" .body,
            .optional "elseType" .elseKind,
            .optional "elseBody" .body ] }
  | .loop =>
      { form := "struct LoopBlock"
        fields :=
          [ .required "id" .text,
            .required "iterator" .text,
            .required "iterable" .text,
            .optional "children" .body ] }
  | .ret =>
      { form := "struct ReturnBlock"
        fields :=
          [ .required "id" .text,
            .required "value" .text ] }
  | .call =>
      { form := "struct CallBlock"
        fields :=
          [ .required "id" .text,
            .required "functionName" .text,
            .optional "arguments" (.list .text) ] }

/-
  A block of a kind from what was read of its fields.  The
  first field that must be there and is not is missing.
-/
def build
    (kind : Kind)
    (slots : Slots) : Except Mismatch Block :=
  match kind with
  | .function => do
      let id ← slots.required "id" .text
      let name ← slots.required "name" .text
      return .function id name
        (slots.optional "parameters" (.list .text) [])
        (slots.optional "children" .body [])
  | .assignment => do
      let id ← slots.required "id" .text
      let name ← slots.required "name" .text
      let value ← slots.required "value" .inner
      return .assignment id name value
  | .conditional => do
      let id ← slots.required "id" .text
      let condition ← slots.required "condition" .text
      return .conditional id condition
        (slots.optional "ifBody" .body [])
        (slots.optional "elseType" .elseKind ElseKind.none)
        (slots.optional "elseBody" .body [])
  | .loop => do
      let id ← slots.required "id" .text
      let iterator ← slots.required "iterator" .text
      let iterable ← slots.required "iterable" .text
      return .loop id iterator iterable
        (slots.optional "children" .body [])
  | .ret => do
      let id ← slots.required "id" .text
      let value ← slots.required "value" .text
      return .ret id value
  | .call => do
      let id ← slots.required "id" .text
      let callee ← slots.required "functionName" .text
      return .call id callee
        (slots.optional "arguments" (.list .text) [])

end Kind

------------------------------------------------------------
-- Values
------------------------------------------------------------

namespace Value

/- The forms of values. -/
inductive Form where
  | simple
  | array
  | object
  | call
  deriving DecidableEq, Repr

namespace Form

/- The word that stands for a form in documents. -/
def tag : Form → String
  | .simple => "simple"
  | .array => "array"
  | .object => "object"
  | .call => "function-call"

/- All forms, in the order in which they are listed. -/
def all : List Form :=
  [.simple, .array, .object, .call]

/- The fields of a form of value. -/
def record : Form → Record
  | .simple =>
      { form := "struct variant Value::Simple"
        fields := [.required "value" .text] }
  | .array =>
      { form := "struct variant Value::Array"
        fields := [.required "items" (.list .inner)] }
  | .object =>
      { form := "struct variant Value::Object"
        fields := [.required "properties" (.list .property)] }
  | .call =>
      { form := "struct variant Value::FunctionCall"
        fields :=
          [ .required "functionName" .text,
            .required "arguments" (.list .argument) ] }

/- A value of a form from what was read of its fields. -/
def build
    (form : Form)
    (slots : Slots) : Except Mismatch Value :=
  match form with
  | .simple => do
      let text ← slots.required "value" .text
      return .simple text
  | .array => do
      let items ← slots.required "items" (.list .inner)
      return .array items
  | .object => do
      let properties ←
        slots.required "properties" (.list .property)
      return .object properties
  | .call => do
      let callee ← slots.required "functionName" .text
      let arguments ← slots.required "arguments" (.list .argument)
      return .call callee arguments

end Form

end Value

------------------------------------------------------------
-- Properties And Arguments
------------------------------------------------------------

namespace Wire

/- The fields of an object's property. -/
def propertyRecord : Record where
  form := "struct ObjectProperty"
  fields := [.required "key" .text, .required "value" .inner]

/- A property from what was read of its fields. -/
def buildProperty
    (slots : Slots) : Except Mismatch (String × Value) := do
  let key ← slots.required "key" .text
  let value ← slots.required "value" .inner
  return (key, value)

/- The fields of a call's argument. -/
def argumentRecord : Record where
  form := "struct FunctionArgument"
  fields :=
    [.optional "name" .optionalText, .required "value" .inner]

/- An argument from what was read of its fields. -/
def buildArgument
    (slots : Slots) :
    Except Mismatch (Option String × Value) := do
  let value ← slots.required "value" .inner
  return (slots.optional "name" .optionalText none, value)

end Wire

end BlockProgram
