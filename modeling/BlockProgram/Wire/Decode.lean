import BlockProgram.Wire.Schema

/-
  Blocks and values from JSON.

  A record is an object with a member for each field, or a
  list with the fields in their order.  Blocks and values
  have a tag besides, which is settled before any field is
  looked at: the member `type`, or the first item.

  Members are read in the order in which they are written,
  and the first that does not fit is what is reported.

  Key definitions:
    * `Wire.tagOf`
    * `Wire.elseKindOf`
    * `Wire.decode`
-/

namespace BlockProgram

namespace Wire

------------------------------------------------------------
-- Tags
------------------------------------------------------------

/- The key of the member that holds a tag. -/
def tagKey : String :=
  "type"

/- The choice that a tag names. -/
def tagOf
    (tags : Tags)
    (choices : List α)
    (word : α → String)
    (json : Json) : Except Mismatch α :=
  match json, tags with
  | .text s, _ =>
      match choices.find? fun choice => word choice = s with
      | some choice => .ok choice
      | none => .error (.unknownWord s (choices.map word))
  | .number (.natural n), .wordsAndPlaces =>
      match choices[n]? with
      | some choice => .ok choice
      | none => .error (.unknownPlace n choices.length)
  | json, _ => .error (.wrongType (.ofJson json) .tag)

/- The kind of block that a tag names. -/
def kindOf (tags : Tags) : Json → Except Mismatch Kind :=
  tagOf tags Kind.all Kind.tag

/- The form of value that a tag names. -/
def formOf (tags : Tags) : Json → Except Mismatch Value.Form :=
  tagOf tags Value.Form.all Value.Form.tag

/-
  The tag among the members of an object, given how a tag is
  read and what was found of it so far.
-/
def tagAmong
    (read : Json → Except Mismatch α) :
    List (String × Json) →
    Option α →
    Except Mismatch α
  | [], some tag => .ok tag
  | [], none => .error (.missingField tagKey)
  | (key, json) :: members, found =>
      if key = tagKey then
        match found with
        | some _ => .error (.duplicateField tagKey)
        | none => do
            let tag ← read json
            tagAmong read members (some tag)
      else tagAmong read members found

------------------------------------------------------------
-- Texts And Else Kinds
------------------------------------------------------------

/- A text. -/
def textOf : Json → Except Mismatch String
  | .text s => .ok s
  | json => .error (.wrongType (.ofJson json) .text)

/- A text, or nothing. -/
def optionalTextOf : Json → Except Mismatch (Option String)
  | .null => .ok none
  | json => (textOf json).map some

/- The word for an else kind. -/
def elseWord : ElseKind → String
  | .none => "none"
  | .elif => "elif"
  | .otherwise => "else"

/- All else kinds, in the order in which they are listed. -/
def elseKinds : List ElseKind :=
  [.none, .elif, .otherwise]

/-
  Nothing, as it stands beside a word that is the key of an
  object.  In a document an empty object will do as well.
-/
def nothingOf
    (inDocument : Bool) :
    Json →
    Except Mismatch Unit
  | .null => .ok ()
  | json =>
      if inDocument ∧ json matches .object [] then .ok ()
      else .error (.wrongType (.ofJson json) .nothing)

/-
  An else kind: its word, or an object with the word as its
  only key.
-/
def elseKindOf
    (inDocument : Bool) :
    Json →
    Except Mismatch ElseKind
  | .text s => tagOf .words elseKinds elseWord (.text s)
  | .object [(key, json)] => do
      let kind ← tagOf .words elseKinds elseWord (.text key)
      nothingOf inDocument json
      return kind
  | .object _ => .error .notSingleKey
  | json => .error (.wrongType (.ofJson json) .elseKind)

------------------------------------------------------------
-- Records
------------------------------------------------------------

mutual

/- What a JSON value is read as where a shape stands. -/
def decode :
    (shape : Shape) →
    Json →
    Except Mismatch shape.Content
  | .text, json => textOf json
  | .optionalText, json => optionalTextOf json
  | .elseKind, json => elseKindOf true json
  | .list item, .array items => decodeItems item items
  | .block tags, .object members => do
      let kind ← tagAmong (kindOf tags) members none
      let slots ← readMembers kind.record [] members
      kind.build slots
  | .block tags, .array (tag :: items) => do
      let kind ← kindOf tags tag
      let slots ← readItems kind.record.fields 0 items
      kind.record.checkLength slots
      kind.build slots
  | .value tags, .object members => do
      let form ← tagAmong (formOf tags) members none
      let slots ← readMembers form.record [] members
      form.build slots
  | .value tags, .array (tag :: items) => do
      let form ← formOf tags tag
      let slots ← readItems form.record.fields 0 items
      form.record.checkLength slots
      form.build slots
  | .property, .object members => do
      let slots ← readMembers propertyRecord [] members
      buildProperty slots
  | .property, .array items => do
      let slots ← readItems propertyRecord.fields 0 items
      propertyRecord.checkLength slots
      buildProperty slots
  | .argument, .object members => do
      let slots ← readMembers argumentRecord [] members
      buildArgument slots
  | .argument, .array items => do
      let slots ← readItems argumentRecord.fields 0 items
      argumentRecord.checkLength slots
      buildArgument slots
  | .block _, .array [] => .error (.missingField tagKey)
  | .value _, .array [] => .error (.missingField tagKey)
  | shape, json =>
      .error (.wrongType (.ofJson json) shape.wanted)

/- The items of a list, each of one shape. -/
def decodeItems
    (item : Shape) :
    List Json →
    Except Mismatch (List item.Content)
  | [] => .ok []
  | json :: rest => do
      let first ← decode item json
      let others ← decodeItems item rest
      return first :: others

/-
  Read the members of an object into the slots of a record.
  A member that belongs to no field is passed over.
-/
def readMembers
    (record : Record)
    (slots : Slots) :
    List (String × Json) →
    Except Mismatch Slots
  | [] => .ok slots
  | (key, json) :: rest =>
      match record.field? key with
      | none => readMembers record slots rest
      | some field =>
          if (slots.lookup key).isSome then
            .error (.duplicateField key)
          else do
            let part ←
              field.part json (decode field.shape json)
            readMembers record ((key, part) :: slots) rest

/-
  Read the items of a list into the slots of fields, after
  `count` fields of the same record.
-/
def readItems :
    (fields : List Field) →
    (count : Nat) →
    List Json →
    Except Mismatch Slots
  | _, _, [] => .ok []
  | [], count, json :: rest =>
      .error (.tooLong (count + (json :: rest).length) count)
  | field :: fields, count, json :: rest => do
      let part ← field.part json (decode field.shape json)
      let slots ← readItems fields (count + 1) rest
      return (field.name, part) :: slots

end

end Wire

end BlockProgram
