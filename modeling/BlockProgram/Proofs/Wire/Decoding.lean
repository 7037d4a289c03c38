import BlockProgram.Proofs.Block.Induction
import BlockProgram.Proofs.Value.Induction
import BlockProgram.Proofs.Wire.Records
import BlockProgram.Wire.Encode

/-
  Blocks and values are decoded from what they are encoded
  as.

  An encoded record has its tag first and then each of its
  fields once, so each field fills a slot of its own.

  Main declarations:
    * `Wire.readMembers_cons_of_part`
    * `Wire.decode_list`
    * `Value.decode_toJson`
    * `Block.decode_toJson`
-/

namespace BlockProgram

namespace Wire

------------------------------------------------------------
-- Members And Items
------------------------------------------------------------

/- A member that no field belongs to is passed over. -/
theorem readMembers_cons_of_no_field
    {record : Record}
    {key : String}
    (hField : record.field? key = none)
    (json : Json)
    (slots : Slots)
    (rest : List (String × Json)) :
    readMembers record slots ((key, json) :: rest) =
      readMembers record slots rest := by
  rw [readMembers, hField]

/- A member of a field fills the field's slot. -/
theorem readMembers_cons_of_part
    {record : Record}
    {slots : Slots}
    {key : String}
    {json : Json}
    {field : Field}
    {part : Part}
    (hField : record.field? key = some field)
    (hNew : slots.lookup key = none)
    (hPart : field.part json (decode field.shape json) = .ok part)
    (rest : List (String × Json)) :
    readMembers record slots ((key, json) :: rest) =
      readMembers record ((key, part) :: slots) rest := by
  rw [readMembers, hField]
  simp only [hNew, Option.isSome_none, Bool.false_eq_true,
    if_false, hPart, bind, Except.bind]

/- So does one that is not in an older spelling. -/
theorem readMembers_cons
    {record : Record}
    {slots : Slots}
    {key : String}
    {json : Json}
    {field : Field}
    {content : field.shape.Content}
    (hField : record.field? key = some field)
    (hNew : slots.lookup key = none)
    (hOlder : field.older json = none)
    (hContent : decode field.shape json = .ok content)
    (rest : List (String × Json)) :
    readMembers record slots ((key, json) :: rest) =
      readMembers record
        ((key, ⟨field.shape, content⟩) :: slots) rest := by
  apply readMembers_cons_of_part hField hNew
  simp only [Field.part, hOlder, hContent]

/- A list is decoded when each of its items is. -/
theorem decode_list
    {item : Shape}
    {encoded : item.Content → Json}
    {contents : List item.Content}
    (hItems :
      ∀ x ∈ contents, decode item (encoded x) = .ok x) :
    decode (.list item) (.array (contents.map encoded)) =
      .ok contents := by
  rw [decode]
  induction contents with
  | nil => rw [List.map_nil, decodeItems]
  | cons x xs ih =>
      rcases List.forall_mem_cons.mp hItems with
        ⟨hFirst, hOthers⟩
      rw [List.map_cons, decodeItems, hFirst, ih hOthers]
      rfl

theorem decode_text (s : String) :
    decode .text (.text s) = .ok s := by
  rw [decode, textOf]

theorem decode_texts (texts : List String) :
    decode (.list .text) (.ofTexts texts) = .ok texts :=
  @decode_list .text Json.text texts fun s _ => decode_text s

theorem decode_elseWord (elseKind : ElseKind) :
    decode .elseKind (.text (elseWord elseKind)) =
      .ok elseKind := by
  rw [decode]
  cases elseKind <;> rfl

/- The tag of an object whose first member it is. -/
theorem tagAmong_cons
    {read : Json → Except Mismatch α}
    {json : Json}
    {tag : α}
    {members : List (String × Json)}
    (hTag : read json = .ok tag)
    (hOthers : tagKey ∉ members.map Prod.fst) :
    tagAmong read ((tagKey, json) :: members) none = .ok tag := by
  have hNone : tagMembers members = [] := by
    rw [tagMembers, List.filter_eq_nil_iff]
    intro m hm hTagged
    apply hOthers
    rw [← of_decide_eq_true hTagged]
    exact List.mem_map_of_mem hm
  rw [tagAmong_eq_ok_iff]
  exact ⟨json, by simp [tagMembers_cons, hNone], hTag⟩

end Wire

------------------------------------------------------------
-- Values
------------------------------------------------------------

open Wire

namespace Value

/- A value from its tag and the slots that it fills. -/
theorem decode_tagged
    {form : Form}
    {members : List (String × Json)}
    {slots : Slots}
    {v : Value}
    (hOthers : tagKey ∉ members.map Prod.fst)
    (hSlots : readMembers form.record [] members = .ok slots)
    (hBuild : form.build slots = .ok v)
    (tags : Tags) :
    decode (.value tags) (tagged form members) = .ok v := by
  have hForm : formOf tags (.text form.tag) = .ok form := by
    cases form <;> cases tags <;> rfl
  have hTagKey : form.record.field? tagKey = none := by
    cases form <;> rfl
  rw [tagged, decode, tagAmong_cons hForm hOthers]
  simp only [bind, Except.bind]
  rw [readMembers_cons_of_no_field hTagKey, hSlots]
  exact hBuild

theorem itemsToJson_eq_map (items : List Value) :
    itemsToJson items = items.map toJson := by
  induction items with
  | nil => rfl
  | cons v vs ih => rw [itemsToJson, ih, List.map_cons]

/- A property as JSON. -/
def propertyToJson (p : String × Value) : Json :=
  .object [("key", .text p.1), ("value", p.2.toJson)]

theorem propertiesToJson_eq_map
    (properties : List (String × Value)) :
    propertiesToJson properties =
      properties.map propertyToJson := by
  induction properties with
  | nil => rfl
  | cons p ps ih =>
      rw [propertiesToJson, ih, List.map_cons, propertyToJson]

/- An argument as JSON. -/
def argumentToJson (a : Option String × Value) : Json :=
  .object (nameMember a.1 ++ [("value", a.2.toJson)])

theorem argumentsToJson_eq_map
    (arguments : List (Option String × Value)) :
    argumentsToJson arguments =
      arguments.map argumentToJson := by
  induction arguments with
  | nil => rfl
  | cons a as ih =>
      rw [argumentsToJson, ih, List.map_cons, argumentToJson]

section Parts

variable {json : Json}

theorem decode_simple
    (text : String)
    (tags : Tags) :
    decode (.value tags)
        (tagged .simple [("value", .text text)]) =
      .ok (.simple text) := by
  apply decode_tagged (by simp [tagKey])
  · rw [readMembers_cons rfl rfl rfl (decode_text text),
      readMembers]
  · rfl

theorem decode_array
    {items : List Value}
    (hItems : decode (.list .inner) json = .ok items)
    (tags : Tags) :
    decode (.value tags) (tagged .array [("items", json)]) =
      .ok (.array items) := by
  apply decode_tagged (by simp [tagKey])
  · rw [readMembers_cons rfl rfl rfl hItems, readMembers]
  · rfl

theorem decode_object
    {properties : List (String × Value)}
    (hProperties :
      decode (.list .property) json = .ok properties)
    (tags : Tags) :
    decode (.value tags)
        (tagged .object [("properties", json)]) =
      .ok (.object properties) := by
  apply decode_tagged (by simp [tagKey])
  · rw [readMembers_cons rfl rfl rfl hProperties, readMembers]
  · rfl

theorem decode_call
    {arguments : List (Option String × Value)}
    (callee : String)
    (hArguments : decode (.list .argument) json = .ok arguments)
    (tags : Tags) :
    decode (.value tags)
        (tagged .call
          [("functionName", .text callee), ("arguments", json)]) =
      .ok (.call callee arguments) := by
  apply decode_tagged (by simp [tagKey])
  · rw [readMembers_cons rfl rfl rfl (decode_text callee),
      readMembers_cons rfl rfl rfl hArguments, readMembers]
  · rfl

theorem decode_property
    {v : Value}
    (key : String)
    (hValue : decode .inner json = .ok v) :
    decode .property
        (.object [("key", .text key), ("value", json)]) =
      .ok (key, v) := by
  rw [decode, readMembers_cons rfl rfl rfl (decode_text key),
    readMembers_cons rfl rfl rfl hValue, readMembers]
  rfl

theorem decode_argument
    {v : Value}
    (name : Option String)
    (hValue : decode .inner json = .ok v) :
    decode .argument
        (.object (nameMember name ++ [("value", json)])) =
      .ok (name, v) := by
  cases name with
  | none =>
      rw [nameMember, List.nil_append, decode,
        readMembers_cons rfl rfl rfl hValue, readMembers]
      rfl
  | some name =>
      have hName :
          decode .optionalText (.text name) = .ok (some name) := by
        rw [decode]
        rfl
      rw [nameMember, List.singleton_append, decode,
        readMembers_cons rfl rfl rfl hName,
        readMembers_cons rfl rfl rfl hValue, readMembers]
      rfl

end Parts

/- A value is decoded from what it is encoded as. -/
theorem decode_toJson
    (v : Value)
    (tags : Tags) :
    decode (.value tags) v.toJson = .ok v := by
  induction v using Value.induction generalizing tags with
  | simple text => exact decode_simple text tags
  | array items ih =>
      apply decode_array
      rw [itemsToJson_eq_map]
      exact decode_list fun v hv => ih v hv _
  | object properties ih =>
      apply decode_object
      rw [propertiesToJson_eq_map]
      exact
        decode_list fun p hp => decode_property p.1 (ih p hp _)
  | call callee arguments ih =>
      apply decode_call
      rw [argumentsToJson_eq_map]
      exact
        decode_list fun a ha => decode_argument a.1 (ih a ha _)

end Value

------------------------------------------------------------
-- Blocks
------------------------------------------------------------

namespace Block

/- A block from its tag, its id and the slots that it fills. -/
theorem decode_tagged
    {kind : Kind}
    {id : BlockId}
    {members : List (String × Json)}
    {slots : Slots}
    {b : Block}
    (hOthers : tagKey ∉ members.map Prod.fst)
    (hSlots :
      readMembers kind.record [("id", ⟨.text, id⟩)] members =
        .ok slots)
    (hBuild : kind.build slots = .ok b)
    (tags : Tags) :
    decode (.block tags) (tagged kind id members) = .ok b := by
  have hKind : kindOf tags (.text kind.tag) = .ok kind := by
    cases kind <;> cases tags <;> rfl
  have hTagKey : kind.record.field? tagKey = none := by
    cases kind <;> rfl
  have hId :
      kind.record.field? "id" = some (.required "id" .text) := by
    cases kind <;> rfl
  have hTag :
      tagKey ∉
        (("id", Json.text id) :: members).map Prod.fst := by
    rw [List.map_cons, List.mem_cons, not_or]
    exact ⟨by simp [tagKey], hOthers⟩
  rw [tagged, decode, tagAmong_cons hKind hTag]
  simp only [bind, Except.bind]
  rw [readMembers_cons_of_no_field hTagKey,
    readMembers_cons hId rfl rfl (decode_text id)]
  exact hSlots ▸ hBuild

theorem bodyToJson_eq_map (body : List Block) :
    bodyToJson body = body.map toJson := by
  induction body with
  | nil => rfl
  | cons b bs ih => rw [bodyToJson, ih, List.map_cons]

theorem decode_body
    {tags : Tags}
    {body : List Block}
    (hBody :
      ∀ b ∈ body, decode (.block tags) b.toJson = .ok b) :
    decode (.list (.block tags)) (.array (bodyToJson body)) =
      .ok body := by
  rw [bodyToJson_eq_map]
  exact decode_list hBody

section Parts

variable {json other : Json}
variable {body : List Block}

theorem decode_function
    (id : BlockId)
    (name : String)
    (parameters : List String)
    (hBody : decode .body json = .ok body)
    (tags : Tags) :
    decode (.block tags)
        (tagged .function id
          [ ("name", .text name),
            ("parameters", .ofTexts parameters),
            ("children", json) ]) =
      .ok (.function id name parameters body) := by
  apply decode_tagged (by simp [tagKey])
  · rw [readMembers_cons rfl rfl rfl (decode_text name),
      readMembers_cons rfl rfl rfl (decode_texts parameters),
      readMembers_cons rfl rfl rfl hBody, readMembers]
  · rfl

/- The value of an assignment may be in its older spelling. -/
theorem decode_assignment
    {value : Value}
    (id : BlockId)
    (name : String)
    (hValue :
      (Field.stored "value").part json (decode .inner json) =
        .ok ⟨.inner, value⟩)
    (tags : Tags) :
    decode (.block tags)
        (tagged .assignment id
          [("name", .text name), ("value", json)]) =
      .ok (.assignment id name value) := by
  apply decode_tagged (by simp [tagKey])
  · rw [readMembers_cons rfl rfl rfl (decode_text name),
      readMembers_cons_of_part rfl rfl hValue, readMembers]
  · rfl

theorem decode_conditional
    {elseBody : List Block}
    (id : BlockId)
    (condition : String)
    (hBody : decode .body json = .ok body)
    (elseKind : ElseKind)
    (hElse : decode .body other = .ok elseBody)
    (tags : Tags) :
    decode (.block tags)
        (tagged .conditional id
          [ ("condition", .text condition),
            ("ifBody", json),
            ("elseType", .text (elseWord elseKind)),
            ("elseBody", other) ]) =
      .ok (.conditional id condition body elseKind elseBody) := by
  apply decode_tagged (by simp [tagKey])
  · rw [readMembers_cons rfl rfl rfl (decode_text condition),
      readMembers_cons rfl rfl rfl hBody,
      readMembers_cons rfl rfl rfl (decode_elseWord elseKind),
      readMembers_cons rfl rfl rfl hElse, readMembers]
  · rfl

theorem decode_loop
    (id : BlockId)
    (iterator iterable : String)
    (hBody : decode .body json = .ok body)
    (tags : Tags) :
    decode (.block tags)
        (tagged .loop id
          [ ("iterator", .text iterator),
            ("iterable", .text iterable),
            ("children", json) ]) =
      .ok (.loop id iterator iterable body) := by
  apply decode_tagged (by simp [tagKey])
  · rw [readMembers_cons rfl rfl rfl (decode_text iterator),
      readMembers_cons rfl rfl rfl (decode_text iterable),
      readMembers_cons rfl rfl rfl hBody, readMembers]
  · rfl

theorem decode_ret
    (id : BlockId)
    (value : String)
    (tags : Tags) :
    decode (.block tags)
        (tagged .ret id [("value", .text value)]) =
      .ok (.ret id value) := by
  apply decode_tagged (by simp [tagKey])
  · rw [readMembers_cons rfl rfl rfl (decode_text value),
      readMembers]
  · rfl

theorem decode_call
    (id : BlockId)
    (callee : String)
    (arguments : List String)
    (tags : Tags) :
    decode (.block tags)
        (tagged .call id
          [ ("functionName", .text callee),
            ("arguments", .ofTexts arguments) ]) =
      .ok (.call id callee arguments) := by
  apply decode_tagged (by simp [tagKey])
  · rw [readMembers_cons rfl rfl rfl (decode_text callee),
      readMembers_cons rfl rfl rfl (decode_texts arguments),
      readMembers]
  · rfl

end Parts

/- A block is decoded from what it is encoded as. -/
theorem decode_toJson
    (b : Block)
    (tags : Tags) :
    decode (.block tags) b.toJson = .ok b := by
  induction b using Block.induction generalizing tags with
  | function id name parameters body ih =>
      have hBody := decode_body fun b hb => ih b hb .wordsAndPlaces
      exact decode_function id name parameters hBody tags
  | assignment id name value =>
      apply decode_assignment
      rw [value.decode_toJson .wordsAndPlaces]
      cases value <;> rfl
  | conditional id condition body elseKind elseBody ihBody
      ihElse =>
      have hBody :=
        decode_body fun b hb => ihBody b hb .wordsAndPlaces
      have hElse :=
        decode_body fun b hb => ihElse b hb .wordsAndPlaces
      exact
        decode_conditional id condition hBody elseKind hElse tags
  | loop id iterator iterable body ih =>
      have hBody := decode_body fun b hb => ih b hb .wordsAndPlaces
      exact decode_loop id iterator iterable hBody tags
  | ret id value => exact decode_ret id value tags
  | call id callee arguments =>
      exact decode_call id callee arguments tags

end Block

end BlockProgram
