import BlockProgram.Proofs.Wire.Omissions
import BlockProgram.Proofs.Wire.RoundTrip

/-
  Every spelling of a program is read as the program.

  Each object of a program may be respelled, at every depth,
  and the simple value of an assignment may be the bare text
  of it.  The reader makes the same tree of all spellings.

  Main declarations:
    * `Value.SpelledBy`
    * `Block.SpelledBy`
    * `Wire.ReadsAs`
    * `Block.readsAs_of_spelledBy`
    * `Block.spelledBy_toJson`
    * `Wire.readProgram_of_spelledBy`
-/

namespace BlockProgram

open Wire

------------------------------------------------------------
-- Spellings
------------------------------------------------------------

/- The members of an object that respells a form of value. -/
def Value.Form.Respells
    (form : Value.Form)
    (written members : List (String × Json)) : Prop :=
  form.record.Respells []
    ((tagKey, .text form.tag) :: written) members

/- The members of an object that respells a kind of block. -/
def Kind.Respells
    (kind : Kind)
    (id : BlockId)
    (written members : List (String × Json)) : Prop :=
  kind.record.Respells kind.omissible
    ((tagKey, .text kind.tag) :: ("id", .text id) :: written)
    members

/- The name of an argument, or that it has none. -/
def Value.nameToJson : Option String → Json
  | none => .null
  | some name => .text name

mutual

/- What a value may be written as. -/
inductive Value.SpelledBy : Value → Json → Prop where
  | simple
      {text : String}
      {members : List (String × Json)}
      (hMembers :
        Value.Form.simple.Respells [("value", .text text)]
          members) :
      Value.SpelledBy (.simple text) (.object members)
  | array
      {items : List Value}
      {jsons : List Json}
      {members : List (String × Json)}
      (hItems : List.Forall₂ Value.SpelledBy items jsons)
      (hMembers :
        Value.Form.array.Respells [("items", .array jsons)]
          members) :
      Value.SpelledBy (.array items) (.object members)
  | object
      {properties : List (String × Value)}
      {jsons : List Json}
      {members : List (String × Json)}
      (hProperties :
        List.Forall₂ Value.PropertySpelledBy properties jsons)
      (hMembers :
        Value.Form.object.Respells [("properties", .array jsons)]
          members) :
      Value.SpelledBy (.object properties) (.object members)
  | call
      {callee : String}
      {arguments : List (Option String × Value)}
      {jsons : List Json}
      {members : List (String × Json)}
      (hArguments :
        List.Forall₂ Value.ArgumentSpelledBy arguments jsons)
      (hMembers :
        Value.Form.call.Respells
          [ ("functionName", .text callee),
            ("arguments", .array jsons) ]
          members) :
      Value.SpelledBy (.call callee arguments) (.object members)

/- What a property of an object may be written as. -/
inductive Value.PropertySpelledBy :
    String × Value →
    Json →
    Prop where
  | property
      {key : String}
      {v : Value}
      {json : Json}
      {members : List (String × Json)}
      (hValue : Value.SpelledBy v json)
      (hMembers :
        propertyRecord.Respells []
          [("key", .text key), ("value", json)] members) :
      Value.PropertySpelledBy (key, v) (.object members)

/- What an argument of a call may be written as. -/
inductive Value.ArgumentSpelledBy :
    Option String × Value →
    Json →
    Prop where
  | argument
      {name : Option String}
      {v : Value}
      {json : Json}
      {members : List (String × Json)}
      (hValue : Value.SpelledBy v json)
      (hMembers :
        argumentRecord.Respells argumentOmissible
          [("name", Value.nameToJson name), ("value", json)]
          members) :
      Value.ArgumentSpelledBy (name, v) (.object members)

end

/- What a block may be written as. -/
inductive Block.SpelledBy : Block → Json → Prop where
  | function
      {id : BlockId}
      {name : String}
      {parameters : List String}
      {body : List Block}
      {jsons : List Json}
      {members : List (String × Json)}
      (hBody : List.Forall₂ Block.SpelledBy body jsons)
      (hMembers :
        Kind.function.Respells id
          [ ("name", .text name),
            ("parameters", .ofTexts parameters),
            ("children", .array jsons) ]
          members) :
      Block.SpelledBy (.function id name parameters body)
        (.object members)
  | assignment
      {id : BlockId}
      {name : String}
      {value : Value}
      {json : Json}
      {members : List (String × Json)}
      (hValue : value.SpelledBy json)
      (hMembers :
        Kind.assignment.Respells id
          [("name", .text name), ("value", json)] members) :
      Block.SpelledBy (.assignment id name value)
        (.object members)
  /- The value is the bare text of it. -/
  | plain
      {id : BlockId}
      {name text : String}
      {members : List (String × Json)}
      (hMembers :
        Kind.assignment.Respells id
          [("name", .text name), ("value", .text text)]
          members) :
      Block.SpelledBy (.assignment id name (.simple text))
        (.object members)
  | conditional
      {id : BlockId}
      {condition : String}
      {body elseBody : List Block}
      {elseKind : ElseKind}
      {jsons others : List Json}
      {members : List (String × Json)}
      (hBody : List.Forall₂ Block.SpelledBy body jsons)
      (hElse : List.Forall₂ Block.SpelledBy elseBody others)
      (hMembers :
        Kind.conditional.Respells id
          [ ("condition", .text condition),
            ("ifBody", .array jsons),
            ("elseType", .text (elseWord elseKind)),
            ("elseBody", .array others) ]
          members) :
      Block.SpelledBy
        (.conditional id condition body elseKind elseBody)
        (.object members)
  | loop
      {id : BlockId}
      {iterator iterable : String}
      {body : List Block}
      {jsons : List Json}
      {members : List (String × Json)}
      (hBody : List.Forall₂ Block.SpelledBy body jsons)
      (hMembers :
        Kind.loop.Respells id
          [ ("iterator", .text iterator),
            ("iterable", .text iterable),
            ("children", .array jsons) ]
          members) :
      Block.SpelledBy (.loop id iterator iterable body)
        (.object members)
  | ret
      {id : BlockId}
      {value : String}
      {members : List (String × Json)}
      (hMembers :
        Kind.ret.Respells id [("value", .text value)] members) :
      Block.SpelledBy (.ret id value) (.object members)
  | call
      {id : BlockId}
      {callee : String}
      {arguments : List String}
      {members : List (String × Json)}
      (hMembers :
        Kind.call.Respells id
          [ ("functionName", .text callee),
            ("arguments", .ofTexts arguments) ]
          members) :
      Block.SpelledBy (.call id callee arguments)
        (.object members)

------------------------------------------------------------
-- Objects That Are Read
------------------------------------------------------------

theorem Json.isNumberFree_text (s : String) :
    (Json.text s).isNumberFree = true := by
  rw [Json.isNumberFree]

namespace Wire

/- An object, free of numbers, that is read as something. -/
structure ReadsAs
    (shape : Shape)
    (x : shape.Content)
    (json : Json) : Prop where
  isObject : ∃ members, json = .object members
  isNumberFree : json.isNumberFree = true
  decodes : decode shape json = .ok x

/- What is read of a list when each item is read. -/
theorem readsAs_items
    {item : Shape}
    {xs : List item.Content}
    {jsons : List Json}
    (hItems : List.Forall₂ (ReadsAs item) xs jsons) :
    decode (.list item) (.array jsons) = .ok xs ∧
      (Json.array jsons).isNumberFree = true := by
  rw [decode, Json.isNumberFree]
  induction hItems with
  | nil => exact ⟨rfl, rfl⟩
  | cons hFirst _ ih =>
      rw [decodeItems, hFirst.decodes, ih.1, Json.areNumberFree,
        hFirst.isNumberFree, ih.2]
      exact ⟨rfl, rfl⟩

/- What the pairs of two lists are, given the first ones. -/
theorem forall₂_of_forall_mem
    {R S : α → β → Prop}
    {xs : List α}
    {ys : List β}
    (hItems : List.Forall₂ R xs ys)
    (hEach : ∀ x ∈ xs, ∀ y, R x y → S x y) :
    List.Forall₂ S xs ys := by
  induction hItems with
  | nil => exact .nil
  | cons hFirst _ ih =>
      rcases List.forall_mem_cons.mp hEach with
        ⟨hFirstEach, hOthers⟩
      exact .cons (hFirstEach _ hFirst) (ih hOthers)

section Records

variable {written members : List (String × Json)}

/- A choice is read from an object that is respelled. -/
theorem chosen_of_respells
    {read : Json → Except Mismatch α}
    {record : α → Record}
    {build : α → Slots → Except Mismatch β}
    {omissible : List (String × Json)}
    {choice : α}
    {tag : Json}
    {x : β}
    (hRead : read tag = .ok choice)
    (hBuild : BuildsAlike (build choice))
    (hMay :
      ∀ m ∈ omissible, MayOmit (record choice) (build choice) m)
    (hTag : tagKey ∉ written.map Prod.fst)
    (hRespells :
      (record choice).Respells omissible
        ((tagKey, tag) :: written) members)
    (hChosen :
      (do
          let choice ←
            tagAmong read ((tagKey, tag) :: written) none
          let slots ←
            readMembers (record choice) []
              ((tagKey, tag) :: written)
          build choice slots) =
        .ok x) :
    (do
        let choice ← tagAmong read members none
        let slots ← readMembers (record choice) [] members
        build choice slots) =
      .ok x := by
  have hWritten := tagAmong_cons hRead hTag
  have hAlone : tagMembers ((tagKey, tag) :: written) =
      [(tagKey, tag)] := by
    rcases tagAmong_eq_ok_iff.mp hWritten with ⟨json, hAlone, _⟩
    have hFirst := hAlone
    rw [tagMembers_cons, if_pos rfl, List.cons.injEq] at hFirst
    rw [hAlone, hFirst.1]
  have hMembers :=
    tagAmong_eq_ok_iff.mpr
      ⟨tag, tagMembers_of_respells hMay hRespells hAlone, hRead⟩
  rw [hWritten] at hChosen
  rw [hMembers]
  exact built_of_respells hBuild hMay hRespells hChosen

/- A value is read from an object that is respelled. -/
theorem readsAs_form
    {form : Value.Form}
    {v : Value}
    {tags : Tags}
    (hRespells : form.Respells written members)
    (hTag : tagKey ∉ written.map Prod.fst)
    (hFree : ∀ m ∈ written, m.2.isNumberFree = true)
    (hDecodes :
      decode (.value tags) (Value.tagged form written) = .ok v) :
    ReadsAs (.value tags) v (.object members) := by
  have hForm : formOf tags (.text form.tag) = .ok form := by
    cases form <;> cases tags <;> rfl
  refine ⟨⟨members, rfl⟩, ?_, ?_⟩
  · apply isNumberFree_of_respells hRespells
    exact List.forall_mem_cons.mpr ⟨rfl, hFree⟩
  · rw [Value.tagged, decode] at hDecodes
    rw [decode]
    exact
      chosen_of_respells hForm
        (fun _ _ hAgree => Value.Form.build_of_agree hAgree form)
        (List.forall_mem_nil _) hTag hRespells hDecodes

/- A block is read from an object that is respelled. -/
theorem readsAs_kind
    {kind : Kind}
    {id : BlockId}
    {b : Block}
    {tags : Tags}
    (hRespells : kind.Respells id written members)
    (hTag : tagKey ∉ written.map Prod.fst)
    (hFree : ∀ m ∈ written, m.2.isNumberFree = true)
    (hDecodes :
      decode (.block tags) (Block.tagged kind id written) =
        .ok b) :
    ReadsAs (.block tags) b (.object members) := by
  have hKind : kindOf tags (.text kind.tag) = .ok kind := by
    cases kind <;> cases tags <;> rfl
  have hTag' :
      tagKey ∉ (("id", Json.text id) :: written).map Prod.fst := by
    rw [List.map_cons, List.mem_cons, not_or]
    exact ⟨by simp [tagKey], hTag⟩
  refine ⟨⟨members, rfl⟩, ?_, ?_⟩
  · apply isNumberFree_of_respells hRespells
    rw [List.forall_mem_cons, List.forall_mem_cons]
    exact ⟨rfl, rfl, hFree⟩
  · rw [Block.tagged, decode] at hDecodes
    rw [decode]
    exact
      chosen_of_respells hKind
        (fun _ _ hAgree => Kind.build_of_agree hAgree kind)
        kind.mayOmit_omissible hTag' hRespells hDecodes

/- A property is read from an object that is respelled. -/
theorem readsAs_property
    {p : String × Value}
    (hRespells : propertyRecord.Respells [] written members)
    (hFree : ∀ m ∈ written, m.2.isNumberFree = true)
    (hDecodes : decode .property (.object written) = .ok p) :
    ReadsAs .property p (.object members) := by
  refine
    ⟨⟨members, rfl⟩, isNumberFree_of_respells hRespells hFree, ?_⟩
  rw [decode] at hDecodes ⊢
  exact
    built_of_respells
      (fun _ _ hAgree => buildProperty_of_agree hAgree)
      (List.forall_mem_nil _) hRespells hDecodes

/- An argument is read from an object that is respelled. -/
theorem readsAs_argument
    {a : Option String × Value}
    (hRespells :
      argumentRecord.Respells argumentOmissible written members)
    (hFree : ∀ m ∈ written, m.2.isNumberFree = true)
    (hDecodes : decode .argument (.object written) = .ok a) :
    ReadsAs .argument a (.object members) := by
  refine
    ⟨⟨members, rfl⟩, isNumberFree_of_respells hRespells hFree, ?_⟩
  rw [decode] at hDecodes ⊢
  exact
    built_of_respells
      (fun _ _ hAgree => buildArgument_of_agree hAgree)
      mayOmit_argument hRespells hDecodes

end Records

end Wire

------------------------------------------------------------
-- Values
------------------------------------------------------------

namespace Value

/- An argument whose name is written in any case. -/
theorem decode_argument_named
    {json : Json}
    {v : Value}
    (name : Option String)
    (hValue : decode .inner json = .ok v) :
    decode .argument
        (.object [("name", nameToJson name), ("value", json)]) =
      .ok (name, v) := by
  have hName :
      decode .optionalText (nameToJson name) = .ok name := by
    rw [decode]
    cases name <;> rfl
  rw [decode, readMembers_cons rfl rfl rfl hName,
    readMembers_cons rfl rfl rfl hValue, readMembers]
  rfl

/- A value is read from all that it may be written as. -/
theorem readsAs_of_spelledBy
    {v : Value}
    {json : Json}
    (hSpelled : v.SpelledBy json)
    (tags : Tags) :
    ReadsAs (.value tags) v json := by
  induction v using Value.induction generalizing json tags with
  | simple text =>
      cases hSpelled with
      | simple hMembers =>
          apply readsAs_form hMembers (by simp [tagKey])
          · simp [Json.isNumberFree_text]
          · exact decode_simple text tags
  | array items ih =>
      cases hSpelled with
      | @array _ jsons _ hItems hMembers =>
          have hEach :
              List.Forall₂ (ReadsAs .inner) items jsons := by
            apply forall₂_of_forall_mem hItems
            intro v hv _ hItem
            exact ih v hv hItem .wordsAndPlaces
          rcases readsAs_items hEach with ⟨hDecodes, hFree⟩
          apply readsAs_form hMembers (by simp [tagKey])
          · simpa using hFree
          · exact decode_array hDecodes tags
  | object properties ih =>
      cases hSpelled with
      | @object _ jsons _ hProperties hMembers =>
          have hEach :
              List.Forall₂ (ReadsAs .property) properties
                jsons := by
            apply forall₂_of_forall_mem hProperties
            rintro _ hp _ ⟨hValue, hProperty⟩
            have hRead := ih _ hp hValue .wordsAndPlaces
            apply readsAs_property hProperty
            · simpa [Json.isNumberFree_text] using
                hRead.isNumberFree
            · exact decode_property _ hRead.decodes
          rcases readsAs_items hEach with ⟨hDecodes, hFree⟩
          apply readsAs_form hMembers (by simp [tagKey])
          · simpa using hFree
          · exact decode_object hDecodes tags
  | call callee arguments ih =>
      cases hSpelled with
      | @call _ _ jsons _ hArguments hMembers =>
          have hEach :
              List.Forall₂ (ReadsAs .argument) arguments
                jsons := by
            apply forall₂_of_forall_mem hArguments
            rintro ⟨name, _⟩ ha _ ⟨hValue, hArgument⟩
            have hRead := ih _ ha hValue .wordsAndPlaces
            apply readsAs_argument hArgument
            · cases name <;>
                simpa [nameToJson, Json.isNumberFree] using
                  hRead.isNumberFree
            · exact decode_argument_named name hRead.decodes
          rcases readsAs_items hEach with ⟨hDecodes, hFree⟩
          apply readsAs_form hMembers (by simp [tagKey])
          · simpa [Json.isNumberFree_text] using hFree
          · exact decode_call callee hDecodes tags

end Value

------------------------------------------------------------
-- Blocks
------------------------------------------------------------

namespace Block

/- A body is read when its blocks are. -/
theorem readsAs_body
    {body : List Block}
    {jsons : List Json}
    (hBody : List.Forall₂ SpelledBy body jsons)
    (hEach :
      ∀ b ∈ body,
        ∀ json,
          b.SpelledBy json →
            ReadsAs (.block .wordsAndPlaces) b json) :
    decode .body (.array jsons) = .ok body ∧
      (Json.array jsons).isNumberFree = true :=
  readsAs_items (forall₂_of_forall_mem hBody hEach)

/- A block is read from all that it may be written as. -/
theorem readsAs_of_spelledBy
    {b : Block}
    {json : Json}
    (hSpelled : b.SpelledBy json)
    (tags : Tags) :
    ReadsAs (.block tags) b json := by
  induction b using Block.induction generalizing json tags with
  | function id name parameters body ih =>
      cases hSpelled with
      | function hBody hMembers =>
          rcases readsAs_body hBody fun b hb _ hBlock =>
              ih b hb hBlock _ with
            ⟨hDecodes, hFree⟩
          apply readsAs_kind hMembers (by simp [tagKey])
          · simp [Json.isNumberFree_text,
              Json.isNumberFree_ofTexts, hFree]
          · exact decode_function id name parameters hDecodes tags
  | assignment id name value =>
      cases hSpelled with
      | assignment hValue hMembers =>
          have hRead :=
            value.readsAs_of_spelledBy hValue .wordsAndPlaces
          apply readsAs_kind hMembers (by simp [tagKey])
          · simpa [Json.isNumberFree_text] using
              hRead.isNumberFree
          · apply decode_assignment
            rcases hRead.isObject with ⟨members, rfl⟩
            rw [hRead.decodes]
            rfl
      | plain hMembers =>
          apply readsAs_kind hMembers (by simp [tagKey])
          · simp [Json.isNumberFree_text]
          · exact decode_assignment id name rfl tags
  | conditional id condition body elseKind elseBody ihBody
      ihElse =>
      cases hSpelled with
      | conditional hBody hElse hMembers =>
          rcases readsAs_body hBody fun b hb _ hBlock =>
              ihBody b hb hBlock _ with
            ⟨hDecodes, hFree⟩
          rcases readsAs_body hElse fun b hb _ hBlock =>
              ihElse b hb hBlock _ with
            ⟨hOthers, hOthersFree⟩
          apply readsAs_kind hMembers (by simp [tagKey])
          · simp [Json.isNumberFree_text, hFree, hOthersFree]
          · exact
              decode_conditional id condition hDecodes elseKind
                hOthers tags
  | loop id iterator iterable body ih =>
      cases hSpelled with
      | loop hBody hMembers =>
          rcases readsAs_body hBody fun b hb _ hBlock =>
              ih b hb hBlock _ with
            ⟨hDecodes, hFree⟩
          apply readsAs_kind hMembers (by simp [tagKey])
          · simp [Json.isNumberFree_text, hFree]
          · exact decode_loop id iterator iterable hDecodes tags
  | ret id value =>
      cases hSpelled with
      | ret hMembers =>
          apply readsAs_kind hMembers (by simp [tagKey])
          · simp [Json.isNumberFree_text]
          · exact decode_ret id value tags
  | call id callee arguments =>
      cases hSpelled with
      | call hMembers =>
          apply readsAs_kind hMembers (by simp [tagKey])
          · simp [Json.isNumberFree_text,
              Json.isNumberFree_ofTexts]
          · exact decode_call id callee arguments tags

end Block

------------------------------------------------------------
-- The Current Spelling
------------------------------------------------------------

/- What an argument is encoded as is a spelling of it. -/
theorem Value.spelledBy_argumentToJson
    {a : Option String × Value}
    (hValue : a.2.SpelledBy a.2.toJson) :
    Value.ArgumentSpelledBy a (argumentToJson a) := by
  rcases a with ⟨_ | name, v⟩
  · refine .argument hValue ⟨[("name", .null)], [], ?_, ?_, ?_⟩
    · exact fun _ hm => hm
    · exact List.forall_mem_nil _
    · exact .refl _
  · exact .argument hValue respells_refl

/- What a value is encoded as is a spelling of it. -/
theorem Value.spelledBy_toJson (v : Value) :
    v.SpelledBy v.toJson := by
  induction v using Value.induction with
  | simple text => exact .simple respells_refl
  | array items ih =>
      rw [toJson, itemsToJson_eq_map]
      refine .array ?_ respells_refl
      rw [List.forall₂_map_right_iff, List.forall₂_same]
      exact ih
  | object properties ih =>
      rw [toJson, propertiesToJson_eq_map]
      refine .object ?_ respells_refl
      rw [List.forall₂_map_right_iff, List.forall₂_same]
      exact fun p hp => .property (ih p hp) respells_refl
  | call callee arguments ih =>
      rw [toJson, argumentsToJson_eq_map]
      refine .call ?_ respells_refl
      rw [List.forall₂_map_right_iff, List.forall₂_same]
      exact fun a ha => spelledBy_argumentToJson (ih a ha)

/- What a block is encoded as is a spelling of it. -/
theorem Block.spelledBy_toJson (b : Block) :
    b.SpelledBy b.toJson := by
  have hBody {body : List Block}
      (h : ∀ b ∈ body, b.SpelledBy b.toJson) :
      List.Forall₂ SpelledBy body (bodyToJson body) := by
    rw [bodyToJson_eq_map, List.forall₂_map_right_iff,
      List.forall₂_same]
    exact h
  induction b using Block.induction with
  | function id name parameters body ih =>
      exact .function (hBody ih) respells_refl
  | assignment id name value =>
      exact .assignment value.spelledBy_toJson respells_refl
  | conditional id condition body elseKind elseBody ihBody
      ihElse =>
      exact .conditional (hBody ihBody) (hBody ihElse) respells_refl
  | loop id iterator iterable body ih =>
      exact .loop (hBody ih) respells_refl
  | ret id value => exact .ret respells_refl
  | call id callee arguments => exact .call respells_refl

------------------------------------------------------------
-- Programs
------------------------------------------------------------

namespace Wire

/- What a program may be written as. -/
def SpelledBy
    (blocks : List Block)
    (jsons : List Json) : Prop :=
  List.Forall₂ Block.SpelledBy blocks jsons

/- A program is read from every text that spells it. -/
theorem readProgram_of_spelling
    {blocks : List Block}
    {jsons : List Json}
    (hSpelled : SpelledBy blocks jsons)
    (hDepth : (Json.array jsons).depth ≤ 127)
    (hCheck : checkTree blocks = .ok ())
    (style : Json.Style) :
    readProgram
        (String.ofList ((Json.array jsons).write style 0 [])) =
      .ok blocks := by
  have hRead :
      List.Forall₂ (ReadsAs (.block .words)) blocks jsons :=
    hSpelled.imp fun _ _ hBlock =>
      Block.readsAs_of_spelledBy hBlock .words
  rcases readsAs_items hRead with ⟨hDecodes, hFree⟩
  have hObjects :
      ∀ json ∈ jsons,
        ∃ members b,
          json = .object members ∧
            decode (.block .words) json = .ok b := by
    refine Json.forall_mem_of_forall₂ hRead ?_
    intro b json hBlock
    rcases hBlock.isObject with ⟨members, hObject⟩
    exact ⟨members, b, hObject, hBlock.decodes⟩
  rw [readProgram_eq_ok_iff,
    readBlocks_of_decodes hFree hObjects hDecodes, Json.maxDepth,
    if_pos hDepth]
  exact ⟨rfl, hCheck⟩

/-
  Old and reordered spellings mean the same program: it is
  read from whatever respells its objects, as long as that is
  nested no deeper than the reader can follow.
-/
theorem readProgram_of_spelledBy
    {blocks : List Block}
    {jsons : List Json}
    (hSpelled : SpelledBy blocks jsons)
    (hDepth : (Json.array jsons).depth ≤ 127)
    (hCheck : checkTree blocks = .ok ()) :
    readProgram (Json.array jsons).compact = .ok blocks ∧
      readProgram (Json.array jsons).pretty = .ok blocks := by
  constructor
  · exact readProgram_of_spelling hSpelled hDepth hCheck .compact
  · exact readProgram_of_spelling hSpelled hDepth hCheck .pretty

/- An assignment whose value is bare text, with a member that
   is no field. -/
def bareAssignment : Json :=
  .object
    [ ("note", .array [.bool true, .null]),
      ("value", .text "1"),
      ("name", .text "x"),
      ("id", .text "b2"),
      ("type", .text "variable") ]

/- An argument that is said to have no name. -/
def namelessArgument : Json :=
  .object
    [ ("value", (Value.simple "x").toJson),
      ("name", .null) ]

/- A call of it. -/
def namelessCall : Json :=
  .object
    [ ("arguments", .array [namelessArgument]),
      ("functionName", .text "f"),
      ("type", .text "function-call") ]

/- A program with the tags last and fields left out. -/
def respelledItems : List Json :=
  [ .object
      [ ("ifBody", .array [bareAssignment]),
        ("condition", .text "ready"),
        ("id", .text "b1"),
        ("type", .text "if") ],
    .object
      [ ("value", namelessCall),
        ("name", .text "y"),
        ("id", .text "b3"),
        ("type", .text "variable") ] ]

/- The blocks of the program. -/
def respelledBlocks : List Block :=
  [ .conditional "b1" "ready"
      [.assignment "b2" "x" (.simple "1")] .none [],
    .assignment "b3" "y" (.call "f" [(none, .simple "x")]) ]

theorem readProgram_of_spelledBy_respelledItems :
    SpelledBy respelledBlocks respelledItems ∧
      readProgram (Json.array respelledItems).compact =
          .ok respelledBlocks ∧
        readProgram (Json.array respelledItems).pretty =
          .ok respelledBlocks := by
  have hNone (p : String × Json → Prop) : ∀ m ∈ [], p m :=
    List.forall_mem_nil p
  have hBare :
      Block.SpelledBy (.assignment "b2" "x" (.simple "1"))
        bareAssignment := by
    apply Block.SpelledBy.plain
    apply
      respells_reverse [] [("note", .array [.bool true, .null])]
        (hNone _) _ rfl
    rw [List.forall_mem_singleton]
    exact ⟨rfl, by simp [tagKey], rfl⟩
  have hCall :
      Value.SpelledBy (.call "f" [(none, .simple "x")])
        namelessCall := by
    have hArgument :
        Value.ArgumentSpelledBy (none, .simple "x")
          namelessArgument := by
      apply Value.ArgumentSpelledBy.argument
      · exact Value.spelledBy_toJson _
      · exact respells_reverse [] [] (hNone _) (hNone _) rfl
    refine .call (.cons hArgument .nil) ?_
    exact respells_reverse [] [] (hNone _) (hNone _) rfl
  have hSpelled : SpelledBy respelledBlocks respelledItems := by
    refine .cons ?_ (.cons ?_ .nil)
    · refine .conditional (.cons hBare .nil) .nil ?_
      exact
        respells_reverse
          [ ("elseBody", .array []),
            ("elseType", .text (elseWord .none)) ]
          [] (by simp [Kind.omissible]) (hNone _) rfl
    · refine .assignment hCall ?_
      exact respells_reverse [] [] (hNone _) (hNone _) rfl
  exact
    ⟨hSpelled,
      readProgram_of_spelledBy hSpelled (by decide) (by decide)⟩

end Wire

end BlockProgram
