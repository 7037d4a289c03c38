import BlockProgram.Proofs.Json.Limit
import BlockProgram.Proofs.Wire.RoundTrip

/-
  How deep what was read is nested when it is written.

  A block is written with every field, and with its values as
  objects, so it may be nested deeper than what it was read
  from.  Only a block gains a level, and only up to the next
  even one.

  Main declarations:
    * `Wire.Shape.toJson`
    * `Wire.Shape.room`
    * `Wire.decodesWithin`
-/

namespace BlockProgram

namespace Wire

------------------------------------------------------------
-- Contents As JSON
------------------------------------------------------------

/- The content of a shape as JSON. -/
def Shape.toJson : (shape : Shape) → shape.Content → Json
  | .text, s => .text s
  | .optionalText, none => .null
  | .optionalText, some s => .text s
  | .elseKind, word => .text (elseWord word)
  | .block _, b => Block.toJson b
  | .value _, v => Value.toJson v
  | .property, p => Value.propertyToJson p
  | .argument, a => Value.argumentToJson a
  | .list item, xs => .array (xs.map (Shape.toJson item))

/- How deep something of a shape is nested when written. -/
def Shape.nesting
    (shape : Shape)
    (x : shape.Content) : Nat :=
  (shape.toJson x).depth

/-
  How deep the content of a shape may be nested when it was
  read from a value of the given nesting.
-/
def Shape.room : Shape → Nat → Nat
  | .block _, n => n + n % 2
  | .list _, 0 => 0
  | .list item, n + 1 => item.room n + 1
  | .text, n => n
  | .optionalText, n => n
  | .elseKind, n => n
  | .value _, n => n
  | .property, n => n
  | .argument, n => n

theorem Shape.room_mono
    (shape : Shape)
    {n m : Nat}
    (hLe : n ≤ m) :
    shape.room n ≤ shape.room m := by
  induction shape generalizing n m with
  | block tags => simp only [room]; omega
  | list item ih =>
      cases n with
      | zero => exact Nat.zero_le _
      | succ n =>
          cases m with
          | zero => exact absurd hLe (Nat.not_succ_le_zero n)
          | succ m =>
              have hItem := ih (Nat.le_of_succ_le_succ hLe)
              exact Nat.succ_le_succ hItem
  | text => exact hLe
  | optionalText => exact hLe
  | elseKind => exact hLe
  | value tags => exact hLe
  | property => exact hLe
  | argument => exact hLe

theorem nesting_list_le_iff
    {item : Shape}
    {xs : List item.Content}
    {n : Nat} :
    (Shape.list item).nesting xs ≤ n + 1 ↔
      ∀ x ∈ xs, item.nesting x ≤ n := by
  rw [Shape.nesting, Shape.toJson, Json.depth, Nat.add_comm,
    Nat.add_le_add_iff_right, Json.depthItems_le_iff,
    List.forall_mem_map]
  rfl

theorem depth_ofTexts (texts : List String) :
    (Json.ofTexts texts).depth = 1 := by
  have hLeaves : Json.depthItems (texts.map .text) ≤ 0 := by
    rw [Json.depthItems_le_iff, List.forall_mem_map]
    exact fun _ _ => Nat.le_refl 0
  rw [Json.ofTexts, Json.depth, Nat.le_zero.mp hLeaves]

/- A list of parts of a block or value, as it is written. -/
theorem nesting_body (body : List Block) :
    Shape.body.nesting body =
      1 + Json.depthItems (Block.bodyToJson body) := by
  rw [Block.bodyToJson_eq_map]
  rfl

theorem nesting_items (items : List Value) :
    (Shape.list .inner).nesting items =
      1 + Json.depthItems (Value.itemsToJson items) := by
  rw [Value.itemsToJson_eq_map]
  rfl

theorem nesting_properties (properties : List (String × Value)) :
    (Shape.list .property).nesting properties =
      1 + Json.depthItems (Value.propertiesToJson properties) := by
  rw [Value.propertiesToJson_eq_map]
  rfl

theorem nesting_arguments
    (arguments : List (Option String × Value)) :
    (Shape.list .argument).nesting arguments =
      1 + Json.depthItems (Value.argumentsToJson arguments) := by
  rw [Value.argumentsToJson_eq_map]
  rfl

------------------------------------------------------------
-- Parts Of Records
------------------------------------------------------------

/- A part of a record takes no more room than it may. -/
def Part.IsWithin
    (n : Nat)
    (part : Part) : Prop :=
  part.1.nesting part.2 ≤ part.1.room n

/- What holds of every part that is read fills the slots. -/
theorem forall_mem_of_fills
    {P : Part → Prop}
    {record : Record}
    {members : List (String × Json)}
    {filled : Slots}
    (hFills : Fills record members filled)
    (hParts :
      ∀ field ∈ record.fields,
        ∀ m ∈ members,
          ∀ part,
            field.part m.2 (decode field.shape m.2) = .ok part →
              P part) :
    ∀ s ∈ filled, P s.2 := by
  induction hFills with
  | nil => exact List.forall_mem_nil _
  | unknown _ _ ih =>
      exact
        ih fun field hField m hm =>
          hParts field hField m (List.mem_cons_of_mem _ hm)
  | field hField hPart _ ih =>
      rw [List.forall_mem_cons]
      constructor
      · exact
          hParts _ (List.mem_of_find?_eq_some hField) _
            List.mem_cons_self _ hPart
      · exact
          ih fun field hField m hm =>
            hParts field hField m (List.mem_cons_of_mem _ hm)

theorem forall_mem_of_readMembers
    {P : Part → Prop}
    {record : Record}
    {members : List (String × Json)}
    {slots : Slots}
    (hRead : readMembers record [] members = .ok slots)
    (hParts :
      ∀ field ∈ record.fields,
        ∀ m ∈ members,
          ∀ part,
            field.part m.2 (decode field.shape m.2) = .ok part →
              P part) :
    ∀ s ∈ slots, P s.2 := by
  have hNone : (([] : Slots).map Prod.fst).Nodup := List.nodup_nil
  rcases (readMembers_eq_ok_iff hNone).mp hRead with
    ⟨filled, hFills, _, rfl⟩
  intro s hs
  rw [List.append_nil, List.mem_reverse] at hs
  exact forall_mem_of_fills hFills hParts s hs

theorem forall_mem_of_readItems
    {P : Part → Prop}
    {fields : List Field}
    {count : Nat}
    {items : List Json}
    {slots : Slots}
    (hRead : readItems fields count items = .ok slots)
    (hParts :
      ∀ field ∈ fields,
        ∀ v ∈ items,
          ∀ part,
            field.part v (decode field.shape v) = .ok part →
              P part) :
    ∀ s ∈ slots, P s.2 := by
  induction items generalizing fields count slots with
  | nil =>
      cases fields <;> cases hRead <;> exact List.forall_mem_nil _
  | cons v vs ih =>
      cases fields with
      | nil => cases hRead
      | cons field fields =>
          simp only [readItems, bind_eq_ok_iff] at hRead
          rcases hRead with ⟨part, hPart, others, hRest, hSlots⟩
          rcases Except.ok.inj hSlots with rfl
          rw [List.forall_mem_cons]
          constructor
          · exact
              hParts field List.mem_cons_self v List.mem_cons_self
                part hPart
          · exact
              ih hRest fun field hField w hw =>
                hParts field (List.mem_cons_of_mem _ hField) w
                  (List.mem_cons_of_mem _ hw)

section Slots

variable {slots : Slots}
variable {name : String}
variable {shape : Shape}
variable {x : shape.Content}
variable {n : Nat}

theorem mem_of_lookup
    {part : Part}
    (hLookup : slots.lookup name = some part) :
    (name, part) ∈ slots := by
  induction slots with
  | nil => cases hLookup
  | cons s slots ih =>
      rcases s with ⟨other, found⟩
      rw [List.lookup_cons] at hLookup
      by_cases hSame : name = other
      · subst hSame
        simp only [beq_self_eq_true] at hLookup
        rw [Option.some.inj hLookup]
        exact List.mem_cons_self
      · simp only [beq_eq_false_iff_ne.mpr hSame] at hLookup
        exact List.mem_cons_of_mem _ (ih hLookup)

theorem nesting_of_get?
    (hSlots : ∀ s ∈ slots, s.2.IsWithin n)
    (hGet : slots.get? name shape = some x) :
    shape.nesting x ≤ shape.room n := by
  unfold Slots.get? at hGet
  split at hGet
  · cases hGet
  · next found content hLookup =>
      split at hGet
      · next hSame =>
          subst hSame
          rw [← Option.some.inj hGet]
          exact hSlots _ (mem_of_lookup hLookup)
      · cases hGet

theorem nesting_of_required
    (hSlots : ∀ s ∈ slots, s.2.IsWithin n)
    (hField : slots.required name shape = .ok x) :
    shape.nesting x ≤ shape.room n := by
  unfold Slots.required at hField
  split at hField
  · next hGet =>
      cases hField
      exact nesting_of_get? hSlots hGet
  · cases hField

theorem nesting_of_optional
    (hSlots : ∀ s ∈ slots, s.2.IsWithin n)
    {fallback : shape.Content}
    (hFallback : shape.nesting fallback ≤ shape.room n) :
    shape.nesting (slots.optional name shape fallback) ≤
      shape.room n := by
  unfold Slots.optional
  cases hGet : slots.get? name shape with
  | none => exact hFallback
  | some x => exact nesting_of_get? hSlots hGet

end Slots

------------------------------------------------------------
-- Nesting Of What Is Decoded
------------------------------------------------------------

/-
  What is read of a value, by whatever shape, is nested no
  deeper than the shape has room for.
-/
def DecodesWithin (json : Json) : Prop :=
  ∀ (shape : Shape) (x : shape.Content),
    decode shape json = .ok x →
      shape.nesting x ≤ shape.room json.depth

/- No older spelling of a field takes more room than it may. -/
def Field.OlderFits
    (n : Nat)
    (field : Field) : Prop :=
  ∀ json part, field.older json = some part → part.IsWithin n

theorem Field.olderFits_required
    (name : String)
    (shape : Shape)
    (n : Nat) :
    (Field.required name shape).OlderFits n :=
  fun _ _ hOlder => nomatch hOlder

theorem Field.olderFits_optional
    (name : String)
    (shape : Shape)
    (n : Nat) :
    (Field.optional name shape).OlderFits n :=
  fun _ _ hOlder => nomatch hOlder

/- A plain text becomes an object, which takes one level. -/
theorem Field.olderFits_stored
    (name : String)
    {n : Nat}
    (hRoom : 1 ≤ n) :
    (Field.stored name).OlderFits n := by
  intro json part hOlder
  cases json with
  | text s => cases hOlder; exact hRoom
  | _ => cases hOlder

theorem olderFits_kind
    (kind : Kind)
    {n : Nat}
    (hRoom : 1 ≤ n) :
    ∀ field ∈ kind.record.fields, field.OlderFits n := by
  cases kind <;>
    simp [Kind.record, Field.olderFits_required,
      Field.olderFits_optional, Field.olderFits_stored _ hRoom]

theorem olderFits_form
    (form : Value.Form)
    (n : Nat) :
    ∀ field ∈ form.record.fields, field.OlderFits n := by
  cases form <;>
    simp [Value.Form.record, Field.olderFits_required]

theorem olderFits_property (n : Nat) :
    ∀ field ∈ propertyRecord.fields, field.OlderFits n := by
  simp [propertyRecord, Field.olderFits_required]

theorem olderFits_argument (n : Nat) :
    ∀ field ∈ argumentRecord.fields, field.OlderFits n := by
  simp [argumentRecord, Field.olderFits_required,
    Field.olderFits_optional]

section Nesting

variable {n : Nat}

theorem isWithin_of_part
    {field : Field}
    {json : Json}
    {part : Part}
    (hOlder : field.OlderFits n)
    (hWithin : DecodesWithin json)
    (hLe : json.depth ≤ n)
    (hPart :
      field.part json (decode field.shape json) = .ok part) :
    part.IsWithin n := by
  unfold Field.part at hPart
  split at hPart
  · next found hFound =>
      cases hPart
      exact hOlder json part hFound
  · split at hPart
    · next content hContent =>
        cases hPart
        exact
          Nat.le_trans (hWithin field.shape content hContent)
            (field.shape.room_mono hLe)
    · cases hPart

/- The slots of a record that is read from an object. -/
theorem isWithin_of_readMembers
    {record : Record}
    {members : List (String × Json)}
    {slots : Slots}
    (hOlder : ∀ field ∈ record.fields, field.OlderFits n)
    (hWithin : ∀ m ∈ members, DecodesWithin m.2)
    (hLe : Json.depthMembers members ≤ n)
    (hRead : readMembers record [] members = .ok slots) :
    ∀ s ∈ slots, s.2.IsWithin n :=
  forall_mem_of_readMembers hRead fun field hField m hm _ hPart =>
    isWithin_of_part (hOlder field hField) (hWithin m hm)
      (Json.depthMembers_le_iff.mp hLe m hm) hPart

/- The slots of a record that is read from a list. -/
theorem isWithin_of_readItems
    {fields : List Field}
    {count : Nat}
    {items : List Json}
    {slots : Slots}
    (hOlder : ∀ field ∈ fields, field.OlderFits n)
    (hWithin : ∀ v ∈ items, DecodesWithin v)
    (hLe : Json.depthItems items ≤ n)
    (hRead : readItems fields count items = .ok slots) :
    ∀ s ∈ slots, s.2.IsWithin n :=
  forall_mem_of_readItems hRead fun field hField v hv _ hPart =>
    isWithin_of_part (hOlder field hField) (hWithin v hv)
      (Json.depthItems_le_iff.mp hLe v hv) hPart

------------------------------------------------------------
-- What Is Built
------------------------------------------------------------

/- A list of parts without blocks gains no level. -/
theorem room_list_of_room
    {item : Shape}
    (hItem : ∀ m, item.room m = m) :
    (Shape.list item).room n = n := by
  cases n with
  | zero => rfl
  | succ n => rw [Shape.room, hItem]

theorem room_body
    (hRoom : 1 ≤ n) :
    Shape.body.room n = n + (n + 1) % 2 := by
  cases n with
  | zero => cases hRoom
  | succ n =>
      simp only [Shape.room]
      omega

variable {slots : Slots}

/- A block that is built takes one level more than its parts,
   up to the next even one. -/
theorem nesting_of_build_kind
    {kind : Kind}
    {b : Block}
    (hRoom : 1 ≤ n)
    (hSlots : ∀ s ∈ slots, s.2.IsWithin n)
    (hBuild : kind.build slots = .ok b) :
    b.toJson.depth ≤ 1 + n + (n + 1) % 2 := by
  have hBody (name : String) :
      1 + Json.depthItems
            (Block.bodyToJson (slots.optional name .body [])) ≤
        n + (n + 1) % 2 := by
    rw [← nesting_body, ← room_body hRoom]
    apply nesting_of_optional hSlots
    rw [room_body hRoom]
    exact Nat.le_add_right_of_le hRoom
  cases kind with
  | function =>
      simp only [Kind.build, bind_eq_ok_iff] at hBuild
      rcases hBuild with ⟨id, _, name, _, hBlock⟩
      have hChildren := hBody "children"
      cases hBlock
      simp only [Block.toJson, Block.tagged, Json.depth,
        Json.depthMembers, depth_ofTexts]
      omega
  | assignment =>
      simp only [Kind.build, bind_eq_ok_iff] at hBuild
      rcases hBuild with ⟨id, _, name, _, value, hValue, hBlock⟩
      have hNesting := nesting_of_required hSlots hValue
      cases hBlock
      simp only [Block.toJson, Block.tagged, Json.depth,
        Json.depthMembers]
      simp only [Shape.nesting, Shape.toJson, Shape.room]
        at hNesting
      omega
  | conditional =>
      simp only [Kind.build, bind_eq_ok_iff] at hBuild
      rcases hBuild with ⟨id, _, condition, _, hBlock⟩
      have hTrue := hBody "ifBody"
      have hElse := hBody "elseBody"
      cases hBlock
      simp only [Block.toJson, Block.tagged, Json.depth,
        Json.depthMembers]
      omega
  | loop =>
      simp only [Kind.build, bind_eq_ok_iff] at hBuild
      rcases hBuild with
        ⟨id, _, iterator, _, iterable, _, hBlock⟩
      have hChildren := hBody "children"
      cases hBlock
      simp only [Block.toJson, Block.tagged, Json.depth,
        Json.depthMembers]
      omega
  | ret =>
      simp only [Kind.build, bind_eq_ok_iff] at hBuild
      rcases hBuild with ⟨id, _, value, _, hBlock⟩
      cases hBlock
      simp only [Block.toJson, Block.tagged, Json.depth,
        Json.depthMembers]
      omega
  | call =>
      simp only [Kind.build, bind_eq_ok_iff] at hBuild
      rcases hBuild with ⟨id, _, callee, _, hBlock⟩
      cases hBlock
      simp only [Block.toJson, Block.tagged, Json.depth,
        Json.depthMembers, depth_ofTexts]
      omega

/- A value that is built takes one level more than its
   parts. -/
theorem nesting_of_build_form
    {form : Value.Form}
    {v : Value}
    (hSlots : ∀ s ∈ slots, s.2.IsWithin n)
    (hBuild : form.build slots = .ok v) :
    v.toJson.depth ≤ 1 + n := by
  cases form with
  | simple =>
      simp only [Value.Form.build, bind_eq_ok_iff] at hBuild
      rcases hBuild with ⟨text, _, hValue⟩
      cases hValue
      simp only [Value.toJson, Value.tagged, Json.depth,
        Json.depthMembers]
      omega
  | array =>
      simp only [Value.Form.build, bind_eq_ok_iff] at hBuild
      rcases hBuild with ⟨items, hItems, hValue⟩
      have hNesting := nesting_of_required hSlots hItems
      rw [nesting_items, room_list_of_room fun _ => rfl]
        at hNesting
      cases hValue
      simp only [Value.toJson, Value.tagged, Json.depth,
        Json.depthMembers]
      omega
  | object =>
      simp only [Value.Form.build, bind_eq_ok_iff] at hBuild
      rcases hBuild with ⟨properties, hProperties, hValue⟩
      have hNesting := nesting_of_required hSlots hProperties
      rw [nesting_properties, room_list_of_room fun _ => rfl]
        at hNesting
      cases hValue
      simp only [Value.toJson, Value.tagged, Json.depth,
        Json.depthMembers]
      omega
  | call =>
      simp only [Value.Form.build, bind_eq_ok_iff] at hBuild
      rcases hBuild with
        ⟨callee, _, arguments, hArguments, hValue⟩
      have hNesting := nesting_of_required hSlots hArguments
      rw [nesting_arguments, room_list_of_room fun _ => rfl]
        at hNesting
      cases hValue
      simp only [Value.toJson, Value.tagged, Json.depth,
        Json.depthMembers]
      omega

theorem nesting_of_buildProperty
    {p : String × Value}
    (hSlots : ∀ s ∈ slots, s.2.IsWithin n)
    (hBuild : buildProperty slots = .ok p) :
    (Value.propertyToJson p).depth ≤ 1 + n := by
  simp only [buildProperty, bind_eq_ok_iff] at hBuild
  rcases hBuild with ⟨key, _, value, hValue, hProperty⟩
  have hNesting := nesting_of_required hSlots hValue
  cases hProperty
  simp only [Shape.nesting, Shape.toJson, Shape.room] at hNesting
  simp only [Value.propertyToJson, Json.depth, Json.depthMembers]
  omega

theorem nesting_of_buildArgument
    {a : Option String × Value}
    (hSlots : ∀ s ∈ slots, s.2.IsWithin n)
    (hBuild : buildArgument slots = .ok a) :
    (Value.argumentToJson a).depth ≤ 1 + n := by
  simp only [buildArgument, bind_eq_ok_iff] at hBuild
  rcases hBuild with ⟨value, hValue, hArgument⟩
  have hNesting := nesting_of_required hSlots hValue
  cases hArgument
  simp only [Shape.nesting, Shape.toJson, Shape.room] at hNesting
  -- a name that is written is a text, and no deeper than that
  cases slots.optional "name" .optionalText none with
  | none =>
      simp only [Value.argumentToJson, Value.nameMember,
        List.nil_append, Json.depth, Json.depthMembers]
      omega
  | some name =>
      simp only [Value.argumentToJson, Value.nameMember,
        List.singleton_append, Json.depth, Json.depthMembers]
      omega

end Nesting

------------------------------------------------------------
-- Every Value
------------------------------------------------------------

section Decoding

variable {items : List Json}
variable {members : List (String × Json)}

/- A list is decoded within its room when its items are. -/
theorem nesting_of_decodeItems
    {item : Shape}
    {xs : List item.Content}
    (hWithin : ∀ v ∈ items, DecodesWithin v)
    (hRead : decodeItems item items = .ok xs) :
    ∀ x ∈ xs,
      item.nesting x ≤ item.room (Json.depthItems items) := by
  induction items generalizing xs with
  | nil => cases hRead; exact List.forall_mem_nil _
  | cons v vs ih =>
      rcases List.forall_mem_cons.mp hWithin with
        ⟨hFirst, hOthers⟩
      simp only [decodeItems, bind_eq_ok_iff] at hRead
      rcases hRead with ⟨x, hDecodes, others, hRest, hList⟩
      cases hList
      rw [Json.depthItems, List.forall_mem_cons]
      constructor
      · exact
          Nat.le_trans (hFirst item x hDecodes)
            (item.room_mono (Nat.le_max_left _ _))
      · intro y hy
        exact
          Nat.le_trans (ih hOthers hRest y hy)
            (item.room_mono (Nat.le_max_right _ _))

/- A block from the slots of its object or list. -/
theorem nesting_of_slots_kind
    {kind : Kind}
    {b : Block}
    {slots : Slots}
    {n : Nat}
    (hSlots : ∀ s ∈ slots, s.2.IsWithin (max 1 n))
    (hBuild : kind.build slots = .ok b) :
    b.toJson.depth ≤ 1 + n + (1 + n) % 2 := by
  have hNesting :=
    nesting_of_build_kind (Nat.le_max_left 1 n) hSlots hBuild
  omega

theorem nesting_of_decode_array
    {shape : Shape}
    {x : shape.Content}
    (hWithin : ∀ v ∈ items, DecodesWithin v)
    (hDecodes : decode shape (.array items) = .ok x) :
    shape.nesting x ≤ shape.room (1 + Json.depthItems items) := by
  cases shape with
  | text => cases hDecodes
  | optionalText => cases hDecodes
  | elseKind => cases hDecodes
  | list item =>
      rw [decode] at hDecodes
      rw [Nat.add_comm]
      apply nesting_list_le_iff.mpr
      exact nesting_of_decodeItems hWithin hDecodes
  | block tags =>
      cases items with
      | nil => cases hDecodes
      | cons tag items =>
          simp only [decode, bind_eq_ok_iff] at hDecodes
          rcases hDecodes with
            ⟨kind, _, slots, hRead, _, _, hBuild⟩
          have hOthers := (List.forall_mem_cons.mp hWithin).2
          have hSlots :=
            isWithin_of_readItems
              (olderFits_kind kind
                (Nat.le_max_left 1 (Json.depthItems items)))
              hOthers (Nat.le_max_right 1 _) hRead
          refine
            Nat.le_trans (nesting_of_slots_kind hSlots hBuild) ?_
          apply (Shape.block tags).room_mono
          rw [Json.depthItems]
          omega
  | value tags =>
      cases items with
      | nil => cases hDecodes
      | cons tag items =>
          simp only [decode, bind_eq_ok_iff] at hDecodes
          rcases hDecodes with
            ⟨form, _, slots, hRead, _, _, hBuild⟩
          have hOthers := (List.forall_mem_cons.mp hWithin).2
          have hSlots :=
            isWithin_of_readItems (olderFits_form form _) hOthers
              (Nat.le_refl _) hRead
          refine
            Nat.le_trans (nesting_of_build_form hSlots hBuild) ?_
          rw [Shape.room, Json.depthItems]
          omega
  | property =>
      simp only [decode, bind_eq_ok_iff] at hDecodes
      rcases hDecodes with ⟨slots, hRead, _, _, hBuild⟩
      have hSlots :=
        isWithin_of_readItems (olderFits_property _) hWithin
          (Nat.le_refl _) hRead
      exact nesting_of_buildProperty hSlots hBuild
  | argument =>
      simp only [decode, bind_eq_ok_iff] at hDecodes
      rcases hDecodes with ⟨slots, hRead, _, _, hBuild⟩
      have hSlots :=
        isWithin_of_readItems (olderFits_argument _) hWithin
          (Nat.le_refl _) hRead
      exact nesting_of_buildArgument hSlots hBuild

theorem nesting_of_decode_object
    {shape : Shape}
    {x : shape.Content}
    (hWithin : ∀ m ∈ members, DecodesWithin m.2)
    (hDecodes : decode shape (.object members) = .ok x) :
    shape.nesting x ≤
      shape.room (1 + Json.depthMembers members) := by
  cases shape with
  | text => cases hDecodes
  | optionalText => cases hDecodes
  | elseKind => exact Nat.zero_le _
  | list item => cases hDecodes
  | block tags =>
      simp only [decode, bind_eq_ok_iff] at hDecodes
      rcases hDecodes with ⟨kind, _, slots, hRead, hBuild⟩
      have hSlots :=
        isWithin_of_readMembers
          (olderFits_kind kind
            (Nat.le_max_left 1 (Json.depthMembers members)))
          hWithin (Nat.le_max_right 1 _) hRead
      exact nesting_of_slots_kind hSlots hBuild
  | value tags =>
      simp only [decode, bind_eq_ok_iff] at hDecodes
      rcases hDecodes with ⟨form, _, slots, hRead, hBuild⟩
      have hSlots :=
        isWithin_of_readMembers (olderFits_form form _) hWithin
          (Nat.le_refl _) hRead
      exact nesting_of_build_form hSlots hBuild
  | property =>
      simp only [decode, bind_eq_ok_iff] at hDecodes
      rcases hDecodes with ⟨slots, hRead, hBuild⟩
      have hSlots :=
        isWithin_of_readMembers (olderFits_property _) hWithin
          (Nat.le_refl _) hRead
      exact nesting_of_buildProperty hSlots hBuild
  | argument =>
      simp only [decode, bind_eq_ok_iff] at hDecodes
      rcases hDecodes with ⟨slots, hRead, hBuild⟩
      have hSlots :=
        isWithin_of_readMembers (olderFits_argument _) hWithin
          (Nat.le_refl _) hRead
      exact nesting_of_buildArgument hSlots hBuild

end Decoding

/- A value that is no list and no object is read as a text or
   an else kind, or not at all. -/
theorem decodesWithin (json : Json) : DecodesWithin json := by
  induction json using Json.induction with
  | array items ih =>
      intro shape x hDecodes
      exact nesting_of_decode_array ih hDecodes
  | object members ih =>
      intro shape x hDecodes
      exact nesting_of_decode_object ih hDecodes
  | null =>
      intro shape x hDecodes
      cases shape <;> cases hDecodes
      exact Nat.zero_le _
  | bool b =>
      intro shape x hDecodes
      cases shape <;> cases hDecodes
  | number n =>
      intro shape x hDecodes
      cases shape <;> cases hDecodes
  | text s =>
      intro shape x hDecodes
      cases shape with
      | text => exact Nat.zero_le _
      | optionalText => cases hDecodes; exact Nat.zero_le _
      | elseKind => exact Nat.zero_le _
      | block tags => cases hDecodes
      | value tags => cases hDecodes
      | property => cases hDecodes
      | argument => cases hDecodes
      | list item => cases hDecodes

end Wire

end BlockProgram
