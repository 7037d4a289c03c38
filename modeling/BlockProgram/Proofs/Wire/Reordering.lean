import BlockProgram.Proofs.Json.Reordering
import BlockProgram.Proofs.Wire.Records

/-
  The order of members is nothing to the decoder.

  What can be decoded is decoded alike with the members of
  any object in it in another order.  What cannot be decoded
  may be refused for another reason then, as the first member
  that does not fit is the one reported.

  Main declarations:
    * `Wire.DecodesInAnyOrder`
    * `Wire.readMembers_of_reorders`
    * `Wire.tagAmong_of_reorders`
    * `Wire.decodesInAnyOrder`
-/

namespace BlockProgram

namespace Wire

open Json (Reorders MemberReorders)

------------------------------------------------------------
-- Fields
------------------------------------------------------------

/- What is read of a value does not change with the order. -/
def DecodesInAnyOrder (v : Json) : Prop :=
  ∀ w,
    Reorders v w →
      ∀ (shape : Shape) (x : shape.Content),
        decode shape v = .ok x → decode shape w = .ok x

/- No older spelling of a field has members. -/
def Field.IgnoresOrder (field : Field) : Prop :=
  ∀ v w, Reorders v w → field.older w = field.older v

/- No older spelling of any field has members. -/
def Record.IgnoresOrder (record : Record) : Prop :=
  ∀ field ∈ record.fields, field.IgnoresOrder

theorem Field.ignoresOrder_required
    (name : String)
    (shape : Shape) :
    (Field.required name shape).IgnoresOrder :=
  fun _ _ _ => rfl

theorem Field.ignoresOrder_optional
    (name : String)
    (shape : Shape) :
    (Field.optional name shape).IgnoresOrder :=
  fun _ _ _ => rfl

theorem Field.ignoresOrder_stored (name : String) :
    (Field.stored name).IgnoresOrder := by
  intro v w hReorders
  cases hReorders <;> rfl

theorem ignoresOrder_kind (kind : Kind) :
    kind.record.IgnoresOrder := by
  cases kind <;>
    simp [Record.IgnoresOrder, Kind.record,
      Field.ignoresOrder_required, Field.ignoresOrder_optional,
      Field.ignoresOrder_stored]

theorem ignoresOrder_form (form : Value.Form) :
    form.record.IgnoresOrder := by
  cases form <;>
    simp [Record.IgnoresOrder, Value.Form.record,
      Field.ignoresOrder_required]

theorem ignoresOrder_property : propertyRecord.IgnoresOrder := by
  simp [Record.IgnoresOrder, propertyRecord,
    Field.ignoresOrder_required]

theorem ignoresOrder_argument : argumentRecord.IgnoresOrder := by
  simp [Record.IgnoresOrder, argumentRecord,
    Field.ignoresOrder_required, Field.ignoresOrder_optional]

section Fields

variable {v w : Json}
variable {field : Field}
variable {part : Part}

/- A field is read alike from a value in another order. -/
theorem part_of_reorders
    (hField : field.IgnoresOrder)
    (hSame : DecodesInAnyOrder v)
    (hReorders : Reorders v w)
    (hPart : field.part v (decode field.shape v) = .ok part) :
    field.part w (decode field.shape w) = .ok part := by
  unfold Field.part at hPart ⊢
  rw [hField v w hReorders]
  cases hOlder : field.older v with
  | some found =>
      rw [hOlder] at hPart
      exact hPart
  | none =>
      rw [hOlder] at hPart
      cases hContent : decode field.shape v with
      | error why => simp [hContent] at hPart
      | ok content =>
          rw [hSame w hReorders field.shape content hContent]
          rw [hContent] at hPart
          exact hPart

/- The same slots are filled by values in another order. -/
theorem fills_of_reorders
    {record : Record}
    {ms ns : List (String × Json)}
    {filled : Slots}
    (hFills : Fills record ms filled)
    (hRecord : record.IgnoresOrder)
    (hSame : ∀ m ∈ ms, DecodesInAnyOrder m.2)
    (hMembers : List.Forall₂ MemberReorders ms ns) :
    Fills record ns filled := by
  induction hFills generalizing ns with
  | nil =>
      cases hMembers
      exact .nil
  | unknown hField _ ih =>
      rcases List.forall_mem_cons.mp hSame with ⟨_, hOthers⟩
      cases hMembers with
      | cons hFirst hRest =>
          cases hFirst
          exact .unknown hField (ih hOthers hRest)
  | field hField hPart _ ih =>
      rcases List.forall_mem_cons.mp hSame with
        ⟨hFirstSame, hOthers⟩
      cases hMembers with
      | cons hFirst hRest =>
          rcases hFirst with ⟨_, hValue⟩
          have hKeeps := hRecord _ (List.mem_of_find?_eq_some hField)
          exact
            .field hField
              (part_of_reorders hKeeps hFirstSame hValue hPart)
              (ih hOthers hRest)

/- An object is read alike in any order. -/
theorem readMembers_of_reorders
    {record : Record}
    {ms ns ps : List (String × Json)}
    {slots : Slots}
    (hRead : readMembers record [] ms = .ok slots)
    (hRecord : record.IgnoresOrder)
    (hSame : ∀ m ∈ ms, DecodesInAnyOrder m.2)
    (hMembers : List.Forall₂ MemberReorders ms ns)
    (hPerm : ns.Perm ps) :
    ∃ slots',
      readMembers record [] ps = .ok slots' ∧
        Slots.Agree slots slots' := by
  have hNone : (([] : Slots).map Prod.fst).Nodup := List.nodup_nil
  rcases (readMembers_eq_ok_iff hNone).mp hRead with
    ⟨filled, hFills, hNames⟩
  have hFills' := fills_of_reorders hFills hRecord hSame hMembers
  exact
    readMembers_of_perm
      ((readMembers_eq_ok_iff hNone).mpr ⟨filled, hFills', hNames⟩)
      hPerm

/- A list of fields is read alike with its items in any order
   of their own. -/
theorem readItems_of_reorders
    {fields : List Field}
    {count : Nat}
    {vs ws : List Json}
    {slots : Slots}
    (hRead : readItems fields count vs = .ok slots)
    (hFields : ∀ field ∈ fields, field.IgnoresOrder)
    (hSame : ∀ v ∈ vs, DecodesInAnyOrder v)
    (hItems : List.Forall₂ Reorders vs ws) :
    readItems fields count ws = .ok slots := by
  induction hItems generalizing fields count slots with
  | nil => exact hRead
  | cons hFirst _ ih =>
      rcases List.forall_mem_cons.mp hSame with
        ⟨hFirstSame, hOthersSame⟩
      cases fields with
      | nil => simp [readItems] at hRead
      | cons field fields =>
          rcases List.forall_mem_cons.mp hFields with
            ⟨hField, hOthers⟩
          rw [readItems] at hRead ⊢
          simp only [bind_eq_ok_iff] at hRead ⊢
          rcases hRead with ⟨part, hPart, others, hRest, hSlots⟩
          exact
            ⟨part,
              part_of_reorders hField hFirstSame hFirst hPart,
              others, ih hRest hOthers hOthersSame, hSlots⟩

end Fields

------------------------------------------------------------
-- Tags
------------------------------------------------------------

section TagsInOrder

variable {choices : List α}
variable {word : α → String}
variable {tags : Tags}
variable {tag : α}

/- A tag has no members that could be in another order. -/
theorem eq_of_tagOf
    {v w : Json}
    (hTag : tagOf tags choices word v = .ok tag)
    (hReorders : Reorders v w) :
    w = v := by
  cases hReorders with
  | array _ => cases tags <;> cases hTag
  | object _ _ => cases tags <;> cases hTag
  | _ => rfl

/- The tag of an object is found in any order. -/
theorem tagAmong_of_reorders
    {ms ns ps : List (String × Json)}
    (hTag : tagAmong (tagOf tags choices word) ms none = .ok tag)
    (hMembers : List.Forall₂ MemberReorders ms ns)
    (hPerm : ns.Perm ps) :
    tagAmong (tagOf tags choices word) ps none = .ok tag := by
  rw [tagAmong_eq_ok_iff] at hTag ⊢
  rcases hTag with ⟨json, hAlone, hRead⟩
  have hTagged :
      List.Forall₂ MemberReorders (tagMembers ms)
        (tagMembers ns) := by
    apply List.rel_filter _ hMembers
    rintro m n ⟨k, _⟩
    exact Iff.rfl
  have hOther : tagMembers ns = [(tagKey, json)] := by
    rw [hAlone] at hTagged
    generalize tagMembers ns = tagged at hTagged ⊢
    rcases hTagged with _ | ⟨⟨_, hValue⟩, ⟨⟩⟩
    rw [eq_of_tagOf hRead hValue]
  refine ⟨json, ?_, hRead⟩
  exact List.perm_singleton.mp (hOther ▸ (hPerm.filter _).symm)

end TagsInOrder

------------------------------------------------------------
-- Values In Another Order
------------------------------------------------------------

theorem nothingOf_of_reorders
    {v w : Json}
    (hRead : nothingOf true v = .ok ())
    (hReorders : Reorders v w) :
    nothingOf true w = .ok () := by
  cases hReorders with
  | array _ => cases hRead
  | @object ms _ _ hMembers hPerm =>
      cases ms with
      | nil =>
          cases hMembers
          rw [hPerm.nil_eq.symm]
          exact hRead
      | cons m ms => cases hRead
  | _ => exact hRead

/- An else kind is read alike in any order. -/
theorem elseKindOf_of_reorders
    {v w : Json}
    {elseKind : ElseKind}
    (hRead : elseKindOf true v = .ok elseKind)
    (hReorders : Reorders v w) :
    elseKindOf true w = .ok elseKind := by
  cases hReorders with
  | array _ => cases hRead
  | @object ms _ _ hMembers hPerm =>
      rcases ms with _ | ⟨m, _ | ⟨m', ms⟩⟩
      · cases hRead
      · rcases hMembers with _ | ⟨⟨key, hValue⟩, ⟨⟩⟩
        rw [← List.singleton_perm.mp hPerm]
        rw [elseKindOf] at hRead ⊢
        simp only [bind_eq_ok_iff] at hRead ⊢
        rcases hRead with ⟨kind, hWord, _, hNothing, hKind⟩
        exact
          ⟨kind, hWord, (),
            nothingOf_of_reorders hNothing hValue, hKind⟩
      · cases hRead
  | _ => exact hRead

theorem decodeItems_of_reorders
    {item : Shape}
    {vs ws : List Json}
    {contents : List item.Content}
    (hRead : decodeItems item vs = .ok contents)
    (hSame : ∀ v ∈ vs, DecodesInAnyOrder v)
    (hItems : List.Forall₂ Reorders vs ws) :
    decodeItems item ws = .ok contents := by
  induction hItems generalizing contents with
  | nil => exact hRead
  | cons hFirst _ ih =>
      rcases List.forall_mem_cons.mp hSame with
        ⟨hFirstSame, hOthersSame⟩
      rw [decodeItems] at hRead ⊢
      simp only [bind_eq_ok_iff] at hRead ⊢
      rcases hRead with ⟨first, hDecodes, others, hRest, hList⟩
      exact
        ⟨first, hFirstSame _ hFirst item first hDecodes, others,
          ih hRest hOthersSame, hList⟩

/- A record is built alike from an object in any order. -/
theorem built_of_reorders
    {record : Record}
    {build : Slots → Except Mismatch β}
    {ms ns ps : List (String × Json)}
    {x : β}
    (hBuilt : (readMembers record [] ms >>= build) = .ok x)
    (hBuild :
      ∀ slots slots',
        Slots.Agree slots slots' → build slots' = build slots)
    (hRecord : record.IgnoresOrder)
    (hSame : ∀ m ∈ ms, DecodesInAnyOrder m.2)
    (hMembers : List.Forall₂ MemberReorders ms ns)
    (hPerm : ns.Perm ps) :
    (readMembers record [] ps >>= build) = .ok x := by
  rw [bind_eq_ok_iff] at hBuilt ⊢
  rcases hBuilt with ⟨slots, hRead, hBuilt⟩
  rcases readMembers_of_reorders hRead hRecord hSame hMembers
      hPerm with
    ⟨slots', hRead', hAgree⟩
  exact ⟨slots', hRead', (hBuild slots slots' hAgree).trans hBuilt⟩

/- A record is built alike from a list, whatever the order
   inside its items. -/
theorem listed_of_reorders
    {record : Record}
    {build : Slots → Except Mismatch β}
    {vs ws : List Json}
    {x : β}
    (hBuilt :
      (do
          let slots ← readItems record.fields 0 vs
          record.checkLength slots
          build slots) =
        .ok x)
    (hRecord : record.IgnoresOrder)
    (hSame : ∀ v ∈ vs, DecodesInAnyOrder v)
    (hItems : List.Forall₂ Reorders vs ws) :
    (do
        let slots ← readItems record.fields 0 ws
        record.checkLength slots
        build slots) =
      .ok x := by
  rw [bind_eq_ok_iff] at hBuilt ⊢
  rcases hBuilt with ⟨slots, hRead, hBuilt⟩
  exact
    ⟨slots, readItems_of_reorders hRead hRecord hSame hItems,
      hBuilt⟩

/- A list is decoded alike, whatever the order inside its
   items. -/
theorem decode_array_of_reorders
    {shape : Shape}
    {x : shape.Content}
    {vs ws : List Json}
    (hDecodes : decode shape (.array vs) = .ok x)
    (hSame : ∀ v ∈ vs, DecodesInAnyOrder v)
    (hItems : List.Forall₂ Reorders vs ws) :
    decode shape (.array ws) = .ok x := by
  cases shape with
  | text => cases hDecodes
  | optionalText => cases hDecodes
  | elseKind => cases hDecodes
  | list item =>
      rw [decode] at hDecodes ⊢
      exact decodeItems_of_reorders hDecodes hSame hItems
  | block tags =>
      cases hItems with
      | nil => exact hDecodes
      | cons hFirst hRest =>
          rw [decode, bind_eq_ok_iff] at hDecodes ⊢
          rcases List.forall_mem_cons.mp hSame with ⟨_, hOthers⟩
          rcases hDecodes with ⟨kind, hTag, hBuilt⟩
          rw [eq_of_tagOf hTag hFirst]
          exact
            ⟨kind, hTag,
              listed_of_reorders hBuilt (ignoresOrder_kind kind)
                hOthers hRest⟩
  | value tags =>
      cases hItems with
      | nil => exact hDecodes
      | cons hFirst hRest =>
          rw [decode, bind_eq_ok_iff] at hDecodes ⊢
          rcases List.forall_mem_cons.mp hSame with ⟨_, hOthers⟩
          rcases hDecodes with ⟨form, hTag, hBuilt⟩
          rw [eq_of_tagOf hTag hFirst]
          exact
            ⟨form, hTag,
              listed_of_reorders hBuilt (ignoresOrder_form form)
                hOthers hRest⟩
  | property =>
      rw [decode] at hDecodes ⊢
      exact
        listed_of_reorders hDecodes ignoresOrder_property hSame
          hItems
  | argument =>
      rw [decode] at hDecodes ⊢
      exact
        listed_of_reorders hDecodes ignoresOrder_argument hSame
          hItems

/- An object is decoded alike in any order. -/
theorem decode_object_of_reorders
    {shape : Shape}
    {x : shape.Content}
    {ms ns ps : List (String × Json)}
    (hDecodes : decode shape (.object ms) = .ok x)
    (hSame : ∀ m ∈ ms, DecodesInAnyOrder m.2)
    (hMembers : List.Forall₂ MemberReorders ms ns)
    (hPerm : ns.Perm ps) :
    decode shape (.object ps) = .ok x := by
  cases shape with
  | text => cases hDecodes
  | optionalText => cases hDecodes
  | elseKind =>
      rw [decode] at hDecodes ⊢
      exact
        elseKindOf_of_reorders hDecodes (.object hMembers hPerm)
  | list item => cases hDecodes
  | block tags =>
      rw [decode, bind_eq_ok_iff] at hDecodes ⊢
      rcases hDecodes with ⟨kind, hTag, hBuilt⟩
      exact
        ⟨kind, tagAmong_of_reorders hTag hMembers hPerm,
          built_of_reorders hBuilt
            (fun _ _ hAgree => Kind.build_of_agree hAgree kind)
            (ignoresOrder_kind kind) hSame hMembers hPerm⟩
  | value tags =>
      rw [decode, bind_eq_ok_iff] at hDecodes ⊢
      rcases hDecodes with ⟨form, hTag, hBuilt⟩
      exact
        ⟨form, tagAmong_of_reorders hTag hMembers hPerm,
          built_of_reorders hBuilt
            (fun _ _ hAgree =>
              Value.Form.build_of_agree hAgree form)
            (ignoresOrder_form form) hSame hMembers hPerm⟩
  | property =>
      rw [decode] at hDecodes ⊢
      exact
        built_of_reorders hDecodes
          (fun _ _ hAgree => buildProperty_of_agree hAgree)
          ignoresOrder_property hSame hMembers hPerm
  | argument =>
      rw [decode] at hDecodes ⊢
      exact
        built_of_reorders hDecodes
          (fun _ _ hAgree => buildArgument_of_agree hAgree)
          ignoresOrder_argument hSame hMembers hPerm

/- What can be decoded is decoded alike in any order. -/
theorem decodesInAnyOrder (v : Json) : DecodesInAnyOrder v := by
  induction v using Json.induction with
  | array vs ih =>
      intro w hReorders shape x hDecodes
      cases hReorders with
      | array hItems =>
          exact decode_array_of_reorders hDecodes ih hItems
  | object ms ih =>
      intro w hReorders shape x hDecodes
      cases hReorders with
      | object hMembers hPerm =>
          exact
            decode_object_of_reorders hDecodes ih hMembers hPerm
  | _ =>
      intro w hReorders shape x hDecodes
      cases hReorders
      exact hDecodes

end Wire

end BlockProgram
