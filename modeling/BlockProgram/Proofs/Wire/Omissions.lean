import BlockProgram.Proofs.Wire.Decoding
import BlockProgram.Proofs.Wire.Reordering

/-
  Fields that are left out, and members that are no fields.

  A field that is optional may be left out where it holds
  what is assumed without it.  A member that no field belongs
  to is passed over.  So an object may be respelled: without
  some of its members, with further ones, and in any order.

  Main declarations:
    * `Wire.Record.Respells`
    * `Wire.MayOmit`
    * `Wire.built_of_respells`
    * `Wire.tagMembers_of_respells`
    * `Kind.mayOmit_omissible`
-/

namespace BlockProgram

namespace Wire

------------------------------------------------------------
-- Objects That Are Respelled
------------------------------------------------------------

/- A member, free of numbers, that is no field and no tag. -/
def Record.IsSpare
    (record : Record)
    (m : String × Json) : Prop :=
  record.field? m.1 = none ∧
    m.1 ≠ tagKey ∧ m.2.isNumberFree = true

/-
  The members of an object that respells another one.  With
  those that are left out they are, in some order, the ones
  that were written and the spare ones.
-/
def Record.Respells
    (record : Record)
    (omissible written members : List (String × Json)) : Prop :=
  ∃ omitted spare,
    (∀ m ∈ omitted, m ∈ omissible) ∧
      (∀ m ∈ spare, record.IsSpare m) ∧
        (omitted ++ members).Perm (written ++ spare)

/- A member without which the same is built. -/
def MayOmit
    (record : Record)
    (build : Slots → Except Mismatch β)
    (m : String × Json) : Prop :=
  m.1 ≠ tagKey ∧
    ∃ field part,
      record.field? m.1 = some field ∧
        field.part m.2 (decode field.shape m.2) = .ok part ∧
          ∀ slots : Slots,
            slots.lookup m.1 = none →
              build ((m.1, part) :: slots) = build slots

/- Nothing depends on the order of the slots. -/
def BuildsAlike (build : Slots → Except Mismatch β) : Prop :=
  ∀ slots slots',
    Slots.Agree slots slots' → build slots' = build slots

section Respelling

variable {record : Record}
variable {build : Slots → Except Mismatch β}
variable {omissible written members : List (String × Json)}
variable {x : β}

/- An object respells itself. -/
theorem respells_refl :
    record.Respells omissible written written := by
  have hNone (p : String × Json → Prop) : ∀ m ∈ [], p m :=
    List.forall_mem_nil p
  refine ⟨[], [], hNone _, hNone _, ?_⟩
  rw [List.nil_append, List.append_nil]

/- The members of an object may stand in reverse order. -/
theorem respells_reverse
    (omitted spare : List (String × Json))
    (hOmitted : ∀ m ∈ omitted, m ∈ omissible)
    (hSpare : ∀ m ∈ spare, record.IsSpare m)
    (hReverse :
      omitted ++ members = (written ++ spare).reverse) :
    record.Respells omissible written members :=
  ⟨omitted, spare, hOmitted, hSpare,
    hReverse ▸ List.reverse_perm _⟩

------------------------------------------------------------
-- What Is Built
------------------------------------------------------------

/- Spare members are passed over. -/
theorem readMembers_append_spare
    {spare : List (String × Json)}
    (hSpare : ∀ m ∈ spare, record.field? m.1 = none)
    (ms : List (String × Json))
    (slots : Slots) :
    readMembers record slots (ms ++ spare) =
      readMembers record slots ms := by
  induction ms generalizing slots with
  | nil =>
      rw [List.nil_append, readMembers]
      induction spare with
      | nil => rw [readMembers]
      | cons m spare ih =>
          rcases List.forall_mem_cons.mp hSpare with
            ⟨hFirst, hOthers⟩
          rcases m with ⟨key, json⟩
          rw [readMembers_cons_of_no_field hFirst, ih hOthers]
  | cons m ms ih =>
      rcases m with ⟨key, json⟩
      simp only [List.cons_append, readMembers, ih]

/- The same is built without a member that may be left out. -/
theorem built_of_cons_omitted
    {m : String × Json}
    (hBuild : BuildsAlike build)
    (hMay : MayOmit record build m)
    (hBuilt :
      (readMembers record [] (m :: members) >>= build) = .ok x) :
    (readMembers record [] members >>= build) = .ok x := by
  rcases m with ⟨key, json⟩
  rcases hMay with ⟨_, field, part, hField, hPart, hSame⟩
  have hNone : (([] : Slots).map Prod.fst).Nodup := List.nodup_nil
  have hOne : ([(key, part)].map Prod.fst).Nodup :=
    List.nodup_singleton key
  rw [readMembers_cons_of_part hField rfl hPart] at hBuilt
  simp only [bind_eq_ok_iff, readMembers_eq_ok_iff hOne,
    readMembers_eq_ok_iff hNone] at hBuilt ⊢
  rcases hBuilt with ⟨_, ⟨filled, hFills, hNames, rfl⟩, hBuilt⟩
  rw [List.map_append, List.nodup_append] at hNames
  have hNew : filled.reverse.lookup key = none := by
    rw [lookup_eq_none_iff_notMem, List.map_reverse,
      List.mem_reverse]
    intro hMember
    exact hNames.2.2 key hMember key List.mem_cons_self rfl
  have hNames' :
      ((filled.reverse ++ [(key, part)]).map Prod.fst).Nodup := by
    rw [List.map_append, List.nodup_append, List.map_reverse,
      List.nodup_reverse]
    refine ⟨hNames.1, hOne, ?_⟩
    intro name hMember
    exact hNames.2.2 name (List.mem_reverse.mp hMember)
  have hAgree :=
    Slots.agree_of_perm hNames'
      (List.perm_append_singleton (key, part) filled.reverse)
  refine ⟨filled.reverse, ⟨filled, hFills, ?_, ?_⟩, ?_⟩
  · rw [List.append_nil]
    exact hNames.1
  · rw [List.append_nil]
  · rw [← hSame filled.reverse hNew, hBuild _ _ hAgree]
    exact hBuilt

/- The same is built from an object that is respelled. -/
theorem built_of_respells
    (hBuild : BuildsAlike build)
    (hMay : ∀ m ∈ omissible, MayOmit record build m)
    (hRespells : record.Respells omissible written members)
    (hBuilt :
      (readMembers record [] written >>= build) = .ok x) :
    (readMembers record [] members >>= build) = .ok x := by
  rcases hRespells with ⟨omitted, spare, hOmitted, hSpare, hPerm⟩
  have hAll :
      (readMembers record [] (omitted ++ members) >>= build) =
        .ok x := by
    have hPassed :=
      readMembers_append_spare
        (fun m hm => (hSpare m hm).1) written []
    rw [← hPassed, bind_eq_ok_iff] at hBuilt
    rcases hBuilt with ⟨slots, hRead, hBuilt⟩
    rcases readMembers_of_perm hRead hPerm.symm with
      ⟨slots', hRead', hAgree⟩
    rw [bind_eq_ok_iff]
    exact ⟨slots', hRead', (hBuild _ _ hAgree).trans hBuilt⟩
  clear hPerm
  -- what is left out is taken from the front, one by one
  induction omitted with
  | nil => exact hAll
  | cons m omitted ih =>
      rcases List.forall_mem_cons.mp hOmitted with
        ⟨hFirst, hOthers⟩
      exact
        ih hOthers
          (built_of_cons_omitted hBuild (hMay m hFirst) hAll)

------------------------------------------------------------
-- What Else Stays
------------------------------------------------------------

theorem tagMembers_eq_nil
    {ms : List (String × Json)}
    (hKeys : ∀ m ∈ ms, m.1 ≠ tagKey) :
    tagMembers ms = [] := by
  rw [tagMembers, List.filter_eq_nil_iff]
  exact fun m hm hTagged => hKeys m hm (of_decide_eq_true hTagged)

/- The tag is kept. -/
theorem tagMembers_of_respells
    {tag : String × Json}
    (hMay : ∀ m ∈ omissible, MayOmit record build m)
    (hRespells : record.Respells omissible written members)
    (hTag : tagMembers written = [tag]) :
    tagMembers members = [tag] := by
  rcases hRespells with ⟨omitted, spare, hOmitted, hSpare, hPerm⟩
  have hTagged :
      (tagMembers (omitted ++ members)).Perm
        (tagMembers (written ++ spare)) :=
    hPerm.filter _
  rw [tagMembers_append, tagMembers_append, hTag,
    tagMembers_eq_nil fun m hm => (hMay m (hOmitted m hm)).1,
    tagMembers_eq_nil fun m hm => (hSpare m hm).2.1] at hTagged
  exact List.perm_singleton.mp hTagged

/- No number is added. -/
theorem isNumberFree_of_respells
    (hRespells : record.Respells omissible written members)
    (hFree : ∀ m ∈ written, m.2.isNumberFree = true) :
    (Json.object members).isNumberFree = true := by
  rcases hRespells with ⟨omitted, spare, _, hSpare, hPerm⟩
  rw [Json.isNumberFree, Json.areMembersNumberFree_eq_all,
    List.all_map, List.all_eq_true]
  intro m hm
  have hMember : m ∈ written ++ spare :=
    hPerm.subset (List.mem_append_right omitted hm)
  rcases List.mem_append.mp hMember with hWritten | hAdded
  · exact hFree m hWritten
  · exact (hSpare m hAdded).2.2

end Respelling

------------------------------------------------------------
-- Fields That May Be Left Out
------------------------------------------------------------

namespace Slots

section Omitted

variable {slots : Slots}
variable {name other : String}
variable {part : Part}

theorem get?_cons_of_ne
    (hName : name ≠ other)
    (shape : Shape) :
    get? name shape ((other, part) :: slots) =
      slots.get? name shape := by
  have hOther : (name == other) = false :=
    beq_eq_false_iff_ne.mpr hName
  simp only [get?, List.lookup_cons, hOther]

theorem required_cons_of_ne
    (hName : name ≠ other)
    (shape : Shape) :
    required name shape ((other, part) :: slots) =
      slots.required name shape := by
  rw [required, required, get?_cons_of_ne hName]

theorem optional_cons_of_ne
    (hName : name ≠ other)
    (shape : Shape)
    (fallback : shape.Content) :
    optional name shape fallback ((other, part) :: slots) =
      slots.optional name shape fallback := by
  rw [optional, optional, get?_cons_of_ne hName]

/- A slot that holds what is assumed without it. -/
theorem optional_cons_fallback
    {shape : Shape}
    {fallback : shape.Content}
    (hNone : slots.lookup name = none) :
    optional name shape fallback
        ((name, ⟨shape, fallback⟩) :: slots) =
      slots.optional name shape fallback := by
  simp [optional, get?, hNone]

end Omitted

end Slots

/- An optional field, with what is assumed without it. -/
theorem mayOmit_of_optional
    {record : Record}
    {build : Slots → Except Mismatch β}
    {name : String}
    {shape : Shape}
    {json : Json}
    {fallback : shape.Content}
    (hName : name ≠ tagKey)
    (hField : record.field? name = some (.optional name shape))
    (hContent : decode shape json = .ok fallback)
    (hSame :
      ∀ slots : Slots,
        slots.lookup name = none →
          build ((name, ⟨shape, fallback⟩) :: slots) =
            build slots) :
    MayOmit record build (name, json) := by
  refine
    ⟨hName, .optional name shape, ⟨shape, fallback⟩, hField, ?_,
      hSame⟩
  simp only [Field.part, Field.optional, hContent]

/- The members that an argument may go without. -/
def argumentOmissible : List (String × Json) :=
  [("name", .null)]

theorem mayOmit_argument :
    ∀ m ∈ argumentOmissible,
      MayOmit argumentRecord buildArgument m := by
  rw [argumentOmissible, List.forall_mem_singleton]
  apply mayOmit_of_optional (by decide) rfl rfl
  intro slots hNone
  simp [buildArgument, Slots.required_cons_of_ne,
    Slots.optional_cons_fallback hNone]

end Wire

open Wire

/- The members that a block of a kind may go without. -/
def Kind.omissible : Kind → List (String × Json)
  | .function =>
      [("parameters", .array []), ("children", .array [])]
  | .assignment => []
  | .conditional =>
      [ ("ifBody", .array []),
        ("elseType", .text (elseWord .none)),
        ("elseBody", .array []) ]
  | .loop => [("children", .array [])]
  | .ret => []
  | .call => [("arguments", .array [])]

theorem Kind.mayOmit_omissible (kind : Kind) :
    ∀ m ∈ kind.omissible, MayOmit kind.record kind.build m := by
  cases kind with
  | assignment => exact List.forall_mem_nil _
  | ret => exact List.forall_mem_nil _
  | function =>
      rw [omissible, List.forall_mem_cons,
        List.forall_mem_singleton]
      constructor <;>
        apply mayOmit_of_optional (by decide) rfl rfl
      all_goals
        intro slots hNone
        simp [build, Slots.required_cons_of_ne,
          Slots.optional_cons_of_ne,
          Slots.optional_cons_fallback hNone]
  | conditional =>
      rw [omissible, List.forall_mem_cons, List.forall_mem_cons,
        List.forall_mem_singleton]
      refine ⟨?_, ?_, ?_⟩ <;>
        apply mayOmit_of_optional (by decide) rfl rfl
      all_goals
        intro slots hNone
        simp [build, Slots.required_cons_of_ne,
          Slots.optional_cons_of_ne,
          Slots.optional_cons_fallback hNone]
  | loop =>
      rw [omissible, List.forall_mem_singleton]
      apply mayOmit_of_optional (by decide) rfl rfl
      intro slots hNone
      simp [build, Slots.required_cons_of_ne,
        Slots.optional_cons_fallback hNone]
  | call =>
      rw [omissible, List.forall_mem_singleton]
      apply mayOmit_of_optional (by decide) rfl rfl
      intro slots hNone
      simp [build, Slots.required_cons_of_ne,
        Slots.optional_cons_fallback hNone]

end BlockProgram
