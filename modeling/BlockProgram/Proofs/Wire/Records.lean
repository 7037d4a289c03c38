import Mathlib.Data.List.Nodup
import BlockProgram.Wire.Decode

/-
  What the members of an object are read as.

  A record is read from an object by filling one slot for
  each of its fields.  Members may fill the slots in any
  order, and what is built from the slots is the same.

  Main declarations:
    * `Wire.tagAmong_eq_ok_iff`
    * `Wire.Fills`
    * `Wire.readMembers_eq_ok_iff`
    * `Wire.Slots.Agree`
    * `Wire.readMembers_of_perm`
    * `Kind.build_of_agree`
-/

namespace BlockProgram

namespace Wire

------------------------------------------------------------
-- Steps That Succeed
------------------------------------------------------------

/- Both steps of a result have succeeded. -/
theorem bind_eq_ok_iff
    {x : Except ε α}
    {f : α → Except ε β}
    {b : β} :
    (x >>= f) = .ok b ↔ ∃ a, x = .ok a ∧ f a = .ok b := by
  cases x with
  | error why => simp [bind, Except.bind]
  | ok a => simp [bind, Except.bind]

------------------------------------------------------------
-- The Member With The Tag
------------------------------------------------------------

/- The members that hold a tag. -/
def tagMembers
    (members : List (String × Json)) : List (String × Json) :=
  members.filter fun m => m.1 = tagKey

theorem tagMembers_cons
    (key : String)
    (json : Json)
    (members : List (String × Json)) :
    tagMembers ((key, json) :: members) =
      if key = tagKey then (key, json) :: tagMembers members
      else tagMembers members := by
  simp [tagMembers, List.filter_cons]

theorem tagMembers_append
    (members others : List (String × Json)) :
    tagMembers (members ++ others) =
      tagMembers members ++ tagMembers others :=
  List.filter_append _ _

theorem tagAmong_some_eq_ok_iff
    {read : Json → Except Mismatch α}
    {members : List (String × Json)}
    {found tag : α} :
    tagAmong read members (some found) = .ok tag ↔
      tagMembers members = [] ∧ found = tag := by
  induction members with
  | nil => simp [tagAmong, tagMembers]
  | cons m ms ih =>
      rcases m with ⟨key, json⟩
      rw [tagAmong, tagMembers_cons]
      by_cases hKey : key = tagKey
      · simp [hKey]
      · simpa [hKey] using ih

/- A tag is found where just one member holds it. -/
theorem tagAmong_eq_ok_iff
    {read : Json → Except Mismatch α}
    {members : List (String × Json)}
    {tag : α} :
    tagAmong read members none = .ok tag ↔
      ∃ json,
        tagMembers members = [(tagKey, json)] ∧
          read json = .ok tag := by
  induction members with
  | nil => simp [tagAmong, tagMembers]
  | cons m ms ih =>
      rcases m with ⟨key, json⟩
      rw [tagAmong, tagMembers_cons]
      by_cases hKey : key = tagKey
      · rw [if_pos hKey, if_pos hKey, hKey]
        simp only [bind_eq_ok_iff, tagAmong_some_eq_ok_iff,
          List.cons.injEq, Prod.mk.injEq, true_and]
        constructor
        · rintro ⟨found, hRead, hOthers, rfl⟩
          exact ⟨json, ⟨rfl, hOthers⟩, hRead⟩
        · rintro ⟨_, ⟨rfl, hOthers⟩, hRead⟩
          exact ⟨tag, hRead, hOthers, rfl⟩
      · simpa [hKey] using ih

------------------------------------------------------------
-- Slots That Are Filled
------------------------------------------------------------

/- What the members of an object are read as, one by one. -/
inductive Fills (record : Record) :
    List (String × Json) →
    Slots →
    Prop where
  | nil : Fills record [] []
  | unknown
      {key : String}
      {json : Json}
      {members : List (String × Json)}
      {slots : Slots}
      (hField : record.field? key = none)
      (hOthers : Fills record members slots) :
      Fills record ((key, json) :: members) slots
  | field
      {key : String}
      {json : Json}
      {field : Field}
      {part : Part}
      {members : List (String × Json)}
      {slots : Slots}
      (hField : record.field? key = some field)
      (hPart :
        field.part json (decode field.shape json) = .ok part)
      (hOthers : Fills record members slots) :
      Fills record ((key, json) :: members)
        ((key, part) :: slots)

theorem lookup_eq_none_iff_notMem
    {slots : Slots}
    {name : String} :
    slots.lookup name = none ↔ name ∉ slots.map Prod.fst := by
  simp only [List.lookup_eq_none_iff, bne_iff_ne, List.mem_map,
    not_exists, not_and]
  exact forall₂_congr fun s _ => ne_comm

/- A member of a field fills a slot that is still empty. -/
theorem readMembers_cons_eq_ok_iff
    {record : Record}
    {slots result : Slots}
    {key : String}
    {json : Json}
    {members : List (String × Json)}
    {field : Field}
    (hField : record.field? key = some field) :
    readMembers record slots ((key, json) :: members) =
        .ok result ↔
      key ∉ slots.map Prod.fst ∧
        ∃ part,
          field.part json (decode field.shape json) = .ok part ∧
            readMembers record ((key, part) :: slots) members =
              .ok result := by
  rw [readMembers, hField, ← lookup_eq_none_iff_notMem]
  cases slots.lookup key with
  | some part => simp
  | none => simp [bind_eq_ok_iff]

/- A slot that is filled first may as well be filled last. -/
theorem nodup_append_cons_iff
    {name : String}
    {part : Part}
    {filled slots : Slots} :
    ((filled ++ (name, part) :: slots).map Prod.fst).Nodup ↔
      (((name, part) :: filled ++ slots).map Prod.fst).Nodup :=
  (List.perm_middle.map Prod.fst).nodup_iff

/-
  An object is read when its members fill distinct slots, and
  none that was filled before.
-/
theorem readMembers_eq_ok_iff
    {record : Record}
    {slots result : Slots}
    {members : List (String × Json)}
    (hSlots : (slots.map Prod.fst).Nodup) :
    readMembers record slots members = .ok result ↔
      ∃ filled,
        Fills record members filled ∧
          ((filled ++ slots).map Prod.fst).Nodup ∧
          result = filled.reverse ++ slots := by
  induction members generalizing slots with
  | nil =>
      rw [readMembers]
      constructor
      · rintro ⟨⟩
        exact ⟨[], .nil, hSlots, rfl⟩
      · rintro ⟨_, ⟨⟩, _, rfl⟩
        rfl
  | cons m ms ih =>
      rcases m with ⟨key, json⟩
      cases hField : record.field? key with
      | none =>
          rw [readMembers, hField]
          simp only [ih hSlots]
          constructor
          · rintro ⟨filled, hFills, hOthers⟩
            exact ⟨filled, .unknown hField hFills, hOthers⟩
          · rintro ⟨filled, hFills, hOthers⟩
            cases hFills with
            | unknown _ hFills => exact ⟨filled, hFills, hOthers⟩
            | field hOther _ _ => simp [hField] at hOther
      | some field =>
          rw [readMembers_cons_eq_ok_iff hField]
          constructor
          · rintro ⟨hNew, part, hPart, hRest⟩
            have hNext :
                (((key, part) :: slots).map Prod.fst).Nodup :=
              List.nodup_cons.mpr ⟨hNew, hSlots⟩
            rcases (ih hNext).mp hRest with
              ⟨filled, hFills, hNodup, rfl⟩
            exact
              ⟨(key, part) :: filled, .field hField hPart hFills,
                nodup_append_cons_iff.mp hNodup, by simp⟩
          · rintro ⟨_, hFills, hNodup, rfl⟩
            cases hFills with
            | unknown hOther _ => simp [hField] at hOther
            | @field _ _ field' part _ filled hSame hPart hFills =>
                cases hField.symm.trans hSame
                have hAll := nodup_append_cons_iff.mpr hNodup
                have hNext :
                    (((key, part) :: slots).map Prod.fst).Nodup :=
                  hAll.sublist
                    ((List.sublist_append_right _ _).map Prod.fst)
                exact
                  ⟨(List.nodup_cons.mp hNext).1, part, hPart,
                    (ih hNext).mpr ⟨filled, hFills, hAll, by simp⟩⟩

------------------------------------------------------------
-- Slots In Another Order
------------------------------------------------------------

/- The same slots are filled by members in another order. -/
theorem fills_of_perm
    {record : Record}
    {members others : List (String × Json)}
    {filled : Slots}
    (hFills : Fills record members filled)
    (hPerm : members.Perm others) :
    ∃ filled',
      Fills record others filled' ∧ filled.Perm filled' := by
  induction hPerm generalizing filled with
  | nil => exact ⟨filled, hFills, .refl _⟩
  | cons m _ ih =>
      cases hFills with
      | unknown hField hOthers =>
          rcases ih hOthers with ⟨filled', hFills, hSlots⟩
          exact ⟨filled', .unknown hField hFills, hSlots⟩
      | field hField hPart hOthers =>
          rcases ih hOthers with ⟨filled', hFills, hSlots⟩
          exact
            ⟨_ :: filled', .field hField hPart hFills,
              hSlots.cons _⟩
  | swap m n members =>
      cases hFills with
      | unknown hFirst hOthers =>
          cases hOthers with
          | unknown hSecond hOthers =>
              exact
                ⟨_, .unknown hSecond (.unknown hFirst hOthers),
                  .refl _⟩
          | field hSecond hPart hOthers =>
              exact
                ⟨_,
                  .field hSecond hPart (.unknown hFirst hOthers),
                  .refl _⟩
      | field hFirst hPart hOthers =>
          cases hOthers with
          | unknown hSecond hOthers =>
              exact
                ⟨_,
                  .unknown hSecond (.field hFirst hPart hOthers),
                  .refl _⟩
          | field hSecond hPart' hOthers =>
              exact
                ⟨_,
                  .field hSecond hPart'
                    (.field hFirst hPart hOthers),
                  .swap _ _ _⟩
  | trans _ _ ihFirst ihSecond =>
      rcases ihFirst hFills with ⟨filled', hFills', hSlots⟩
      rcases ihSecond hFills' with ⟨filled'', hFills'', hSlots'⟩
      exact ⟨filled'', hFills'', hSlots.trans hSlots'⟩

namespace Slots

/- The same has been read of every field. -/
def Agree (slots slots' : Slots) : Prop :=
  ∀ name, slots'.lookup name = slots.lookup name

theorem lookup_eq_some_iff_mem
    {slots : Slots}
    {name : String}
    {part : Part}
    (hNames : (slots.map Prod.fst).Nodup) :
    slots.lookup name = some part ↔ (name, part) ∈ slots := by
  induction slots with
  | nil => simp
  | cons s ss ih =>
      rcases s with ⟨other, found⟩
      rw [List.map_cons, List.nodup_cons] at hNames
      rw [List.lookup_cons, List.mem_cons, Prod.mk.injEq]
      by_cases hSame : name = other
      · subst hSame
        have hElsewhere : (name, part) ∉ ss :=
          fun hMember =>
            hNames.1 (List.mem_map.mpr ⟨_, hMember, rfl⟩)
        simp [hElsewhere, eq_comm]
      · have hOther : (name == other) = false :=
          beq_eq_false_iff_ne.mpr hSame
        simp only [hOther, hSame, false_and, false_or]
        exact ih hNames.2

/- Distinct slots may be filled in any order. -/
theorem agree_of_perm
    {slots slots' : Slots}
    (hNames : (slots.map Prod.fst).Nodup)
    (hPerm : slots.Perm slots') :
    Agree slots slots' := by
  intro name
  have hNames' : (slots'.map Prod.fst).Nodup :=
    (hPerm.map Prod.fst).nodup_iff.mp hNames
  apply Option.ext
  intro part
  rw [lookup_eq_some_iff_mem hNames',
    lookup_eq_some_iff_mem hNames, hPerm.mem_iff]

section Agreement

variable {slots slots' : Slots}

theorem get?_of_agree
    (hAgree : Agree slots slots')
    (name : String)
    (shape : Shape) :
    slots'.get? name shape = slots.get? name shape := by
  rw [get?, get?, hAgree name]

theorem required_of_agree
    (hAgree : Agree slots slots')
    (name : String)
    (shape : Shape) :
    slots'.required name shape = slots.required name shape := by
  rw [required, required, get?_of_agree hAgree]

theorem optional_of_agree
    (hAgree : Agree slots slots')
    (name : String)
    (shape : Shape)
    (fallback : shape.Content) :
    slots'.optional name shape fallback =
      slots.optional name shape fallback := by
  rw [optional, optional, get?_of_agree hAgree]

end Agreement

end Slots

/- An object is read alike with its members in any order. -/
theorem readMembers_of_perm
    {record : Record}
    {members others : List (String × Json)}
    {slots : Slots}
    (hRead : readMembers record [] members = .ok slots)
    (hPerm : members.Perm others) :
    ∃ slots',
      readMembers record [] others = .ok slots' ∧
        Slots.Agree slots slots' := by
  have hNone : (([] : Slots).map Prod.fst).Nodup := List.nodup_nil
  rcases (readMembers_eq_ok_iff hNone).mp hRead with
    ⟨filled, hFills, hNames, rfl⟩
  rcases fills_of_perm hFills hPerm with
    ⟨filled', hFills', hSlots⟩
  simp only [List.append_nil] at hNames ⊢
  have hNames' : (filled'.map Prod.fst).Nodup :=
    (hSlots.map Prod.fst).nodup_iff.mp hNames
  refine ⟨filled'.reverse, ?_, ?_⟩
  · rw [readMembers_eq_ok_iff hNone]
    exact ⟨filled', hFills', by simpa using hNames', by simp⟩
  · apply Slots.agree_of_perm
    · rw [List.map_reverse, List.nodup_reverse]
      exact hNames
    · exact
        (List.reverse_perm filled).trans
          (hSlots.trans (List.reverse_perm filled').symm)

end Wire

------------------------------------------------------------
-- What Is Built
------------------------------------------------------------

section Building

open Wire

variable {slots slots' : Slots}

theorem Kind.build_of_agree
    (hAgree : Slots.Agree slots slots')
    (kind : Kind) :
    kind.build slots' = kind.build slots := by
  cases kind <;>
    simp only [build, Slots.required_of_agree hAgree,
      Slots.optional_of_agree hAgree]

theorem Value.Form.build_of_agree
    (hAgree : Slots.Agree slots slots')
    (form : Value.Form) :
    form.build slots' = form.build slots := by
  cases form <;>
    simp only [build, Slots.required_of_agree hAgree]

theorem Wire.buildProperty_of_agree
    (hAgree : Slots.Agree slots slots') :
    buildProperty slots' = buildProperty slots := by
  simp only [buildProperty, Slots.required_of_agree hAgree]

theorem Wire.buildArgument_of_agree
    (hAgree : Slots.Agree slots slots') :
    buildArgument slots' = buildArgument slots := by
  simp only [buildArgument, Slots.required_of_agree hAgree,
    Slots.optional_of_agree hAgree]

end Building

end BlockProgram
