import Mathlib.Data.List.Forall2
import Mathlib.Data.List.Perm.Basic
import BlockProgram.Proofs.Json.Nesting

/-
  Values that differ only in the order of members.

  The order of the members may differ in every object at any
  depth.  A value with distinct keys differs from its ordered
  form in nothing else, since no member then takes the place
  of another.

  Main declarations:
    * `Json.Reorders`
    * `Json.reorders_refl`
    * `Json.depth_of_reorders`
    * `Json.isNumberFree_of_reorders`
    * `Json.HasDistinctKeys`
    * `Json.reorders_ordered`
-/

namespace BlockProgram

namespace Json

------------------------------------------------------------
-- Values In Another Order
------------------------------------------------------------

mutual

/- The second value is the first, with the members of objects
   in any order. -/
inductive Reorders : Json → Json → Prop where
  | null : Reorders .null .null
  | bool (b : Bool) : Reorders (.bool b) (.bool b)
  | number (n : Number) : Reorders (.number n) (.number n)
  | text (s : String) : Reorders (.text s) (.text s)
  | array
      {vs ws : List Json}
      (hItems : List.Forall₂ Reorders vs ws) :
      Reorders (.array vs) (.array ws)
  | object
      {ms ns ps : List (String × Json)}
      (hMembers : List.Forall₂ MemberReorders ms ns)
      (hPerm : ns.Perm ps) :
      Reorders (.object ms) (.object ps)

/- The same key, with a value in another order. -/
inductive MemberReorders :
    String × Json →
    String × Json →
    Prop where
  | value
      (k : String)
      {v w : Json}
      (hValue : Reorders v w) :
      MemberReorders (k, v) (k, w)

end

/- A value is in its own order. -/
theorem reorders_refl (v : Json) : Reorders v v := by
  induction v using Json.induction with
  | null => exact .null
  | bool b => exact .bool b
  | number n => exact .number n
  | text s => exact .text s
  | array vs ih => exact .array (List.forall₂_same.mpr ih)
  | object ms ih =>
      refine .object (List.forall₂_same.mpr ?_) (.refl ms)
      exact fun m hm => .value m.1 (ih m hm)

------------------------------------------------------------
-- What The Order Leaves Unchanged
------------------------------------------------------------

/- What the items of two lists agree in, one by one. -/
theorem map_eq_of_forall₂
    {R : α → α → Prop}
    {f : α → β}
    {xs ys : List α}
    (hItems : List.Forall₂ R xs ys)
    (hSame : ∀ x ∈ xs, ∀ y, R x y → f y = f x) :
    ys.map f = xs.map f := by
  induction hItems with
  | nil => rfl
  | cons hFirst _ ih =>
      rcases List.forall_mem_cons.mp hSame with
        ⟨hFirstSame, hOthersSame⟩
      rw [List.map_cons, List.map_cons, hFirstSame _ hFirst,
        ih hOthersSame]

/- What each item of one list grants the other's, it has. -/
theorem forall_mem_of_forall₂
    {R : α → β → Prop}
    {p : β → Prop}
    {xs : List α}
    {ys : List β}
    (hItems : List.Forall₂ R xs ys)
    (hEach : ∀ x y, R x y → p y) :
    ∀ y ∈ ys, p y := by
  induction hItems with
  | nil => exact List.forall_mem_nil p
  | cons hFirst _ ih =>
      exact List.forall_mem_cons.mpr ⟨hEach _ _ hFirst, ih⟩

/- What the members of two objects agree in, one by one. -/
theorem map_snd_eq_of_forall₂
    {f : Json → β}
    {ms ns : List (String × Json)}
    (hMembers : List.Forall₂ MemberReorders ms ns)
    (hSame : ∀ m ∈ ms, ∀ w, Reorders m.2 w → f w = f m.2) :
    ns.map (fun n => f n.2) = ms.map fun m => f m.2 := by
  apply map_eq_of_forall₂ hMembers
  intro m hm n hMember
  rcases hMember with ⟨k, hValue⟩
  exact hSame _ hm _ hValue

theorem depthItems_eq_foldr (vs : List Json) :
    depthItems vs = (vs.map depth).foldr max 0 := by
  induction vs with
  | nil => rfl
  | cons v vs ih =>
      rw [depthItems, ih, List.map_cons, List.foldr_cons]

theorem depthMembers_eq_foldr (ms : List (String × Json)) :
    depthMembers ms =
      (ms.map fun m => m.2.depth).foldr max 0 := by
  induction ms with
  | nil => rfl
  | cons m ms ih =>
      rw [depthMembers, ih, List.map_cons, List.foldr_cons]

/- The order of members does not change the nesting. -/
theorem depth_of_reorders
    {v w : Json}
    (hReorders : Reorders v w) :
    w.depth = v.depth := by
  induction v using Json.induction generalizing w with
  | null => cases hReorders; rfl
  | bool b => cases hReorders; rfl
  | number n => cases hReorders; rfl
  | text s => cases hReorders; rfl
  | array vs ih =>
      cases hReorders with
      | array hItems =>
          rw [depth, depth, depthItems_eq_foldr,
            depthItems_eq_foldr,
            map_eq_of_forall₂ hItems fun v hv _ => ih v hv]
  | object ms ih =>
      cases hReorders with
      | object hMembers hPerm =>
          have hDepths := hPerm.map fun m => m.2.depth
          rw [depth, depth, depthMembers_eq_foldr,
            depthMembers_eq_foldr, ← hDepths.foldr_eq,
            map_snd_eq_of_forall₂ hMembers fun m hm _ => ih m hm]

theorem areNumberFree_eq_all (vs : List Json) :
    areNumberFree vs = (vs.map isNumberFree).all id := by
  induction vs with
  | nil => rfl
  | cons v vs ih =>
      rw [areNumberFree, ih, List.map_cons, List.all_cons, id]

theorem areMembersNumberFree_eq_all
    (ms : List (String × Json)) :
    areMembersNumberFree ms =
      (ms.map fun m => m.2.isNumberFree).all id := by
  induction ms with
  | nil => rfl
  | cons m ms ih =>
      rw [areMembersNumberFree, ih, List.map_cons, List.all_cons,
        id]

/- Nor does it add or remove a number. -/
theorem isNumberFree_of_reorders
    {v w : Json}
    (hReorders : Reorders v w) :
    w.isNumberFree = v.isNumberFree := by
  induction v using Json.induction generalizing w with
  | null => cases hReorders; rfl
  | bool b => cases hReorders; rfl
  | number n => cases hReorders; rfl
  | text s => cases hReorders; rfl
  | array vs ih =>
      cases hReorders with
      | array hItems =>
          rw [isNumberFree, isNumberFree, areNumberFree_eq_all,
            areNumberFree_eq_all,
            map_eq_of_forall₂ hItems fun v hv _ => ih v hv]
  | object ms ih =>
      cases hReorders with
      | object hMembers hPerm =>
          have hFree := hPerm.map fun m => m.2.isNumberFree
          rw [isNumberFree, isNumberFree,
            areMembersNumberFree_eq_all,
            areMembersNumberFree_eq_all, ← hFree.all_eq,
            map_snd_eq_of_forall₂ hMembers fun m hm _ => ih m hm]

------------------------------------------------------------
-- Distinct Keys
------------------------------------------------------------

/- No key stands twice in an object, at any depth. -/
inductive HasDistinctKeys : Json → Prop where
  | null : HasDistinctKeys .null
  | bool (b : Bool) : HasDistinctKeys (.bool b)
  | number (n : Number) : HasDistinctKeys (.number n)
  | text (s : String) : HasDistinctKeys (.text s)
  | array
      {vs : List Json}
      (hItems : ∀ v ∈ vs, HasDistinctKeys v) :
      HasDistinctKeys (.array vs)
  | object
      {ms : List (String × Json)}
      (hKeys : (ms.map Prod.fst).Nodup)
      (hMembers : ∀ m ∈ ms, HasDistinctKeys m.2) :
      HasDistinctKeys (.object ms)

theorem hasDistinctKeys_array_iff
    {vs : List Json} :
    (array vs).HasDistinctKeys ↔ ∀ v ∈ vs, v.HasDistinctKeys :=
  ⟨fun | .array hItems => hItems, .array⟩

theorem hasDistinctKeys_object_iff
    {ms : List (String × Json)} :
    (object ms).HasDistinctKeys ↔
      (ms.map Prod.fst).Nodup ∧ ∀ m ∈ ms, m.2.HasDistinctKeys :=
  ⟨fun | .object hKeys hMembers => ⟨hKeys, hMembers⟩,
    fun h => .object h.1 h.2⟩

theorem hasDistinctKeys_ofTexts (texts : List String) :
    (ofTexts texts).HasDistinctKeys := by
  rw [ofTexts, hasDistinctKeys_array_iff]
  exact List.forall_mem_map.mpr fun s _ => .text s

/- A new key is put among the others. -/
theorem insertMember_perm
    {key : String}
    {ms : List (String × Json)}
    (hNew : key ∉ ms.map Prod.fst)
    (value : Json) :
    ((key, value) :: ms).Perm (insertMember key value ms) := by
  induction ms with
  | nil => rw [insertMember]
  | cons m ms ih =>
      rcases m with ⟨k, v⟩
      rw [List.map_cons, List.mem_cons, not_or] at hNew
      rw [insertMember]
      by_cases hBefore : key < k
      · rw [if_pos hBefore]
      · rw [if_neg hBefore, if_neg hNew.1]
        exact
          (List.Perm.swap (k, v) (key, value) ms).trans
            ((ih hNew.2).cons (k, v))

/- Members with distinct keys are all put among the others. -/
theorem orderedMembers_perm
    {ms sofar : List (String × Json)}
    (hKeys : (ms.map Prod.fst).Nodup)
    (hNew : ∀ m ∈ ms, m.1 ∉ sofar.map Prod.fst) :
    (ms.map (Prod.map id ordered) ++ sofar).Perm
      (orderedMembers sofar ms) := by
  induction ms generalizing sofar with
  | nil => rw [orderedMembers, List.map_nil, List.nil_append]
  | cons m ms ih =>
      rcases m with ⟨k, v⟩
      rw [List.map_cons, List.nodup_cons] at hKeys
      rcases List.forall_mem_cons.mp hNew with
        ⟨hFirst, hOthers⟩
      have hInsert := insertMember_perm hFirst v.ordered
      have hStillNew :
          ∀ m ∈ ms,
            m.1 ∉ (insertMember k v.ordered sofar).map
              Prod.fst := by
        intro m hm hMember
        rw [← (hInsert.map Prod.fst).mem_iff, List.map_cons,
          List.mem_cons] at hMember
        rcases hMember with hSame | hMember
        · exact hKeys.1 (hSame ▸ List.mem_map_of_mem hm)
        · exact hOthers m hm hMember
      rw [orderedMembers, List.map_cons, List.cons_append]
      exact
        List.perm_middle.symm.trans
          ((hInsert.append_left _).trans (ih hKeys.2 hStillNew))

theorem orderedItems_eq_map (vs : List Json) :
    orderedItems vs = vs.map ordered := by
  induction vs with
  | nil => rfl
  | cons v vs ih => rw [orderedItems, ih, List.map_cons]

/- A value with distinct keys is only put in another order. -/
theorem reorders_ordered
    {v : Json}
    (hKeys : v.HasDistinctKeys) :
    Reorders v v.ordered := by
  induction hKeys with
  | null => exact .null
  | bool b => exact .bool b
  | number n => exact .number n
  | text s => exact .text s
  | array _ ih =>
      rw [ordered, orderedItems_eq_map]
      exact .array (List.forall₂_map_right_iff.mpr
        (List.forall₂_same.mpr ih))
  | @object ms hKeys _ ih =>
      have hPerm :
          (ms.map (Prod.map id ordered)).Perm
            (orderedMembers [] ms) := by
        simpa using @orderedMembers_perm ms [] hKeys (by simp)
      rw [ordered]
      refine .object ?_ hPerm
      rw [List.forall₂_map_right_iff, List.forall₂_same]
      exact fun m hm => .value m.1 (ih m hm)

end Json

end BlockProgram
