import BlockProgram.Proofs.Wire.Decoding
import BlockProgram.Proofs.Wire.Reordering
import BlockProgram.Proofs.Wire.Watching

/-
  Programs that are written as JSON text are read again.

  The reader does not tell the two styles of a text apart.
  It answers with the program itself, provided that no more
  lists and objects are nested in the text than it can keep
  open, and that the tree passes the check.

  Main declarations:
    * `Wire.isNumberFree_encode`
    * `Wire.readBlocks_write`
    * `Wire.answerTo`
    * `Wire.readProgram_text`
-/

namespace BlockProgram

namespace Json

------------------------------------------------------------
-- Values Without Numbers
------------------------------------------------------------

theorem areNumberFree_map
    {f : α → Json}
    {xs : List α}
    (h : ∀ x ∈ xs, (f x).isNumberFree = true) :
    areNumberFree (xs.map f) = true := by
  induction xs with
  | nil => rfl
  | cons x xs ih =>
      rcases List.forall_mem_cons.mp h with ⟨hFirst, hOthers⟩
      rw [List.map_cons, areNumberFree, hFirst, ih hOthers]
      rfl

theorem isNumberFree_ofTexts (texts : List String) :
    (ofTexts texts).isNumberFree = true := by
  rw [ofTexts, isNumberFree]
  exact areNumberFree_map fun _ _ => rfl

end Json

------------------------------------------------------------
-- Encoded Programs
------------------------------------------------------------

/- No number stands in an encoded value. -/
theorem Value.isNumberFree_toJson (v : Value) :
    v.toJson.isNumberFree = true := by
  induction v using Value.induction with
  | simple text => rfl
  | array items ih =>
      have hItems : Json.areNumberFree (itemsToJson items) = true := by
        rw [itemsToJson_eq_map]
        exact Json.areNumberFree_map ih
      simp [toJson, tagged, Json.isNumberFree,
        Json.areMembersNumberFree, hItems]
  | object properties ih =>
      have hProperties :
          Json.areNumberFree (propertiesToJson properties) =
            true := by
        rw [propertiesToJson_eq_map]
        apply Json.areNumberFree_map
        intro p hp
        simp [propertyToJson, Json.isNumberFree,
          Json.areMembersNumberFree, ih p hp]
      simp [toJson, tagged, Json.isNumberFree,
        Json.areMembersNumberFree, hProperties]
  | call callee arguments ih =>
      have hArguments :
          Json.areNumberFree (argumentsToJson arguments) =
            true := by
        rw [argumentsToJson_eq_map]
        apply Json.areNumberFree_map
        rintro ⟨_ | name, v⟩ ha
        · simp [argumentToJson, nameMember, Json.isNumberFree,
            Json.areMembersNumberFree, ih _ ha]
        · simp [argumentToJson, nameMember, Json.isNumberFree,
            Json.areMembersNumberFree, ih _ ha]
      simp [toJson, tagged, Json.isNumberFree,
        Json.areMembersNumberFree, hArguments]

/- No number stands in an encoded block. -/
theorem Block.isNumberFree_toJson (b : Block) :
    b.toJson.isNumberFree = true := by
  have hBody {body : List Block}
      (h : ∀ b ∈ body, b.toJson.isNumberFree = true) :
      Json.areNumberFree (bodyToJson body) = true := by
    rw [bodyToJson_eq_map]
    exact Json.areNumberFree_map h
  induction b using Block.induction with
  | function id name parameters body ih =>
      simp [toJson, tagged, Json.isNumberFree,
        Json.areMembersNumberFree, Json.isNumberFree_ofTexts,
        hBody ih]
  | assignment id name value =>
      simp [toJson, tagged, Json.isNumberFree,
        Json.areMembersNumberFree, value.isNumberFree_toJson]
  | conditional id condition body elseKind elseBody ihBody
      ihElse =>
      simp [toJson, tagged, Json.isNumberFree,
        Json.areMembersNumberFree, hBody ihBody, hBody ihElse]
  | loop id iterator iterable body ih =>
      simp [toJson, tagged, Json.isNumberFree,
        Json.areMembersNumberFree, hBody ih]
  | ret id value =>
      simp [toJson, tagged, Json.isNumberFree,
        Json.areMembersNumberFree]
  | call id callee arguments =>
      simp [toJson, tagged, Json.isNumberFree,
        Json.areMembersNumberFree, Json.isNumberFree_ofTexts]

section DistinctKeys

open Json
  (HasDistinctKeys hasDistinctKeys_array_iff
    hasDistinctKeys_object_iff hasDistinctKeys_ofTexts)

open Wire (tagKey)

/- No key stands twice in an object of an encoded value. -/
theorem Value.hasDistinctKeys_toJson (v : Value) :
    v.toJson.HasDistinctKeys := by
  induction v using Value.induction with
  | simple text =>
      simp [toJson, tagged, hasDistinctKeys_object_iff, tagKey,
        HasDistinctKeys.text]
  | array items ih =>
      have hItems :
          (Json.array (itemsToJson items)).HasDistinctKeys := by
        rw [itemsToJson_eq_map, hasDistinctKeys_array_iff]
        exact List.forall_mem_map.mpr ih
      simp [toJson, tagged, hasDistinctKeys_object_iff, tagKey,
        HasDistinctKeys.text, hItems]
  | object properties ih =>
      have hProperties :
          (Json.array
            (propertiesToJson properties)).HasDistinctKeys := by
        rw [propertiesToJson_eq_map, hasDistinctKeys_array_iff]
        rw [List.forall_mem_map]
        intro p hp
        simp [propertyToJson, hasDistinctKeys_object_iff,
          HasDistinctKeys.text, ih p hp]
      simp [toJson, tagged, hasDistinctKeys_object_iff, tagKey,
        HasDistinctKeys.text, hProperties]
  | call callee arguments ih =>
      have hArguments :
          (Json.array
            (argumentsToJson arguments)).HasDistinctKeys := by
        rw [argumentsToJson_eq_map, hasDistinctKeys_array_iff]
        rw [List.forall_mem_map]
        rintro ⟨_ | name, v⟩ ha
        · simp [argumentToJson, nameMember,
            hasDistinctKeys_object_iff, ih _ ha]
        · simp [argumentToJson, nameMember,
            hasDistinctKeys_object_iff, HasDistinctKeys.text,
            ih _ ha]
      simp [toJson, tagged, hasDistinctKeys_object_iff, tagKey,
        HasDistinctKeys.text, hArguments]

/- Nor in an object of an encoded block. -/
theorem Block.hasDistinctKeys_toJson (b : Block) :
    b.toJson.HasDistinctKeys := by
  have hBody {body : List Block}
      (h : ∀ b ∈ body, b.toJson.HasDistinctKeys) :
      (Json.array (bodyToJson body)).HasDistinctKeys := by
    rw [bodyToJson_eq_map, hasDistinctKeys_array_iff]
    exact List.forall_mem_map.mpr h
  induction b using Block.induction with
  | function id name parameters body ih =>
      simp [toJson, tagged, hasDistinctKeys_object_iff, tagKey,
        HasDistinctKeys.text, hasDistinctKeys_ofTexts, hBody ih]
  | assignment id name value =>
      simp [toJson, tagged, hasDistinctKeys_object_iff, tagKey,
        HasDistinctKeys.text, value.hasDistinctKeys_toJson]
  | conditional id condition body elseKind elseBody ihBody
      ihElse =>
      simp [toJson, tagged, hasDistinctKeys_object_iff, tagKey,
        HasDistinctKeys.text, hBody ihBody, hBody ihElse]
  | loop id iterator iterable body ih =>
      simp [toJson, tagged, hasDistinctKeys_object_iff, tagKey,
        HasDistinctKeys.text, hBody ih]
  | ret id value =>
      simp [toJson, tagged, hasDistinctKeys_object_iff, tagKey,
        HasDistinctKeys.text]
  | call id callee arguments =>
      simp [toJson, tagged, hasDistinctKeys_object_iff, tagKey,
        HasDistinctKeys.text, hasDistinctKeys_ofTexts]

end DistinctKeys

namespace Wire

theorem isNumberFree_encode (blocks : List Block) :
    (encode blocks).isNumberFree = true := by
  rw [encode, Block.bodyToJson_eq_map, Json.isNumberFree]
  exact
    Json.areNumberFree_map fun b _ => b.isNumberFree_toJson

theorem hasDistinctKeys_encode (blocks : List Block) :
    (encode blocks).HasDistinctKeys := by
  rw [encode, Block.bodyToJson_eq_map,
    Json.hasDistinctKeys_array_iff]
  exact List.forall_mem_map.mpr fun b _ => b.hasDistinctKeys_toJson

theorem decodeBlocks_encode (blocks : List Block) :
    decodeBlocks (encode blocks) = .ok blocks :=
  Block.decode_body fun b _ => b.decode_toJson .words

------------------------------------------------------------
-- Reading What Was Written
------------------------------------------------------------

/- A block is an object that is decoded in whatever order. -/
theorem exists_members_of_reorders
    {b : Block}
    {json : Json}
    (hReorders : Json.Reorders b.toJson json) :
    ∃ members c,
      json = .object members ∧
        decode (.block .words) json = .ok c := by
  have hDecodes : decode (.block .words) json = .ok b :=
    decodesInAnyOrder b.toJson json hReorders (.block .words) b
      (b.decode_toJson .words)
  have hObject : ∃ members, b.toJson = .object members := by
    cases b <;> exact ⟨_, rfl⟩
  rcases hObject with ⟨members, hMembers⟩
  rw [hMembers] at hReorders
  cases hReorders with
  | object _ _ => exact ⟨_, b, rfl, hDecodes⟩

/- An encoded program is decoded in whatever order. -/
theorem decodeBlocks_of_reorders
    {blocks : List Block}
    {json : Json}
    (hReorders : Json.Reorders (encode blocks) json) :
    decodeBlocks json = .ok blocks :=
  decodesInAnyOrder (encode blocks) json hReorders
    (.list (.block .words)) blocks (decodeBlocks_encode blocks)

/-
  The blocks of the text of a list of objects, in either
  style, unless it is nested too deep.
-/
theorem readBlocks_of_decodes
    {blocks : List Block}
    {items : List Json}
    (hFree : (Json.array items).isNumberFree = true)
    (hItems :
      ∀ json ∈ items,
        ∃ members b,
          json = .object members ∧
            decode (.block .words) json = .ok b)
    (hDecodes : decodeBlocks (.array items) = .ok blocks)
    (style : Json.Style) :
    readBlocks
        (String.ofList ((Json.array items).write style 0 [])) =
      if (Json.array items).depth ≤ Json.maxDepth then
        .ok blocks
      else .error (.fault .tooDeep) := by
  have hTokens :
      Json.tokens ((Json.array items).write style 0 []) =
        Json.spelled (.array items) [] := by
    rw [Json.tokens_write hFree, Json.tokens]
  have hRun :
      watchedRun Json.start (Json.spelled (.array items) []) =
        withinDepth (0 + (Json.array items).depth)
          (.ok (.ended (.array items))) :=
    readsOn_document hItems []
  rw [readBlocks, String.toList_ofList, hTokens, hRun,
    Nat.zero_add, withinDepth]
  by_cases hDepth : (Json.array items).depth ≤ Json.maxDepth
  · rw [if_pos hDepth, if_pos hDepth]
    simp only [Json.State.finish, hDecodes]
  · rw [if_neg hDepth, if_neg hDepth]

/-
  The blocks of a program's text, in either style and with
  the members in any order, unless it is nested too deep.
-/
theorem readBlocks_write
    {blocks : List Block}
    {json : Json}
    (hReorders : Json.Reorders (encode blocks) json)
    (style : Json.Style) :
    readBlocks (String.ofList (json.write style 0 [])) =
      if (encode blocks).depth ≤ Json.maxDepth then .ok blocks
      else .error (.fault .tooDeep) := by
  have hFree : json.isNumberFree = true := by
    rw [Json.isNumberFree_of_reorders hReorders,
      isNumberFree_encode]
  have hDecodes := decodeBlocks_of_reorders hReorders
  rw [← Json.depth_of_reorders hReorders]
  rw [encode, Block.bodyToJson_eq_map] at hReorders
  cases hReorders with
  | array hItems =>
      rw [List.forall₂_map_left_iff] at hItems
      have hObjects :=
        Json.forall_mem_of_forall₂ hItems fun _ _ hBlock =>
          exists_members_of_reorders hBlock
      exact readBlocks_of_decodes hFree hObjects hDecodes style

/- A program that is read has blocks that pass the check. -/
theorem readProgram_eq_ok_iff
    {source : String}
    {blocks : List Block} :
    readProgram source = .ok blocks ↔
      readBlocks source = .ok blocks ∧
        checkTree blocks = .ok () := by
  rw [readProgram]
  cases readBlocks source with
  | error problem => simp
  | ok found =>
      cases hCheck : checkTree found with
      | ok _ =>
          simp only [hCheck, Except.ok.injEq, iff_self_and]
          rintro rfl
          exact hCheck
      | error fault =>
          simp only [hCheck, Except.ok.injEq, reduceCtorEq,
            false_iff]
          rintro ⟨rfl, hOk⟩
          rw [hCheck] at hOk
          cases hOk

/-
  What the text of a program is answered with.  No more than
  127 lists and objects may stand one inside another, and the
  tree is checked when the whole text has been read.
-/
def answerTo (blocks : List Block) : Except Error (List Block) :=
  if (encode blocks).depth ≤ 127 then
    match checkTree blocks with
    | .ok () => .ok blocks
    | .error fault => .error (.tree fault)
  else .error (.json (.fault .tooDeep))

/- The order of the members is nothing to the answer. -/
theorem readProgram_of_reorders
    {blocks : List Block}
    {json : Json}
    (hReorders : Json.Reorders (encode blocks) json)
    (style : Json.Style) :
    readProgram (String.ofList (json.write style 0 [])) =
      answerTo blocks := by
  rw [readProgram, readBlocks_write hReorders, answerTo,
    Json.maxDepth]
  by_cases hDepth : (encode blocks).depth ≤ 127
  · rw [if_pos hDepth, if_pos hDepth]
    cases hCheck : checkTree blocks with
    | ok _ => simp only [hCheck]
    | error fault => simp only [hCheck]
  · rw [if_neg hDepth, if_neg hDepth]

theorem readProgram_write
    (style : Json.Style)
    (blocks : List Block) :
    readProgram
        (String.ofList ((encode blocks).write style 0 [])) =
      answerTo blocks :=
  readProgram_of_reorders (Json.reorders_refl _) style

/-
  Either text of a program is read as the program, when its
  tree passes the check, and fails with what the check found
  when it does not.  A text that is nested deeper than the
  reader can follow is refused for that.
-/
theorem readProgram_text (blocks : List Block) :
    readProgram (compactText blocks) = answerTo blocks ∧
      readProgram (prettyText blocks) = answerTo blocks ∧
        (Error.json (.fault .tooDeep)).message =
          "JSON error: recursion limit exceeded" := by
  refine ⟨?_, ?_, rfl⟩
  · exact readProgram_write .compact blocks
  · exact readProgram_write .pretty blocks

end Wire

end BlockProgram
