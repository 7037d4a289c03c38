import BlockProgram.Boundary
import BlockProgram.Proofs.Scope.Walking
import BlockProgram.Proofs.Source.Freshness
import BlockProgram.Proofs.Text.Utf8
import BlockProgram.Proofs.Wire.RoundTrip

/-
  What is read from a source text can be handed back.

  The blocks come out with the members of every object
  ordered by their keys.  Handed back in that order they are
  the program that was read, unless they are nested deeper
  than the reader of a JSON text can follow.

  Main declarations:
    * `Scope.visibleNames_withoutIds`
    * `Boundary.programOf_ordered`
    * `Boundary.replyWithin`
    * `Boundary.parsed_blocks_are_accepted`
    * `Boundary.longLadder_is_refused`
-/

namespace BlockProgram

------------------------------------------------------------
-- Names Without Ids
------------------------------------------------------------

namespace Scope

open Source (withoutIds)

/- What a block declares does not depend on its id. -/
theorem declared?_withoutIds (b : Block) :
    (withoutIds b).declared? = b.declared? := by
  cases b <;> rfl

/- Up to the end of a program no id is asked for. -/
theorem visibleNames_withoutIds
    (parameters : List String)
    (blocks : List Block) :
    visibleNames none parameters (blocks.map withoutIds) =
      visibleNames none parameters blocks := by
  have hOrder :
      documentOrder (blocks.map withoutIds) =
        (documentOrder blocks).map withoutIds :=
    Source.inOrderAll_withoutIds_of_forall fun b _ =>
      Source.inOrder_withoutIds b
  rw [visibleNames_eq, visibleNames_eq, declaredBefore_none,
    declaredBefore_none, hOrder, List.filterMap_map,
    Function.comp_def]
  simp only [declared?_withoutIds]

end Scope

------------------------------------------------------------
-- The Number That A Parse Begins With
------------------------------------------------------------

namespace Source

/- Another number to begin with changes nothing but ids. -/
theorem map_withoutIds_parse
    (n m : Nat)
    (source : String) :
    (parse n source).map withoutIds =
      (parse m source).map withoutIds := by
  rw [parse, read, parse, read, map_withoutIds_renumberClosingAll,
    map_withoutIds_renumberClosingAll]

/- The text of what was read does not depend on it. -/
theorem compile_parse_eq
    (n m : Nat)
    (source : String)
    (width : Nat) :
    compile width (parse n source) =
      compile width (parse m source) := by
  rw [compile_of_areSound (areSound_parse n source),
    compile_of_areSound (areSound_parse m source),
    ← programText_withoutIds, map_withoutIds_parse n m,
    programText_withoutIds]

/- Nor do the names that are visible at the end. -/
theorem visibleNames_parse_eq
    (n m : Nat)
    (source : String)
    (parameters : List String) :
    visibleNames none parameters (parse n source) =
      visibleNames none parameters (parse m source) := by
  rw [← Scope.visibleNames_withoutIds,
    map_withoutIds_parse n m, Scope.visibleNames_withoutIds]

end Source

namespace Boundary

------------------------------------------------------------
-- Texts That Are Handed Over
------------------------------------------------------------

theorem textOf_encode (source : String) :
    textOf (Utf8.encode source) = .ok source := by
  rw [textOf, Utf8.decode_encode]

theorem programOf_encode (source : String) :
    programOf (Utf8.encode source) = Wire.readProgram source := by
  rw [programOf, textOf_encode]
  rfl

/- The blocks of a program whose tree passes the check. -/
theorem programOf_ordered
    {blocks : List Block}
    (hCheck : checkTree blocks = .ok ()) :
    programOf (Utf8.encode (Wire.encode blocks).ordered.compact) =
      if (Wire.encode blocks).ordered.depth ≤ 127 then .ok blocks
      else .error (.json (.fault .tooDeep)) := by
  have hReorders :=
    Json.reorders_ordered (Wire.hasDistinctKeys_encode blocks)
  rw [programOf_encode, Json.compact,
    Wire.readProgram_of_reorders hReorders,
    Json.depth_of_reorders hReorders, Wire.answerTo, hCheck]

------------------------------------------------------------
-- Replies
------------------------------------------------------------

theorem ordered_ofTexts (texts : List String) :
    (Json.ofTexts texts).ordered = .ofTexts texts := by
  rw [Json.ofTexts, Json.ordered, Json.orderedItems_eq_map,
    List.map_map]
  rfl

/- The reply to a parse, and the blocks in it. -/
theorem member?_parse
    (n : Nat)
    (source : String) :
    (answer (parse n (Utf8.encode source))).ordered.member?
        "blocks" =
      some (Wire.encode (Source.parse n source)).ordered := by
  have hOrder : ¬"diagnostics" < "blocks" := by decide
  rw [parse, textOf_encode]
  simp only [bind, Except.bind, pure, Except.pure, answer,
    Json.ordered, Json.orderedMembers, Json.insertMember, hOrder,
    if_false]
  rfl

section Requests

variable {program : List UInt8}

theorem compile_of_programOf
    {blocks : List Block}
    (hProgram : programOf program = .ok blocks)
    {text : String}
    (hText :
      Source.compile Source.defaultWidth blocks = .ok text) :
    compile program = .ok (.object [("source", .text text)]) := by
  rw [compile, hProgram]
  simp only [bind, Except.bind, hText]
  rfl

theorem names_of_programOf
    {blocks : List Block}
    (hProgram : programOf program = .ok blocks) :
    names program [] =
      .ok (.ofTexts (visibleNames none [] blocks)) := by
  have hId : textOf [] = .ok "" := textOf_encode ""
  rw [names, hProgram]
  simp only [bind, Except.bind, hId, if_true]
  rfl

/- What cannot be taken in is answered by why it cannot. -/
theorem requests_of_error
    {error : Error}
    (hProgram : programOf program = .error error) :
    compile program = .error error ∧
      names program [] = .error error := by
  rw [compile, names, hProgram]
  exact ⟨rfl, rfl⟩

end Requests

/- The reply to blocks that are nested too deep. -/
def tooDeepReply : String :=
  (Json.object
    [("error",
      .text "JSON error: recursion limit exceeded")]).compact

/-
  The reply to a request that hands over blocks in JSON.  No
  more than 127 lists and objects may stand in them one
  inside another.
-/
def replyWithin (blocks json : Json) : String :=
  if blocks.depth ≤ 127 then json.compact else tooDeepReply

/-
  The blocks in the reply to a parse are accepted where
  blocks are asked for, in the order in which the reply holds
  them.  They compile to the text of what was parsed, and the
  names at their end are those of what was parsed, whatever
  number its ids begin with.  Only blocks that are nested too
  deep are refused.
-/
theorem parsed_blocks_are_accepted
    (n m : Nat)
    (source : String) :
    ∃ blocks text,
      (answer (parse n (Utf8.encode source))).ordered.member?
            "blocks" =
          some blocks ∧
        Source.compile Source.defaultWidth
            (Source.parse m source) =
          .ok text ∧
        reply (compile (Utf8.encode blocks.compact)) =
          replyWithin blocks (.object [("source", .text text)]) ∧
        reply (names (Utf8.encode blocks.compact) []) =
          replyWithin blocks
            (.ofTexts
              (visibleNames none [] (Source.parse m source))) := by
  have hProgram :=
    programOf_ordered (Source.checkTree_parse n source)
  have hText :=
    Source.compile_of_areSound (Source.areSound_parse n source)
      Source.defaultWidth
  refine
    ⟨(Wire.encode (Source.parse n source)).ordered,
      Source.programText Source.defaultWidth
        (Source.parse n source),
      member?_parse n source, ?_, ?_⟩
  · rw [Source.compile_parse_eq m n, hText]
  by_cases hDepth :
      (Wire.encode (Source.parse n source)).ordered.depth ≤ 127
  · rw [if_pos hDepth] at hProgram
    rw [replyWithin, replyWithin, if_pos hDepth, if_pos hDepth,
      compile_of_programOf hProgram hText,
      names_of_programOf hProgram,
      Source.visibleNames_parse_eq m n]
    exact ⟨rfl, congrArg Json.compact (ordered_ofTexts _)⟩
  · rw [if_neg hDepth] at hProgram
    rw [replyWithin, replyWithin, if_neg hDepth, if_neg hDepth,
      (requests_of_error hProgram).1,
      (requests_of_error hProgram).2]
    exact ⟨rfl, rfl⟩

------------------------------------------------------------
-- A Program That Is Nested Too Deep
------------------------------------------------------------

/-
  A text that is given by its characters is read without
  being put into bytes, which the kernel is slow to do.
-/
theorem parse_ofList
    (n : Nat)
    (chars : List Char) :
    Source.parse n (String.ofList chars) =
      Block.renumberClosingAll n
        (Source.draft
          (Source.outline
            ((Source.linesFrom 0 (chars.splitOn '\n')).filter
              Source.Line.isSignificant))) := by
  rw [Source.parse, Source.read, Source.significantLines,
    Source.rawLines, String.toList_ofList]

/- The characters of a ladder with 64 empty rungs. -/
def longLadderChars : List Char :=
  "if a:\n".toList ++
    (List.replicate 63 "elif a:\n".toList).flatten

/- The text of the ladder. -/
def longLadder : String :=
  String.ofList longLadderChars

/- Each rung is an object in the list of the rung above. -/
theorem depth_longLadder :
    (Wire.encode (Source.parse 1 longLadder)).depth = 129 := by
  rewrite [longLadder, parse_ofList]
  decide +kernel

/- The blocks of a long ladder are not taken back. -/
theorem longLadder_is_refused :
    ∃ blocks,
      (answer (parse 1 (Utf8.encode longLadder))).ordered.member?
            "blocks" =
          some blocks ∧
        reply (compile (Utf8.encode blocks.compact)) =
          tooDeepReply ∧
        ∀ text,
          reply (compile (Utf8.encode blocks.compact)) ≠
            (Json.object [("source", .text text)]).compact := by
  have hDepth :
      ¬(Wire.encode (Source.parse 1 longLadder)).ordered.depth ≤
          127 := by
    rw [Json.depth_of_reorders
        (Json.reorders_ordered (Wire.hasDistinctKeys_encode _)),
      depth_longLadder]
    decide
  have hProgram :=
    programOf_ordered (Source.checkTree_parse 1 longLadder)
  rw [if_neg hDepth] at hProgram
  have hReply :
      reply (compile
          (Utf8.encode
            (Wire.encode
              (Source.parse 1 longLadder)).ordered.compact)) =
        tooDeepReply := by
    rw [(requests_of_error hProgram).1]
    rfl
  refine ⟨_, member?_parse 1 longLadder, hReply, ?_⟩
  intro text hSame
  have hChars := String.ofList_injective (hReply.symm.trans hSame)
  -- the replies differ in the first letter of their only key
  have hThird : some 'e' = some 's' :=
    congrArg (fun chars => chars[2]?) hChars
  cases hThird

end Boundary

end BlockProgram
