import BlockProgram.Block.Equality
import BlockProgram.Proofs.Wire.Room

/-
  Programs that were read are read back.

  The blocks of a program stand inside an even number of
  brackets less one, and the limit of the reader is odd.  So
  the levels that a program gains when it is written never
  take it beyond the limit, and what is written of a program
  that was read can be read again.

  Main declarations:
    * `Wire.depth_encode_of_decodeBlocks`
    * `Wire.readProgram_reads_back`
-/

namespace BlockProgram

namespace Wire

------------------------------------------------------------
-- What Was Read
------------------------------------------------------------

/- Watching only refuses: a step that is taken is the
   reader's own. -/
theorem step_of_watchedStep
    {state next : Json.State}
    {token : Json.Token}
    (hStep : watchedStep state token = .ok next) :
    state.step token = .ok next := by
  unfold watchedStep at hStep
  split at hStep
  · cases hStep
  · split at hStep
    · cases hStep
    · next reached hReached =>
        split at hStep
        · cases hStep
        · cases hStep
          exact hReached

/- Nothing beyond the limit is ever held. -/
theorem fits_of_watchedRun
    {state next : Json.State}
    {tokens : List Json.Token}
    (hFits : state.Fits)
    (hRun : watchedRun state tokens = .ok next) :
    next.Fits := by
  induction tokens generalizing state with
  | nil => cases hRun; exact hFits
  | cons token tokens ih =>
      rw [watchedRun] at hRun
      split at hRun
      · next between hStep =>
          have hNext :=
            Json.fits_of_step hFits (step_of_watchedStep hStep)
          exact ih hNext hRun
      · cases hRun

/- The blocks of a text are those of a value that is nested
   no deeper than the limit. -/
theorem exists_decodeBlocks_of_readBlocks
    {source : String}
    {blocks : List Block}
    (hRead : readBlocks source = .ok blocks) :
    ∃ json : Json,
      json.depth ≤ Json.maxDepth ∧
        decodeBlocks json = .ok blocks := by
  unfold readBlocks at hRead
  split at hRead
  · cases hRead
  · next state hRun =>
      have hStart : Json.start.Fits := trivial
      have hFits : state.Fits := fits_of_watchedRun hStart hRun
      cases state with
      | ended json =>
          have hDepth : 0 + json.depth ≤ Json.maxDepth := hFits
          rw [Nat.zero_add] at hDepth
          simp only [Json.State.finish] at hRead
          split at hRead
          · cases hRead
          · next found hDecodes =>
              cases hRead
              exact ⟨json, hDepth, hDecodes⟩
      | _ => cases hRead

/- The limit is odd, and so is the room of a list of blocks. -/
theorem depth_encode_of_decodeBlocks
    {json : Json}
    {blocks : List Block}
    (hDepth : json.depth ≤ Json.maxDepth)
    (hDecodes : decodeBlocks json = .ok blocks) :
    (encode blocks).depth ≤ Json.maxDepth := by
  have hNesting :=
    decodesWithin json (.list (.block .words)) blocks hDecodes
  have hRoom :=
    (Shape.list (.block .words)).room_mono hDepth
  have hEncode :
      (Shape.list (.block .words)).nesting blocks =
        (encode blocks).depth := by
    rw [encode, Block.bodyToJson_eq_map]
    rfl
  rw [← hEncode]
  exact Nat.le_trans hNesting hRoom

/-
  A program that was read from any text is read back from
  either text that is written of it.
-/
theorem readProgram_reads_back
    {source : String}
    {blocks : List Block}
    (hRead : readProgram source = .ok blocks) :
    readProgram (compactText blocks) = .ok blocks ∧
      readProgram (prettyText blocks) = .ok blocks := by
  rcases readProgram_eq_ok_iff.mp hRead with ⟨hBlocks, hCheck⟩
  rcases exists_decodeBlocks_of_readBlocks hBlocks with
    ⟨json, hDepth, hDecodes⟩
  have hWithin : (encode blocks).depth ≤ 127 :=
    depth_encode_of_decodeBlocks hDepth hDecodes
  have hAnswer : answerTo blocks = .ok blocks := by
    rw [answerTo, if_pos hWithin, hCheck]
  constructor
  · exact (readProgram_write .compact blocks).trans hAnswer
  · exact (readProgram_write .pretty blocks).trans hAnswer

/-
  A program in older spellings: fields are left out or stand
  in any order, a value is plain text, a member belongs to no
  field, and a block is a list.
-/
def olderProgram : Json :=
  .array
    [ .object
        [ ("ifBody",
            .array
              [ .object
                  [ ("name", .text "x"),
                    ("value", .text "1"),
                    ("note", .bool true),
                    ("id", .text "b2"),
                    ("type", .text "variable") ] ]),
          ("condition", .text "ready"),
          ("id", .text "b1"),
          ("type", .text "if") ],
      .array
        [ .text "function-call",
          .text "b3",
          .text "run",
          .array [] ] ]

/- The blocks of the program. -/
def olderBlocks : List Block :=
  [ .conditional "b1" "ready"
      [.assignment "b2" "x" (.simple "1")] .none [],
    .call "b3" "run" [] ]

theorem readProgram_reads_back_olderProgram :
    readProgram olderProgram.compact = .ok olderBlocks ∧
      readProgram (compactText olderBlocks) = .ok olderBlocks ∧
        readProgram (prettyText olderBlocks) = .ok olderBlocks := by
  have hRead :
      readProgram olderProgram.compact = .ok olderBlocks := by
    rw [readProgram, readBlocks, Json.compact,
      String.toList_ofList, Json.tokens_write (by decide),
      Json.tokens]
    decide +kernel
  exact ⟨hRead, readProgram_reads_back hRead⟩

end Wire

end BlockProgram
