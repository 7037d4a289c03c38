import BlockProgram.Proofs.Source.Descent
import BlockProgram.Proofs.Source.Reformatting
import BlockProgram.Session

/-
  Every program that is read is sound and freshly numbered.

  It passes its check and can be written.  Its ids take the
  next numbers, one for each block, in the order in which the
  bodies of the program end.

  Main declarations:
    * `Source.checkTree_parse`
    * `Source.perform_parse`
    * `Source.parse_isFresh`
-/

namespace BlockProgram

namespace Source

theorem areSound_parse
    (n : Nat)
    (source : String) :
    Block.AreSound (parse n source) :=
  areSound_of_isReadable (isReadable_parse n source)

/- Blocks are numbered in the order in which they close. -/
theorem areNumberedFrom_parse
    (n : Nat)
    (source : String) :
    Block.AreNumberedFrom n
      (Block.closingAll (parse n source)) :=
  Block.areNumberedFrom_renumberClosingAll n _

theorem checkTree_parse
    (n : Nat)
    (source : String) :
    checkTree (parse n source) = .ok () :=
  checkTree_eq_ok_iff.mpr
    ⟨Block.nodup_idsOf_of_areNumberedFrom
        (areNumberedFrom_parse n source),
      areSound_parse n source⟩

/- Reading takes one number for each block. -/
theorem perform_parse
    (session : Session)
    (source : String) :
    Session.perform (.parse source) session =
      .ok ()
        { next :=
            session.next +
              (documentOrder
                (parse session.next source)).length
          blocks := parse session.next source } := by
  rw [Block.length_inOrderAll]
  rfl

/-
  Every program that is read passes its check, can be written
  with any indent, and has ids that take the next numbers in
  closing order, each once and with the tag of its kind.  The
  descent through the lines, which hands these numbers out,
  has this one end, and a session goes on from the number
  behind the last.
-/
theorem parse_isFresh
    (n : Nat)
    (source : String) :
    checkTree (parse n source) = .ok () ∧
      (∀ width,
        ∃ text, compile width (parse n source) = .ok text) ∧
        Block.AreNumberedFrom n
            (Block.closingAll (parse n source)) ∧
          (Block.closingAll (parse n source)).Perm
              (documentOrder (parse n source)) ∧
            (∀ blocks ds left m,
              ReadsAll none (linesFrom 0 (rawLines source)) n
                  blocks ds left m ↔
                blocks = parse n source ∧
                  ds = (read n source).diagnostics ∧
                    left = [] ∧
                      m =
                        n +
                          (documentOrder
                            (parse n source)).length) ∧
              ∀ old,
                Session.perform (.parse source) ⟨n, old⟩ =
                  .ok ()
                    ⟨n +
                        (documentOrder
                          (parse n source)).length,
                      parse n source⟩ := by
  refine
    ⟨checkTree_parse n source, ?_, areNumberedFrom_parse n source,
      Block.closingAll_perm _, ?_, ?_⟩
  · intro width
    exact ⟨_, compile_of_areSound (areSound_parse n source) width⟩
  · intro blocks ds left m
    exact readsAll_iff
  · intro old
    exact perform_parse ⟨n, old⟩ source

end Source

end BlockProgram
