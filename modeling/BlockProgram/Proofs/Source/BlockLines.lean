import BlockProgram.Proofs.Source.Legible

/-
  What the rows of a block make, in terms of the rows of its
  bodies.

  There is one lemma for each kind of block that holds
  others.  The rows are followed by lines that are not
  deeper, which is all that separates a body from what comes
  after it.

  Main declarations:
    * `Source.bodyLines`
    * `Source.branchLines`
    * `Source.blocksOf_function_lines`
    * `Source.blocksOf_conditional_lines`
    * `Source.branchOf_chained_lines`
-/

namespace BlockProgram

namespace Source

------------------------------------------------------------
-- The Lines Of A Block
------------------------------------------------------------

/- The lines of a block at a depth. -/
def blockLines
    (width depth : Nat)
    (chained : Bool)
    (b : Block) : List Line :=
  (layout depth chained b).map (Row.line width)

/- The lines of a body, given the depth of its block. -/
def bodyLines
    (width depth : Nat)
    (body : List Block) : List Line :=
  (orPlaceholder (depth + 1)
      (layoutAll (depth + 1) false body)).map
    (Row.line width)

/- The lines of an else branch, with its `else:`. -/
def branchLines
    (width depth : Nat)
    (elseKind : ElseKind)
    (elseBody : List Block) : List Line :=
  (branchRows depth elseKind (layoutAll depth true elseBody)
      (layoutAll (depth + 1) false elseBody)).map
    (Row.line width)

/- None of the lines that begin so is deeper. -/
def AreShallow
    (indent : Nat)
    (lines : List Line) : Prop :=
  ∀ l ∈ lines.head?, l.indent ≤ indent

/- The line of a row of text at a depth. -/
def textLine
    (width depth : Nat)
    (text : String) : Line :=
  Row.line width ⟨depth, text⟩

section Lines

variable {width depth : Nat}
variable {rest : List Line}

theorem indent_textLine (text : String) :
    (textLine width depth text).indent = width * depth := rfl

theorem head?_blockLines
    (chained : Bool)
    (b : Block)
    (rest : List Line) :
    (blockLines width depth chained b ++ rest).head? =
      some (textLine width depth (headText chained b)) := by
  rw [blockLines, List.head?_append, List.head?_map,
    head?_layout]
  rfl

theorem areShallow_blockLines
    (chained : Bool)
    (b : Block)
    (rest : List Line) :
    AreShallow (width * depth)
      (blockLines width depth chained b ++ rest) := by
  intro l hl
  rw [head?_blockLines] at hl
  rcases Option.some.inj hl with rfl
  exact Nat.le_refl _

/- The lines of a list of blocks, block by block. -/
theorem map_layoutAll_cons
    (b : Block)
    (bs : List Block) :
    (layoutAll depth false (b :: bs)).map (Row.line width) =
      blockLines width depth false b ++
        (layoutAll depth false bs).map (Row.line width) := by
  rw [layoutAll, List.map_append, blockLines]

------------------------------------------------------------
-- Bodies
------------------------------------------------------------

/- A body ends before a line that is not deeper. -/
theorem deeper_bodyLines
    (hWidth : 0 < width)
    (body : List Block)
    (hRest : AreShallow (width * depth) rest) :
    deeper (width * depth) (bodyLines width depth body ++ rest) =
        bodyLines width depth body ∧
      afterDeeper (width * depth)
          (bodyLines width depth body ++ rest) =
        rest := by
  have hInner :
      ∀ l ∈ bodyLines width depth body,
        width * depth < l.indent := by
    intro l hl
    rcases List.mem_map.mp hl with ⟨row, hRow, rfl⟩
    exact
      Nat.mul_lt_mul_of_pos_left (lt_depth_of_mem_body hRow) hWidth
  exact deeper_append hInner hRest

/- The placeholder of a body makes no block. -/
theorem blocksOf_bodyLines
    (width depth : Nat)
    (body : List Block) :
    blocksOf (bodyLines width depth body) =
      blocksOf
        ((layoutAll (depth + 1) false body).map
          (Row.line width)) := by
  unfold bodyLines orPlaceholder
  split
  · next hEmpty =>
      rw [List.isEmpty_iff.mp hEmpty]
      exact blocksOf_unrecognized Statement.read_placeholderText
  · rfl

/- A header line that says nothing else, and no body. -/
theorem deeper_of_shallow
    {indent : Nat}
    (hRest : AreShallow indent rest) :
    deeper indent rest = [] ∧ afterDeeper indent rest = rest := by
  have hNone :
      deeper indent ([] ++ rest) = [] ∧
        afterDeeper indent ([] ++ rest) = rest :=
    deeper_append (List.forall_mem_nil _) hRest
  exact hNone

------------------------------------------------------------
-- Functions And Loops
------------------------------------------------------------

theorem blocksOf_function_lines
    (hWidth : 0 < width)
    {id name : String}
    {parameters : List String}
    {body : List Block}
    (hParts :
      HasReadableParts (.function id name parameters body))
    (hRest : AreShallow (width * depth) rest) :
    blocksOf
        (blockLines width depth false
            (.function id name parameters body) ++
          rest) =
      .function noId name parameters
          (blocksOf (bodyLines width depth body)) ::
        blocksOf rest := by
  rcases hParts with ⟨hName, hItems, hOpen⟩
  rcases deeper_bodyLines hWidth body hRest with
    ⟨hDeeper, hAfter⟩
  have hRead :
      Statement.read
          (textLine width depth
            (functionText name parameters)).text =
        .function (some (name, parameters)) :=
    Statement.read_functionText hName hItems hOpen
  have hLines :
      blockLines width depth false
          (.function id name parameters body) =
        textLine width depth (functionText name parameters) ::
          bodyLines width depth body := rfl
  rw [hLines, List.cons_append,
    blocksOf_function (indent_textLine _) hRead, hDeeper, hAfter]
  rfl

theorem blocksOf_loop_lines
    (hWidth : 0 < width)
    {id iterator iterable : String}
    {body : List Block}
    (hParts : HasReadableParts (.loop id iterator iterable body))
    (hFilled : iterable ≠ "")
    (hRest : AreShallow (width * depth) rest) :
    blocksOf
        (blockLines width depth false
            (.loop id iterator iterable body) ++
          rest) =
      .loop noId iterator iterable
          (blocksOf (bodyLines width depth body)) ::
        blocksOf rest := by
  rcases hParts with ⟨hIterator, hTrimmed⟩
  rcases deeper_bodyLines hWidth body hRest with
    ⟨hDeeper, hAfter⟩
  have hRead :
      Statement.read
          (textLine width depth (loopText iterator iterable)).text =
        .loop (some (iterator, iterable)) :=
    Statement.read_loopText hIterator ⟨hFilled, hTrimmed⟩
  have hLines :
      blockLines width depth false
          (.loop id iterator iterable body) =
        textLine width depth (loopText iterator iterable) ::
          bodyLines width depth body := rfl
  rw [hLines, List.cons_append,
    blocksOf_loop (indent_textLine _) hRead, hDeeper, hAfter]
  rfl

------------------------------------------------------------
-- Conditionals
------------------------------------------------------------

section Conditional

variable {id condition : String}
variable {body elseBody : List Block}
variable {elseKind : ElseKind}

/- A branch begins at the indent of its conditional. -/
theorem areShallow_branchLines
    (hFits : Block.Fits elseKind elseBody)
    (hRest : AreShallow (width * depth) rest) :
    AreShallow (width * depth)
      (branchLines width depth elseKind elseBody ++ rest) := by
  cases elseKind with
  | none => exact hRest
  | elif =>
      rcases elseBody with _ | ⟨c, cs⟩
      · cases hFits
      · have hLines :
            branchLines width depth .elif (c :: cs) =
              blockLines width depth true c ++
                (layoutAll depth true cs).map (Row.line width) := by
          simp [branchLines, branchRows, layoutAll, blockLines]
        rw [hLines, List.append_assoc]
        exact areShallow_blockLines true c _
  | otherwise =>
      intro l hl
      rcases Option.some.inj hl with rfl
      exact Nat.le_refl _

/- The lines of a conditional, part by part. -/
theorem conditional_lines
    (chained : Bool)
    (rest : List Line) :
    blockLines width depth chained
          (.conditional id condition body elseKind elseBody) ++
        rest =
      textLine width depth (conditionalText chained condition) ::
        (bodyLines width depth body ++
          (branchLines width depth elseKind elseBody ++ rest)) := by
  simp [blockLines, layout, headText, bodyLines, branchLines,
    textLine]

variable
  (hWidth : 0 < width)
  (hParts :
    HasReadableParts
      (.conditional id condition body elseKind elseBody))
  (hFilled : condition ≠ "")
  (hRest : AreShallow (width * depth) rest)

include hWidth hParts hFilled hRest

theorem blocksOf_conditional_lines :
    blocksOf
        (blockLines width depth false
            (.conditional id condition body elseKind elseBody) ++
          rest) =
      conditionalOf (some condition)
          (blocksOf (bodyLines width depth body))
          (branchOf (width * depth)
            (branchLines width depth elseKind elseBody ++ rest)) ::
        blocksOf
          (afterClauses (width * depth)
            (branchLines width depth elseKind elseBody ++
              rest)) := by
  rcases hParts with ⟨hTrimmed, hFits⟩
  rcases deeper_bodyLines hWidth body
      (areShallow_branchLines hFits hRest) with
    ⟨hDeeper, hAfter⟩
  have hRead :
      Statement.read
          (textLine width depth
            (conditionalText false condition)).text =
        .conditional (some condition) :=
    Statement.read_conditionalText ⟨hFilled, hTrimmed⟩
  rw [conditional_lines,
    blocksOf_conditional (indent_textLine _) hRead, hDeeper,
    hAfter]

/- The same where the conditional is chained. -/
theorem branchOf_chained_lines :
    branchOf (width * depth)
          (blockLines width depth true
              (.conditional id condition body elseKind
                elseBody) ++
            rest) =
        (.elif,
          [conditionalOf (some condition)
            (blocksOf (bodyLines width depth body))
            (branchOf (width * depth)
              (branchLines width depth elseKind elseBody ++
                rest))]) ∧
      afterClauses (width * depth)
          (blockLines width depth true
              (.conditional id condition body elseKind
                elseBody) ++
            rest) =
        afterClauses (width * depth)
          (branchLines width depth elseKind elseBody ++ rest) := by
  rcases hParts with ⟨hTrimmed, hFits⟩
  rcases deeper_bodyLines hWidth body
      (areShallow_branchLines hFits hRest) with
    ⟨hDeeper, hAfter⟩
  have hElif :
      (textLine width depth
          (conditionalText true condition)).isElif =
        true :=
    isElif_conditionalText width depth condition
  have hRead :
      condition?
          (textLine width depth
            (conditionalText true condition)).text.toList =
        some condition :=
    condition?_conditionalText true ⟨hFilled, hTrimmed⟩
  rw [conditional_lines, branchOf_elif (indent_textLine _) hElif,
    afterClauses_elif (indent_textLine _) hElif, hRead, hDeeper,
    hAfter]
  exact ⟨rfl, rfl⟩

end Conditional

/- The lines for the other case end the conditional. -/
theorem branchOf_else_lines
    (hWidth : 0 < width)
    (elseBody : List Block)
    (hRest : AreShallow (width * depth) rest) :
    branchOf (width * depth)
          (branchLines width depth .otherwise elseBody ++ rest) =
        (.otherwise, blocksOf (bodyLines width depth elseBody)) ∧
      afterClauses (width * depth)
          (branchLines width depth .otherwise elseBody ++ rest) =
        rest := by
  rcases deeper_bodyLines hWidth elseBody hRest with
    ⟨hDeeper, hAfter⟩
  rcases isElse_elseLine width depth with ⟨hElif, hElse⟩
  have hLines :
      branchLines width depth .otherwise elseBody =
        textLine width depth "else:" ::
          bodyLines width depth elseBody := rfl
  rw [hLines, List.cons_append,
    branchOf_else (indent_textLine _) hElif hElse,
    afterClauses_else (indent_textLine _) hElif hElse, hDeeper,
    hAfter]
  exact ⟨rfl, rfl⟩

/- The lines of a chained conditional alone. -/
theorem branchLines_elif (c : Block) :
    branchLines width depth .elif [c] =
      blockLines width depth true c := by
  simp [branchLines, branchRows, layoutAll, blockLines]

end Lines

end Source

end BlockProgram
