import BlockProgram.Proofs.Source.Rereading

/-
  A tree that is mistaken for another grows when it is
  written and read.

  A row that is taken for a header opens a body that nothing
  stands in, and the body's placeholder is a row more.  So
  the number of rows tells whether any was mistaken.

  Main declarations:
    * `Source.rowCount`
    * `Source.slips`
    * `Source.rowCountAll_add_slipsAll_le`
-/

namespace BlockProgram

namespace Source

open Text

------------------------------------------------------------
-- Counting Rows
------------------------------------------------------------

/- The number of rows of a branch, given its blocks'. -/
def branchCount
    (elseKind : ElseKind)
    (count : Nat) : Nat :=
  match elseKind with
  | .none => 0
  | .elif => count
  | .otherwise => 1 + max 1 count

theorem branchCount_elif (count : Nat) :
    branchCount .elif count = count := rfl

mutual

/- The number of rows of a block. -/
def rowCount : Block → Nat
  | .function _ _ _ body => 1 + max 1 (rowCountAll body)
  | .conditional _ _ body elseKind elseBody =>
      1 + max 1 (rowCountAll body) +
        branchCount elseKind (rowCountAll elseBody)
  | .loop _ _ _ body => 1 + max 1 (rowCountAll body)
  | .assignment _ _ _ => 1
  | .ret _ _ => 1
  | .call _ _ _ => 1

/- The number of rows of a list of blocks. -/
def rowCountAll : List Block → Nat
  | [] => 0
  | b :: bs => rowCount b + rowCountAll bs

end

theorem length_orPlaceholder
    (depth : Nat)
    (rows : List Row) :
    (orPlaceholder depth rows).length = max 1 rows.length := by
  unfold orPlaceholder
  cases rows with
  | nil => rfl
  | cons row rows =>
      simp only [List.isEmpty_cons, Bool.false_eq_true, if_false,
        List.length_cons]
      omega

theorem length_layoutAll_of_forall
    {bs : List Block}
    (h :
      ∀ b ∈ bs,
        ∀ depth chained,
          (layout depth chained b).length = rowCount b)
    (depth : Nat)
    (chained : Bool) :
    (layoutAll depth chained bs).length = rowCountAll bs := by
  induction bs with
  | nil => rfl
  | cons b bs ih =>
      rw [layoutAll, List.length_append, h b List.mem_cons_self,
        ih fun c hc => h c (List.mem_cons_of_mem b hc),
        rowCountAll]

/- Depth and chaining do not change the number of rows. -/
theorem length_layout
    (b : Block)
    (depth : Nat)
    (chained : Bool) :
    (layout depth chained b).length = rowCount b := by
  induction b using Block.induction generalizing depth chained with
  | function id name parameters body ih =>
      rw [layout, List.length_cons, length_orPlaceholder,
        length_layoutAll_of_forall ih, rowCount, Nat.add_comm]
  | assignment id name value => rfl
  | conditional id condition body elseKind elseBody ihBody
      ihElse =>
      rw [layout, List.length_cons, List.length_append,
        length_orPlaceholder, length_layoutAll_of_forall ihBody,
        rowCount]
      cases elseKind with
      | none =>
          simp only [branchRows, branchCount, List.length_nil]
          omega
      | elif =>
          simp only [branchRows, branchCount,
            length_layoutAll_of_forall ihElse]
          omega
      | otherwise =>
          simp only [branchRows, branchCount, List.length_cons,
            length_orPlaceholder,
            length_layoutAll_of_forall ihElse]
          omega
  | loop id iterator iterable body ih =>
      rw [layout, List.length_cons, length_orPlaceholder,
        length_layoutAll_of_forall ih, rowCount, Nat.add_comm]
  | ret id value => rfl
  | call id callee arguments => rfl

theorem length_layoutAll
    (depth : Nat)
    (chained : Bool)
    (bs : List Block) :
    (layoutAll depth chained bs).length = rowCountAll bs :=
  length_layoutAll_of_forall (fun b _ => length_layout b) depth
    chained

theorem rowCount_pos (b : Block) : 0 < rowCount b := by
  cases b <;> simp only [rowCount] <;> omega

------------------------------------------------------------
-- Counting Slips
------------------------------------------------------------

/- The first block looks like a chained condition. -/
def startsChained : List Block → Bool
  | [] => false
  | b :: _ => looksChained b

mutual

/- How many rows in a block are taken for headers. -/
def slips : Block → Nat
  | .function _ _ _ body => slipsAll body
  | .conditional _ _ body _ elseBody =>
      slipsAll body + slipsAll elseBody
  | .loop _ _ _ body => slipsAll body
  | .assignment _ name _ => if name ∈ headerNames then 1 else 0
  | .ret _ _ => 0
  | .call _ _ _ => 0

/- How many rows in a list of blocks are taken for headers. -/
def slipsAll : List Block → Nat
  | [] => 0
  | b :: bs =>
      slips b + slipsAll bs +
        (if endsOpen b && startsChained bs then 1 else 0)

end

/- The order of a list of blocks, and the blocks in them. -/
def IsSettled (blocks : List Block) : Prop :=
  AreSeparate blocks ∧
    ∀ b ∈ documentOrder blocks, IsUnmistaken b

theorem slipsAll_eq_zero_of_forall
    {bs : List Block}
    (h :
      ∀ b ∈ bs,
        slips b = 0 → ∀ c ∈ b.inOrder, IsUnmistaken c)
    (hNone : slipsAll bs = 0) :
    IsSettled bs := by
  induction bs with
  | nil =>
      refine ⟨trivial, ?_⟩
      intro b hb
      cases hb
  | cons b bs ih =>
      rw [slipsAll] at hNone
      have hFirst : slips b = 0 := by
        omega
      have hOthers : slipsAll bs = 0 := by
        omega
      rcases ih (fun c hc => h c (List.mem_cons_of_mem b hc))
          hOthers with
        ⟨hSeparate, hInner⟩
      refine ⟨?_, ?_⟩
      · cases bs with
        | nil => trivial
        | cons c bs =>
            refine ⟨?_, hSeparate⟩
            rintro ⟨hOpen, hChained⟩
            simp [hOpen, startsChained, hChained] at hNone
      · intro c hc
        rcases List.mem_append.mp hc with hc | hc
        · exact h b List.mem_cons_self hFirst c hc
        · exact hInner c hc

/- A tree without slips is not mistaken anywhere. -/
theorem unmistaken_of_slips_eq_zero
    {b : Block}
    (hNone : slips b = 0) :
    ∀ c ∈ b.inOrder, IsUnmistaken c := by
  induction b using Block.induction with
  | function id name parameters body ih =>
      rcases slipsAll_eq_zero_of_forall ih hNone with
        ⟨hSeparate, hInner⟩
      exact List.forall_mem_cons.mpr ⟨hSeparate, hInner⟩
  | assignment id name value =>
      rw [Block.inOrder, List.forall_mem_singleton]
      intro hHeader
      simp [slips, hHeader] at hNone
  | conditional id condition body elseKind elseBody ihBody
      ihElse =>
      rw [slips, Nat.add_eq_zero_iff] at hNone
      rcases slipsAll_eq_zero_of_forall ihBody hNone.1 with
        ⟨hSeparate, hInner⟩
      rcases slipsAll_eq_zero_of_forall ihElse hNone.2 with
        ⟨hSeparateElse, hInnerElse⟩
      refine
        List.forall_mem_cons.mpr
          ⟨⟨hSeparate, hSeparateElse⟩, ?_⟩
      exact List.forall_mem_append.mpr ⟨hInner, hInnerElse⟩
  | loop id iterator iterable body ih =>
      rcases slipsAll_eq_zero_of_forall ih hNone with
        ⟨hSeparate, hInner⟩
      exact List.forall_mem_cons.mpr ⟨hSeparate, hInner⟩
  | ret id value => exact List.forall_mem_singleton.mpr trivial
  | call id callee arguments =>
      exact List.forall_mem_singleton.mpr trivial

theorem isSettled_of_slipsAll_eq_zero
    {blocks : List Block}
    (hNone : slipsAll blocks = 0) :
    IsSettled blocks :=
  slipsAll_eq_zero_of_forall
    (fun _ _ => unmistaken_of_slips_eq_zero) hNone

------------------------------------------------------------
-- Rows That Lines Make
------------------------------------------------------------

/- The number of rows that the blocks of lines have. -/
def lineCount (lines : List Line) : Nat :=
  rowCountAll (blocksOf lines)

/-
  The number of rows that lines make when a conditional of
  the indent, still without an else, stands before them.
-/
def clauseCount
    (indent : Nat)
    (lines : List Line) : Nat :=
  branchCount (branchOf indent lines).1
      (rowCountAll (branchOf indent lines).2) +
    lineCount (afterClauses indent lines)

/-
  Lines that are not deeper make at least so many rows by
  themselves, and so many after an open conditional.
-/
structure Yields
    (indent : Nat)
    (lines : List Line)
    (alone after : Nat) : Prop where
  shallow : AreShallow indent lines
  alone_le_after : alone ≤ after
  alone_le : alone ≤ lineCount lines
  after_le : after ≤ clauseCount indent lines

section Heads

variable {indent : Nat}
variable {line : Line}
variable {inner rest : List Line}
variable {alone after : Nat}

theorem clauseCount_of_no_clause
    {lines : List Line}
    (hNone : ∀ l ∈ lines.head?, l.isClause indent = false) :
    clauseCount indent lines = lineCount lines := by
  rcases clauses_of_no_clause hNone with ⟨hBranch, hAfter⟩
  rw [clauseCount, hBranch, hAfter]
  simp [branchCount]

/- A row that is taken for a header makes a row more. -/
theorem lineCount_of_header
    (hIndent : line.indent = indent)
    (hRest : Yields indent rest alone after)
    (hHeader :
      (∃ header, Statement.read line.text = .function header) ∨
        (∃ condition,
          Statement.read line.text = .conditional condition) ∨
          ∃ header, Statement.read line.text = .loop header) :
    2 + alone ≤ lineCount (line :: rest) := by
  rcases deeper_of_shallow hRest.shallow with ⟨hDeeper, hAfter⟩
  have hAlone := hRest.alone_le
  rcases hHeader with
    ⟨header, hRead⟩ | ⟨condition, hRead⟩ | ⟨header, hRead⟩
  · rw [lineCount, blocksOf_function hIndent hRead, hDeeper,
      hAfter, rowCountAll, rowCount]
    unfold lineCount at hAlone
    omega
  · have hClauses := hRest.after_le
    have hMore := hRest.alone_le_after
    rw [lineCount, blocksOf_conditional hIndent hRead, hDeeper,
      hAfter, rowCountAll, conditionalOf, rowCount]
    unfold clauseCount lineCount at hClauses
    omega
  · rw [lineCount, blocksOf_loop hIndent hRead, hDeeper, hAfter,
      rowCountAll, rowCount]
    unfold lineCount at hAlone
    omega

/- A row that is taken for a clause makes a row more. -/
theorem clauseCount_of_elif
    (hIndent : line.indent = indent)
    (hRest : Yields indent rest alone after)
    (hElif : line.isElif = true) :
    2 + after ≤ clauseCount indent (line :: rest) := by
  rcases deeper_of_shallow hRest.shallow with ⟨hDeeper, hAfter⟩
  have hClauses := hRest.after_le
  rw [clauseCount, branchOf_elif hIndent hElif,
    afterClauses_elif hIndent hElif, hDeeper, hAfter]
  simp only [branchCount_elif, rowCountAll, conditionalOf,
    rowCount]
  unfold clauseCount at hClauses
  omega

end Heads

------------------------------------------------------------
-- Rows That A Tree Makes
------------------------------------------------------------

/- Rows, and one more for each that is taken for a header. -/
def weight (b : Block) : Nat :=
  rowCount b + slips b

/- The same for a list of blocks. -/
def weightAll (bs : List Block) : Nat :=
  rowCountAll bs + slipsAll bs

/- What the lines of a block add to those that follow. -/
def AddsWeight
    (width : Nat)
    (b : Block) : Prop :=
  ∀ depth rest alone after,
    Yields (width * depth) rest alone after →
      Yields (width * depth)
        (blockLines width depth false b ++ rest)
        (weight b + if endsOpen b then after else alone)
        ((weight b + if endsOpen b then after else alone) +
          if looksChained b then 1 else 0)

/- What the lines of a chained conditional add. -/
def AddsChained
    (width : Nat)
    (b : Block) : Prop :=
  ∀ depth rest alone after,
    Yields (width * depth) rest alone after →
      (weight b + if endsOpen b then after else alone) ≤
        clauseCount (width * depth)
          (blockLines width depth true b ++ rest)

section Lines

variable {width : Nat}

theorem yields_nil (indent : Nat) : Yields indent [] 0 0 where
  shallow := by simp [AreShallow]
  alone_le_after := Nat.le_refl 0
  alone_le := Nat.zero_le _
  after_le := Nat.zero_le _

/- The lines of a list of blocks make at least its weight. -/
theorem yields_layoutAll_of_forall
    {bs : List Block}
    (hBlocks : ∀ b ∈ bs, AddsWeight width b)
    (depth : Nat) :
    Yields (width * depth)
      ((layoutAll depth false bs).map (Row.line width))
      (weightAll bs)
      (weightAll bs + if startsChained bs then 1 else 0) := by
  induction bs with
  | nil => exact yields_nil _
  | cons b bs ih =>
      have hOthers :=
        ih fun c hc => hBlocks c (List.mem_cons_of_mem b hc)
      have hFirst :=
        hBlocks b List.mem_cons_self depth _ _ _ hOthers
      have hWeight :
          weightAll (b :: bs) =
            weight b +
              if endsOpen b then
                weightAll bs + if startsChained bs then 1 else 0
              else weightAll bs := by
        unfold weightAll weight
        rw [rowCountAll, slipsAll]
        cases endsOpen b <;> cases startsChained bs <;>
          simp <;> omega
      rw [map_layoutAll_cons, hWeight]
      exact hFirst

/-
  The lines of a body make at least the weight of the body,
  and the placeholder of an empty body counts for it.
-/
theorem weight_bodyLines_of_forall
    {body : List Block}
    (hBlocks : ∀ b ∈ body, AddsWeight width b)
    (depth : Nat) :
    max 1 (rowCountAll body) + slipsAll body ≤
      max 1
        (rowCountAll
          (blocksOf (bodyLines width depth body))) := by
  have hLines :=
    (yields_layoutAll_of_forall hBlocks (depth + 1)).alone_le
  rw [blocksOf_bodyLines]
  unfold weightAll lineCount at hLines
  cases body with
  | nil => exact Nat.le_max_left 1 _
  | cons b bs =>
      have hPos := rowCount_pos b
      rw [rowCountAll] at hLines ⊢
      omega

/- A block whose first line is no clause. -/
theorem addsWeight_of_plain
    {b : Block}
    (hParts : HasReadableParts b)
    (hPlain : looksChained b = false)
    (hCount :
      ∀ depth rest alone after,
        Yields (width * depth) rest alone after →
          (weight b + if endsOpen b then after else alone) ≤
            lineCount (blockLines width depth false b ++ rest)) :
    AddsWeight width b := by
  intro depth rest alone after hRest
  have hCount := hCount depth rest alone after hRest
  rw [hPlain]
  refine
    ⟨areShallow_blockLines false b rest, Nat.le_refl _, hCount,
      ?_⟩
  rw [clauseCount_of_no_clause]
  · exact hCount
  · intro l hl
    rw [head?_blockLines] at hl
    rcases Option.some.inj hl with rfl
    exact isClause_headText hParts hPlain width depth _

/- A block of one line that is read as one block. -/
theorem addsWeight_of_line
    {b : Block}
    (hParts : HasReadableParts b)
    (hPlain : looksChained b = false)
    (hClosed : endsOpen b = false)
    (hWeight : weight b = 1)
    (hLines :
      ∀ depth rest,
        ∃ c,
          rowCount c = 1 ∧
            blocksOf (blockLines width depth false b ++ rest) =
              c :: blocksOf rest) :
    AddsWeight width b := by
  apply addsWeight_of_plain hParts hPlain
  intro depth rest alone after hRest
  rcases hLines depth rest with ⟨c, hOne, hLines⟩
  rw [lineCount, hLines, rowCountAll, hOne, hWeight, hClosed]
  exact Nat.add_le_add_left hRest.alone_le 1

/- A block of a header and a body that is read as one. -/
theorem addsWeight_of_body
    {b : Block}
    {body : List Block}
    (hParts : HasReadableParts b)
    (hPlain : looksChained b = false)
    (hClosed : endsOpen b = false)
    (hWeight :
      weight b = 1 + max 1 (rowCountAll body) + slipsAll body)
    (hBody : ∀ c ∈ body, AddsWeight width c)
    (hLines :
      ∀ depth rest,
        AreShallow (width * depth) rest →
          lineCount (blockLines width depth false b ++ rest) =
            1 +
                max 1
                  (rowCountAll
                    (blocksOf (bodyLines width depth body))) +
              lineCount rest) :
    AddsWeight width b := by
  apply addsWeight_of_plain hParts hPlain
  intro depth rest alone after hRest
  have hAlone := hRest.alone_le
  have hInner := weight_bodyLines_of_forall hBody depth
  rw [hLines depth rest hRest.shallow, hWeight, hClosed]
  simp only [Bool.false_eq_true, if_false]
  omega

/- An assignment to one of the names reads as a header. -/
theorem read_of_mem_headerNames
    {name : String}
    {value : Value}
    (hName : IsVariable name)
    (hHeader : name ∈ headerNames) :
    (∃ header,
        Statement.read (assignmentText name value) =
          .function header) ∨
      (∃ condition,
          Statement.read (assignmentText name value) =
            .conditional condition) ∨
        ∃ header,
          Statement.read (assignmentText name value) =
            .loop header := by
  have hStarts {front keyword : String}
      (hFront : front = keyword ++ " ")
      (hKeyword : ∀ c ∈ keyword.toList, isNamePart c = true) :
      startsWith front (assignmentText name value).toList =
        (name == keyword) := by
    rw [Bool.eq_iff_iff,
      startsWith_assignmentText_iff hFront hKeyword hName]
    exact beq_iff_eq.symm
  have hDef :
      startsWith "def " (assignmentText name value).toList =
        (name == "def") :=
    hStarts rfl (List.all_eq_true.mp rfl)
  have hIf :
      startsWith "if " (assignmentText name value).toList =
        (name == "if") :=
    hStarts rfl (List.all_eq_true.mp rfl)
  have hFor :
      startsWith "for " (assignmentText name value).toList =
        (name == "for") :=
    hStarts rfl (List.all_eq_true.mp rfl)
  simp only [headerNames, List.mem_cons, List.not_mem_nil,
    or_false] at hHeader
  rcases hHeader with rfl | rfl | rfl
  · left
    simp [Statement.read, hDef]
  · right
    left
    simp [Statement.read, hDef, hIf]
  · right
    right
    simp [Statement.read, hDef, hIf, hFor]

/- The row of an assignment, taken for what it looks like. -/
theorem addsWeight_assignment
    {id name : String}
    {value : Value}
    (hParts : HasReadableParts (.assignment id name value)) :
    AddsWeight width (.assignment id name value) := by
  by_cases hHeader : name ∈ headerNames
  · apply addsWeight_of_plain hParts
    · rw [looksChained, beq_eq_false_iff_ne]
      rintro rfl
      revert hHeader
      decide
    · intro depth rest alone after hRest
      rw [weight, rowCount, slips, if_pos hHeader]
      exact
        lineCount_of_header (indent_textLine _) hRest
          (read_of_mem_headerNames hParts.1 hHeader)
  · have hLegible : IsLegible (.assignment id name value) :=
      ⟨hParts, trivial, hHeader⟩
    have hOne : rowCount (rereadAssignment name value) = 1 := by
      unfold rereadAssignment
      split
      · rfl
      · rfl
    have hWeight : weight (.assignment id name value) = 1 := by
      rw [weight, rowCount, slips, if_neg hHeader]
    have hLines (depth : Nat) (rest : List Line) :
        blocksOf
            (blockLines width depth false
                (.assignment id name value) ++
              rest) =
          rereadAssignment name value :: blocksOf rest :=
      blocksOf_assignmentText hLegible rfl
    by_cases hElif : name = "elif"
    · intro depth rest alone after hRest
      have hChained :
          looksChained (.assignment id name value) = true := by
        simp [looksChained, hElif]
      have hStart :
          (textLine width depth (assignmentText name value)).isElif =
            true :=
        (startsWith_assignmentText_iff rfl
              (List.all_eq_true.mp rfl) hParts.1).mpr
          hElif
      have hClauses := clauseCount_of_elif rfl hRest hStart
      have hMore := hRest.alone_le_after
      rw [hWeight, hChained]
      constructor
      · intro l hl
        rcases Option.some.inj hl with rfl
        exact Nat.le_refl _
      · exact Nat.le_add_right _ _
      · rw [lineCount, hLines, rowCountAll, hOne]
        exact Nat.add_le_add_left hRest.alone_le 1
      · change 1 + alone + 1 ≤ _
        exact Nat.le_trans (by omega) hClauses
    · apply addsWeight_of_line hParts _ rfl hWeight
      · intro depth rest
        exact ⟨_, hOne, hLines depth rest⟩
      · simp [looksChained, hElif]

/- What the lines of an else branch add, after the body. -/
theorem weight_branchLines_of_forall
    (hWidth : 0 < width)
    (id condition : String)
    (body : List Block)
    {elseBody : List Block}
    {elseKind : ElseKind}
    (hFits : Block.Fits elseKind elseBody)
    (hElse :
      ∀ b ∈ elseBody,
        AddsWeight width b ∧
          (b.kind = .conditional → AddsChained width b))
    {depth alone after : Nat}
    {rest : List Line}
    (hRest : Yields (width * depth) rest alone after) :
    (branchCount elseKind (rowCountAll elseBody) +
          slipsAll elseBody +
        if
          endsOpen
            (.conditional id condition body elseKind elseBody)
        then after
        else alone) ≤
      clauseCount (width * depth)
        (branchLines width depth elseKind elseBody ++ rest) := by
  cases elseKind with
  | none =>
      rcases hFits with rfl
      have hAfter := hRest.after_le
      simpa [branchCount, slipsAll, endsOpen, branchLines,
        branchRows] using hAfter
  | elif =>
      rcases elseBody with _ | ⟨c, _ | ⟨d, cs⟩⟩
      · cases hFits
      · have hKind : c.kind = .conditional := by
          simpa [Block.Fits] using hFits
        have hOpen :
            endsOpen (.conditional id condition body .elif [c]) =
              endsOpen c := rfl
        have hSlips : slipsAll [c] = slips c := by
          simp [slipsAll, startsChained]
        rw [branchLines_elif, branchCount_elif, hSlips, hOpen]
        exact
          (hElse c List.mem_cons_self).2 hKind depth rest alone
            after hRest
      · simp [Block.Fits] at hFits
  | otherwise =>
      have hAlone := hRest.alone_le
      have hBody :=
        weight_bodyLines_of_forall
          (fun b hb => (hElse b hb).1) depth
      rcases branchOf_else_lines hWidth elseBody hRest.shallow with
        ⟨hBranch, hAfter⟩
      rw [clauseCount, hBranch, hAfter]
      simp only [branchCount, endsOpen, Bool.false_eq_true,
        if_false]
      omega

section Conditionals

variable {id condition : String}
variable {body elseBody : List Block}
variable {elseKind : ElseKind}

variable (hWidth : 0 < width)
variable
    (hParts :
      HasReadableParts
        (.conditional id condition body elseKind elseBody))
variable (hFilled : condition ≠ "")
variable (hBody : ∀ b ∈ body, AddsWeight width b)
variable
    (hElse :
      ∀ b ∈ elseBody,
        AddsWeight width b ∧
          (b.kind = .conditional → AddsChained width b))
include hWidth hParts hFilled hBody hElse

/- The lines of a conditional, where it stands by itself. -/
theorem addsWeight_conditional :
    AddsWeight width
      (.conditional id condition body elseKind elseBody) := by
  apply addsWeight_of_plain hParts rfl
  intro depth rest alone after hRest
  have hInner := weight_bodyLines_of_forall hBody depth
  have hBranch :=
    weight_branchLines_of_forall hWidth id condition body
      hParts.2 hElse hRest
  rw [lineCount,
    blocksOf_conditional_lines hWidth hParts hFilled
      hRest.shallow,
    rowCountAll, conditionalOf, rowCount, weight, rowCount,
    slips]
  unfold clauseCount lineCount at hBranch
  omega

/- The lines of a conditional, chained to another. -/
theorem addsChained_conditional :
    AddsChained width
      (.conditional id condition body elseKind elseBody) := by
  intro depth rest alone after hRest
  have hInner := weight_bodyLines_of_forall hBody depth
  have hBranch :=
    weight_branchLines_of_forall hWidth id condition body
      hParts.2 hElse hRest
  rcases branchOf_chained_lines hWidth hParts hFilled
      hRest.shallow with
    ⟨hChained, hRemains⟩
  rw [clauseCount, hChained, hRemains, branchCount_elif,
    rowCountAll, rowCountAll, conditionalOf, rowCount, weight,
    rowCount, slips]
  unfold clauseCount at hBranch
  omega

end Conditionals

/-
  The lines of a block make at least its weight, also where
  it is chained.  Lines that follow may be taken for clauses,
  which only adds to what they make.
-/
theorem addsWeight_and_addsChained
    (hWidth : 0 < width)
    {b : Block}
    (hBlocks :
      ∀ c ∈ b.inOrder, HasReadableParts c ∧ IsFilled c) :
    AddsWeight width b ∧
      (b.kind = .conditional → AddsChained width b) := by
  induction b using Block.induction with
  | function id name parameters body ih =>
      rcases Block.forall_mem_inOrder_function.mp hBlocks with
        ⟨⟨hParts, _⟩, hBody⟩
      refine ⟨?_, fun hKind => by cases hKind⟩
      have hInner := fun b hb => (ih b hb (hBody b hb)).1
      apply addsWeight_of_body hParts rfl rfl rfl hInner
      intro depth rest hRest
      rw [lineCount, blocksOf_function_lines hWidth hParts hRest,
        rowCountAll, rowCount, lineCount]
  | assignment id name value =>
      rcases List.forall_mem_singleton.mp hBlocks with
        ⟨hParts, _⟩
      refine ⟨?_, fun hKind => by cases hKind⟩
      exact addsWeight_assignment hParts
  | conditional id condition body elseKind elseBody ihBody
      ihElse =>
      rcases Block.forall_mem_inOrder_conditional.mp hBlocks with
        ⟨⟨hParts, hFilled⟩, hBody, hElse⟩
      have hInner := fun b hb => (ihBody b hb (hBody b hb)).1
      have hBranch := fun b hb => ihElse b hb (hElse b hb)
      constructor
      · exact
          addsWeight_conditional hWidth hParts hFilled hInner
            hBranch
      · intro _
        exact
          addsChained_conditional hWidth hParts hFilled hInner
            hBranch
  | loop id iterator iterable body ih =>
      rcases Block.forall_mem_inOrder_loop.mp hBlocks with
        ⟨⟨hParts, hFilled⟩, hBody⟩
      refine ⟨?_, fun hKind => by cases hKind⟩
      have hInner := fun b hb => (ih b hb (hBody b hb)).1
      apply addsWeight_of_body hParts rfl rfl rfl hInner
      intro depth rest hRest
      rw [lineCount,
        blocksOf_loop_lines hWidth hParts hFilled hRest,
        rowCountAll, rowCount, lineCount]
  | ret id value =>
      rcases List.forall_mem_singleton.mp hBlocks with
        ⟨hParts, _⟩
      refine ⟨?_, fun hKind => by cases hKind⟩
      apply addsWeight_of_line hParts rfl rfl rfl
      intro depth rest
      exact
        ⟨_, rfl, blocksOf_ret (Statement.read_retText value)⟩
  | call id callee arguments =>
      rcases List.forall_mem_singleton.mp hBlocks with
        ⟨hParts, _⟩
      refine ⟨?_, fun hKind => by cases hKind⟩
      apply addsWeight_of_line hParts rfl rfl rfl
      intro depth rest
      exact
        ⟨_, rfl,
          blocksOf_call
            (Statement.read_callText hParts.1 hParts.2)⟩

/-
  Reading the lines of a tree makes a row more for each row
  that is taken for a header.
-/
theorem rowCountAll_add_slipsAll_le
    (hWidth : 0 < width)
    {blocks : List Block}
    (hBlocks :
      ∀ b ∈ documentOrder blocks,
        HasReadableParts b ∧ IsFilled b) :
    rowCountAll blocks + slipsAll blocks ≤
      lineCount
        ((layoutAll 0 false blocks).map (Row.line width)) := by
  have hEach : ∀ b ∈ blocks, AddsWeight width b := by
    intro b hb
    have hInner :=
      fun c hc =>
        hBlocks c (Block.mem_inOrderAll.mpr ⟨b, hb, hc⟩)
    exact (addsWeight_and_addsChained hWidth hInner).1
  exact (yields_layoutAll_of_forall hEach 0).alone_le

end Lines

end Source

end BlockProgram
