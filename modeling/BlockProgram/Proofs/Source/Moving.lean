import BlockProgram.Proofs.Source.Outline

/-
  Lines that are moved elsewhere.

  A line may get another number and another indent.  As long
  as the indents of all lines compare as before, each line
  holds the lines that it held, and the same blocks are made.

  Main declarations:
    * `Source.moved`
    * `Source.KeepsOrder`
    * `Source.outline_moved`
    * `Source.blocksOf_moved`
    * `Source.blocksOf_unnumbered`
-/

namespace BlockProgram

namespace Source

------------------------------------------------------------
-- Moved Entries
------------------------------------------------------------

mutual

/- The entry with all of its lines moved elsewhere. -/
def Entry.moved (f : Line → Line) : Entry → Entry
  | .function line header body =>
      .function (f line) header (moved f body)
  | .conditional line condition body clause =>
      .conditional (f line) condition (moved f body)
        (clause.moved f)
  | .loop line header body =>
      .loop (f line) header (moved f body)
  | .ret line value => .ret (f line) value
  | .assignment line target value =>
      .assignment (f line) target value
  | .call line callee arguments =>
      .call (f line) callee arguments
  | .unrecognized line => .unrecognized (f line)

/- The clause with all of its lines moved elsewhere. -/
def Clause.moved (f : Line → Line) : Clause → Clause
  | .none => .none
  | .elif line condition body clause =>
      .elif (f line) condition (moved f body) (clause.moved f)
  | .otherwise line body => .otherwise (f line) (moved f body)

/- The entries with all of their lines moved elsewhere. -/
def moved (f : Line → Line) : List Entry → List Entry
  | [] => []
  | e :: es => e.moved f :: moved f es

end

------------------------------------------------------------
-- Moved Lines
------------------------------------------------------------

/- Once moved, the lines' indents compare as before. -/
def KeepsOrder
    (f : Line → Line)
    (lines : List Line) : Prop :=
  ∀ k ∈ lines, ∀ l ∈ lines,
    (f k).indent ≤ (f l).indent ↔ k.indent ≤ l.indent

theorem keepsOrder_mono
    {f : Line → Line}
    {lines others : List Line}
    (hOrder : KeepsOrder f lines)
    (hOthers : others ⊆ lines) :
    KeepsOrder f others :=
  fun k hk l hl => hOrder k (hOthers hk) l (hOthers hl)

/- What a line owns is compared with it. -/
theorem keepsOrder_below
    {f : Line → Line}
    {owner : Line}
    {lines others : List Line}
    (hOrder : KeepsOrder f (owner :: lines))
    (hOthers : others ⊆ lines) :
    KeepsOrder f (owner :: others) :=
  keepsOrder_mono hOrder (List.cons_subset_cons owner hOthers)

section Moved

variable {f : Line → Line}
variable {owner : Line}
variable {lines : List Line}

/- The same lines are deeper than a line and than it moved. -/
theorem deeper_moved
    (hOrder : KeepsOrder f (owner :: lines)) :
    deeper (f owner).indent (lines.map f) =
        (deeper owner.indent lines).map f ∧
      afterDeeper (f owner).indent (lines.map f) =
        (afterDeeper owner.indent lines).map f := by
  have hCompare :
      ∀ l ∈ lines,
        (f owner).indent < (f l).indent ↔
          owner.indent < l.indent := by
    intro l hl
    have hBack :=
      hOrder l (List.mem_cons_of_mem _ hl) owner
        List.mem_cons_self
    omega
  have hSplit :
      lines.map f =
        (deeper owner.indent lines).map f ++
          (afterDeeper owner.indent lines).map f := by
    rw [← List.map_append, deeper, afterDeeper,
      List.takeWhile_append_dropWhile]
  rw [hSplit]
  apply deeper_append
  · intro l' hl'
    rcases List.mem_map.mp hl' with ⟨l, hl, rfl⟩
    rw [hCompare l (deeper_subset _ _ hl)]
    exact lt_indent_of_mem_deeper hl
  · intro l' hl'
    rw [List.head?_map] at hl'
    rcases Option.map_eq_some_iff.mp hl' with ⟨l, hl, rfl⟩
    have hMember := List.mem_of_mem_head? hl
    have hNot := indent_le_of_head?_afterDeeper hl
    have hIff := hCompare l (afterDeeper_subset _ _ hMember)
    omega

/- The owner's indent and that of a line agree once moved. -/
theorem indent_moved_eq_iff
    {line : Line}
    (hOrder : KeepsOrder f (owner :: line :: lines)) :
    (f line).indent = (f owner).indent ↔
      line.indent = owner.indent := by
  have hTo := hOrder line (by simp) owner (by simp)
  have hFrom := hOrder owner (by simp) line (by simp)
  omega

variable (hText : ∀ l, (f l).text = l.text)

include hText in
theorem isElif_moved (line : Line) :
    (f line).isElif = line.isElif := by
  rw [Line.isElif, hText, ← Line.isElif]

include hText in
theorem isElse_moved (line : Line) :
    (f line).isElse = line.isElse := by
  rw [Line.isElse, hText, ← Line.isElse]

include hText in
theorem isClause_moved
    {line : Line}
    (hOrder : KeepsOrder f (owner :: line :: lines)) :
    (f line).isClause (f owner).indent =
      line.isClause owner.indent := by
  have hIndent := indent_moved_eq_iff hOrder
  rw [Line.isClause, isElif_moved hText, isElse_moved hText,
    Line.isClause, Bool.beq_eq_decide_eq, Bool.beq_eq_decide_eq,
    decide_eq_decide.mpr hIndent]

include hText in
theorem afterClauses_moved
    (hOrder : KeepsOrder f (owner :: lines)) :
    afterClauses (f owner).indent (lines.map f) =
      (afterClauses owner.indent lines).map f := by
  fun_induction afterClauses owner.indent lines with
  | case1 => rw [List.map_nil, afterClauses]
  | case2 line rest hEq hElif ih =>
      have hRest : KeepsOrder f (owner :: rest) :=
        keepsOrder_below hOrder (List.subset_cons_self _ _)
      rw [List.map_cons,
        afterClauses_elif ((indent_moved_eq_iff hOrder).mpr hEq)
          ((isElif_moved hText line).trans hElif),
        (deeper_moved hRest).2]
      exact ih (keepsOrder_below hRest (afterDeeper_subset _ _))
  | case3 line rest hEq hElif hElse =>
      have hRest : KeepsOrder f (owner :: rest) :=
        keepsOrder_below hOrder (List.subset_cons_self _ _)
      have hNot : line.isElif = false := by simpa using hElif
      rw [List.map_cons,
        afterClauses_else ((indent_moved_eq_iff hOrder).mpr hEq)
          ((isElif_moved hText line).trans hNot)
          ((isElse_moved hText line).trans hElse),
        (deeper_moved hRest).2]
  | case4 line rest hEq hElif hElse =>
      apply (clauses_of_no_clause _).2
      intro l hl
      rcases Option.mem_some.mp hl with rfl
      rw [isClause_moved hText hOrder]
      simp [Line.isClause, hElif, hElse]
  | case5 line rest hNe =>
      apply (clauses_of_no_clause _).2
      intro l hl
      rcases Option.mem_some.mp hl with rfl
      rw [isClause_moved hText hOrder]
      simp [Line.isClause, hNe]

------------------------------------------------------------
-- Moved Outlines
------------------------------------------------------------

include hText in
theorem outline_and_clauseOf_moved :
    (∀ lines,
        KeepsOrder f lines →
          outline (lines.map f) = moved f (outline lines)) ∧
      ∀ indent lines owner,
        owner.indent = indent →
          KeepsOrder f (owner :: lines) →
            clauseOf (f owner).indent (lines.map f) =
              (clauseOf indent lines).moved f := by
  apply lines_induction
  case nil =>
    intro _
    rw [List.map_nil, outline_nil, moved]
  case function =>
    intro line rest header hRead ihBody ihRest hOrder
    have hAll := keepsOrder_mono hOrder (List.subset_cons_self _ _)
    have hBody := ihBody (keepsOrder_mono hAll (deeper_subset _ _))
    have hRest :=
      ihRest (keepsOrder_mono hAll (afterDeeper_subset _ _))
    rw [List.map_cons, outline_function ((hText line).symm ▸ hRead),
      (deeper_moved hOrder).1, (deeper_moved hOrder).2, hBody,
      hRest, outline_function hRead, moved, Entry.moved]
  case conditional =>
    intro line rest condition hRead ihBody ihBranch ihRest hOrder
    have hAll := keepsOrder_mono hOrder (List.subset_cons_self _ _)
    have hAfter :=
      keepsOrder_below hOrder (afterDeeper_subset line.indent _)
    have hBody := ihBody (keepsOrder_mono hAll (deeper_subset _ _))
    have hBranch := ihBranch line rfl hAfter
    have hRest :=
      ihRest
        (keepsOrder_mono hAfter
          (List.subset_cons_of_subset _ (afterClauses_subset _ _)))
    rw [List.map_cons,
      outline_conditional ((hText line).symm ▸ hRead),
      (deeper_moved hOrder).1, (deeper_moved hOrder).2, hBody,
      hBranch, afterClauses_moved hText hAfter, hRest,
      outline_conditional hRead, moved, Entry.moved]
  case loop =>
    intro line rest header hRead ihBody ihRest hOrder
    have hAll := keepsOrder_mono hOrder (List.subset_cons_self _ _)
    have hBody := ihBody (keepsOrder_mono hAll (deeper_subset _ _))
    have hRest :=
      ihRest (keepsOrder_mono hAll (afterDeeper_subset _ _))
    rw [List.map_cons, outline_loop ((hText line).symm ▸ hRead),
      (deeper_moved hOrder).1, (deeper_moved hOrder).2, hBody,
      hRest, outline_loop hRead, moved, Entry.moved]
  case ret =>
    intro line rest value hRead ihRest hOrder
    have hAll := keepsOrder_mono hOrder (List.subset_cons_self _ _)
    rw [List.map_cons, outline_ret ((hText line).symm ▸ hRead),
      ihRest hAll, outline_ret hRead, moved, Entry.moved]
  case assignment =>
    intro line rest target value hRead ihRest hOrder
    have hAll := keepsOrder_mono hOrder (List.subset_cons_self _ _)
    rw [List.map_cons,
      outline_assignment ((hText line).symm ▸ hRead),
      ihRest hAll, outline_assignment hRead, moved, Entry.moved]
  case call =>
    intro line rest callee arguments hRead ihRest hOrder
    have hAll := keepsOrder_mono hOrder (List.subset_cons_self _ _)
    rw [List.map_cons, outline_call ((hText line).symm ▸ hRead),
      ihRest hAll, outline_call hRead, moved, Entry.moved]
  case unrecognized =>
    intro line rest hRead ihRest hOrder
    have hAll := keepsOrder_mono hOrder (List.subset_cons_self _ _)
    rw [List.map_cons,
      outline_unrecognized ((hText line).symm ▸ hRead),
      ihRest hAll, outline_unrecognized hRead, moved, Entry.moved]
  case none =>
    rintro indent lines hNone owner rfl hOrder
    rw [clauseOf_of_no_clause hNone, Clause.moved]
    apply clauseOf_of_no_clause
    cases lines with
    | nil => simp
    | cons line rest =>
        intro l hl
        rcases Option.mem_some.mp hl with rfl
        rw [isClause_moved hText hOrder]
        exact hNone line rfl
  case elif =>
    intro line rest hElif ihBody ihBranch owner hIndent hOrder
    have hMoved := (indent_moved_eq_iff hOrder).mpr hIndent.symm
    have hOwn : KeepsOrder f (line :: rest) :=
      keepsOrder_mono hOrder (List.subset_cons_self _ _)
    have hBody :=
      ihBody
        (keepsOrder_mono hOwn
          (List.subset_cons_of_subset _ (deeper_subset _ _)))
    have hBranch :=
      ihBranch line rfl
        (keepsOrder_below hOwn (afterDeeper_subset _ _))
    rw [List.map_cons,
      clauseOf_elif hMoved ((isElif_moved hText line).trans hElif),
      ← hMoved, (deeper_moved hOwn).1, (deeper_moved hOwn).2, hBody,
      hBranch, hText, clauseOf_elif rfl hElif, Clause.moved]
  case otherwise =>
    intro line rest hElif hElse ihBody owner hIndent hOrder
    have hMoved := (indent_moved_eq_iff hOrder).mpr hIndent.symm
    have hOwn : KeepsOrder f (line :: rest) :=
      keepsOrder_mono hOrder (List.subset_cons_self _ _)
    have hBody :=
      ihBody
        (keepsOrder_mono hOwn
          (List.subset_cons_of_subset _ (deeper_subset _ _)))
    rw [List.map_cons,
      clauseOf_else hMoved ((isElif_moved hText line).trans hElif)
        ((isElse_moved hText line).trans hElse),
      ← hMoved, (deeper_moved hOwn).1, hBody,
      clauseOf_else rfl hElif hElse, Clause.moved]

include hText in
/-
  Lines can be moved without a change of what holds what, if
  they say the same and their indents compare as before.
-/
theorem outline_moved
    (hOrder : KeepsOrder f lines) :
    outline (lines.map f) = moved f (outline lines) :=
  (outline_and_clauseOf_moved hText).1 lines hOrder

end Moved

------------------------------------------------------------
-- Blocks
------------------------------------------------------------

mutual

theorem Entry.draft_moved (f : Line → Line) :
    (e : Entry) → (e.moved f).draft = e.draft
  | .function _ header body => by
      rw [Entry.moved, Entry.draft, draft_moved f body, Entry.draft]
  | .conditional _ condition body clause => by
      rw [Entry.moved, Entry.draft, draft_moved f body,
        clause.draft_moved f, Entry.draft]
  | .loop _ header body => by
      rw [Entry.moved, Entry.draft, draft_moved f body, Entry.draft]
  | .ret _ _ => rfl
  | .assignment _ _ _ => rfl
  | .call _ _ _ => rfl
  | .unrecognized _ => rfl

theorem Clause.draft_moved (f : Line → Line) :
    (c : Clause) → (c.moved f).draft = c.draft
  | .none => rfl
  | .elif _ condition body clause => by
      rw [Clause.moved, Clause.draft, draft_moved f body,
        clause.draft_moved f, Clause.draft]
  | .otherwise _ body => by
      rw [Clause.moved, Clause.draft, draft_moved f body,
        Clause.draft]

/- The blocks that entries make do not tell their lines. -/
theorem draft_moved (f : Line → Line) :
    (es : List Entry) → draft (moved f es) = draft es
  | [] => rfl
  | e :: es => by
      rw [moved, draft, e.draft_moved f, draft_moved f es, draft]

end

/- Nor do the blocks that lines make tell the lines. -/
theorem blocksOf_moved
    {f : Line → Line}
    {lines : List Line}
    (hText : ∀ l, (f l).text = l.text)
    (hOrder : KeepsOrder f lines) :
    blocksOf (lines.map f) = blocksOf lines := by
  rw [blocksOf, outline_moved hText hOrder, draft_moved, blocksOf]

/- A line without its number. -/
def Line.unnumbered (line : Line) : Line :=
  { line with number := 0 }

theorem blocksOf_unnumbered (lines : List Line) :
    blocksOf (lines.map Line.unnumbered) = blocksOf lines :=
  blocksOf_moved (fun _ => rfl) (fun _ _ _ _ => Iff.rfl)

end Source

end BlockProgram
