import Mathlib.Data.List.TakeWhile
import BlockProgram.Proofs.Text.Runs
import BlockProgram.Source.Parse

/-
  The blocks of a run of lines, one line at a time.

  The outline of lines and the draft of its blocks are taken
  as one function here.  Each form of a line gives one
  equation, and nothing else about outlines is needed.

  Main declarations:
    * `Source.blocksOf`
    * `Source.branchOf`
    * `Source.parse_eq`
    * `Source.lines_induction`
    * `Source.deeper_append`
-/

namespace BlockProgram

namespace Source

------------------------------------------------------------
-- Blocks And Branches
------------------------------------------------------------

/- The blocks that a run of significant lines makes. -/
def blocksOf (lines : List Line) : List Block :=
  draft (outline lines)

/- The else branch that a conditional of an indent finds. -/
def branchOf
    (indent : Nat)
    (lines : List Line) : ElseKind × List Block :=
  (clauseOf indent lines).draft

theorem parse_eq (n : Nat) (source : String) :
    parse n source =
      Block.renumberClosingAll n
        (blocksOf (significantLines source)) := rfl

/- The conditional of a header with its lines and branch. -/
def conditionalOf
    (condition : Option String)
    (body : List Block)
    (branch : ElseKind × List Block) : Block :=
  .conditional noId (condition.getD defaultCondition) body
    branch.1 branch.2

------------------------------------------------------------
-- One Line At A Time
------------------------------------------------------------

theorem outline_nil : outline [] = [] := by
  rw [outline]

/- The outline of a first line and of what follows it. -/
theorem outline_cons
    (line : Line)
    (rest : List Line) :
    outline (line :: rest) =
      match Statement.read line.text with
      | .function header =>
          .function line header
              (outline (deeper line.indent rest)) ::
            outline (afterDeeper line.indent rest)
      | .conditional condition =>
          .conditional line condition
              (outline (deeper line.indent rest))
              (clauseOf line.indent
                (afterDeeper line.indent rest)) ::
            outline
              (afterClauses line.indent
                (afterDeeper line.indent rest))
      | .loop header =>
          .loop line header
              (outline (deeper line.indent rest)) ::
            outline (afterDeeper line.indent rest)
      | .ret value => .ret line value :: outline rest
      | .assignment target value =>
          .assignment line target value :: outline rest
      | .call callee arguments =>
          .call line callee arguments :: outline rest
      | .unrecognized => .unrecognized line :: outline rest := by
  cases hRead : Statement.read line.text <;> rw [outline, hRead]

section Lines

variable {indent : Nat}
variable {line : Line}
variable {rest : List Line}

theorem outline_function
    {header : Option (String × List String)}
    (hRead : Statement.read line.text = .function header) :
    outline (line :: rest) =
      .function line header (outline (deeper line.indent rest)) ::
        outline (afterDeeper line.indent rest) := by
  rw [outline_cons, hRead]

theorem outline_conditional
    {condition : Option String}
    (hRead : Statement.read line.text = .conditional condition) :
    outline (line :: rest) =
      .conditional line condition
          (outline (deeper line.indent rest))
          (clauseOf line.indent
            (afterDeeper line.indent rest)) ::
        outline
          (afterClauses line.indent
            (afterDeeper line.indent rest)) := by
  rw [outline_cons, hRead]

theorem outline_loop
    {header : Option (String × String)}
    (hRead : Statement.read line.text = .loop header) :
    outline (line :: rest) =
      .loop line header (outline (deeper line.indent rest)) ::
        outline (afterDeeper line.indent rest) := by
  rw [outline_cons, hRead]

theorem outline_ret
    {value : String}
    (hRead : Statement.read line.text = .ret value) :
    outline (line :: rest) = .ret line value :: outline rest := by
  rw [outline_cons, hRead]

theorem outline_assignment
    {target value : String}
    (hRead :
      Statement.read line.text = .assignment target value) :
    outline (line :: rest) =
      .assignment line target value :: outline rest := by
  rw [outline_cons, hRead]

theorem outline_call
    {callee : String}
    {arguments : List String}
    (hRead : Statement.read line.text = .call callee arguments) :
    outline (line :: rest) =
      .call line callee arguments :: outline rest := by
  rw [outline_cons, hRead]

theorem outline_unrecognized
    (hRead : Statement.read line.text = .unrecognized) :
    outline (line :: rest) =
      .unrecognized line :: outline rest := by
  rw [outline_cons, hRead]

theorem blocksOf_nil : blocksOf [] = [] := by
  rw [blocksOf, outline_nil]
  rfl

theorem blocksOf_function
    {header : Option (String × List String)}
    (hIndent : line.indent = indent)
    (hRead : Statement.read line.text = .function header) :
    blocksOf (line :: rest) =
      .function noId (functionParts header).1
          (functionParts header).2
          (blocksOf (deeper indent rest)) ::
        blocksOf (afterDeeper indent rest) := by
  rw [blocksOf, outline_function hRead, hIndent]
  rfl

theorem blocksOf_conditional
    {condition : Option String}
    (hIndent : line.indent = indent)
    (hRead : Statement.read line.text = .conditional condition) :
    blocksOf (line :: rest) =
      conditionalOf condition
          (blocksOf (deeper indent rest))
          (branchOf indent (afterDeeper indent rest)) ::
        blocksOf
          (afterClauses indent
            (afterDeeper indent rest)) := by
  rw [blocksOf, outline_conditional hRead, hIndent]
  rfl

theorem blocksOf_loop
    {header : Option (String × String)}
    (hIndent : line.indent = indent)
    (hRead : Statement.read line.text = .loop header) :
    blocksOf (line :: rest) =
      .loop noId (loopParts header).1 (loopParts header).2
          (blocksOf (deeper indent rest)) ::
        blocksOf (afterDeeper indent rest) := by
  rw [blocksOf, outline_loop hRead, hIndent]
  rfl

theorem blocksOf_ret
    {value : String}
    (hRead : Statement.read line.text = .ret value) :
    blocksOf (line :: rest) = .ret noId value :: blocksOf rest := by
  rw [blocksOf, outline_ret hRead]
  rfl

theorem blocksOf_assignment
    {target value : String}
    (hRead :
      Statement.read line.text = .assignment target value) :
    blocksOf (line :: rest) =
      .assignment noId target (.simple value) ::
        blocksOf rest := by
  rw [blocksOf, outline_assignment hRead]
  rfl

theorem blocksOf_call
    {callee : String}
    {arguments : List String}
    (hRead : Statement.read line.text = .call callee arguments) :
    blocksOf (line :: rest) =
      .call noId callee arguments :: blocksOf rest := by
  rw [blocksOf, outline_call hRead]
  rfl

theorem blocksOf_unrecognized
    (hRead : Statement.read line.text = .unrecognized) :
    blocksOf (line :: rest) = blocksOf rest := by
  simp [blocksOf, outline_unrecognized hRead, draft,
    Entry.draft]

------------------------------------------------------------
-- Clauses
------------------------------------------------------------

/- The line goes on with a conditional of the indent. -/
def Line.isClause
    (indent : Nat)
    (line : Line) : Bool :=
  line.indent == indent && (line.isElif || line.isElse)

theorem clauseOf_nil : clauseOf indent [] = .none := by
  rw [clauseOf]

theorem clauseOf_cons :
    clauseOf indent (line :: rest) =
      if line.indent = indent then
        if line.isElif then
          .elif line (condition? line.text.toList)
            (outline (deeper indent rest))
            (clauseOf indent (afterDeeper indent rest))
        else if line.isElse then
          .otherwise line (outline (deeper indent rest))
        else .none
      else .none := by
  rw [clauseOf]

theorem clauseOf_elif
    (hIndent : line.indent = indent)
    (hElif : line.isElif = true) :
    clauseOf indent (line :: rest) =
      .elif line (condition? line.text.toList)
        (outline (deeper indent rest))
        (clauseOf indent (afterDeeper indent rest)) := by
  rw [clauseOf_cons, if_pos hIndent, if_pos hElif]

theorem clauseOf_else
    (hIndent : line.indent = indent)
    (hElif : line.isElif = false)
    (hElse : line.isElse = true) :
    clauseOf indent (line :: rest) =
      .otherwise line (outline (deeper indent rest)) := by
  rw [clauseOf_cons, if_pos hIndent, if_neg (by simp [hElif]),
    if_pos hElse]

theorem branchOf_elif
    (hIndent : line.indent = indent)
    (hElif : line.isElif = true) :
    branchOf indent (line :: rest) =
      (.elif,
        [conditionalOf (condition? line.text.toList)
          (blocksOf (deeper indent rest))
          (branchOf indent (afterDeeper indent rest))]) := by
  rw [branchOf, clauseOf_elif hIndent hElif]
  rfl

theorem branchOf_else
    (hIndent : line.indent = indent)
    (hElif : line.isElif = false)
    (hElse : line.isElse = true) :
    branchOf indent (line :: rest) =
      (.otherwise, blocksOf (deeper indent rest)) := by
  rw [branchOf, clauseOf_else hIndent hElif hElse]
  rfl

theorem afterClauses_elif
    (hIndent : line.indent = indent)
    (hElif : line.isElif = true) :
    afterClauses indent (line :: rest) =
      afterClauses indent (afterDeeper indent rest) := by
  rw [afterClauses]
  simp [hIndent, hElif]

theorem afterClauses_else
    (hIndent : line.indent = indent)
    (hElif : line.isElif = false)
    (hElse : line.isElse = true) :
    afterClauses indent (line :: rest) =
      afterDeeper indent rest := by
  rw [afterClauses]
  simp [hIndent, hElif, hElse]

end Lines

/- Lines that do not go on with a conditional. -/
theorem clauseOf_of_no_clause
    {indent : Nat}
    {lines : List Line}
    (hNone : ∀ l ∈ lines.head?, l.isClause indent = false) :
    clauseOf indent lines = .none := by
  cases lines with
  | nil => exact clauseOf_nil
  | cons line rest =>
      have hOwn := hNone line rfl
      by_cases hIndent : line.indent = indent
      · simp only [Line.isClause, hIndent, beq_self_eq_true,
          Bool.true_and, Bool.or_eq_false_iff] at hOwn
        simp [clauseOf_cons, hIndent, hOwn.1, hOwn.2]
      · simp [clauseOf_cons, hIndent]

theorem clauses_of_no_clause
    {indent : Nat}
    {lines : List Line}
    (hNone : ∀ l ∈ lines.head?, l.isClause indent = false) :
    branchOf indent lines = (.none, []) ∧
      afterClauses indent lines = lines := by
  constructor
  · rw [branchOf, clauseOf_of_no_clause hNone, Clause.draft]
  · cases lines with
    | nil => rw [afterClauses]
    | cons line rest =>
        have hOwn := hNone line rfl
        rw [afterClauses]
        by_cases hIndent : line.indent = indent
        · simp only [Line.isClause, hIndent, beq_self_eq_true,
            Bool.true_and, Bool.or_eq_false_iff] at hOwn
          simp [hIndent, hOwn.1, hOwn.2]
        · simp [hIndent]

------------------------------------------------------------
-- Induction Over Lines
------------------------------------------------------------

/-
  What holds of a run of lines by its first line and the runs
  that the line splits the others into holds of every run.
  `blocks` is said of lines that make blocks, and `branch` of
  lines among which a conditional of an indent finds its else
  branch.
-/
theorem lines_induction
    {blocks : List Line → Prop}
    {branch : Nat → List Line → Prop}
    (nil : blocks [])
    (function :
      ∀ line rest header,
        Statement.read line.text = .function header →
          blocks (deeper line.indent rest) →
            blocks (afterDeeper line.indent rest) →
              blocks (line :: rest))
    (conditional :
      ∀ line rest condition,
        Statement.read line.text = .conditional condition →
          blocks (deeper line.indent rest) →
            branch line.indent (afterDeeper line.indent rest) →
              blocks
                  (afterClauses line.indent
                    (afterDeeper line.indent rest)) →
                blocks (line :: rest))
    (loop :
      ∀ line rest header,
        Statement.read line.text = .loop header →
          blocks (deeper line.indent rest) →
            blocks (afterDeeper line.indent rest) →
              blocks (line :: rest))
    (ret :
      ∀ line rest value,
        Statement.read line.text = .ret value →
          blocks rest → blocks (line :: rest))
    (assignment :
      ∀ line rest target value,
        Statement.read line.text = .assignment target value →
          blocks rest → blocks (line :: rest))
    (call :
      ∀ line rest callee arguments,
        Statement.read line.text = .call callee arguments →
          blocks rest → blocks (line :: rest))
    (unrecognized :
      ∀ line rest,
        Statement.read line.text = .unrecognized →
          blocks rest → blocks (line :: rest))
    (none :
      ∀ indent lines,
        (∀ l ∈ lines.head?, l.isClause indent = false) →
          branch indent lines)
    (elif :
      ∀ line rest,
        line.isElif = true →
          blocks (deeper line.indent rest) →
            branch line.indent (afterDeeper line.indent rest) →
              branch line.indent (line :: rest))
    (otherwise :
      ∀ line rest,
        line.isElif = false →
          line.isElse = true →
            blocks (deeper line.indent rest) →
              branch line.indent (line :: rest)) :
    (∀ lines, blocks lines) ∧
      ∀ indent lines, branch indent lines := by
  apply outline.mutual_induct blocks branch
  · exact nil
  · exact function
  · exact conditional
  · exact loop
  · exact ret
  · exact assignment
  · exact call
  · exact unrecognized
  · intro indent
    exact none indent [] (by simp)
  · exact elif
  · intro line rest hElif hElse hBody
    have hNot : line.isElif = false := by
      simpa using hElif
    exact otherwise line rest hNot hElse hBody
  · intro line rest hElif hElse
    apply none
    simp [Line.isClause, hElif, hElse]
  · intro indent line rest hIndent
    apply none
    simp [Line.isClause, hIndent]

------------------------------------------------------------
-- Runs Of Deeper Lines
------------------------------------------------------------

/- A run of deeper lines ends before a line that is not. -/
theorem deeper_append
    {indent : Nat}
    {inner rest : List Line}
    (hInner : ∀ l ∈ inner, indent < l.indent)
    (hRest : ∀ l ∈ rest.head?, l.indent ≤ indent) :
    deeper indent (inner ++ rest) = inner ∧
      afterDeeper indent (inner ++ rest) = rest := by
  have hAll :
      ∀ l ∈ inner, decide (indent < l.indent) = true := by
    simpa using hInner
  have hStop :
      ∀ l ∈ rest.head?, decide (indent < l.indent) = false := by
    simpa using hRest
  exact
    ⟨Text.takeWhile_append_stop hAll hStop,
      Text.dropWhile_append_stop hAll hStop⟩

/- All lines of such a run are deeper. -/
theorem lt_indent_of_mem_deeper
    {indent : Nat}
    {lines : List Line}
    {l : Line}
    (hl : l ∈ deeper indent lines) :
    indent < l.indent := by
  simpa using List.all_eq_true.mp List.all_takeWhile l hl

/- The line behind it is not. -/
theorem indent_le_of_head?_afterDeeper
    {indent : Nat}
    {lines : List Line}
    {l : Line}
    (hl : l ∈ (afterDeeper indent lines).head?) :
    l.indent ≤ indent := by
  have hStop :=
    List.head?_dropWhile_not
      (fun line : Line => decide (indent < line.indent)) lines
  rw [← afterDeeper, Option.mem_def.mp hl] at hStop
  simpa using hStop

/- The runs of lines that a line is split from. -/
theorem deeper_subset
    (indent : Nat)
    (lines : List Line) :
    deeper indent lines ⊆ lines :=
  (List.takeWhile_sublist _).subset

theorem afterDeeper_subset
    (indent : Nat)
    (lines : List Line) :
    afterDeeper indent lines ⊆ lines :=
  (List.dropWhile_sublist _).subset

theorem afterClauses_subset
    (indent : Nat)
    (lines : List Line) :
    afterClauses indent lines ⊆ lines := by
  fun_induction afterClauses indent lines with
  | case1 => exact List.Subset.refl _
  | case2 line rest _ _ ih =>
      exact
        List.subset_cons_of_subset line
          (List.Subset.trans ih (afterDeeper_subset indent rest))
  | case3 line rest _ _ _ =>
      exact
        List.subset_cons_of_subset line
          (afterDeeper_subset indent rest)
  | case4 => exact List.Subset.refl _
  | case5 => exact List.Subset.refl _

end Source

end BlockProgram
