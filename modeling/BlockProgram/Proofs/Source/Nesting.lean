import BlockProgram.Proofs.Source.Accounting

/-
  Outlines that nest as their indents say.

  The lines that an entry holds are deeper than its own, and
  the next line is not.  The clause of a conditional is the
  one that this next line says.  The outline of any lines
  has these properties, in every place.

  Main declarations:
    * `Source.IsRun`
    * `Source.Entry.Nests`
    * `Source.nests_outline`
-/

namespace BlockProgram

namespace Source

------------------------------------------------------------
-- Outlines That Nest
------------------------------------------------------------

/-
  Some lines are all that stand below a line of an indent:
  they are deeper, and the next one is not.
-/
def IsRun
    (indent : Nat)
    (inner after : List Line) : Prop :=
  (∀ l ∈ inner, indent < l.indent) ∧
    ∀ l ∈ after.head?, l.indent ≤ indent

mutual

/- The entry holds the lines that its indent says. -/
def Entry.Nests (after : List Line) : Entry → Prop
  | .function line _ body =>
      IsRun line.indent (linesOf body) after ∧ nests after body
  | .conditional line _ body clause =>
      IsRun line.indent (linesOf body) (clause.lines ++ after) ∧
        nests (clause.lines ++ after) body ∧
          clause.Nests line.indent after
  | .loop line _ body =>
      IsRun line.indent (linesOf body) after ∧ nests after body
  | .ret _ _ => True
  | .assignment _ _ _ => True
  | .call _ _ _ => True
  | .unrecognized _ => True

/- The clause is the one that comes next at its indent. -/
def Clause.Nests
    (indent : Nat)
    (after : List Line) : Clause → Prop
  | .none => ∀ l ∈ after.head?, l.isClause indent = false
  | .elif line _ body clause =>
      line.indent = indent ∧
        line.isElif = true ∧
          IsRun indent (linesOf body) (clause.lines ++ after) ∧
            nests (clause.lines ++ after) body ∧
              clause.Nests indent after
  | .otherwise line body =>
      line.indent = indent ∧
        line.isElif = false ∧
          line.isElse = true ∧
            IsRun indent (linesOf body) after ∧ nests after body

/- `Nests` for entries one after another. -/
def nests (after : List Line) : List Entry → Prop
  | [] => True
  | e :: es => e.Nests (linesOf es ++ after) ∧ nests after es

end

/- The lines that follow are all less deep than these. -/
def Encloses (after lines : List Line) : Prop :=
  ∀ l ∈ after.head?, ∀ l' ∈ lines, l.indent < l'.indent

theorem encloses_mono
    {after lines lines' : List Line}
    (hLines : lines' ⊆ lines)
    (hEncloses : Encloses after lines) :
    Encloses after lines' :=
  fun l hl l' hl' => hEncloses l hl l' (hLines hl')

theorem encloses_tail
    {line : Line}
    {rest after : List Line}
    (hEncloses : Encloses after (line :: rest)) :
    Encloses after rest :=
  encloses_mono (List.subset_cons_self line rest) hEncloses

theorem encloses_afterDeeper
    {line : Line}
    {rest after : List Line}
    (hEncloses : Encloses after (line :: rest)) :
    Encloses after (afterDeeper line.indent rest) :=
  encloses_mono (afterDeeper_subset line.indent rest)
    (encloses_tail hEncloses)

theorem encloses_of_isRun
    {indent : Nat}
    {inner after : List Line}
    (hRun : IsRun indent inner after) :
    Encloses after inner := by
  intro l hl l' hl'
  have hInner := hRun.1 l' hl'
  have hAfter := hRun.2 l hl
  omega

theorem isRun_deeper
    {indent : Nat}
    {rest after : List Line}
    (hAfter : ∀ l ∈ after.head?, l.indent ≤ indent) :
    IsRun indent (deeper indent rest)
      (afterDeeper indent rest ++ after) := by
  refine ⟨fun l hl => lt_indent_of_mem_deeper hl, ?_⟩
  intro l hl
  rw [List.head?_append, Option.mem_def, Option.or_eq_some_iff] at hl
  rcases hl with hl | ⟨_, hl⟩
  · exact indent_le_of_head?_afterDeeper hl
  · exact hAfter l hl

/- Lines of a header, when less deep lines follow them. -/
theorem isRun_of_encloses
    {line : Line}
    {rest after : List Line}
    (hEncloses : Encloses after (line :: rest)) :
    IsRun line.indent (deeper line.indent rest)
      (afterDeeper line.indent rest ++ after) :=
  isRun_deeper fun l hl =>
    Nat.le_of_lt (hEncloses l hl line List.mem_cons_self)

theorem nests_outline_and_clauseOf :
    (∀ lines after,
        Encloses after lines → nests after (outline lines)) ∧
      ∀ indent lines after,
        (∀ l ∈ after.head?, l.indent < indent) →
          Encloses after lines →
            (clauseOf indent lines).Nests indent
              (afterClauses indent lines ++ after) := by
  apply lines_induction
  case nil =>
    intro after _
    rw [outline_nil]
    trivial
  case function =>
    intro line rest header hRead ihBody ihRest after hEncloses
    have hRun := isRun_of_encloses hEncloses
    have hRest := encloses_afterDeeper hEncloses
    rw [outline_function hRead, nests, Entry.Nests,
      linesOf_outline, linesOf_outline]
    exact
      ⟨⟨hRun, ihBody _ (encloses_of_isRun hRun)⟩,
        ihRest after hRest⟩
  case conditional =>
    intro line rest condition hRead ihBody ihBranch ihRest after
      hEncloses
    have hRun := isRun_of_encloses hEncloses
    have hBranch := encloses_afterDeeper hEncloses
    have hRest :=
      encloses_mono (afterClauses_subset line.indent _) hBranch
    rw [outline_conditional hRead, nests, Entry.Nests,
      linesOf_outline, linesOf_outline, ← List.append_assoc,
      lines_clauseOf]
    exact
      ⟨⟨hRun, ihBody _ (encloses_of_isRun hRun),
          ihBranch after
            (fun l hl => hEncloses l hl line List.mem_cons_self)
            hBranch⟩,
        ihRest after hRest⟩
  case loop =>
    intro line rest header hRead ihBody ihRest after hEncloses
    have hRun := isRun_of_encloses hEncloses
    have hRest := encloses_afterDeeper hEncloses
    rw [outline_loop hRead, nests, Entry.Nests,
      linesOf_outline, linesOf_outline]
    exact
      ⟨⟨hRun, ihBody _ (encloses_of_isRun hRun)⟩,
        ihRest after hRest⟩
  case ret =>
    intro line rest value hRead ihRest after hEncloses
    rw [outline_ret hRead]
    exact ⟨trivial, ihRest after (encloses_tail hEncloses)⟩
  case assignment =>
    intro line rest target value hRead ihRest after hEncloses
    rw [outline_assignment hRead]
    exact ⟨trivial, ihRest after (encloses_tail hEncloses)⟩
  case call =>
    intro line rest callee arguments hRead ihRest after hEncloses
    rw [outline_call hRead]
    exact ⟨trivial, ihRest after (encloses_tail hEncloses)⟩
  case unrecognized =>
    intro line rest hRead ihRest after hEncloses
    rw [outline_unrecognized hRead]
    exact ⟨trivial, ihRest after (encloses_tail hEncloses)⟩
  case none =>
    intro indent lines hNone after hAfter hEncloses
    rw [clauseOf_of_no_clause hNone,
      (clauses_of_no_clause hNone).2]
    intro l hl
    cases lines with
    | nil =>
        have hLess := hAfter l hl
        simp [Line.isClause, Nat.ne_of_lt hLess]
    | cons line rest => exact hNone l hl
  case elif =>
    intro line rest hElif ihBody ihBranch after hAfter hEncloses
    have hRun := isRun_of_encloses hEncloses
    have hRest := encloses_afterDeeper hEncloses
    rw [clauseOf_elif rfl hElif, afterClauses_elif rfl hElif,
      Clause.Nests, linesOf_outline, ← List.append_assoc,
      lines_clauseOf]
    exact
      ⟨rfl, hElif, hRun, ihBody _ (encloses_of_isRun hRun),
        ihBranch after hAfter hRest⟩
  case otherwise =>
    intro line rest hElif hElse ihBody after hAfter hEncloses
    have hRun := isRun_of_encloses hEncloses
    rw [clauseOf_else rfl hElif hElse,
      afterClauses_else rfl hElif hElse, Clause.Nests,
      linesOf_outline]
    exact
      ⟨rfl, hElif, hElse, hRun,
        ihBody _ (encloses_of_isRun hRun)⟩

/- The outline of a text nests as its indents say. -/
theorem nests_outline (lines : List Line) :
    nests [] (outline lines) :=
  nests_outline_and_clauseOf.1 lines [] (by simp [Encloses])

end Source

end BlockProgram
