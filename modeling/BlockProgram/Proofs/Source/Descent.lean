import BlockProgram.Proofs.Source.Nesting

/-
  Reading a text from its first line to its last.

  The lines are taken one after another, with one number that
  only grows: a header is read, then what stands below it,
  and then it takes the next number for its own block.  This
  descent has one end, and it ends with the program and the
  findings that the outline gives.

  Main declarations:
    * `Source.ReadsAll`
    * `Source.ReadsAll.unique`
    * `Source.readsAs_outline_and_clauseOf`
    * `Source.readsAll_iff`
-/

namespace BlockProgram

namespace Source

------------------------------------------------------------
-- The Descent
------------------------------------------------------------

mutual

/-
  From these lines, and with this next number, the blocks and
  findings are read, down to a line that is not deeper than
  the parent.  What is left starts with that line, and the
  next number is the last.
-/
inductive ReadsAll :
    Option Nat →
    List Line →
    Nat →
    List Block →
    List Diagnostic →
    List Line →
    Nat →
    Prop
  | done
      {parent : Option Nat}
      {n : Nat} :
      ReadsAll parent [] n [] [] [] n
  | skip
      {parent : Option Nat}
      {line : Line}
      {rest left : List Line}
      {n m : Nat}
      {blocks : List Block}
      {ds : List Diagnostic}
      (hSkip : line.isSignificant = false)
      (hRest : ReadsAll parent rest n blocks ds left m) :
      ReadsAll parent (line :: rest) n blocks ds left m
  | stop
      {parent : Nat}
      {line : Line}
      {rest : List Line}
      {n : Nat}
      (hLine : line.isSignificant = true)
      (hStop : line.indent ≤ parent) :
      ReadsAll (some parent) (line :: rest) n [] []
        (line :: rest) n
  | next
      {parent : Option Nat}
      {line : Line}
      {rest middle left : List Line}
      {n m k : Nat}
      {first blocks : List Block}
      {ds ds' : List Diagnostic}
      (hLine : line.isSignificant = true)
      (hInside : ∀ indent ∈ parent, indent < line.indent)
      (hFirst : ReadsOne line rest n first ds middle m)
      (hRest : ReadsAll parent middle m blocks ds' left k) :
      ReadsAll parent (line :: rest) n (first ++ blocks)
        (ds ++ ds') left k

/- A line is read, with all that stands below it. -/
inductive ReadsOne :
    Line →
    List Line →
    Nat →
    List Block →
    List Diagnostic →
    List Line →
    Nat →
    Prop
  | function
      {line : Line}
      {rest left : List Line}
      {n m : Nat}
      {header : Option (String × List String)}
      {body : List Block}
      {ds : List Diagnostic}
      (hRead : Statement.read line.text = .function header)
      (hBody :
        ReadsAll (some line.indent) rest n body ds left m) :
      ReadsOne line rest n
        [.function (Kind.function.freshId m)
          (functionParts header).1 (functionParts header).2
          body]
        (line.reportAbsent "def" header ++ ds) left (m + 1)
  | conditional
      {line : Line}
      {rest middle left : List Line}
      {n m k : Nat}
      {condition : Option String}
      {body elseBody : List Block}
      {elseKind : ElseKind}
      {ds ds' : List Diagnostic}
      (hRead :
        Statement.read line.text = .conditional condition)
      (hBody :
        ReadsAll (some line.indent) rest n body ds middle m)
      (hClause :
        ReadsClause line.indent middle (m + 1) elseKind elseBody
          ds' left k) :
      ReadsOne line rest n
        [.conditional (Kind.conditional.freshId m)
          (condition.getD defaultCondition) body elseKind
          elseBody]
        (line.reportAbsent "if" condition ++ ds ++ ds') left k
  | loop
      {line : Line}
      {rest left : List Line}
      {n m : Nat}
      {header : Option (String × String)}
      {body : List Block}
      {ds : List Diagnostic}
      (hRead : Statement.read line.text = .loop header)
      (hBody :
        ReadsAll (some line.indent) rest n body ds left m) :
      ReadsOne line rest n
        [.loop (Kind.loop.freshId m) (loopParts header).1
          (loopParts header).2 body]
        (line.reportAbsent "for" header ++ ds) left (m + 1)
  | ret
      {line : Line}
      {rest : List Line}
      {n : Nat}
      {value : String}
      (hRead : Statement.read line.text = .ret value) :
      ReadsOne line rest n [.ret (Kind.ret.freshId n) value] []
        rest (n + 1)
  | assignment
      {line : Line}
      {rest : List Line}
      {n : Nat}
      {target value : String}
      (hRead :
        Statement.read line.text = .assignment target value) :
      ReadsOne line rest n
        [.assignment (Kind.assignment.freshId n) target
          (.simple value)]
        [] rest (n + 1)
  | call
      {line : Line}
      {rest : List Line}
      {n : Nat}
      {callee : String}
      {arguments : List String}
      (hRead :
        Statement.read line.text = .call callee arguments) :
      ReadsOne line rest n
        [.call (Kind.call.freshId n) callee arguments] [] rest
        (n + 1)
  | unrecognized
      {line : Line}
      {rest : List Line}
      {n : Nat}
      (hRead : Statement.read line.text = .unrecognized) :
      ReadsOne line rest n [] [line.report .unrecognized] rest n

/- The clause of a conditional is read, when there is one. -/
inductive ReadsClause :
    Nat →
    List Line →
    Nat →
    ElseKind →
    List Block →
    List Diagnostic →
    List Line →
    Nat →
    Prop
  | none
      {indent n : Nat}
      {lines : List Line}
      (hNone : ∀ l ∈ lines.head?, l.isClause indent = false) :
      ReadsClause indent lines n .none [] [] lines n
  | elif
      {line : Line}
      {rest middle left : List Line}
      {indent n m k : Nat}
      {body elseBody : List Block}
      {elseKind : ElseKind}
      {ds ds' : List Diagnostic}
      (hIndent : line.indent = indent)
      (hElif : line.isElif = true)
      (hBody : ReadsAll (some indent) rest n body ds middle m)
      (hClause :
        ReadsClause indent middle (m + 1) elseKind elseBody ds'
          left k) :
      ReadsClause indent (line :: rest) n .elif
        [.conditional (Kind.conditional.freshId m)
          ((condition? line.text.toList).getD defaultCondition)
          body elseKind elseBody]
        (line.reportAbsent "if" (condition? line.text.toList) ++
            ds ++
          ds')
        left k
  | otherwise
      {line : Line}
      {rest left : List Line}
      {indent n m : Nat}
      {body : List Block}
      {ds : List Diagnostic}
      (hIndent : line.indent = indent)
      (hElif : line.isElif = false)
      (hElse : line.isElse = true)
      (hBody : ReadsAll (some indent) rest n body ds left m) :
      ReadsClause indent (line :: rest) n .otherwise body ds left
        m

end

------------------------------------------------------------
-- One End
------------------------------------------------------------

mutual

theorem ReadsAll.unique
    {parent : Option Nat}
    {lines left : List Line}
    {n m : Nat}
    {blocks : List Block}
    {ds : List Diagnostic} :
    ReadsAll parent lines n blocks ds left m →
      ∀ {blocks' ds' left' m'},
        ReadsAll parent lines n blocks' ds' left' m' →
          blocks = blocks' ∧ ds = ds' ∧ left = left' ∧ m = m'
  | .done, _, _, _, _, hOther => by
      cases hOther
      exact ⟨rfl, rfl, rfl, rfl⟩
  | .skip hSkip hRest, _, _, _, _, hOther => by
      cases hOther with
      | skip _ hOther => exact hRest.unique hOther
      | stop hLine | next hLine => simp [hSkip] at hLine
  | .stop hLine hStop, _, _, _, _, hOther => by
      cases hOther with
      | skip hSkip => simp [hLine] at hSkip
      | stop => exact ⟨rfl, rfl, rfl, rfl⟩
      | next _ hInside =>
          have hDeeper := hInside _ rfl
          omega
  | .next hLine hInside hFirst hRest, _, _, _, _, hOther => by
      cases hOther with
      | skip hSkip => simp [hLine] at hSkip
      | stop _ hStop =>
          have hDeeper := hInside _ rfl
          omega
      | next _ _ hFirst' hRest' =>
          rcases hFirst.unique hFirst' with ⟨rfl, rfl, rfl, rfl⟩
          rcases hRest.unique hRest' with ⟨rfl, rfl, rfl, rfl⟩
          exact ⟨rfl, rfl, rfl, rfl⟩

theorem ReadsOne.unique
    {line : Line}
    {rest left : List Line}
    {n m : Nat}
    {blocks : List Block}
    {ds : List Diagnostic} :
    ReadsOne line rest n blocks ds left m →
      ∀ {blocks' ds' left' m'},
        ReadsOne line rest n blocks' ds' left' m' →
          blocks = blocks' ∧ ds = ds' ∧ left = left' ∧ m = m'
  | .function hRead hBody, _, _, _, _, hOther => by
      cases hOther with
      | function hRead' hBody' =>
          cases hRead.symm.trans hRead'
          rcases hBody.unique hBody' with ⟨rfl, rfl, rfl, rfl⟩
          exact ⟨rfl, rfl, rfl, rfl⟩
      | _ => simp_all
  | .conditional hRead hBody hClause, _, _, _, _, hOther => by
      cases hOther with
      | conditional hRead' hBody' hClause' =>
          cases hRead.symm.trans hRead'
          rcases hBody.unique hBody' with ⟨rfl, rfl, rfl, rfl⟩
          rcases hClause.unique hClause' with
            ⟨rfl, rfl, rfl, rfl, rfl⟩
          exact ⟨rfl, rfl, rfl, rfl⟩
      | _ => simp_all
  | .loop hRead hBody, _, _, _, _, hOther => by
      cases hOther with
      | loop hRead' hBody' =>
          cases hRead.symm.trans hRead'
          rcases hBody.unique hBody' with ⟨rfl, rfl, rfl, rfl⟩
          exact ⟨rfl, rfl, rfl, rfl⟩
      | _ => simp_all
  | .ret hRead, _, _, _, _, hOther => by
      cases hOther with
      | ret hRead' =>
          cases hRead.symm.trans hRead'
          exact ⟨rfl, rfl, rfl, rfl⟩
      | _ => simp_all
  | .assignment hRead, _, _, _, _, hOther => by
      cases hOther with
      | assignment hRead' =>
          cases hRead.symm.trans hRead'
          exact ⟨rfl, rfl, rfl, rfl⟩
      | _ => simp_all
  | .call hRead, _, _, _, _, hOther => by
      cases hOther with
      | call hRead' =>
          cases hRead.symm.trans hRead'
          exact ⟨rfl, rfl, rfl, rfl⟩
      | _ => simp_all
  | .unrecognized hRead, _, _, _, _, hOther => by
      cases hOther with
      | unrecognized hRead' =>
          cases hRead.symm.trans hRead'
          exact ⟨rfl, rfl, rfl, rfl⟩
      | _ => simp_all

theorem ReadsClause.unique
    {indent : Nat}
    {lines left : List Line}
    {n m : Nat}
    {elseKind : ElseKind}
    {branch : List Block}
    {ds : List Diagnostic} :
    ReadsClause indent lines n elseKind branch ds left m →
      ∀ {elseKind' branch' ds' left' m'},
        ReadsClause indent lines n elseKind' branch' ds' left'
            m' →
          elseKind = elseKind' ∧
            branch = branch' ∧ ds = ds' ∧ left = left' ∧ m = m'
  | .none hNone, _, _, _, _, _, hOther => by
      cases hOther with
      | none => exact ⟨rfl, rfl, rfl, rfl, rfl⟩
      | elif hIndent hElif =>
          simp [Line.isClause, hIndent, hElif] at hNone
      | otherwise hIndent _ hElse =>
          simp [Line.isClause, hIndent, hElse] at hNone
  | .elif hIndent hElif hBody hClause, _, _, _, _, _, hOther => by
      cases hOther with
      | none hNone =>
          simp [Line.isClause, hIndent, hElif] at hNone
      | elif _ _ hBody' hClause' =>
          rcases hBody.unique hBody' with ⟨rfl, rfl, rfl, rfl⟩
          rcases hClause.unique hClause' with
            ⟨rfl, rfl, rfl, rfl, rfl⟩
          exact ⟨rfl, rfl, rfl, rfl, rfl⟩
      | otherwise _ hElif' => simp [hElif] at hElif'
  | .otherwise hIndent hElif hElse hBody, _, _, _, _, _,
      hOther => by
      cases hOther with
      | none hNone =>
          simp [Line.isClause, hIndent, hElse] at hNone
      | elif _ hElif' => simp [hElif] at hElif'
      | otherwise _ _ _ hBody' =>
          rcases hBody.unique hBody' with ⟨rfl, rfl, rfl, rfl⟩
          exact ⟨rfl, rfl, rfl, rfl, rfl⟩

end

------------------------------------------------------------
-- Numbering Parts
------------------------------------------------------------

theorem sizeAll_append (bs cs : List Block) :
    Block.sizeAll (bs ++ cs) =
      Block.sizeAll bs + Block.sizeAll cs := by
  rw [← Block.length_inOrderAll, Block.inOrderAll_append,
    List.length_append, Block.length_inOrderAll,
    Block.length_inOrderAll]

/- Parts are numbered one after another. -/
theorem renumberClosingAll_append
    (n : Nat)
    (bs cs : List Block) :
    Block.renumberClosingAll n (bs ++ cs) =
      Block.renumberClosingAll n bs ++
        Block.renumberClosingAll (n + Block.sizeAll bs) cs := by
  induction bs generalizing n with
  | nil => rfl
  | cons b bs ih =>
      rw [List.cons_append, Block.renumberClosingAll, ih,
        Block.renumberClosingAll, Block.sizeAll, Nat.add_assoc,
        List.cons_append]

------------------------------------------------------------
-- Lines That Are Passed Over
------------------------------------------------------------

/-
  The significant lines of a text from some line on, which is
  significant itself.
-/
def Leaves (left after : List Line) : Prop :=
  left.filter Line.isSignificant = after ∧
    ∀ l ∈ left.head?, l.isSignificant = true

theorem readsAll_skips
    {parent : Option Nat}
    {skips rest left : List Line}
    {n m : Nat}
    {blocks : List Block}
    {ds : List Diagnostic}
    (hSkips : ∀ l ∈ skips, l.isSignificant = false)
    (hRest : ReadsAll parent rest n blocks ds left m) :
    ReadsAll parent (skips ++ rest) n blocks ds left m := by
  induction skips with
  | nil => exact hRest
  | cons line skips ih =>
      rw [List.forall_mem_cons] at hSkips
      exact .skip hSkips.1 (ih hSkips.2)

/- The first significant line, with what is passed over. -/
theorem exists_skips
    {full after : List Line}
    {line : Line}
    (hFull : full.filter Line.isSignificant = line :: after) :
    ∃ skips rest,
      full = skips ++ line :: rest ∧
        (∀ l ∈ skips, l.isSignificant = false) ∧
          line.isSignificant = true ∧
            rest.filter Line.isSignificant = after := by
  rcases List.filter_eq_cons_iff.mp hFull with
    ⟨skips, rest, rfl, hSkips, hLine, hRest⟩
  exact
    ⟨skips, rest, rfl, fun l hl => by simpa using hSkips l hl,
      hLine, hRest⟩

/- What is left starts with the first significant line. -/
theorem exists_of_leaves
    {full after : List Line}
    {line : Line}
    (hLeaves : Leaves full (line :: after)) :
    ∃ rest,
      full = line :: rest ∧
        rest.filter Line.isSignificant = after := by
  rcases hLeaves with ⟨hFilter, hHead⟩
  cases full with
  | nil => cases hFilter
  | cons first rest =>
      rw [List.filter_cons_of_pos (hHead first rfl)] at hFilter
      rcases List.cons.inj hFilter with ⟨rfl, hRest⟩
      exact ⟨rest, rfl, hRest⟩

theorem head?_of_leaves
    {full after : List Line}
    (hLeaves : Leaves full after) :
    full.head? = after.head? := by
  cases full with
  | nil => rw [← hLeaves.1]; rfl
  | cons first rest =>
      rw [← hLeaves.1,
        List.filter_cons_of_pos (hLeaves.2 first rfl)]
      rfl

------------------------------------------------------------
-- The Descent Along An Outline
------------------------------------------------------------

/- The lines are those that are read below the parent. -/
def AreWithin
    (lines after : List Line) :
    Option Nat → Prop
  | none => after = []
  | some indent => IsRun indent lines after

theorem areWithin_mono
    {lines lines' after : List Line}
    {parent : Option Nat}
    (hLines : lines' ⊆ lines)
    (hWithin : AreWithin lines after parent) :
    AreWithin lines' after parent := by
  cases parent with
  | none => exact hWithin
  | some indent =>
      exact ⟨fun l hl => hWithin.1 l (hLines hl), hWithin.2⟩

theorem areWithin_tail
    {line : Line}
    {rest after : List Line}
    {parent : Option Nat}
    (hWithin : AreWithin (line :: rest) after parent) :
    AreWithin rest after parent :=
  areWithin_mono (List.subset_cons_self line rest) hWithin

theorem encloses_of_areWithin
    {lines after : List Line}
    {parent : Option Nat}
    (hWithin : AreWithin lines after parent) :
    Encloses after lines := by
  cases parent with
  | none =>
      intro l hl
      rw [show after = [] from hWithin] at hl
      cases hl
  | some indent => exact encloses_of_isRun hWithin

/- What stands below a header, when its line is passed. -/
theorem filter_below_header
    {rest full after : List Line}
    (hFull : full.filter Line.isSignificant = rest ++ after)
    (indent : Nat) :
    full.filter Line.isSignificant =
      deeper indent rest ++ (afterDeeper indent rest ++ after) := by
  rw [hFull, ← List.append_assoc, deeper_append_afterDeeper]

/- The lines of a text are read as some entries. -/
def ReadsAs
    (parent : Option Nat)
    (full : List Line)
    (n : Nat)
    (entries : List Entry)
    (after : List Line) : Prop :=
  ∃ left,
    Leaves left after ∧
      ReadsAll parent full n
        (Block.renumberClosingAll n (draft entries))
        (diagnosticsOf entries) left
        (n + Block.sizeAll (draft entries))

/- The lines of a text are read as a clause. -/
def ReadsClauseAs
    (indent : Nat)
    (full : List Line)
    (n : Nat)
    (clause : Clause)
    (after : List Line) : Prop :=
  ∃ left,
    Leaves left after ∧
      ReadsClause indent full n clause.draft.1
        (Block.renumberClosingAll n clause.draft.2)
        clause.diagnostics left
        (n + Block.sizeAll clause.draft.2)

theorem readsAs_nil
    {parent : Option Nat}
    {full after : List Line}
    {n : Nat}
    (hFull : full.filter Line.isSignificant = after)
    (hWithin : AreWithin [] after parent) :
    ReadsAs parent full n [] after := by
  cases after with
  | nil =>
      have hSkips :
          ∀ l ∈ full, l.isSignificant = false := by
        simpa using List.filter_eq_nil_iff.mp hFull
      refine ⟨[], ⟨rfl, by simp⟩, ?_⟩
      have hReads := readsAll_skips hSkips (@ReadsAll.done parent n)
      rw [List.append_nil] at hReads
      exact hReads
  | cons line after =>
      rcases exists_skips hFull with
        ⟨skips, rest, rfl, hSkips, hLine, hRest⟩
      cases parent with
      | none => cases hWithin
      | some indent =>
          have hStop := hWithin.2 line rfl
          refine
            ⟨line :: rest, ⟨?_, by simp [hLine]⟩,
              readsAll_skips hSkips (.stop hLine hStop)⟩
          rw [List.filter_cons_of_pos hLine, hRest]

/-
  The first significant line is passed, and it stands inside
  the parent.
-/
theorem exists_first
    {parent : Option Nat}
    {line : Line}
    {rest full after : List Line}
    (hFull :
      full.filter Line.isSignificant = line :: rest ++ after)
    (hWithin : AreWithin (line :: rest) after parent) :
    ∃ skips full',
      full = skips ++ line :: full' ∧
        full'.filter Line.isSignificant = rest ++ after ∧
          (∀ l ∈ skips, l.isSignificant = false) ∧
            line.isSignificant = true ∧
              ∀ indent ∈ parent, indent < line.indent := by
  rcases exists_skips hFull with
    ⟨skips, full', hSplit, hSkips, hLine, hRest⟩
  refine ⟨skips, full', hSplit, hRest, hSkips, hLine, ?_⟩
  intro indent hIndent
  rcases Option.mem_def.mp hIndent with rfl
  exact hWithin.1 line List.mem_cons_self

/- An entry is read, and then those that follow it. -/
theorem readsAs_cons
    {parent : Option Nat}
    {line : Line}
    {skips rest middle after : List Line}
    {n m : Nat}
    {e : Entry}
    {es : List Entry}
    (hSkips : ∀ l ∈ skips, l.isSignificant = false)
    (hLine : line.isSignificant = true)
    (hInside : ∀ indent ∈ parent, indent < line.indent)
    (hNext : n + Block.sizeAll e.draft = m)
    (hFirst :
      ReadsOne line rest n (Block.renumberClosingAll n e.draft)
        e.diagnostics middle m)
    (hRest : ReadsAs parent middle m es after) :
    ReadsAs parent (skips ++ line :: rest) n (e :: es) after := by
  rcases hRest with ⟨left, hLeaves, hReads⟩
  refine ⟨left, hLeaves, readsAll_skips hSkips ?_⟩
  rw [draft, diagnosticsOf, renumberClosingAll_append,
    sizeAll_append, ← Nat.add_assoc, hNext]
  exact .next hLine hInside hFirst hReads

section First

variable {parent : Option Nat}
variable {line : Line}
variable {rest full after : List Line}
variable {n m : Nat}
variable {e : Entry}
variable {es : List Entry}
variable
    (hFull :
      full.filter Line.isSignificant = line :: rest ++ after)
variable (hWithin : AreWithin (line :: rest) after parent)
variable (hNext : n + Block.sizeAll e.draft = m)
include hFull hWithin hNext

/- A line that holds nothing is read by itself. -/
theorem readsAs_line
    (hFirst :
      ∀ left,
        ReadsOne line left n (Block.renumberClosingAll n e.draft)
          e.diagnostics left m)
    (hRest :
      ∀ left,
        left.filter Line.isSignificant = rest ++ after →
          AreWithin rest after parent →
            ReadsAs parent left m es after) :
    ReadsAs parent full n (e :: es) after := by
  rcases exists_first hFull hWithin with
    ⟨skips, left, rfl, hBelow, hSkips, hLine, hInside⟩
  exact
    readsAs_cons hSkips hLine hInside hNext (hFirst left)
      (hRest left hBelow (areWithin_tail hWithin))

/- A header without a clause is read with its body. -/
theorem readsAs_header
    {body : List Entry}
    (hBody :
      ∀ left,
        left.filter Line.isSignificant =
            deeper line.indent rest ++
              (afterDeeper line.indent rest ++ after) →
          IsRun line.indent (deeper line.indent rest)
              (afterDeeper line.indent rest ++ after) →
            ReadsAs (some line.indent) left n body
              (afterDeeper line.indent rest ++ after))
    (hFirst :
      ∀ left middle,
        ReadsAll (some line.indent) left n
            (Block.renumberClosingAll n (draft body))
            (diagnosticsOf body) middle
            (n + Block.sizeAll (draft body)) →
          ReadsOne line left n
            (Block.renumberClosingAll n e.draft) e.diagnostics
            middle m)
    (hRest :
      ∀ left,
        left.filter Line.isSignificant =
            afterDeeper line.indent rest ++ after →
          AreWithin (afterDeeper line.indent rest) after parent →
            ReadsAs parent left m es after) :
    ReadsAs parent full n (e :: es) after := by
  rcases exists_first hFull hWithin with
    ⟨skips, left, rfl, hBelow, hSkips, hLine, hInside⟩
  have hRun :=
    isRun_of_encloses (encloses_of_areWithin hWithin)
  rcases
      hBody left (filter_below_header hBelow line.indent) hRun
        with
    ⟨middle, hMiddle, hReads⟩
  have hOthers :=
    areWithin_mono (afterDeeper_subset line.indent rest)
      (areWithin_tail hWithin)
  exact
    readsAs_cons hSkips hLine hInside hNext
      (hFirst left middle hReads)
      (hRest middle hMiddle.1 hOthers)

end First

theorem readsClauseAs_of
    {indent n m : Nat}
    {full left after : List Line}
    {clause : Clause}
    (hLeaves : Leaves left after)
    (hEnd : n + Block.sizeAll clause.draft.2 = m)
    (hReads :
      ReadsClause indent full n clause.draft.1
        (Block.renumberClosingAll n clause.draft.2)
        clause.diagnostics left m) :
    ReadsClauseAs indent full n clause after :=
  ⟨left, hLeaves, hEnd ▸ hReads⟩

theorem readsAs_outline_and_clauseOf :
    (∀ lines parent full after n,
        full.filter Line.isSignificant = lines ++ after →
          AreWithin lines after parent →
            ReadsAs parent full n (outline lines) after) ∧
      ∀ indent lines full after n,
        Leaves full (lines ++ after) →
          (∀ l ∈ after.head?, l.indent < indent) →
            Encloses after lines →
              ReadsClauseAs indent full n (clauseOf indent lines)
                (afterClauses indent lines ++ after) := by
  apply lines_induction
  case nil =>
    intro parent full after n hFull hWithin
    rw [outline_nil]
    exact readsAs_nil hFull hWithin
  case function =>
    intro line rest header hRead ihBody ihRest parent full after n
      hFull hWithin
    rw [outline_function hRead]
    refine
      readsAs_header hFull hWithin ?_
        (fun left => ihBody (some line.indent) left _ n)
        (fun _ _ hBody => .function hRead hBody)
        (fun left => ihRest parent left after _)
    simp only [Entry.draft, Block.sizeAll, Block.size]
    omega
  case conditional =>
    intro line rest condition hRead ihBody ihBranch ihRest parent
      full after n hFull hWithin
    rcases exists_first hFull hWithin with
      ⟨skips, full', rfl, hBelow, hSkips, hLine, hInside⟩
    have hEncloses := encloses_of_areWithin hWithin
    have hRun := isRun_of_encloses hEncloses
    rcases
        ihBody (some line.indent) full' _ n
          (filter_below_header hBelow line.indent) hRun with
      ⟨middle, hMiddle, hBody⟩
    rcases
        ihBranch middle after _ hMiddle
          (fun l hl => hEncloses l hl line List.mem_cons_self)
          (encloses_afterDeeper hEncloses) with
      ⟨left, hLeft, hClause⟩
    have hRest :=
      areWithin_mono
        (List.Subset.trans (afterClauses_subset line.indent _)
          (afterDeeper_subset line.indent rest))
        (areWithin_tail hWithin)
    rw [outline_conditional hRead]
    refine
      readsAs_cons hSkips hLine hInside ?_
        (.conditional hRead hBody hClause)
        (ihRest _ _ _ _ hLeft.1 hRest)
    simp only [Entry.draft, Block.sizeAll, Block.size]
    omega
  case loop =>
    intro line rest header hRead ihBody ihRest parent full after n
      hFull hWithin
    rw [outline_loop hRead]
    refine
      readsAs_header hFull hWithin ?_
        (fun left => ihBody (some line.indent) left _ n)
        (fun _ _ hBody => .loop hRead hBody)
        (fun left => ihRest parent left after _)
    simp only [Entry.draft, Block.sizeAll, Block.size]
    omega
  case ret =>
    intro line rest value hRead ihRest parent full after
      n hFull hWithin
    rw [outline_ret hRead]
    exact
      readsAs_line hFull hWithin rfl (fun _ => .ret hRead)
        (fun left => ihRest parent left after _)
  case assignment =>
    intro line rest target value hRead ihRest parent full after
      n hFull hWithin
    rw [outline_assignment hRead]
    exact
      readsAs_line hFull hWithin rfl (fun _ => .assignment hRead)
        (fun left => ihRest parent left after _)
  case call =>
    intro line rest callee arguments hRead ihRest parent full after
      n hFull hWithin
    rw [outline_call hRead]
    exact
      readsAs_line hFull hWithin rfl (fun _ => .call hRead)
        (fun left => ihRest parent left after _)
  case unrecognized =>
    intro line rest hRead ihRest parent full after
      n hFull hWithin
    rw [outline_unrecognized hRead]
    exact
      readsAs_line hFull hWithin rfl (fun _ => .unrecognized hRead)
        (fun left => ihRest parent left after _)
  case none =>
    intro indent lines hNone full after n hFull hAfter hEncloses
    rw [clauseOf_of_no_clause hNone,
      (clauses_of_no_clause hNone).2]
    refine ⟨full, hFull, .none ?_⟩
    intro l hl
    rw [head?_of_leaves hFull] at hl
    cases lines with
    | nil =>
        have hLess := hAfter l hl
        simp [Line.isClause, Nat.ne_of_lt hLess]
    | cons line rest => exact hNone l hl
  case elif =>
    intro line rest hElif ihBody ihBranch full after n hFull
      hAfter hEncloses
    rcases exists_of_leaves hFull with ⟨full', rfl, hBelow⟩
    have hRun := isRun_of_encloses hEncloses
    rcases
        ihBody (some line.indent) full' _ n
          (filter_below_header hBelow line.indent) hRun with
      ⟨middle, hMiddle, hBody⟩
    rcases
        ihBranch middle after _ hMiddle hAfter
          (encloses_afterDeeper hEncloses) with
      ⟨left, hLeft, hClause⟩
    rw [clauseOf_elif rfl hElif, afterClauses_elif rfl hElif]
    refine
      readsClauseAs_of hLeft ?_ (.elif rfl hElif hBody hClause)
    simp only [Clause.draft, Block.sizeAll, Block.size]
    omega
  case otherwise =>
    intro line rest hElif hElse ihBody full after n hFull hAfter
      hEncloses
    rcases exists_of_leaves hFull with ⟨full', rfl, hBelow⟩
    have hRun := isRun_of_encloses hEncloses
    rcases
        ihBody (some line.indent) full' _ n
          (filter_below_header hBelow line.indent) hRun with
      ⟨middle, hMiddle, hBody⟩
    rw [clauseOf_else rfl hElif hElse,
      afterClauses_else rfl hElif hElse]
    exact ⟨middle, hMiddle, .otherwise rfl hElif hElse hBody⟩

------------------------------------------------------------
-- The Descent Through A Text
------------------------------------------------------------

/-
  A descent through all lines of a text ends behind the last
  one, with the program and the findings of its outline, and
  with as many numbers taken as there are blocks.
-/
theorem readsAll_iff
    {n m : Nat}
    {source : String}
    {blocks : List Block}
    {ds : List Diagnostic}
    {left : List Line} :
    ReadsAll none (linesFrom 0 (rawLines source)) n blocks ds
        left m ↔
      blocks = (read n source).blocks ∧
        ds = (read n source).diagnostics ∧
          left = [] ∧
            m = n + (documentOrder (read n source).blocks).length := by
  have hFilter :
      (linesFrom 0 (rawLines source)).filter
          Line.isSignificant =
        significantLines source ++ [] :=
    (List.append_nil _).symm
  rcases
      readsAs_outline_and_clauseOf.1 (significantLines source)
        none _ [] n hFilter rfl with
    ⟨ending, hLeaves, hReads⟩
  have hEnding : ending = [] :=
    List.head?_eq_none_iff.mp (head?_of_leaves hLeaves)
  have hLength :
      (documentOrder (read n source).blocks).length =
        Block.sizeAll
          (draft (outline (significantLines source))) := by
    rw [Block.length_inOrderAll]
    exact Block.sizeAll_renumberClosingAll n _
  rw [hLength]
  constructor
  · intro hOther
    rcases hReads.unique hOther with ⟨rfl, rfl, rfl, rfl⟩
    exact ⟨rfl, rfl, hEnding, rfl⟩
  · rintro ⟨rfl, rfl, rfl, rfl⟩
    rw [← hEnding]
    exact hReads

end Source

end BlockProgram
