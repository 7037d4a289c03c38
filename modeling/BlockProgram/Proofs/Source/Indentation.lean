import BlockProgram.Proofs.Source.Nesting

/-
  Indentation alone decides what a block holds.

  A line stands below a header when it and all lines between
  the two are indented deeper than the header.  The blocks in
  the body of a header are those of the lines below it, and
  the clause of a conditional is told by the first line that
  is not below it.  Nothing else about the text matters.

  Main declarations:
    * `Source.IsBelow`
    * `Source.Continues`
    * `Source.FollowsIndents`
    * `Source.parse_followsIndents`
-/

namespace BlockProgram

namespace Source

------------------------------------------------------------
-- Places Of Lines
------------------------------------------------------------

/-
  The line comes later than the header, and from there down
  to it every line is indented deeper than the header.
-/
def IsBelow
    (lines : List Line)
    (head line : Line) : Prop :=
  head.number < line.number ∧
    ∀ l ∈ lines,
      head.number < l.number →
        l.number ≤ line.number → head.indent < l.indent

/-
  The line is the first one behind the lines that stand below
  the header, and it has the indent of the header.
-/
def Continues
    (lines : List Line)
    (head line : Line) : Prop :=
  head.number < line.number ∧
    line.indent = head.indent ∧
      ∀ l ∈ lines,
        head.number < l.number →
          l.number < line.number → head.indent < l.indent

theorem not_isElif_of_text
    {line : Line}
    (hText : line.text = "else:") :
    line.isElif = false := by
  rw [Line.isElif, hText]
  rfl

------------------------------------------------------------
-- Programs That Follow The Indents
------------------------------------------------------------

/- The body of a header, at the top level of the block. -/
def trueBody? : Block → Option (List Block)
  | .function _ _ _ body => some body
  | .conditional _ _ body _ _ => some body
  | .loop _ _ _ body => some body
  | .assignment .. | .ret .. | .call .. => none

/- What follows the true branch of a conditional. -/
def elseBranch? : Block → Option (ElseKind × List Block)
  | .conditional _ _ _ elseKind elseBody =>
      some (elseKind, elseBody)
  | .function .. | .assignment .. | .loop .. | .ret ..
  | .call .. => none

section Follows

variable (lines : List Line)
variable (program : List Block)

/-
  The body has, at any depth, the blocks of the lines that
  stand below the line, and has them in the lines' order.
  Blocks are named after their lines.
-/
structure HoldsBelow
    (head : Line)
    (body : List Block) : Prop where
  inLineOrder : (idsOf body).Sublist (lines.map Line.name)
  mem_iff :
    ∀ line ∈ lines,
      ∀ b ∈ documentOrder program,
        b.id = line.name →
          (b ∈ documentOrder body ↔ IsBelow lines head line)

/-
  The branch of a conditional is the one that the line says
  which continues its header.
-/
structure HoldsClause
    (head : Line)
    (elseKind : ElseKind)
    (branch : List Block) : Prop where
  none : elseKind = .none → branch = []
  otherwise_iff :
    elseKind = .otherwise ↔
      ∃ line ∈ lines,
        Continues lines head line ∧ line.text = "else:"
  otherwise :
    ∀ line ∈ lines,
      Continues lines head line →
        line.text = "else:" →
          HoldsBelow lines program line branch
  elif_iff :
    elseKind = .elif ↔
      ∃ line ∈ lines,
        Continues lines head line ∧ line.isElif = true
  elif :
    ∀ line ∈ lines,
      Continues lines head line →
        line.isElif = true →
          ∃ b,
            branch = [b] ∧
              b.id = line.name ∧ b.kind = .conditional

/- A block holds what its line says, by the indents alone. -/
structure Follows (head : Line) (b : Block) : Prop where
  body :
    ∀ body,
      trueBody? b = some body →
        HoldsBelow lines program head body
  clause :
    ∀ elseKind branch,
      elseBranch? b = some (elseKind, branch) →
        HoldsClause lines program head elseKind branch

/-
  A program whose blocks are named after the lines that say
  them, and whose nesting is that of the indents.  Each line
  that is read as a statement has its block, wherever it
  stands, and the clauses say which `elif` lines have one.
-/
structure FollowsIndents : Prop where
  made : AreMadeBy lines program
  hasBlock :
    ∀ line ∈ lines,
      Statement.read line.text ≠ .unrecognized →
        ∃ b ∈ documentOrder program, b.id = line.name
  inLineOrder :
    (idsOf program).Sublist (lines.map Line.name)
  follows :
    ∀ b ∈ documentOrder program,
      ∀ head ∈ lines,
        b.id = head.name → Follows lines program head b

end Follows

------------------------------------------------------------
-- Lines And Blocks Side By Side
------------------------------------------------------------

mutual

theorem Entry.idsOf_traced_sublist :
    (e : Entry) →
      (idsOf e.traced).Sublist (e.lines.map Line.name)
  | .function line header body => by
      rw [Entry.traced, idsOf_function, Entry.lines]
      exact (idsOf_traced_sublist body).cons_cons line.name
  | .conditional line condition body clause => by
      rw [Entry.traced, tracedConditional, idsOf_conditional,
        Entry.lines, List.map_cons, List.map_append]
      exact
        ((idsOf_traced_sublist body).append
          clause.idsOf_traced_sublist).cons_cons line.name
  | .loop line header body => by
      rw [Entry.traced, idsOf_loop, Entry.lines]
      exact (idsOf_traced_sublist body).cons_cons line.name
  | .ret line _ => List.Sublist.refl _
  | .assignment line _ _ => List.Sublist.refl _
  | .call line _ _ => List.Sublist.refl _
  | .unrecognized line => List.nil_sublist _

theorem Clause.idsOf_traced_sublist :
    (c : Clause) →
      (idsOf c.traced.2).Sublist (c.lines.map Line.name)
  | .none => List.nil_sublist _
  | .elif line condition body clause => by
      rw [Clause.traced, tracedConditional, idsOf_conditional,
        Clause.lines, List.map_cons, List.map_append]
      exact
        ((idsOf_traced_sublist body).append
          clause.idsOf_traced_sublist).cons_cons line.name
  | .otherwise line body =>
      (idsOf_traced_sublist body).cons line.name

/- The blocks of an outline are in the order of its lines. -/
theorem idsOf_traced_sublist :
    (es : List Entry) →
      (idsOf (traced es)).Sublist ((linesOf es).map Line.name)
  | [] => List.Sublist.refl _
  | e :: es => by
      rw [traced, idsOf_append, linesOf, List.map_append]
      exact
        e.idsOf_traced_sublist.append (idsOf_traced_sublist es)

end

/-
  The blocks stand among others as their lines stand among
  others: what comes before the blocks is named after lines
  that come before theirs, and so behind them.
-/
def StandsIn
    (lines : List Line)
    (contents : List Block)
    (inner : List Line)
    (blocks : List Block)
    (after : List Line) : Prop :=
  ∃ before front back,
    lines = before ++ (inner ++ after) ∧
      contents = front ++ (blocks ++ back) ∧
        front.map Block.id ⊆ before.map Line.name ∧
          back.map Block.id ⊆ after.map Line.name

section Placed

variable {lines : List Line}
variable {contents : List Block}

/- Parts one after another stand where the whole stands. -/
theorem standsIn_append
    {inner inner' after : List Line}
    {blocks blocks' : List Block}
    (hStands :
      StandsIn lines contents (inner ++ inner')
        (blocks ++ blocks') after)
    (hIds : blocks.map Block.id ⊆ inner.map Line.name)
    (hIds' : blocks'.map Block.id ⊆ inner'.map Line.name) :
    StandsIn lines contents inner blocks (inner' ++ after) ∧
      StandsIn lines contents inner' blocks' after := by
  rcases hStands with
    ⟨before, front, back, hLines, hContents, hFront, hBack⟩
  constructor
  · refine
      ⟨before, front, blocks' ++ back, ?_, ?_, hFront, ?_⟩
    · rw [hLines, List.append_assoc]
    · rw [hContents, List.append_assoc]
    · rw [List.map_append, List.map_append]
      exact
        List.append_subset.mpr
          ⟨List.subset_append_of_subset_left _ hIds',
            List.subset_append_of_subset_right _ hBack⟩
  · refine
      ⟨before ++ inner, front ++ blocks, back, ?_, ?_, ?_, hBack⟩
    · rw [hLines, List.append_assoc, List.append_assoc]
    · rw [hContents, List.append_assoc, List.append_assoc]
    · rw [List.map_append, List.map_append]
      exact
        List.append_subset.mpr
          ⟨List.subset_append_of_subset_left _ hFront,
            List.subset_append_of_subset_right _ hIds⟩

/- Lines in the order of their numbers. -/
theorem number_lt_of_append
    {front back : List Line}
    (hOrder : AreOrdered (front ++ back))
    {l l' : Line}
    (hFront : l ∈ front)
    (hBack : l' ∈ back) :
    l.number < l'.number := by
  rw [AreOrdered, List.map_append, List.pairwise_append]
    at hOrder
  exact
    hOrder.2.2 _ (List.mem_map_of_mem hFront) _
      (List.mem_map_of_mem hBack)

theorem eq_of_name_eq
    (hOrder : AreOrdered lines)
    {l l' : Line}
    (hLine : l ∈ lines)
    (hLine' : l' ∈ lines)
    (hName : l.name = l'.name) :
    l = l' := by
  have hNumber := number_eq_of_name_eq hName
  rcases List.append_of_mem hLine with ⟨before, after, rfl⟩
  rcases List.mem_append.mp hLine' with hBefore | hRest
  · have hLess :=
      number_lt_of_append hOrder hBefore List.mem_cons_self
    omega
  · rcases List.mem_cons.mp hRest with rfl | hAfter
    · rfl
    · rw [List.append_cons] at hOrder
      have hLess :=
        number_lt_of_append hOrder
          (List.mem_append_right before (List.mem_singleton_self l))
          hAfter
      omega

/- A block of a part has the name of a line of the part. -/
theorem exists_line_of_mem
    {blocks : List Block}
    {part : List Line}
    (hIds : blocks.map Block.id ⊆ part.map Line.name)
    {line : Line}
    {b : Block}
    (hId : b.id = line.name)
    (hBlock : b ∈ blocks) :
    ∃ l ∈ part, l.name = line.name := by
  have hName := hIds (List.mem_map_of_mem hBlock)
  rw [hId] at hName
  exact List.mem_map.mp hName

variable (hOrder : AreOrdered lines)
include hOrder

/- Blocks and their lines stand in the same part. -/
theorem mem_iff_of_standsIn
    {inner after : List Line}
    {blocks : List Block}
    (hStands : StandsIn lines contents inner blocks after)
    (hIds : blocks.map Block.id ⊆ inner.map Line.name)
    {line : Line}
    {b : Block}
    (hLine : line ∈ lines)
    (hBlock : b ∈ contents)
    (hId : b.id = line.name) :
    b ∈ blocks ↔ line ∈ inner := by
  rcases hStands with
    ⟨before, front, back, rfl, rfl, hFront, hBack⟩
  constructor
  · intro hMember
    rcases exists_line_of_mem hIds hId hMember with ⟨l, hl, hSame⟩
    have hIn : l ∈ before ++ (inner ++ after) :=
      List.mem_append_right before (List.mem_append_left after hl)
    rwa [← eq_of_name_eq hOrder hIn hLine hSame]
  · intro hInner
    rcases List.mem_append.mp hBlock with hMember | hMember
    · rcases exists_line_of_mem hFront hId hMember with
        ⟨l, hl, hSame⟩
      have hNumber := number_eq_of_name_eq hSame
      have hLess :=
        number_lt_of_append hOrder hl
          (List.mem_append_left after hInner)
      omega
    · rcases List.mem_append.mp hMember with hMember | hMember
      · exact hMember
      · rcases exists_line_of_mem hBack hId hMember with
          ⟨l, hl, hSame⟩
        have hNumber := number_eq_of_name_eq hSame
        rw [← List.append_assoc] at hOrder
        have hLess :=
          number_lt_of_append hOrder
            (List.mem_append_right before hInner) hl
        omega

section Run

variable {before inner after : List Line}
variable {head : Line}
variable (hLines : lines = before ++ head :: (inner ++ after))
include hLines

/- The lines behind a header are those with larger numbers. -/
theorem mem_behind_iff
    {line : Line}
    (hLine : line ∈ lines) :
    line ∈ inner ++ after ↔ head.number < line.number := by
  rw [hLines] at hOrder hLine
  constructor
  · intro hBehind
    rw [List.append_cons] at hOrder
    exact
      number_lt_of_append hOrder
        (List.mem_append_right before
          (List.mem_singleton_self head))
        hBehind
  · intro hLess
    rcases List.mem_append.mp hLine with hBefore | hRest
    · have hMore :=
        number_lt_of_append hOrder hBefore List.mem_cons_self
      omega
    · rcases List.mem_cons.mp hRest with rfl | hBehind
      · exact absurd hLess (Nat.lt_irrefl _)
      · exact hBehind

/- A line of the run comes before each line behind the run. -/
theorem number_lt_of_behind_run
    {l l' : Line}
    (hInner : l ∈ inner)
    (hAfter : l' ∈ after) :
    l.number < l'.number := by
  rw [hLines, List.append_cons, ← List.append_assoc] at hOrder
  exact
    number_lt_of_append hOrder (List.mem_append_right _ hInner)
      hAfter

/- The first line behind the run comes before the others. -/
theorem number_lt_of_head_behind_run
    {first line : Line}
    (hFirst : after.head? = some first)
    (hAfter : line ∈ after) :
    line = first ∨ first.number < line.number := by
  rcases List.head?_eq_some_iff.mp hFirst with ⟨others, rfl⟩
  rcases List.mem_cons.mp hAfter with rfl | hOthers
  · exact Or.inl rfl
  · have hSublist : ([first] ++ others).Sublist lines := by
      rw [hLines, List.append_cons, ← List.append_assoc]
      exact List.sublist_append_right _ _
    have hLess :=
      number_lt_of_append
        (hOrder.sublist (hSublist.map Line.number))
        (List.mem_singleton_self first) hOthers
    exact Or.inr hLess

/- Where a line stands behind the run, there is a first. -/
theorem exists_head_behind_run
    {line : Line}
    (hAfter : line ∈ after) :
    ∃ first ∈ lines,
      after.head? = some first ∧
        head.number < first.number ∧
          (line = first ∨ first.number < line.number) := by
  cases hFirst : after.head? with
  | none =>
      rw [List.head?_eq_none_iff.mp hFirst] at hAfter
      cases hAfter
  | some first =>
      have hBehind : first ∈ inner ++ after :=
        List.mem_append_right inner (List.mem_of_mem_head? hFirst)
      have hLine : first ∈ lines := by
        rw [hLines]
        exact
          List.mem_append_right before
            (List.mem_cons_of_mem head hBehind)
      exact
        ⟨first, hLine, rfl,
          (mem_behind_iff hOrder hLines hLine).mp hBehind,
          number_lt_of_head_behind_run hOrder hLines hFirst
            hAfter⟩

/- The lines of a run are those that stand below its header. -/
theorem mem_run_iff
    (hRun : IsRun head.indent inner after)
    {line : Line}
    (hLine : line ∈ lines) :
    line ∈ inner ↔ IsBelow lines head line := by
  constructor
  · intro hInner
    refine
      ⟨(mem_behind_iff hOrder hLines hLine).mp
        (List.mem_append_left after hInner), ?_⟩
    intro l hl hHead hUpTo
    have hBehind := (mem_behind_iff hOrder hLines hl).mpr hHead
    rcases List.mem_append.mp hBehind with hIn | hAfter
    · exact hRun.1 l hIn
    · have hLess :=
        number_lt_of_behind_run hOrder hLines hInner hAfter
      omega
  · rintro ⟨hHead, hDeeper⟩
    have hBehind := (mem_behind_iff hOrder hLines hLine).mpr hHead
    rcases List.mem_append.mp hBehind with hInner | hAfter
    · exact hInner
    · rcases exists_head_behind_run hOrder hLines hAfter with
        ⟨first, hFirstLine, hFirst, hFirstHead, hPlace⟩
      have hUpTo : first.number ≤ line.number := by
        rcases hPlace with rfl | hLess
        · exact Nat.le_refl _
        · exact Nat.le_of_lt hLess
      have hIndent := hDeeper first hFirstLine hFirstHead hUpTo
      have hStop := hRun.2 first hFirst
      omega

/- The line that continues a header stands next to its run. -/
theorem continues_iff
    (hRun : IsRun head.indent inner after)
    {line : Line}
    (hLine : line ∈ lines) :
    Continues lines head line ↔
      after.head? = some line ∧ line.indent = head.indent := by
  constructor
  · rintro ⟨hHead, hIndent, hDeeper⟩
    refine ⟨?_, hIndent⟩
    have hBehind := (mem_behind_iff hOrder hLines hLine).mpr hHead
    rcases List.mem_append.mp hBehind with hInner | hAfter
    · have hInnerIndent := hRun.1 line hInner
      omega
    · rcases exists_head_behind_run hOrder hLines hAfter with
        ⟨first, hFirstLine, hFirst, hFirstHead, hPlace⟩
      rcases hPlace with rfl | hLess
      · exact hFirst
      · have hFirstIndent :=
          hDeeper first hFirstLine hFirstHead hLess
        have hStop := hRun.2 first hFirst
        omega
  · rintro ⟨hFirst, hIndent⟩
    have hAfter := List.mem_of_mem_head? hFirst
    refine
      ⟨(mem_behind_iff hOrder hLines hLine).mp
        (List.mem_append_right inner hAfter), hIndent, ?_⟩
    intro l hl hHead hBefore
    have hBehind := (mem_behind_iff hOrder hLines hl).mpr hHead
    rcases List.mem_append.mp hBehind with hInner | hAfter
    · exact hRun.1 l hInner
    · rcases
          number_lt_of_head_behind_run hOrder hLines hFirst
            hAfter with
        rfl | hLess
      · omega
      · omega

/- A header is continued by one line at most. -/
theorem continues_iff_eq
    (hRun : IsRun head.indent inner after)
    {first : Line}
    (hFirst : after.head? = some first)
    (hIndent : first.indent = head.indent) :
    first ∈ lines ∧
      ∀ line ∈ lines, Continues lines head line ↔ line = first := by
  constructor
  · rw [hLines]
    exact
      List.mem_append_right before
        (List.mem_cons_of_mem head
          (List.mem_append_right inner
            (List.mem_of_mem_head? hFirst)))
  · intro line hLine
    rw [continues_iff hOrder hLines hRun hLine, hFirst,
      Option.some.injEq]
    constructor
    · rintro ⟨rfl, _⟩
      rfl
    · rintro rfl
      exact ⟨rfl, hIndent⟩

end Run

------------------------------------------------------------
-- What A Header Holds
------------------------------------------------------------

variable {program : List Block}

/- The body of a header whose lines are a run. -/
theorem holdsBelow_of_standsIn
    {head : Line}
    {inner after : List Line}
    {body : List Block}
    (own : List Block)
    (hOwn : own.map Block.id ⊆ [head.name])
    (hIds : (idsOf body).Sublist (inner.map Line.name))
    (hStands :
      StandsIn lines (documentOrder program) (head :: inner)
        (own ++ documentOrder body) after)
    (hRun : IsRun head.indent inner after) :
    HoldsBelow lines program head body := by
  have hParts :
      StandsIn lines (documentOrder program) ([head] ++ inner)
        (own ++ documentOrder body) after :=
    hStands
  have hBody := (standsIn_append hParts hOwn hIds.subset).2
  rcases hStands with ⟨before, _, _, hLines, _⟩
  constructor
  · have hInner : inner.Sublist lines := by
      rw [hLines, List.cons_append, List.append_cons]
      exact
        (List.sublist_append_left inner after).trans
          (List.sublist_append_right _ _)
    exact hIds.trans (hInner.map Line.name)
  · intro line hLine b hb hId
    rw [mem_iff_of_standsIn hOrder hBody hIds.subset hLine hb hId]
    exact mem_run_iff hOrder hLines hRun hLine

/- The branch of a conditional, by the clause that it takes. -/
theorem holdsClause_of_nests
    {before inner after : List Line}
    {head : Line}
    {c : Clause}
    (hLines :
      lines = before ++ head :: (inner ++ (c.lines ++ after)))
    (hRun : IsRun head.indent inner (c.lines ++ after))
    (hNests : c.Nests head.indent after)
    (hStands :
      StandsIn lines (documentOrder program) c.lines
        (documentOrder c.traced.2) after) :
    HoldsClause lines program head c.traced.1 c.traced.2 := by
  cases c with
  | none =>
      have hNone (line : Line) (hLine : line ∈ lines)
          (hContinues : Continues lines head line) :
          line.isElif = false ∧ line.text ≠ "else:" := by
        rcases
            (continues_iff hOrder hLines hRun hLine).mp
              hContinues with
          ⟨hFirst, hIndent⟩
        have hOwn := hNests line hFirst
        simpa [Line.isClause, hIndent, Line.isElse] using hOwn
      refine ⟨fun _ => rfl, ?_, ?_, ?_, ?_⟩
      · refine ⟨nofun, ?_⟩
        rintro ⟨line, hLine, hContinues, hText⟩
        exact absurd hText (hNone line hLine hContinues).2
      · intro line hLine hContinues hText
        exact absurd hText (hNone line hLine hContinues).2
      · refine ⟨nofun, ?_⟩
        rintro ⟨line, hLine, hContinues, hElif⟩
        simp [(hNone line hLine hContinues).1] at hElif
      · intro line hLine hContinues hElif
        simp [(hNone line hLine hContinues).1] at hElif
  | elif first condition body clause =>
      rcases hNests with ⟨hIndent, hElif, _⟩
      rcases continues_iff_eq hOrder hLines hRun rfl hIndent with
        ⟨hFirst, hOnly⟩
      have hText : first.text ≠ "else:" := by
        intro hText
        simp [not_isElif_of_text hText] at hElif
      refine ⟨nofun, ?_, ?_, ?_, ?_⟩
      · refine ⟨nofun, ?_⟩
        rintro ⟨line, hLine, hContinues, hElse⟩
        rcases (hOnly line hLine).mp hContinues with rfl
        exact absurd hElse hText
      · intro line hLine hContinues hElse
        rcases (hOnly line hLine).mp hContinues with rfl
        exact absurd hElse hText
      · refine ⟨fun _ => ?_, fun _ => rfl⟩
        exact ⟨first, hFirst, (hOnly first hFirst).mpr rfl, hElif⟩
      · intro line hLine hContinues _
        rcases (hOnly line hLine).mp hContinues with rfl
        exact ⟨_, rfl, rfl, rfl⟩
  | otherwise first body =>
      rcases hNests with ⟨hIndent, hElif, hElse, hInner, _⟩
      rcases continues_iff_eq hOrder hLines hRun rfl hIndent with
        ⟨hFirst, hOnly⟩
      refine ⟨nofun, ?_, ?_, ?_, ?_⟩
      · refine ⟨fun _ => ?_, fun _ => rfl⟩
        exact
          ⟨first, hFirst, (hOnly first hFirst).mpr rfl,
            eq_of_beq hElse⟩
      · intro line hLine hContinues _
        rcases (hOnly line hLine).mp hContinues with rfl
        exact
          holdsBelow_of_standsIn hOrder [] (List.nil_subset _)
            (idsOf_traced_sublist body) hStands
            (hIndent ▸ hInner)
      · refine ⟨nofun, ?_⟩
        rintro ⟨line, hLine, hContinues, hOther⟩
        rcases (hOnly line hLine).mp hContinues with rfl
        simp [hElif] at hOther
      · intro line hLine hContinues hOther
        rcases (hOnly line hLine).mp hContinues with rfl
        simp [hElif] at hOther

/- A header that makes a block holds what stands below it. -/
theorem standsIn_body
    {line : Line}
    {b : Block}
    {body : List Entry}
    {after : List Line}
    (hId : b.id = line.name)
    (hStands :
      StandsIn lines (documentOrder program)
        (line :: linesOf body)
        (b :: documentOrder (traced body)) after)
    (hRun : IsRun line.indent (linesOf body) after) :
    StandsIn lines (documentOrder program) (linesOf body)
        (documentOrder (traced body)) after ∧
      line ∈ lines ∧
        HoldsBelow lines program line (traced body) := by
  have hOwn : [b].map Block.id ⊆ [line.name] := by simp [hId]
  have hIds := idsOf_traced_sublist body
  have hParts :
      StandsIn lines (documentOrder program)
        ([line] ++ linesOf body)
        ([b] ++ documentOrder (traced body)) after :=
    hStands
  have hInner := (standsIn_append hParts hOwn hIds.subset).2
  have hHolds :=
    holdsBelow_of_standsIn hOrder [b] hOwn hIds hStands hRun
  rcases hStands with ⟨before, _, _, hLines, _⟩
  exact ⟨hInner, by simp [hLines], hHolds⟩

/- The same for the header and the clause of a conditional. -/
theorem standsIn_conditional
    {line : Line}
    {condition : Option String}
    {body : List Entry}
    {clause : Clause}
    {after : List Line}
    (hStands :
      StandsIn lines (documentOrder program)
        (line :: (linesOf body ++ clause.lines))
        (documentOrder
          [tracedConditional line condition (traced body)
            clause.traced])
        after)
    (hRun :
      IsRun line.indent (linesOf body) (clause.lines ++ after))
    (hNests : clause.Nests line.indent after) :
    StandsIn lines (documentOrder program) (linesOf body)
        (documentOrder (traced body)) (clause.lines ++ after) ∧
      StandsIn lines (documentOrder program) clause.lines
          (documentOrder clause.traced.2) after ∧
        line ∈ lines ∧
          Follows lines program line
            (tracedConditional line condition (traced body)
              clause.traced) := by
  have hParts :
      StandsIn lines (documentOrder program)
        ((line :: linesOf body) ++ clause.lines)
        ((tracedConditional line condition (traced body)
              clause.traced ::
            documentOrder (traced body)) ++
          documentOrder clause.traced.2)
        after := by
    simpa [tracedConditional, Block.inOrderAll, Block.inOrder]
      using hStands
  have hFirstIds :=
    ((idsOf_traced_sublist body).cons_cons line.name).subset
  rcases
      standsIn_append hParts hFirstIds
        clause.idsOf_traced_sublist.subset with
    ⟨hFirst, hClause⟩
  rcases standsIn_body hOrder rfl hFirst hRun with
    ⟨hBody, hLine, hHolds⟩
  rcases hFirst with ⟨before, _, _, hLines, _⟩
  refine ⟨hBody, hClause, hLine, ?_, ?_⟩
  · intro held hHeld
    rcases Option.some.inj hHeld with rfl
    exact hHolds
  · intro elseKind branch hHeld
    rcases Prod.mk.inj (Option.some.inj hHeld) with ⟨rfl, rfl⟩
    exact
      holdsClause_of_nests hOrder hLines hRun hNests hClause

end Placed

------------------------------------------------------------
-- Every Block Of An Outline
------------------------------------------------------------

section Outlines

variable {lines : List Line}
variable {program : List Block}

/- The blocks hold what their lines say. -/
def AllFollow
    (lines : List Line)
    (program blocks : List Block) : Prop :=
  ∀ b ∈ documentOrder blocks,
    ∃ head ∈ lines,
      b.id = head.name ∧ Follows lines program head b

theorem allFollow_append
    {bs cs : List Block}
    (hFirst : AllFollow lines program bs)
    (hSecond : AllFollow lines program cs) :
    AllFollow lines program (bs ++ cs) := by
  rw [AllFollow, documentOrder, Block.inOrderAll_append,
    List.forall_mem_append]
  exact ⟨hFirst, hSecond⟩

theorem documentOrder_singleton (b : Block) :
    documentOrder [b] = b.inOrder :=
  List.append_nil _

theorem allFollow_block
    {line : Line}
    {b : Block}
    {inner : List Block}
    (hInOrder : b.inOrder = b :: documentOrder inner)
    (hId : b.id = line.name)
    (hLine : line ∈ lines)
    (hFollows : Follows lines program line b)
    (hInner : AllFollow lines program inner) :
    AllFollow lines program [b] := by
  intro c hc
  rw [documentOrder_singleton, hInOrder] at hc
  rcases List.mem_cons.mp hc with rfl | hc
  · exact ⟨line, hLine, hId, hFollows⟩
  · exact hInner c hc

theorem allFollow_leaf
    {line : Line}
    {b : Block}
    {after : List Line}
    (hId : b.id = line.name)
    (hBody : trueBody? b = none)
    (hBranch : elseBranch? b = none)
    (hInOrder : b.inOrder = b :: documentOrder [])
    (hStands :
      StandsIn lines (documentOrder program) [line]
        (documentOrder [b]) after) :
    AllFollow lines program [b] := by
  rcases hStands with ⟨before, _, _, hLines, _⟩
  have hFollows : Follows lines program line b :=
    ⟨by simp [hBody], by simp [hBranch]⟩
  exact
    allFollow_block hInOrder hId (by simp [hLines]) hFollows
      (List.forall_mem_nil _)

/- A header whose block has a body and no other branch. -/
theorem allFollow_header
    (hOrder : AreOrdered lines)
    {line : Line}
    {b : Block}
    {body : List Entry}
    {after : List Line}
    (hId : b.id = line.name)
    (hBody : trueBody? b = some (traced body))
    (hBranch : elseBranch? b = none)
    (hInOrder : b.inOrder = b :: documentOrder (traced body))
    (hStands :
      StandsIn lines (documentOrder program)
        (line :: linesOf body) (documentOrder [b]) after)
    (hRun : IsRun line.indent (linesOf body) after)
    (hInner :
      StandsIn lines (documentOrder program) (linesOf body)
          (documentOrder (traced body)) after →
        AllFollow lines program (traced body)) :
    AllFollow lines program [b] := by
  rw [documentOrder_singleton, hInOrder] at hStands
  rcases standsIn_body hOrder hId hStands hRun with
    ⟨hHeld, hLine, hHolds⟩
  refine
    allFollow_block hInOrder hId hLine ⟨?_, ?_⟩ (hInner hHeld)
  · intro held hSome
    rcases Option.some.inj (hBody.symm.trans hSome) with rfl
    exact hHolds
  · simp [hBranch]

/- A header with a clause, when its two branches are known. -/
theorem allFollow_conditional
    {line : Line}
    {condition : Option String}
    {body : List Block}
    {branch : ElseKind × List Block}
    (hLine : line ∈ lines)
    (hFollows :
      Follows lines program line
        (tracedConditional line condition body branch))
    (hBody : AllFollow lines program body)
    (hBranch : AllFollow lines program branch.2) :
    AllFollow lines program
      [tracedConditional line condition body branch] := by
  refine
    allFollow_block ?_ rfl hLine hFollows
      (allFollow_append hBody hBranch)
  rw [documentOrder, Block.inOrderAll_append]
  rfl

mutual

theorem Entry.allFollow
    (hOrder : AreOrdered lines)
    (e : Entry)
    {after : List Line}
    (hStands :
      StandsIn lines (documentOrder program) e.lines
        (documentOrder e.traced) after)
    (hNests : e.Nests after) :
    AllFollow lines program e.traced := by
  cases e with
  | function line header body =>
      exact
        allFollow_header hOrder rfl rfl rfl rfl hStands hNests.1
          (fun hInner =>
            allFollow_traced hOrder body hInner hNests.2)
  | conditional line condition body clause =>
      rcases hNests with ⟨hRun, hBodyNests, hClauseNests⟩
      rcases
          standsIn_conditional hOrder hStands hRun
            hClauseNests with
        ⟨hInner, hClause, hLine, hFollows⟩
      exact
        allFollow_conditional hLine hFollows
          (allFollow_traced hOrder body hInner hBodyNests)
          (clause.allFollow hOrder hClause hClauseNests)
  | loop line header body =>
      exact
        allFollow_header hOrder rfl rfl rfl rfl hStands hNests.1
          (fun hInner =>
            allFollow_traced hOrder body hInner hNests.2)
  | ret line value =>
      exact allFollow_leaf rfl rfl rfl rfl hStands
  | assignment line target value =>
      exact allFollow_leaf rfl rfl rfl rfl hStands
  | call line callee arguments =>
      exact allFollow_leaf rfl rfl rfl rfl hStands
  | unrecognized line => exact List.forall_mem_nil _

theorem Clause.allFollow
    (hOrder : AreOrdered lines)
    (c : Clause)
    {indent : Nat}
    {after : List Line}
    (hStands :
      StandsIn lines (documentOrder program) c.lines
        (documentOrder c.traced.2) after)
    (hNests : c.Nests indent after) :
    AllFollow lines program c.traced.2 := by
  cases c with
  | none => exact List.forall_mem_nil _
  | elif line condition body clause =>
      rcases hNests with
        ⟨rfl, _, hRun, hBodyNests, hClauseNests⟩
      rcases
          standsIn_conditional hOrder hStands hRun
            hClauseNests with
        ⟨hInner, hClause, hLine, hFollows⟩
      exact
        allFollow_conditional hLine hFollows
          (allFollow_traced hOrder body hInner hBodyNests)
          (clause.allFollow hOrder hClause hClauseNests)
  | otherwise line body =>
      rcases hNests with ⟨_, _, _, _, hBodyNests⟩
      have hParts :
          StandsIn lines (documentOrder program)
            ([line] ++ linesOf body)
            ([] ++ documentOrder (traced body)) after :=
        hStands
      have hInner :=
        (standsIn_append hParts (List.nil_subset _)
          (idsOf_traced_sublist body).subset).2
      exact allFollow_traced hOrder body hInner hBodyNests

/- Every block of an outline holds what its line says. -/
theorem allFollow_traced
    (hOrder : AreOrdered lines)
    (es : List Entry)
    {after : List Line}
    (hStands :
      StandsIn lines (documentOrder program) (linesOf es)
        (documentOrder (traced es)) after)
    (hNests : nests after es) :
    AllFollow lines program (traced es) := by
  cases es with
  | nil => exact List.forall_mem_nil _
  | cons e es =>
      have hParts :
          StandsIn lines (documentOrder program)
            (e.lines ++ linesOf es)
            (documentOrder e.traced ++ documentOrder (traced es))
            after := by
        rwa [← Block.inOrderAll_append]
      rcases
          standsIn_append hParts e.idsOf_traced_sublist.subset
            (idsOf_traced_sublist es).subset with
        ⟨hFirst, hRest⟩
      exact
        allFollow_append (e.allFollow hOrder hFirst hNests.1)
          (allFollow_traced hOrder es hRest hNests.2)

end

end Outlines

------------------------------------------------------------
-- The Program Of A Text
------------------------------------------------------------

/-
  Indentation alone decides nesting.  The program of a text
  is, with fresh ids, one whose blocks are named after the
  lines that say them, one for each statement, and these nest
  as the indents of the lines say.
-/
theorem parse_followsIndents
    (n : Nat)
    (source : String) :
    parse n source =
        Block.renumberClosingAll n (tracedProgram source) ∧
      FollowsIndents (significantLines source)
        (tracedProgram source) := by
  have hOrder := areOrdered_significantLines source
  have hSublist :=
    idsOf_traced_sublist (outline (significantLines source))
  have hNests := nests_outline (significantLines source)
  rw [linesOf_outline] at hSublist
  have hStands :
      StandsIn (significantLines source)
        (documentOrder (tracedProgram source))
        (linesOf (outline (significantLines source)))
        (documentOrder (tracedProgram source)) [] :=
    ⟨[], [], [], by simp [linesOf_outline], by simp, by simp,
      by simp⟩
  have hAll := allFollow_traced hOrder _ hStands hNests
  refine ⟨parse_eq_renumber_traced n source, ?_, ?_, hSublist, ?_⟩
  · exact areMadeBy_traced_outline _
  · intro line hLine hRead
    exact List.mem_map.mp ((mem_idsOf_of_read hRead).1 _ hLine)
  · intro b hb head hHead hId
    rcases hAll b hb with ⟨head', hHead', hId', hFollows⟩
    have hSame : head' = head :=
      eq_of_name_eq hOrder hHead' hHead (hId'.symm.trans hId)
    exact hSame ▸ hFollows

end Source

end BlockProgram
