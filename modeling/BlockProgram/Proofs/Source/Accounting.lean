import BlockProgram.Proofs.Block.Search
import BlockProgram.Proofs.Source.Tracing

/-
  Every significant line is used once.

  An outline holds the lines that it was made from, in their
  order.  Each of them makes a block, opens the branch for
  all other cases, or is skipped and reported.

  Main declarations:
    * `Source.mem_significantLines`
    * `Source.linesOf_outline`
    * `Source.mem_idsOf_of_read`
    * `Source.length_linesOf`
    * `Source.read_accounts_for_lines`
-/

namespace BlockProgram

namespace Source

------------------------------------------------------------
-- Significant Lines
------------------------------------------------------------

theorem linesFrom_eq_map
    (start : Nat)
    (raws : List (List Char)) :
    linesFrom start raws =
      (raws.zipIdx start).map fun p => Line.ofRaw p.2 p.1 := by
  induction raws generalizing start with
  | nil => rfl
  | cons raw raws ih =>
      rw [linesFrom, ih, List.zipIdx_cons, List.map_cons]

/- A significant line, by the place of its raw line. -/
theorem mem_significantLines
    {source : String}
    {line : Line} :
    line ∈ significantLines source ↔
      line.isSignificant = true ∧
        ∃ raw,
          (rawLines source)[line.number]? = some raw ∧
            line = Line.ofRaw line.number raw := by
  rw [significantLines, List.mem_filter, linesFrom_eq_map,
    List.mem_map, and_comm]
  apply and_congr_right
  intro _
  constructor
  · rintro ⟨⟨raw, number⟩, hRaw, rfl⟩
    exact
      ⟨raw, List.mem_zipIdx_iff_getElem?.mp hRaw, rfl⟩
  · rintro ⟨raw, hRaw, hLine⟩
    exact
      ⟨(raw, line.number),
        List.mem_zipIdx_iff_getElem?.mpr hRaw, hLine.symm⟩

/- Lines stand in the order of their numbers. -/
abbrev AreOrdered (lines : List Line) : Prop :=
  (lines.map Line.number).Pairwise (· < ·)

theorem areOrdered_significantLines (source : String) :
    AreOrdered (significantLines source) := by
  have hNumbers :
      (linesFrom 0 (rawLines source)).map Line.number =
        List.range' 0 (rawLines source).length := by
    rw [linesFrom_eq_map, List.map_map]
    exact List.zipIdx_map_snd 0 _
  have hSublist :
      ((significantLines source).map Line.number).Sublist
        (List.range' 0 (rawLines source).length) := by
    rw [← hNumbers]
    exact List.filter_sublist.map Line.number
  exact List.Pairwise.sublist hSublist List.pairwise_lt_range'

------------------------------------------------------------
-- The Lines Of An Outline
------------------------------------------------------------

mutual

/- The line of an entry and all lines that it holds. -/
def Entry.lines : Entry → List Line
  | .function line _ body => line :: linesOf body
  | .conditional line _ body clause =>
      line :: (linesOf body ++ clause.lines)
  | .loop line _ body => line :: linesOf body
  | .ret line _ => [line]
  | .assignment line _ _ => [line]
  | .call line _ _ => [line]
  | .unrecognized line => [line]

/- The lines of a clause. -/
def Clause.lines : Clause → List Line
  | .none => []
  | .elif line _ body clause =>
      line :: (linesOf body ++ clause.lines)
  | .otherwise line body => line :: linesOf body

/- The lines of a list of entries, in order. -/
def linesOf : List Entry → List Line
  | [] => []
  | e :: es => e.lines ++ linesOf es

end

/- Lines are split, and none is lost between the parts. -/
theorem deeper_append_afterDeeper
    (indent : Nat)
    (lines : List Line) :
    deeper indent lines ++ afterDeeper indent lines = lines :=
  List.takeWhile_append_dropWhile

theorem linesOf_outline_and_clauseOf :
    (∀ lines, linesOf (outline lines) = lines) ∧
      ∀ indent lines,
        (clauseOf indent lines).lines ++
            afterClauses indent lines =
          lines := by
  apply lines_induction
  case nil => rw [outline_nil, linesOf]
  case function =>
    intro line rest header hRead ihBody ihRest
    rw [outline_function hRead, linesOf, Entry.lines, ihBody,
      ihRest, List.cons_append, deeper_append_afterDeeper]
  case conditional =>
    intro line rest condition hRead ihBody ihBranch ihRest
    rw [outline_conditional hRead, linesOf, Entry.lines, ihBody,
      ihRest, List.cons_append, List.append_assoc, ihBranch,
      deeper_append_afterDeeper]
  case loop =>
    intro line rest header hRead ihBody ihRest
    rw [outline_loop hRead, linesOf, Entry.lines, ihBody,
      ihRest, List.cons_append, deeper_append_afterDeeper]
  case ret =>
    intro line rest value hRead ihRest
    rw [outline_ret hRead, linesOf, Entry.lines, ihRest]
    rfl
  case assignment =>
    intro line rest target value hRead ihRest
    rw [outline_assignment hRead, linesOf, Entry.lines, ihRest]
    rfl
  case call =>
    intro line rest callee arguments hRead ihRest
    rw [outline_call hRead, linesOf, Entry.lines, ihRest]
    rfl
  case unrecognized =>
    intro line rest hRead ihRest
    rw [outline_unrecognized hRead, linesOf, Entry.lines, ihRest]
    rfl
  case none =>
    intro indent lines hNone
    rw [clauseOf_of_no_clause hNone, Clause.lines,
      (clauses_of_no_clause hNone).2]
    rfl
  case elif =>
    intro line rest hElif ihBody ihBranch
    rw [clauseOf_elif rfl hElif, afterClauses_elif rfl hElif,
      Clause.lines, ihBody, List.cons_append, List.append_assoc,
      ihBranch, deeper_append_afterDeeper]
  case otherwise =>
    intro line rest hElif hElse ihBody
    rw [clauseOf_else rfl hElif hElse,
      afterClauses_else rfl hElif hElse, Clause.lines, ihBody,
      List.cons_append, deeper_append_afterDeeper]

/- An outline holds its lines, each once and in order. -/
theorem linesOf_outline (lines : List Line) :
    linesOf (outline lines) = lines :=
  linesOf_outline_and_clauseOf.1 lines

/- A clause and what stands behind it are the lines. -/
theorem lines_clauseOf
    (indent : Nat)
    (lines : List Line) :
    (clauseOf indent lines).lines ++ afterClauses indent lines =
      lines :=
  linesOf_outline_and_clauseOf.2 indent lines

------------------------------------------------------------
-- Lines That Say Something
------------------------------------------------------------

/- The lines of a header stand below it or behind it. -/
theorem mem_deeper_or_afterDeeper
    {own : Line}
    {indent : Nat}
    {lines : List Line}
    (hOwn : own ∈ lines) :
    own ∈ deeper indent lines ∨ own ∈ afterDeeper indent lines := by
  rwa [← deeper_append_afterDeeper indent lines,
    List.mem_append] at hOwn

theorem read_of_isElse
    {line : Line}
    (hElse : line.isElse = true) :
    Statement.read line.text = .unrecognized := by
  rw [beq_iff_eq.mp hElse]
  decide

/-
  A line that is read as a statement makes a block wherever it
  stands.
-/
theorem mem_idsOf_of_read
    {own : Line}
    (hRead : Statement.read own.text ≠ .unrecognized) :
    (∀ lines, own ∈ lines →
        own.name ∈ idsOf (traced (outline lines))) ∧
      ∀ indent lines, own ∈ lines →
        own.name ∈ idsOf (clauseOf indent lines).traced.2 ∨
          own ∈ afterClauses indent lines := by
  apply lines_induction
  case nil =>
    intro hOwn
    cases hOwn
  case function =>
    intro line rest header hHeader ihBody ihRest hOwn
    rw [outline_function hHeader]
    simp only [traced, Entry.traced, idsOf_append, idsOf_function,
      List.mem_append, List.mem_cons]
    rcases List.mem_cons.mp hOwn with rfl | hOwn
    · exact Or.inl (Or.inl rfl)
    · rcases mem_deeper_or_afterDeeper hOwn with hIn | hOut
      · exact Or.inl (Or.inr (ihBody hIn))
      · exact Or.inr (ihRest hOut)
  case conditional =>
    intro line rest condition hHeader ihBody ihBranch ihRest hOwn
    rw [outline_conditional hHeader]
    simp only [traced, Entry.traced, tracedConditional,
      idsOf_append, idsOf_conditional, List.mem_append,
      List.mem_cons]
    rcases List.mem_cons.mp hOwn with rfl | hOwn
    · exact Or.inl (Or.inl rfl)
    · rcases mem_deeper_or_afterDeeper hOwn with hIn | hOut
      · exact Or.inl (Or.inr (Or.inl (ihBody hIn)))
      · rcases ihBranch hOut with hBranch | hAfter
        · exact Or.inl (Or.inr (Or.inr hBranch))
        · exact Or.inr (ihRest hAfter)
  case loop =>
    intro line rest header hHeader ihBody ihRest hOwn
    rw [outline_loop hHeader]
    simp only [traced, Entry.traced, idsOf_append, idsOf_loop,
      List.mem_append, List.mem_cons]
    rcases List.mem_cons.mp hOwn with rfl | hOwn
    · exact Or.inl (Or.inl rfl)
    · rcases mem_deeper_or_afterDeeper hOwn with hIn | hOut
      · exact Or.inl (Or.inr (ihBody hIn))
      · exact Or.inr (ihRest hOut)
  case ret =>
    intro line rest value hStated ihRest hOwn
    rw [outline_ret hStated]
    simp only [traced, Entry.traced, idsOf_append, idsOf_ret,
      List.mem_append, List.mem_singleton]
    rcases List.mem_cons.mp hOwn with rfl | hOwn
    · exact Or.inl rfl
    · exact Or.inr (ihRest hOwn)
  case assignment =>
    intro line rest target value hStated ihRest hOwn
    rw [outline_assignment hStated]
    simp only [traced, Entry.traced, idsOf_append, idsOf_assignment,
      List.mem_append, List.mem_singleton]
    rcases List.mem_cons.mp hOwn with rfl | hOwn
    · exact Or.inl rfl
    · exact Or.inr (ihRest hOwn)
  case call =>
    intro line rest callee arguments hStated ihRest hOwn
    rw [outline_call hStated]
    simp only [traced, Entry.traced, idsOf_append, idsOf_call,
      List.mem_append, List.mem_singleton]
    rcases List.mem_cons.mp hOwn with rfl | hOwn
    · exact Or.inl rfl
    · exact Or.inr (ihRest hOwn)
  case unrecognized =>
    intro line rest hStated ihRest hOwn
    rw [outline_unrecognized hStated]
    rcases List.mem_cons.mp hOwn with rfl | hOwn
    · exact absurd hStated hRead
    · simp [traced, Entry.traced, ihRest hOwn]
  case none =>
    intro indent lines hNone hOwn
    rw [(clauses_of_no_clause hNone).2]
    exact Or.inr hOwn
  case elif =>
    intro line rest hLine ihBody ihBranch hOwn
    rw [clauseOf_elif rfl hLine, afterClauses_elif rfl hLine]
    simp only [Clause.traced, tracedConditional,
      idsOf_conditional, List.mem_append, List.mem_cons]
    rcases List.mem_cons.mp hOwn with rfl | hOwn
    · exact Or.inl (Or.inl rfl)
    · rcases mem_deeper_or_afterDeeper hOwn with hIn | hOut
      · exact Or.inl (Or.inr (Or.inl (ihBody hIn)))
      · rcases ihBranch hOut with hBranch | hAfter
        · exact Or.inl (Or.inr (Or.inr hBranch))
        · exact Or.inr hAfter
  case otherwise =>
    intro line rest hLine hOtherwise ihBody hOwn
    rw [clauseOf_else rfl hLine hOtherwise,
      afterClauses_else rfl hLine hOtherwise]
    rcases List.mem_cons.mp hOwn with rfl | hOwn
    · exact absurd (read_of_isElse hOtherwise) hRead
    · rcases mem_deeper_or_afterDeeper hOwn with hIn | hOut
      · exact Or.inl (ihBody hIn)
      · exact Or.inr hOut

------------------------------------------------------------
-- Counting Lines
------------------------------------------------------------

/- The conditional has a branch for all other cases. -/
def hasElse : Block → Bool
  | .conditional _ _ _ elseKind _ => elseKind = .otherwise
  | _ => false

/- The finding is that a line was skipped. -/
def Diagnostic.isSkip (d : Diagnostic) : Bool :=
  d.code == "unrecognized-statement"

theorem hasElse_withoutIds (b : Block) :
    hasElse (withoutIds b) = hasElse b := by
  cases b <;> rfl

/- A malformed header is read all the same. -/
theorem countP_reportAbsent
    (line : Line)
    (keyword : String)
    (parts : Option α) :
    (line.reportAbsent keyword parts).countP Diagnostic.isSkip =
      0 := by
  cases parts <;> rfl

mutual

theorem Entry.length_lines :
    (e : Entry) →
      e.lines.length =
        (Block.inOrderAll e.traced).length +
            (Block.inOrderAll e.traced).countP hasElse +
          e.diagnostics.countP Diagnostic.isSkip
  | .function line header body => by
      have hBody := length_linesOf body
      simp only [Entry.lines, Entry.traced, Entry.diagnostics,
        Block.inOrderAll, Block.inOrder, hasElse,
        countP_reportAbsent, List.length_cons, List.append_nil,
        List.countP_cons, List.countP_append, Bool.false_eq_true,
        ↓reduceIte]
      omega
  | .conditional line condition body clause => by
      have hBody := length_linesOf body
      have hClause := clause.length_lines
      simp only [Entry.lines, Entry.traced, Entry.diagnostics,
        tracedConditional, Block.inOrderAll, Block.inOrder,
        hasElse, countP_reportAbsent, List.length_cons,
        List.length_append, List.append_nil, List.countP_cons,
        List.countP_append, decide_eq_true_eq]
      omega
  | .loop line header body => by
      have hBody := length_linesOf body
      simp only [Entry.lines, Entry.traced, Entry.diagnostics,
        Block.inOrderAll, Block.inOrder, hasElse,
        countP_reportAbsent, List.length_cons, List.append_nil,
        List.countP_cons, List.countP_append, Bool.false_eq_true,
        ↓reduceIte]
      omega
  | .ret _ _ => rfl
  | .assignment _ _ _ => rfl
  | .call _ _ _ => rfl
  | .unrecognized _ => rfl

theorem Clause.length_lines :
    (c : Clause) →
      c.lines.length =
        (Block.inOrderAll c.traced.2).length +
            (Block.inOrderAll c.traced.2).countP hasElse +
            (if c.traced.1 = .otherwise then 1 else 0) +
          c.diagnostics.countP Diagnostic.isSkip
  | .none => rfl
  | .elif line condition body clause => by
      have hBody := length_linesOf body
      have hClause := clause.length_lines
      simp only [Clause.lines, Clause.traced,
        Clause.diagnostics, tracedConditional, Block.inOrderAll,
        Block.inOrder, hasElse, countP_reportAbsent,
        List.length_cons, List.length_append, List.append_nil,
        List.countP_cons, List.countP_append, decide_eq_true_eq,
        reduceCtorEq, ↓reduceIte]
      omega
  | .otherwise line body => by
      have hBody := length_linesOf body
      simp only [Clause.lines, Clause.traced,
        Clause.diagnostics, List.length_cons, ↓reduceIte]
      omega

theorem length_linesOf :
    (es : List Entry) →
      (linesOf es).length =
        (Block.inOrderAll (traced es)).length +
            (Block.inOrderAll (traced es)).countP hasElse +
          (diagnosticsOf es).countP Diagnostic.isSkip
  | [] => rfl
  | e :: es => by
      have hFirst := e.length_lines
      have hRest := length_linesOf es
      simp only [linesOf, traced, diagnosticsOf,
        Block.inOrderAll_append, List.length_append,
        List.countP_append]
      omega

end

------------------------------------------------------------
-- Reported Lines
------------------------------------------------------------

/-
  The finding is about one of the lines, and when it does not
  say that the line was skipped, the line's name is an id.
-/
def Diagnostic.IsAbout
    (lines : List Line)
    (ids : List BlockId)
    (d : Diagnostic) : Prop :=
  ∃ line ∈ lines,
    d = line.report d.finding ∧
      (d.finding ≠ .unrecognized → line.name ∈ ids)

theorem isAbout_mono
    {lines lines' : List Line}
    {ids ids' : List BlockId}
    (hLines : lines ⊆ lines')
    (hIds : ids ⊆ ids')
    {d : Diagnostic}
    (hAbout : d.IsAbout lines ids) :
    d.IsAbout lines' ids' := by
  rcases hAbout with ⟨line, hLine, hReport, hName⟩
  exact
    ⟨line, hLines hLine, hReport,
      fun hFinding => hIds (hName hFinding)⟩

/-
  Findings about some lines: they come in the lines' order,
  and each is about one of them.
-/
structure AreAbout
    (lines : List Line)
    (ids : List BlockId)
    (ds : List Diagnostic) : Prop where
  sublist :
    (ds.map Diagnostic.line).Sublist (lines.map Line.number)
  isAbout : ∀ d ∈ ds, d.IsAbout lines ids

theorem areAbout_nil
    (lines : List Line)
    (ids : List BlockId) :
    AreAbout lines ids [] where
  sublist := List.nil_sublist _
  isAbout := List.forall_mem_nil _

theorem areAbout_append
    {lines lines' : List Line}
    {ids ids' : List BlockId}
    {ds ds' : List Diagnostic}
    (hFirst : AreAbout lines ids ds)
    (hSecond : AreAbout lines' ids' ds') :
    AreAbout (lines ++ lines') (ids ++ ids') (ds ++ ds') where
  sublist := by
    rw [List.map_append, List.map_append]
    exact hFirst.sublist.append hSecond.sublist
  isAbout := by
    rw [List.forall_mem_append]
    constructor
    · intro d hd
      exact
        isAbout_mono (List.subset_append_left _ _)
          (List.subset_append_left _ _) (hFirst.isAbout d hd)
    · intro d hd
      exact
        isAbout_mono (List.subset_append_right _ _)
          (List.subset_append_right _ _) (hSecond.isAbout d hd)

/- Lines below a header that makes a block. -/
theorem areAbout_header
    {lines : List Line}
    {ids : List BlockId}
    {ds : List Diagnostic}
    (hRest : AreAbout lines ids ds)
    (line : Line)
    (keyword : String)
    (parts : Option α) :
    AreAbout (line :: lines) (line.name :: ids)
      (line.reportAbsent keyword parts ++ ds) where
  sublist := by
    cases parts with
    | none => exact hRest.sublist.cons_cons line.number
    | some parts => exact hRest.sublist.cons line.number
  isAbout := by
    rw [List.forall_mem_append]
    constructor
    · intro d hd
      refine ⟨line, List.mem_cons_self, ?_, ?_⟩
      · cases parts with
        | none => rw [List.mem_singleton.mp hd]; rfl
        | some parts => cases hd
      · intro _
        exact List.mem_cons_self
    · intro d hd
      exact
        isAbout_mono (List.subset_cons_self _ _)
          (List.subset_cons_self _ _) (hRest.isAbout d hd)

mutual

theorem Entry.areAbout_diagnostics :
    (e : Entry) →
      AreAbout e.lines (idsOf e.traced) e.diagnostics
  | .function line header body => by
      simpa [Entry.traced, Entry.lines, Entry.diagnostics] using
        areAbout_header (areAbout_diagnosticsOf body) line "def"
          header
  | .conditional line condition body clause => by
      have hBoth :=
        areAbout_append (areAbout_diagnosticsOf body)
          clause.areAbout_diagnostics
      simpa [Entry.traced, tracedConditional, Entry.lines,
        Entry.diagnostics] using
        areAbout_header hBoth line "if" condition
  | .loop line header body => by
      simpa [Entry.traced, Entry.lines, Entry.diagnostics] using
        areAbout_header (areAbout_diagnosticsOf body) line "for"
          header
  | .ret _ _ => areAbout_nil _ _
  | .assignment _ _ _ => areAbout_nil _ _
  | .call _ _ _ => areAbout_nil _ _
  | .unrecognized line => by
      refine ⟨List.Sublist.refl _, ?_⟩
      intro d hd
      rw [List.mem_singleton.mp hd]
      exact
        ⟨line, List.mem_singleton_self _, rfl, fun hSkip =>
          absurd rfl hSkip⟩

theorem Clause.areAbout_diagnostics :
    (c : Clause) →
      AreAbout c.lines (idsOf c.traced.2) c.diagnostics
  | .none => areAbout_nil _ _
  | .elif line condition body clause => by
      have hBoth :=
        areAbout_append (areAbout_diagnosticsOf body)
          clause.areAbout_diagnostics
      simpa [Clause.traced, tracedConditional, Clause.lines,
        Clause.diagnostics] using
        areAbout_header hBoth line "if" condition
  | .otherwise line body => by
      have hBody := areAbout_diagnosticsOf body
      refine ⟨hBody.sublist.cons line.number, ?_⟩
      intro d hd
      exact
        isAbout_mono (List.subset_cons_self _ _)
          (List.Subset.refl _) (hBody.isAbout d hd)

/- The findings about an outline are about its lines. -/
theorem areAbout_diagnosticsOf :
    (es : List Entry) →
      AreAbout (linesOf es) (idsOf (traced es)) (diagnosticsOf es)
  | [] => areAbout_nil _ _
  | e :: es => by
      rw [linesOf, traced, diagnosticsOf, idsOf_append]
      exact
        areAbout_append e.areAbout_diagnostics
          (areAbout_diagnosticsOf es)

end

------------------------------------------------------------
-- The Lines Of A Text
------------------------------------------------------------

/- The lines of a text differ by their numbers. -/
theorem eq_of_number_eq
    {source : String}
    {line line' : Line}
    (hLine : line ∈ significantLines source)
    (hLine' : line' ∈ significantLines source)
    (hNumber : line.number = line'.number) :
    line = line' := by
  rcases (mem_significantLines.mp hLine).2 with ⟨raw, hRaw, hOf⟩
  rcases (mem_significantLines.mp hLine').2 with
    ⟨raw', hRaw', hOf'⟩
  rw [hNumber, hRaw'] at hRaw
  rw [hOf, hOf', hNumber, Option.some.inj hRaw]

theorem countP_hasElse_renumberClosingAll
    (n : Nat)
    (blocks : List Block) :
    (documentOrder (Block.renumberClosingAll n blocks)).countP
        hasElse =
      (documentOrder blocks).countP hasElse := by
  have hCount (bs : List Block) :
      (documentOrder (bs.map withoutIds)).countP hasElse =
        (documentOrder bs).countP hasElse := by
    rw [documentOrder,
      inOrderAll_withoutIds_of_forall fun b _ =>
        inOrder_withoutIds b,
      List.countP_map]
    exact List.countP_congr fun b _ => by
      rw [Function.comp_apply, hasElse_withoutIds]
  rw [← hCount, map_withoutIds_renumberClosingAll, hCount]

/-
  A finding about a line of a text, as a user meets it: the
  line was skipped, or it is a header that makes a block all
  the same.
-/
def Diagnostic.Quotes
    (program : List Block)
    (line : Line)
    (d : Diagnostic) : Prop :=
  (d.code = "unrecognized-statement" ∧
      d.message =
        "skipped unrecognized statement " ++
          Text.inBackquotes line.text) ∨
    d.code = "malformed-header" ∧
      (∃ keyword,
        d.message =
          "could not read " ++ Text.inBackquotes keyword ++
              " header " ++ Text.inBackquotes line.text ++
            ", using defaults") ∧
        ∃ b ∈ documentOrder program,
          b.id = line.name ∧ line.Makes b

theorem quotes_of_report
    {source : String}
    {line : Line}
    {d : Diagnostic}
    (hLine : line ∈ significantLines source)
    (hReport : d = line.report d.finding)
    (hName :
      d.finding ≠ .unrecognized →
        line.name ∈ idsOf (tracedProgram source)) :
    d.Quotes (tracedProgram source) line := by
  cases hFinding : d.finding with
  | unrecognized =>
      rw [hReport, hFinding]
      exact Or.inl ⟨rfl, rfl⟩
  | malformed keyword =>
      have hMember := hName (by simp [hFinding])
      rcases List.mem_map.mp hMember with ⟨b, hb, hId⟩
      rcases areMadeBy_traced_outline _ b hb with
        ⟨line', hLine', hId', hMakes⟩
      have hSame : line' = line :=
        eq_of_number_eq hLine' hLine
          (number_eq_of_name_eq (hId'.symm.trans hId))
      rw [hReport, hFinding]
      exact
        Or.inr ⟨rfl, ⟨keyword, rfl⟩, b, hb, hId, hSame ▸ hMakes⟩

/-
  Every line that is neither blank nor a comment makes one
  block, opens one branch for all other cases, or is skipped
  with one finding.  Findings come in the order of their
  lines, no line has two of them, and each quotes its line.
-/
theorem read_accounts_for_lines
    (n : Nat)
    (source : String) :
    (read n source).blocks =
        Block.renumberClosingAll n (tracedProgram source) ∧
      (significantLines source).length =
          (documentOrder (read n source).blocks).length +
              (documentOrder (read n source).blocks).countP
                hasElse +
            (read n source).diagnostics.countP
              Diagnostic.isSkip ∧
        ((read n source).diagnostics.map
            Diagnostic.line).Pairwise (· < ·) ∧
          ∀ d ∈ (read n source).diagnostics,
            ∃ raw,
              (rawLines source)[d.line]? = some raw ∧
                (Line.ofRaw d.line raw).isSignificant = true ∧
                  d.Quotes (tracedProgram source)
                    (Line.ofRaw d.line raw) := by
  have hBlocks :
      (read n source).blocks =
        Block.renumberClosingAll n (tracedProgram source) :=
    parse_eq_renumber_traced n source
  have hDiagnostics :
      (read n source).diagnostics =
        diagnosticsOf (outline (significantLines source)) := rfl
  have hLength :=
    length_linesOf (outline (significantLines source))
  have hAbout :=
    areAbout_diagnosticsOf (outline (significantLines source))
  rw [linesOf_outline] at hLength hAbout
  rw [hBlocks, hDiagnostics]
  refine ⟨rfl, ?_, ?_, ?_⟩
  · rw [countP_hasElse_renumberClosingAll, Block.length_inOrderAll,
      Block.sizeAll_renumberClosingAll, ← Block.length_inOrderAll]
    exact hLength
  · exact
      (areOrdered_significantLines source).sublist hAbout.sublist
  · intro d hd
    rcases hAbout.isAbout d hd with
      ⟨line, hLine, hReport, hName⟩
    rcases mem_significantLines.mp hLine with
      ⟨hSignificant, raw, hRaw, hOf⟩
    have hNumber : d.line = line.number := by rw [hReport]; rfl
    rw [hNumber]
    refine ⟨raw, hRaw, hOf ▸ hSignificant, ?_⟩
    rw [← hOf]
    exact quotes_of_report hLine hReport hName

end Source

end BlockProgram
