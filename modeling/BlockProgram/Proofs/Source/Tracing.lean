import BlockProgram.Proofs.Block.Numbering
import BlockProgram.Proofs.Block.Search
import BlockProgram.Proofs.Source.Outline
import BlockProgram.Proofs.Source.Respelling

/-
  The line that each block of a program was read from.

  A program can be drafted with the number of its line as the
  id of each block.  This traced draft is the program that is
  read, up to ids, and a block in it says what its line says.

  Main declarations:
    * `Source.Line.name`
    * `Source.traced`
    * `Source.parse_eq_renumber_traced`
    * `Source.Line.Makes`
    * `Source.areMadeBy_traced_outline`
-/

namespace BlockProgram

namespace Source

------------------------------------------------------------
-- Names Of Lines
------------------------------------------------------------

/- The id of the block that a line makes. -/
def Line.name (line : Line) : BlockId :=
  toString line.number

theorem number_eq_of_name_eq
    {line line' : Line}
    (hName : line.name = line'.name) :
    line.number = line'.number := by
  apply eq_of_toDigits_eq
  simpa [Line.name] using congrArg String.toList hName

------------------------------------------------------------
-- Traced Drafts
------------------------------------------------------------

/- The conditional of a header line with its branches. -/
def tracedConditional
    (line : Line)
    (condition : Option String)
    (body : List Block)
    (branch : ElseKind × List Block) : Block :=
  .conditional line.name (condition.getD defaultCondition) body
    branch.1 branch.2

mutual

/- The block that an entry makes, named after its line. -/
def Entry.traced : Entry → List Block
  | .function line header body =>
      [.function line.name (functionParts header).1
        (functionParts header).2 (traced body)]
  | .conditional line condition body clause =>
      [tracedConditional line condition (traced body)
        clause.traced]
  | .loop line header body =>
      [.loop line.name (loopParts header).1 (loopParts header).2
        (traced body)]
  | .ret line value => [.ret line.name value]
  | .assignment line target value =>
      [.assignment line.name target (.simple value)]
  | .call line callee arguments =>
      [.call line.name callee arguments]
  | .unrecognized _ => []

/- The else branch that a clause makes. -/
def Clause.traced : Clause → ElseKind × List Block
  | .none => (.none, [])
  | .elif line condition body clause =>
      (.elif,
        [tracedConditional line condition (traced body)
          clause.traced])
  | .otherwise _ body => (.otherwise, traced body)

/- The blocks that a list of entries makes, in order. -/
def traced : List Entry → List Block
  | [] => []
  | e :: es => e.traced ++ traced es

end

/- The program of a source text, each block with its line. -/
def tracedProgram (source : String) : List Block :=
  traced (outline (significantLines source))

------------------------------------------------------------
-- Up To Ids
------------------------------------------------------------

mutual

theorem Entry.withoutIds_traced :
    (e : Entry) → e.traced.map withoutIds = e.draft
  | .function line header body => by
      have hBody := withoutIds_traced body
      simp [Entry.traced, Entry.draft, withoutIds, respell,
        respellAll_eq_map, ← hBody]
  | .conditional line condition body clause => by
      have hBody := withoutIds_traced body
      have hClause := clause.withoutIds_traced
      simp [Entry.traced, Entry.draft, tracedConditional,
        withoutIds, respell, respellAll_eq_map, ← hBody,
        ← hClause]
  | .loop line header body => by
      have hBody := withoutIds_traced body
      simp [Entry.traced, Entry.draft, withoutIds, respell,
        respellAll_eq_map, ← hBody]
  | .ret _ _ => rfl
  | .assignment _ _ _ => rfl
  | .call _ _ _ => rfl
  | .unrecognized _ => rfl

theorem Clause.withoutIds_traced :
    (c : Clause) →
      (c.traced.1, c.traced.2.map withoutIds) = c.draft
  | .none => rfl
  | .elif line condition body clause => by
      have hBody := withoutIds_traced body
      have hClause := clause.withoutIds_traced
      simp [Clause.traced, Clause.draft, tracedConditional,
        withoutIds, respell, respellAll_eq_map, ← hBody,
        ← hClause]
  | .otherwise _ body => by
      have hBody := withoutIds_traced body
      simp [Clause.traced, Clause.draft, ← hBody]

/- Without its ids a traced draft is the draft. -/
theorem withoutIds_traced :
    (es : List Entry) → (traced es).map withoutIds = draft es
  | [] => rfl
  | e :: es => by
      rw [traced, draft, List.map_append, e.withoutIds_traced,
        withoutIds_traced es]

end

theorem sizeAll_map_withoutIds (bs : List Block) :
    Block.sizeAll (bs.map withoutIds) = Block.sizeAll bs := by
  rw [← Block.length_inOrderAll, ← Block.length_inOrderAll,
    inOrderAll_withoutIds_of_forall fun b _ => inOrder_withoutIds b,
    List.length_map]

theorem renumberClosingAll_withoutIds_of_forall
    {bs : List Block}
    (h :
      ∀ b ∈ bs,
        ∀ n,
          Block.renumberClosing n (withoutIds b) =
            Block.renumberClosing n b)
    (n : Nat) :
    Block.renumberClosingAll n (bs.map withoutIds) =
      Block.renumberClosingAll n bs := by
  induction bs generalizing n with
  | nil => rfl
  | cons b bs ih =>
      have hSize : (withoutIds b).size = b.size := by
        simpa [Block.sizeAll] using sizeAll_map_withoutIds [b]
      rw [List.map_cons, Block.renumberClosingAll,
        Block.renumberClosingAll, h b List.mem_cons_self, hSize,
        ih fun c hc => h c (List.mem_cons_of_mem b hc)]

theorem renumberClosing_withoutIds
    (n : Nat)
    (b : Block) :
    Block.renumberClosing n (withoutIds b) =
      Block.renumberClosing n b := by
  induction b using Block.induction generalizing n with
  | function id name parameters body ih =>
      have hBody := renumberClosingAll_withoutIds_of_forall ih
      have hSize := sizeAll_map_withoutIds body
      simp only [withoutIds, respell, respellAll_eq_map,
        Block.renumberClosing] at hBody hSize ⊢
      rw [hBody, hSize]
  | assignment id name value => rfl
  | conditional id condition body elseKind elseBody ihBody
      ihElse =>
      have hBody := renumberClosingAll_withoutIds_of_forall ihBody
      have hElse := renumberClosingAll_withoutIds_of_forall ihElse
      have hSize := sizeAll_map_withoutIds body
      simp only [withoutIds, respell, respellAll_eq_map,
        Block.renumberClosing] at hBody hElse hSize ⊢
      rw [hBody, hElse, hSize]
  | loop id iterator iterable body ih =>
      have hBody := renumberClosingAll_withoutIds_of_forall ih
      have hSize := sizeAll_map_withoutIds body
      simp only [withoutIds, respell, respellAll_eq_map,
        Block.renumberClosing] at hBody hSize ⊢
      rw [hBody, hSize]
  | ret id value => rfl
  | call id callee arguments => rfl

/- The program that is read is the traced one, numbered. -/
theorem parse_eq_renumber_traced
    (n : Nat)
    (source : String) :
    parse n source =
      Block.renumberClosingAll n (tracedProgram source) := by
  rw [parse_eq, blocksOf, ← withoutIds_traced,
    renumberClosingAll_withoutIds_of_forall fun b _ n =>
      renumberClosing_withoutIds n b]
  rfl

------------------------------------------------------------
-- What A Line Makes
------------------------------------------------------------

/-
  The line says the block: its own parts are those of the
  line's statement, or defaults for a header that leaves them
  out.  A chained conditional is said by an `elif` line.
-/
def Line.Makes (line : Line) : Block → Prop
  | .function _ name parameters _ =>
      ∃ header,
        Statement.read line.text = .function header ∧
          functionParts header = (name, parameters)
  | .assignment _ name value =>
      ∃ text,
        Statement.read line.text = .assignment name text ∧
          value = .simple text
  | .conditional _ condition _ _ _ =>
      ∃ stated,
        (Statement.read line.text = .conditional stated ∨
          (line.isElif = true ∧
            condition? line.text.toList = stated)) ∧
          condition = stated.getD defaultCondition
  | .loop _ iterator iterable _ =>
      ∃ header,
        Statement.read line.text = .loop header ∧
          loopParts header = (iterator, iterable)
  | .ret _ value => Statement.read line.text = .ret value
  | .call _ callee arguments =>
      Statement.read line.text = .call callee arguments

/- The blocks are named after lines that say them. -/
def AreMadeBy
    (lines : List Line)
    (blocks : List Block) : Prop :=
  ∀ b ∈ documentOrder blocks,
    ∃ line ∈ lines, b.id = line.name ∧ line.Makes b

theorem areMadeBy_nil (lines : List Line) :
    AreMadeBy lines [] :=
  List.forall_mem_nil _

theorem areMadeBy_mono
    {lines lines' : List Line}
    {blocks : List Block}
    (hLines : lines ⊆ lines')
    (hMade : AreMadeBy lines blocks) :
    AreMadeBy lines' blocks := by
  intro b hb
  rcases hMade b hb with ⟨line, hLine, hName⟩
  exact ⟨line, hLines hLine, hName⟩

theorem areMadeBy_append
    {lines : List Line}
    {bs cs : List Block}
    (hFirst : AreMadeBy lines bs)
    (hSecond : AreMadeBy lines cs) :
    AreMadeBy lines (bs ++ cs) := by
  rw [AreMadeBy, documentOrder, Block.inOrderAll_append,
    List.forall_mem_append]
  exact ⟨hFirst, hSecond⟩

/- A block of the first line, before blocks of the others. -/
theorem areMadeBy_cons
    {line : Line}
    {rest : List Line}
    {b : Block}
    {inner others : List Block}
    (hInOrder : b.inOrder = b :: Block.inOrderAll inner)
    (hId : b.id = line.name)
    (hMakes : line.Makes b)
    (hInner : AreMadeBy rest inner)
    (hOthers : AreMadeBy rest others) :
    AreMadeBy (line :: rest) (b :: others) := by
  have hRest := List.subset_cons_self line rest
  intro c hc
  rw [documentOrder, Block.inOrderAll, hInOrder] at hc
  rcases List.mem_append.mp hc with hc | hc
  · rcases List.mem_cons.mp hc with rfl | hc
    · exact ⟨line, List.mem_cons_self, hId, hMakes⟩
    · exact areMadeBy_mono hRest hInner c hc
  · exact areMadeBy_mono hRest hOthers c hc

theorem areMadeBy_tracedConditional
    {line : Line}
    {rest : List Line}
    {condition : Option String}
    {body others : List Block}
    {branch : ElseKind × List Block}
    (hStated :
      Statement.read line.text = .conditional condition ∨
        (line.isElif = true ∧
          condition? line.text.toList = condition))
    (hBody : AreMadeBy (deeper line.indent rest) body)
    (hBranch : AreMadeBy (afterDeeper line.indent rest) branch.2)
    (hOthers : AreMadeBy rest others) :
    AreMadeBy (line :: rest)
      (tracedConditional line condition body branch ::
        others) := by
  have hInner : AreMadeBy rest (body ++ branch.2) :=
    areMadeBy_append
      (areMadeBy_mono (deeper_subset line.indent rest) hBody)
      (areMadeBy_mono (afterDeeper_subset line.indent rest)
        hBranch)
  refine
    areMadeBy_cons ?_ rfl ⟨condition, hStated, rfl⟩ hInner
      hOthers
  rw [Block.inOrderAll_append]
  rfl

theorem areMadeBy_traced :
    (∀ lines, AreMadeBy lines (traced (outline lines))) ∧
      ∀ indent lines,
        AreMadeBy lines (clauseOf indent lines).traced.2 := by
  apply lines_induction
  case nil =>
    rw [outline_nil, traced]
    exact areMadeBy_nil []
  case function =>
    intro line rest header hRead ihBody ihRest
    rw [outline_function hRead]
    exact
      areMadeBy_cons rfl rfl ⟨header, hRead, rfl⟩
        (areMadeBy_mono (deeper_subset line.indent rest) ihBody)
        (areMadeBy_mono (afterDeeper_subset line.indent rest)
          ihRest)
  case conditional =>
    intro line rest condition hRead ihBody ihBranch ihRest
    rw [outline_conditional hRead]
    have hRest :
        afterClauses line.indent
            (afterDeeper line.indent rest) ⊆ rest :=
      List.Subset.trans (afterClauses_subset _ _)
        (afterDeeper_subset line.indent rest)
    exact
      areMadeBy_tracedConditional (Or.inl hRead) ihBody ihBranch
        (areMadeBy_mono hRest ihRest)
  case loop =>
    intro line rest header hRead ihBody ihRest
    rw [outline_loop hRead]
    exact
      areMadeBy_cons rfl rfl ⟨header, hRead, rfl⟩
        (areMadeBy_mono (deeper_subset line.indent rest) ihBody)
        (areMadeBy_mono (afterDeeper_subset line.indent rest)
          ihRest)
  case ret =>
    intro line rest value hRead ihRest
    rw [outline_ret hRead]
    exact
      areMadeBy_cons rfl rfl hRead (areMadeBy_nil rest) ihRest
  case assignment =>
    intro line rest target value hRead ihRest
    rw [outline_assignment hRead]
    exact
      areMadeBy_cons rfl rfl ⟨value, hRead, rfl⟩
        (areMadeBy_nil rest) ihRest
  case call =>
    intro line rest callee arguments hRead ihRest
    rw [outline_call hRead]
    exact
      areMadeBy_cons rfl rfl hRead (areMadeBy_nil rest) ihRest
  case unrecognized =>
    intro line rest hRead ihRest
    rw [outline_unrecognized hRead]
    exact
      areMadeBy_mono (List.subset_cons_self line rest) ihRest
  case none =>
    intro indent lines hNone
    rw [clauseOf_of_no_clause hNone]
    exact areMadeBy_nil lines
  case elif =>
    intro line rest hElif ihBody ihBranch
    rw [clauseOf_elif rfl hElif]
    exact
      areMadeBy_tracedConditional (Or.inr ⟨hElif, rfl⟩) ihBody
        ihBranch (areMadeBy_nil rest)
  case otherwise =>
    intro line rest hElif hElse ihBody
    rw [clauseOf_else rfl hElif hElse]
    exact
      areMadeBy_mono
        (List.Subset.trans (deeper_subset line.indent rest)
          (List.subset_cons_self line rest))
        ihBody

/- Each block of an outline is made by the line it names. -/
theorem areMadeBy_traced_outline (lines : List Line) :
    AreMadeBy lines (traced (outline lines)) :=
  areMadeBy_traced.1 lines

end Source

end BlockProgram
