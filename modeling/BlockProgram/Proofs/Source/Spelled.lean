import BlockProgram.Proofs.Block.Numbering
import BlockProgram.Proofs.Source.Readable
import BlockProgram.Proofs.Source.Tracing

/-
  How the parts of a block that was read are spelled.

  Every block of a program that was read is said by a line,
  or by a line and the defaults for a malformed header.  Its
  texts were cut from the line, so they have the form that
  the line's reader asks for, and none of them goes over the
  end of the line.

  Main declarations:
    * `Source.IsItemList`
    * `Source.MatchesTarget`
    * `Source.HasLexicalForm`
    * `Source.hasLexicalForm_of_makes`
    * `Source.hasLexicalForm_parse`
-/

namespace BlockProgram

namespace Source

open Text

------------------------------------------------------------
-- Lexical Forms
------------------------------------------------------------

/- A text that stands on one line. -/
def IsLine (text : String) : Prop :=
  '\n' ∉ text.toList

instance (text : String) : Decidable (IsLine text) := by
  unfold IsLine
  infer_instance

/- A list that is told apart from others by its text. -/
structure IsItemList (items : List String) : Prop where
  ne_blank : items ≠ [""]
  isLine : ∀ x ∈ items, IsLine x
  isTrimmed : ∀ x ∈ items, IsTrimmed x.toList
  comma : ∀ x ∈ items, ',' ∉ x.toList
  reread : commaList (", ".intercalate items).toList = items

/- `[A-Za-z_][\w.]*`, over the whole text. -/
def MatchesCallee (cs : List Char) : Prop :=
  ∃ c rest,
    cs = c :: rest ∧
      isNameStart c = true ∧ ∀ d ∈ rest, isNamePart d = true

/- `[A-Za-z_][\w.]*(\[.*\])?`, over the whole text. -/
def MatchesTarget (cs : List Char) : Prop :=
  ∃ name tail,
    cs = name ++ tail ∧
      MatchesCallee name ∧
        (tail = [] ∨
          ∃ inner, '\n' ∉ inner ∧ tail = '[' :: (inner ++ [']']))

/- Two equals signs stand together in the text. -/
def Compares (cs : List Char) : Prop :=
  ['=', '='] <:+: cs

/- The forms that the texts of a block's own parts have. -/
def HasLexicalForm : Block → Prop
  | .function _ name parameters _ =>
      IsLine name ∧ IsWordName name ∧ IsItemList parameters
  | .assignment _ name value =>
      IsLine name ∧
        MatchesTarget name.toList ∧
          '=' ∉ name.toList ∧
            ¬Compares name.toList ∧
              ∃ text,
                value = .simple text ∧
                  IsLine text ∧
                    IsTrimmed text.toList ∧
                      ¬Compares text.toList
  | .conditional _ condition _ _ _ =>
      IsLine condition ∧ IsTrimmed condition.toList
  | .loop _ iterator iterable _ =>
      IsLine iterator ∧
        IsWordName iterator ∧
          IsLine iterable ∧ IsTrimmed iterable.toList
  | .ret _ value => IsLine value ∧ IsExpression value
  | .call _ callee arguments =>
      IsLine callee ∧
        MatchesCallee callee.toList ∧ IsItemList arguments

------------------------------------------------------------
-- Texts That Were Cut From A Line
------------------------------------------------------------

theorem isItemList_of_areItems
    {items : List String}
    {cs : List Char}
    (hItems : AreItems items)
    (hLine : '\n' ∉ cs)
    (hEach : ∀ x ∈ items, x.toList <:+: cs) :
    IsItemList items where
  ne_blank := hItems.1
  isLine := fun x hx => newline_notMem_of_isInfix (hEach x hx) hLine
  isTrimmed := fun x hx => (hItems.2 x hx).1
  comma := fun x hx => (hItems.2 x hx).2
  reread := commaList_intercalate hItems

theorem matchesCallee_of_isCallee
    {cs : List Char}
    (hCallee : isCallee cs = true) :
    MatchesCallee cs := by
  rcases isCallee_iff.mp hCallee with ⟨c, rest, rfl, hStart, hParts⟩
  exact
    ⟨c, rest, rfl, hStart,
      fun d hd => hParts d (List.mem_cons_of_mem c hd)⟩

theorem matchesTarget_of_isTarget
    {cs : List Char}
    (hLine : '\n' ∉ cs)
    (hTarget : isTarget cs = true) :
    MatchesTarget cs := by
  rcases exists_of_isTarget hTarget with
    ⟨c, run, tail, rfl, hStart, hRun, hTail⟩
  refine
    ⟨c :: run, tail, rfl,
      ⟨c, run, rfl, hStart,
        fun d hd => hRun d (List.mem_cons_of_mem c hd)⟩, ?_⟩
  rcases hTail with rfl | ⟨inner, rfl⟩
  · exact Or.inl rfl
  · exact Or.inr ⟨inner, fun hMember => hLine (by simp [hMember]), rfl⟩

theorem hasDoubleEquals_of_compares
    {cs : List Char}
    (hCompares : Compares cs) :
    hasDoubleEquals cs = true :=
  hasDoubleEquals_of_isInfix hCompares rfl

theorem not_compares_of_notMem
    {cs : List Char}
    (hNone : '=' ∉ cs) :
    ¬Compares cs :=
  fun hCompares => hNone (hCompares.subset (by simp))

------------------------------------------------------------
-- Blocks That Lines Make
------------------------------------------------------------

/- A block that a line makes has the form of its kind. -/
theorem hasLexicalForm_of_makes
    {line : Line}
    (hLine : '\n' ∉ line.text.toList)
    {b : Block}
    (hMakes : line.Makes b) :
    HasLexicalForm b := by
  cases b with
  | function id name parameters body =>
      rcases hMakes with ⟨header, hRead, hParts⟩
      rw [Statement.eq_of_read_function hRead] at hParts
      cases hHeader : functionHeader? line.text.toList with
      | none =>
          rw [hHeader] at hParts
          rcases Prod.mk.inj hParts with ⟨rfl, rfl⟩
          have hName : IsWordName defaultFunctionName := by
            decide
          exact
            ⟨newline_notMem_of_isWordName hName, hName,
              isItemList_of_areItems (by decide) hLine
                (List.forall_mem_nil _)⟩
      | some parts =>
          rw [hHeader, functionParts, Option.getD_some] at hParts
          subst hParts
          rcases functionHeader?_eq_some hHeader with
            ⟨hName, hItems, hEach⟩
          exact
            ⟨newline_notMem_of_isWordName hName, hName,
              isItemList_of_areItems hItems hLine
                fun x hx => (hEach x hx).2⟩
  | assignment id name value =>
      rcases hMakes with ⟨text, hRead, rfl⟩
      rcases assignment?_eq_some
          (Statement.eq_of_read_assignment hRead) with
        ⟨hTarget, hSingle, hTrimmed, hName, hValue⟩
      have hOwn := newline_notMem_of_isInfix hName hLine
      refine
        ⟨hOwn, matchesTarget_of_isTarget hOwn hTarget.1,
          hTarget.2, not_compares_of_notMem hTarget.2, text, rfl,
          newline_notMem_of_isInfix hValue hLine, hTrimmed, ?_⟩
      intro hCompares
      rw [hasDoubleEquals_of_compares hCompares] at hSingle
      cases hSingle
  | conditional id condition body elseKind elseBody =>
      rcases hMakes with ⟨stated, hStated, rfl⟩
      have hRead : stated = condition? line.text.toList := by
        rcases hStated with hRead | ⟨_, hRead⟩
        · exact Statement.eq_of_read_conditional hRead
        · exact hRead.symm
      cases stated with
      | none => exact ⟨by decide, by decide⟩
      | some text =>
          rcases condition?_eq_some hRead.symm with
            ⟨hTrimmed, hInfix⟩
          exact ⟨newline_notMem_of_isInfix hInfix hLine, hTrimmed⟩
  | loop id iterator iterable body =>
      rcases hMakes with ⟨header, hRead, hParts⟩
      rw [Statement.eq_of_read_loop hRead] at hParts
      cases hHeader : loopHeader? line.text.toList with
      | none =>
          rw [hHeader] at hParts
          rcases Prod.mk.inj hParts with ⟨rfl, rfl⟩
          exact ⟨by decide, by decide, by decide, by decide⟩
      | some parts =>
          rw [hHeader, loopParts, Option.getD_some] at hParts
          subst hParts
          rcases loopHeader?_eq_some hHeader with
            ⟨hName, hTrimmed, hInfix⟩
          exact
            ⟨newline_notMem_of_isWordName hName, hName,
              newline_notMem_of_isInfix hInfix hLine, hTrimmed⟩
  | ret id value =>
      rcases Statement.eq_of_read_ret hMakes with rfl
      have hRest : '\n' ∉ line.text.toList.drop 6 :=
        fun hMember => hLine (List.mem_of_mem_drop hMember)
      exact
        ⟨newline_notMem_returned hRest, isExpression_returned _⟩
  | call id callee arguments =>
      rcases call?_eq_some (Statement.eq_of_read_call hMakes) with
        ⟨hCallee, hItems, hEach⟩
      exact
        ⟨newline_notMem_of_isCallee hCallee,
          matchesCallee_of_isCallee hCallee,
          isItemList_of_areItems hItems hLine hEach⟩

------------------------------------------------------------
-- Programs That Were Read
------------------------------------------------------------

/- Ids are no matter to the other texts of a block. -/
theorem hasLexicalForm_withoutIds_iff
    (b : Block) :
    HasLexicalForm (withoutIds b) ↔ HasLexicalForm b := by
  cases b <;> rfl

theorem isLine_freshId
    (kind : Kind)
    (n : Nat) :
    IsLine (kind.freshId n) := by
  have hTag : '\n' ∉ kind.tag.toList := by
    cases kind <;> decide
  have hDigits : '\n' ∉ Nat.toDigits 10 n := by
    intro hMember
    have hDigit :=
      Nat.isDigit_of_mem_toDigits (by decide) (by decide) hMember
    revert hDigit
    decide
  simp [IsLine, Kind.freshId, hTag, hDigits]

theorem isLine_id_parse
    (n : Nat)
    (source : String) :
    ∀ b ∈ documentOrder (parse n source), IsLine b.id := by
  rw [parse_eq_renumber_traced]
  intro b hb
  have hNumbered :=
    Block.areNumberedFrom_renumberClosingAll n
      (tracedProgram source)
  have hClosing :=
    (Block.closingAll_perm
      (Block.renumberClosingAll n
        (tracedProgram source))).mem_iff.mpr hb
  rcases Block.id_of_areNumberedFrom hNumbered hClosing with
    ⟨m, _, _, hId⟩
  rw [hId]
  exact isLine_freshId b.kind m

/-
  Every block of a program that was read, at any depth, has
  the lexical form of its kind, and no text in it, its id
  included, goes over the end of a line.
-/
theorem hasLexicalForm_parse
    (n : Nat)
    (source : String) :
    ∀ b ∈ documentOrder (parse n source),
      IsLine b.id ∧ HasLexicalForm b := by
  have hTraced :
      ∀ b ∈ documentOrder (tracedProgram source),
        HasLexicalForm b := by
    intro b hb
    rcases areMadeBy_traced_outline _ b hb with
      ⟨line, hLine, _, hMakes⟩
    exact
      hasLexicalForm_of_makes
        (areLines_significantLines source line hLine) hMakes
  have hForms :
      ∀ b ∈ documentOrder (parse n source), HasLexicalForm b := by
    rw [parse_eq_renumber_traced]
    exact
      forall_mem_renumberClosingAll hasLexicalForm_withoutIds_iff
        hTraced n
  intro b hb
  exact ⟨isLine_id_parse n source b hb, hForms b hb⟩

/- An assignment in the body of a loop. -/
theorem hasLexicalForm_parse_nested :
    ∃ loop inner,
      parse 1 "for i in  xs :\n    y=1" = [loop] ∧
        inner = .assignment "variable-1" "y" (.simple "1") ∧
          inner ∈ loop.inOrder ∧
            IsLine inner.id ∧ HasLexicalForm inner := by
  have hLines :
      significantLines "for i in  xs :\n    y=1" =
        [⟨0, 0, "for i in  xs :"⟩, ⟨1, 4, "y=1"⟩] := by
    decide +kernel
  have hLoop :
      Statement.read (Line.text ⟨0, 0, "for i in  xs :"⟩) =
        .loop (some ("i", "xs")) := by
    decide +kernel
  have hAssignment :
      Statement.read (Line.text ⟨1, 4, "y=1"⟩) =
        .assignment "y" "1" := by
    decide +kernel
  have hParse :
      parse 1 "for i in  xs :\n    y=1" =
        [.loop "for-2" "i" "xs"
          [.assignment "variable-1" "y" (.simple "1")]] := by
    have hBody :
        deeper 0 [⟨1, 4, "y=1"⟩] = [⟨1, 4, "y=1"⟩] := by
      rfl
    have hAfter : afterDeeper 0 [⟨1, 4, "y=1"⟩] = [] := by
      rfl
    rw [parse_eq, hLines, blocksOf_loop rfl hLoop]
    dsimp only
    rw [hBody, hAfter, blocksOf_assignment hAssignment,
      blocksOf_nil]
    rfl
  have hInside :
      Block.assignment "variable-1" "y" (.simple "1") ∈
        documentOrder (parse 1 "for i in  xs :\n    y=1") := by
    rw [hParse]
    simp [documentOrder, Block.inOrderAll, Block.inOrder]
  refine ⟨_, _, hParse, rfl, ?_, hasLexicalForm_parse 1 _ _ hInside⟩
  simp [Block.inOrder, Block.inOrderAll]

end Source

end BlockProgram
