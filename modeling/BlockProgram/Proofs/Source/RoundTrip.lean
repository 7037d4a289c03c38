import BlockProgram.Proofs.Source.Rereading

/-
  Canonical trees survive being written and read.

  A tree is canonical when each of its texts keeps to the
  form that is read at its place.  Its text is read as the
  same tree, however deep it is nested and however long its
  ladders are.  Only ids are new, and values are found in the
  spelling that they were written in.

  Main declarations:
    * `Source.IsCanonical`
    * `Source.normalized`
    * `Source.parse_compile_of_canonical`
-/

namespace BlockProgram

namespace Source

open Text

------------------------------------------------------------
-- Canonical Trees
------------------------------------------------------------

/- Texts that can be one parameter or one argument. -/
def IsItem (text : String) : Prop :=
  text ≠ "" ∧ ',' ∉ text.toList ∧ IsTrimmed text.toList

instance (text : String) : Decidable (IsItem text) := by
  unfold IsItem
  infer_instance

/- The names that are read as something else. -/
def reservedNames : List String :=
  ["def", "if", "elif", "for", "return"]

/- The own parts of a block have the form of their place. -/
def HasCanonicalParts : Block → Prop
  | .function _ name parameters _ =>
      IsWordName name ∧
        ∀ x ∈ parameters,
          IsItem x ∧ closesHeader x.toList = false
  | .assignment _ name value =>
      (isTarget name.toList = true ∧
          '=' ∉ name.toList ∧ name ∉ reservedNames) ∧
        hasDoubleEquals value.source.toList = false ∧
          IsTrimmed value.source.toList
  | .conditional _ condition _ elseKind elseBody =>
      IsExpression condition ∧ Block.Fits elseKind elseBody
  | .loop _ iterator iterable _ =>
      IsWordName iterator ∧ IsExpression iterable
  | .ret _ _ => True
  | .call _ callee arguments =>
      isCallee callee.toList = true ∧ ∀ x ∈ arguments, IsItem x

instance (b : Block) : Decidable (HasCanonicalParts b) :=
  match b with
  | .function .. =>
      @instDecidableAnd _ _ inferInstance (List.decidableBAll _ _)
  | .assignment .. =>
      @instDecidableAnd _ _ inferInstance inferInstance
  | .conditional .. =>
      @instDecidableAnd _ _ inferInstance inferInstance
  | .loop .. => @instDecidableAnd _ _ inferInstance inferInstance
  | .ret .. => instDecidableTrue
  | .call .. =>
      @instDecidableAnd _ _ inferInstance (List.decidableBAll _ _)

/- The block's parts are canonical, and its row is one line. -/
def IsCanonical (b : Block) : Prop :=
  HasCanonicalParts b ∧
    ∀ chained, '\n' ∉ (headText chained b).toList

instance (b : Block) : Decidable (IsCanonical b) := by
  unfold IsCanonical
  infer_instance

/- All blocks of a program are canonical. -/
def AreCanonical (blocks : List Block) : Prop :=
  ∀ b ∈ documentOrder blocks, IsCanonical b

instance (blocks : List Block) :
    Decidable (AreCanonical blocks) := by
  unfold AreCanonical
  infer_instance

/-
  A tree without ids, whose values are the texts that they
  are written as.
-/
def normalized : Block → Block :=
  respell
    (fun name value =>
      .assignment noId name (.simple value.source))
    (fun value => .ret noId (returned value.toList))

------------------------------------------------------------
-- Canonical Trees Are Legible
------------------------------------------------------------

theorem areItems_of_forall
    {items : List String}
    (hItems : ∀ x ∈ items, IsItem x) :
    AreItems items := by
  constructor
  · rintro rfl
    exact (hItems "" List.mem_cons_self).1 rfl
  · intro x hx
    rcases hItems x hx with ⟨_, hFree, hTrimmed⟩
    exact ⟨hTrimmed, hFree⟩

theorem looksChained_of_canonical
    {b : Block}
    (hCanonical : IsCanonical b) :
    looksChained b = false := by
  cases b with
  | assignment id name value =>
      rw [looksChained, beq_eq_false_iff_ne]
      rintro rfl
      exact hCanonical.1.1.2.2 (by decide)
  | function => rfl
  | conditional => rfl
  | loop => rfl
  | ret => rfl
  | call => rfl

theorem areSeparate_of_forall
    {bs : List Block}
    (hCanonical : ∀ b ∈ bs, IsCanonical b) :
    AreSeparate bs := by
  induction bs with
  | nil => trivial
  | cons b bs ih =>
      cases bs with
      | nil => trivial
      | cons c bs =>
          have hOthers :=
            fun d hd => hCanonical d (List.mem_cons_of_mem b hd)
          refine ⟨?_, ih hOthers⟩
          rw [looksChained_of_canonical
            (hOthers c List.mem_cons_self)]
          simp

/- A canonical block holds canonical blocks. -/
theorem isLegible_of_canonical
    {b : Block}
    (hCanonical : ∀ c ∈ b.inOrder, IsCanonical c) :
    IsLegible b := by
  have hFirst {bs : List Block}
      (hAll : ∀ b ∈ bs, ∀ c ∈ b.inOrder, IsCanonical c) :
      AreSeparate bs :=
    areSeparate_of_forall fun b hb =>
      hAll b hb b b.mem_inOrder_self
  have hOwn := (hCanonical b b.mem_inOrder_self).1
  cases b with
  | function id name parameters body =>
      rcases Block.forall_mem_inOrder_function.mp hCanonical with
        ⟨_, hBody⟩
      rcases hOwn with ⟨hName, hParameters⟩
      refine ⟨⟨hName, ?_, ?_⟩, trivial, hFirst hBody⟩
      · exact areItems_of_forall fun x hx => (hParameters x hx).1
      · exact fun x hx => (hParameters x hx).2
  | assignment id name value =>
      rcases hOwn with ⟨⟨hTarget, hFree, hNotReserved⟩, hValue⟩
      refine ⟨⟨⟨hTarget, hFree⟩, hValue⟩, trivial, ?_⟩
      intro hKeyword
      apply hNotReserved
      revert hKeyword
      simp only [headerNames, reservedNames, List.mem_cons,
        List.not_mem_nil, or_false]
      rintro (rfl | rfl | rfl)
      all_goals simp
  | conditional id condition body elseKind elseBody =>
      rcases Block.forall_mem_inOrder_conditional.mp hCanonical with
        ⟨_, hBody, hElse⟩
      rcases hOwn with ⟨⟨hNonempty, hTrimmed⟩, hFits⟩
      exact
        ⟨⟨hTrimmed, hFits⟩, hNonempty, hFirst hBody, hFirst hElse⟩
  | loop id iterator iterable body =>
      rcases Block.forall_mem_inOrder_loop.mp hCanonical with
        ⟨_, hBody⟩
      rcases hOwn with ⟨hIterator, hNonempty, hTrimmed⟩
      exact ⟨⟨hIterator, hTrimmed⟩, hNonempty, hFirst hBody⟩
  | ret id value => exact ⟨trivial, trivial, trivial⟩
  | call id callee arguments =>
      exact
        ⟨⟨hOwn.1, areItems_of_forall hOwn.2⟩, trivial, trivial⟩

/- Read again, a canonical block has normalized values. -/
theorem reread_of_canonical
    {b : Block}
    (hCanonical : ∀ c ∈ b.inOrder, IsCanonical c) :
    reread b = normalized b := by
  apply respell_congr
  intro c hMember hSpelled
  cases c with
  | assignment id name value =>
      have hNotReserved := (hCanonical _ hMember).1.1.2.2
      have hNotReturn : name ≠ "return" := by
        rintro rfl
        exact hNotReserved (by decide)
      simp [respell, rereadAssignment, hNotReturn]
  | ret id value => rfl
  | function => cases hSpelled
  | conditional => cases hSpelled
  | loop => cases hSpelled
  | call => cases hSpelled

------------------------------------------------------------
-- The Round Trip
------------------------------------------------------------

/-
  A canonical program can be written, and its text is read as
  the same program: without regard to ids, with each value
  in its own spelling, and with each return naming its
  trimmed value.
-/
theorem parse_compile_of_canonical
    {width : Nat}
    (hWidth : 0 < width)
    {blocks : List Block}
    (hCanonical : AreCanonical blocks)
    (n : Nat) :
    ∃ source,
      compile width blocks = .ok source ∧
        (parse n source).map withoutIds =
          blocks.map normalized := by
  have hEach := Block.forall_mem_inOrderAll.mp hCanonical
  have hSound : Block.AreSound blocks := by
    intro c hMember
    have hOwn := (hCanonical c hMember).1
    cases c with
    | conditional id condition body elseKind elseBody =>
        exact hOwn.2
    | function => trivial
    | assignment => trivial
    | loop => trivial
    | ret => trivial
    | call => trivial
  have hLegible : ∀ c ∈ documentOrder blocks, IsLegible c := by
    intro c hMember
    apply isLegible_of_canonical
    intro d hd
    rcases Block.mem_inOrderAll.mp hMember with ⟨b, hb, hc⟩
    exact hEach b hb d (Block.mem_inOrder_trans hd hc)
  have hSeparate : AreSeparate blocks :=
    areSeparate_of_forall fun b hb =>
      hEach b hb b b.mem_inOrder_self
  refine
    ⟨programText width blocks, compile_of_areSound hSound width, ?_⟩
  rw [parse_programText hWidth hLegible hSeparate
    (fun c hMember => (hCanonical c hMember).2)]
  apply List.map_congr_left
  intro b hb
  exact reread_of_canonical (hEach b hb)

/- A function with a ladder of three rungs and a loop. -/
def sampleProgram : List Block :=
  [ .function "a" "größe" ["x", "*rest"]
      [ .conditional "b" "x > 0" [.ret "c" " x "] .elif
          [ .conditional "d" "x[1:] == y" [] .elif
              [ .conditional "e" "rest" [] .otherwise
                  [ .assignment "f" "t.u[0]"
                      (.array [.simple "", .simple "1"]) ] ] ],
        .loop "g" "i" "range(3)"
          [.call "h" "print" ["i", "end=''"]] ] ]

theorem parse_compile_of_canonical_ladder :
    0 < 2 ∧
      AreCanonical sampleProgram ∧
        ∃ source,
          compile 2 sampleProgram = .ok source ∧
            (parse 7 source).map withoutIds =
              sampleProgram.map normalized := by
  have hCanonical : AreCanonical sampleProgram := by
    decide +kernel
  exact
    ⟨by decide, hCanonical,
      parse_compile_of_canonical (by decide) hCanonical 7⟩

end Source

end BlockProgram
