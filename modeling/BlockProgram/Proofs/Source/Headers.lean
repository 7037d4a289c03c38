import BlockProgram.Proofs.Source.Items
import BlockProgram.Proofs.Text.Names
import BlockProgram.Proofs.Text.Runs
import BlockProgram.Source.Layout
import Mathlib.Data.Option.Basic

/-
  Headers that are read again as they were written.

  The parameters of a function end at the first closing
  parenthesis that a colon follows, and a condition ends at
  the last colon.  So parameters must not close the header
  themselves, while a condition may hold any number of
  colons.

  Main declarations:
    * `Source.IsWordName`
    * `Source.IsExpression`
    * `Source.closesHeader`
    * `Source.functionHeader?_functionText`
    * `Source.condition?_conditionalText`
    * `Source.loopHeader?_loopText`
-/

namespace BlockProgram

namespace Source

open Text

------------------------------------------------------------
-- Parts Of A Header
------------------------------------------------------------

/- Texts that can name a function or a loop variable. -/
def IsWordName (name : String) : Prop :=
  name ≠ "" ∧ ∀ c ∈ name.toList, isWord c = true

instance (name : String) : Decidable (IsWordName name) :=
  @instDecidableAnd _ _ inferInstance (List.decidableBAll _ _)

/- Texts that can be a condition or an iterable. -/
def IsExpression (text : String) : Prop :=
  text ≠ "" ∧ IsTrimmed text.toList

instance (text : String) : Decidable (IsExpression text) := by
  unfold IsExpression
  infer_instance

/-
  A closing parenthesis stands in the text, and only white
  space separates it from a colon.
-/
def closesHeader : List Char → Bool
  | [] => false
  | c :: cs =>
      (c == ')' && ((trimStart cs).head? == some ':')) ||
        closesHeader cs

theorem IsWordName.toList_ne_nil
    {name : String}
    (hName : IsWordName name) :
    name.toList ≠ [] :=
  mt String.toList_eq_nil_iff.mp hName.1

/- A text that begins with a name begins with no space. -/
theorem IsWordName.first
    {name : String}
    (hName : IsWordName name)
    (rest : List Char) :
    ∀ c ∈ (name.toList ++ rest).head?, isSpace c = false := by
  rcases List.exists_cons_of_ne_nil hName.toList_ne_nil with
    ⟨d, ds, hCons⟩
  intro c hc
  rw [hCons] at hc
  rcases Option.some.inj hc with rfl
  exact isSpace_of_isWord (hName.2 d (by simp [hCons]))

------------------------------------------------------------
-- Blanks Before A Text
------------------------------------------------------------

theorem trimStart_cons_eq_self
    {c : Char}
    {cs : List Char}
    (hFirst : isSpace c = false) :
    trimStart (c :: cs) = c :: cs :=
  trimStart_eq_self (by simpa using hFirst)

/- One blank before a text is its indent. -/
theorem indentOf_space_cons
    {cs : List Char}
    (hFirst : ∀ c ∈ cs.head?, isSpace c = false) :
    indentOf (' ' :: cs) = 1 ∧ trimStart (' ' :: cs) = cs := by
  constructor
  · exact indentOf_append isSpace_of_mem_blank hFirst
  · exact
      (trimStart_append isSpace_of_mem_blank).trans
        (trimStart_eq_self hFirst)

theorem head?_trimStart_append (cs ds : List Char) :
    (trimStart (cs ++ ds)).head? =
      (trimStart cs).head?.or (trimStart ds).head? := by
  unfold trimStart
  rw [List.dropWhile_append]
  cases cs.dropWhile isSpace with
  | nil => simp
  | cons c cs => simp

------------------------------------------------------------
-- Where The Parameters End
------------------------------------------------------------

section Delimiter

variable {d : Char}
variable (hSpace : isSpace d = false)
variable (hColon : d ≠ ':')

include hSpace hColon

/- A character between two texts keeps colons away. -/
theorem head?_trimStart_delimited (cs ds : List Char) :
    ((trimStart (cs ++ d :: ds)).head? == some ':') =
      ((trimStart cs).head? == some ':') := by
  rw [head?_trimStart_append, trimStart_cons_eq_self hSpace]
  cases (trimStart cs).head? with
  | none => simp [hColon]
  | some c => rfl

theorem closesHeader_delimited (cs ds : List Char) :
    closesHeader (cs ++ d :: ds) =
      (closesHeader cs || closesHeader (d :: ds)) := by
  induction cs with
  | nil => simp [closesHeader]
  | cons c cs ih =>
      simp only [List.cons_append, closesHeader, ih,
        head?_trimStart_delimited hSpace hColon, Bool.or_assoc]

end Delimiter

/- A list closes the header only when one of its items does. -/
theorem closesHeader_intercalate
    {items : List String}
    (hItems : ∀ x ∈ items, closesHeader x.toList = false) :
    closesHeader (", ".intercalate items).toList = false := by
  induction items with
  | nil => rfl
  | cons x items ih =>
      have hFirst := hItems x List.mem_cons_self
      cases items with
      | nil => simpa using hFirst
      | cons y items =>
          have hOthers :=
            ih fun z hz => hItems z (List.mem_cons_of_mem x hz)
          have hText :
              (", ".intercalate (x :: y :: items)).toList =
                x.toList ++
                  ',' :: ' ' ::
                    (", ".intercalate (y :: items)).toList := by
            simp
          rw [hText,
            closesHeader_delimited (by decide) (by decide), hFirst]
          simpa [closesHeader] using hOthers

/- What closes a header does so inside a longer text. -/
theorem closesHeader_of_isInfix
    {cs ds : List Char}
    (hInfix : cs <:+: ds)
    (hCloses : closesHeader cs = true) :
    closesHeader ds = true := by
  rcases hInfix with ⟨before, after, rfl⟩
  have hGrown : closesHeader (cs ++ after) = true := by
    induction cs with
    | nil => cases hCloses
    | cons c cs ih =>
        simp only [closesHeader, Bool.or_eq_true,
          Bool.and_eq_true, beq_iff_eq] at hCloses
        simp only [List.cons_append, closesHeader,
          Bool.or_eq_true, Bool.and_eq_true, beq_iff_eq]
        rcases hCloses with ⟨hClose, hNext⟩ | hCloses
        · left
          refine ⟨hClose, ?_⟩
          rw [head?_trimStart_append, hNext]
          rfl
        · exact Or.inr (ih hCloses)
  rw [List.append_assoc]
  induction before with
  | nil => exact hGrown
  | cons b before ih => simp [closesHeader, ih]

/- Parameters that do not close the header are read whole. -/
theorem parameterText?_append
    {cs : List Char}
    (hOpen : closesHeader cs = false)
    (rest : List Char) :
    parameterText? (cs ++ ')' :: ':' :: rest) = some cs := by
  induction cs with
  | nil =>
      have hColon : trimStart (':' :: rest) = ':' :: rest :=
        trimStart_cons_eq_self (by decide)
      simp [parameterText?, hColon]
  | cons c cs ih =>
      simp only [closesHeader, Bool.or_eq_false_iff] at hOpen
      have hHead :=
        head?_trimStart_delimited
          (d := ')') (by decide) (by decide) cs (':' :: rest)
      rw [List.cons_append, parameterText?, ih hOpen.2, if_neg]
      · rfl
      · rintro ⟨rfl, hNext⟩
        simp [← hHead, hNext] at hOpen

/- What was read as parameters does not close the header. -/
theorem closesHeader_of_parameterText?
    {cs parameters : List Char}
    (hRead : parameterText? cs = some parameters) :
    closesHeader parameters = false ∧ parameters <+: cs := by
  induction cs generalizing parameters with
  | nil => cases hRead
  | cons c cs ih =>
      rw [parameterText?] at hRead
      split at hRead
      · rcases Option.some.inj hRead with rfl
        exact ⟨rfl, List.nil_prefix⟩
      · next hNot =>
          rcases Option.map_eq_some_iff.mp hRead with
            ⟨others, hOthers, rfl⟩
          rcases ih hOthers with ⟨hOpen, hPrefix⟩
          refine ⟨?_, List.cons_prefix_cons.mpr ⟨rfl, hPrefix⟩⟩
          rw [closesHeader, hOpen, Bool.or_false]
          rcases hPrefix with ⟨after, rfl⟩
          rw [head?_trimStart_append] at hNot
          cases hHead : (trimStart others).head? with
          | none => simp
          | some d => simpa [hHead] using hNot

------------------------------------------------------------
-- Reading Headers Again
------------------------------------------------------------

theorem functionHeader?_functionText
    {name : String}
    {parameters : List String}
    (hName : IsWordName name)
    (hItems : AreItems parameters)
    (hOpen : ∀ x ∈ parameters, closesHeader x.toList = false) :
    functionHeader? (functionText name parameters).toList =
      some (name, parameters) := by
  have hList := commaList_intercalate hItems
  have hParameters :=
    parameterText?_append (closesHeader_intercalate hOpen) []
  have hText :
      (functionText name parameters).toList =
        'd' :: 'e' :: 'f' :: ' ' ::
          (name.toList ++
            '(' ::
              ((", ".intercalate parameters).toList ++
                [')', ':'])) := by
    simp [functionText]
  rw [hText]
  generalize (", ".intercalate parameters).toList = list at *
  have hKeyword (cs : List Char) :
      trimStart ('d' :: cs) = 'd' :: cs :=
    trimStart_cons_eq_self (by decide)
  have hParenthesis :
      trimStart ('(' :: (list ++ [')', ':'])) =
        '(' :: (list ++ [')', ':']) :=
    trimStart_cons_eq_self (by decide)
  have hStop :
      ∀ c ∈ ('(' :: (list ++ [')', ':'])).head?,
        isWord c = false := by
    simp only [List.head?_cons, Option.mem_def,
      Option.some.injEq, forall_eq']
    decide
  have hTake := takeWhile_append_stop hName.2 hStop
  have hDrop := dropWhile_append_stop hName.2 hStop
  rcases indentOf_space_cons
      (hName.first ('(' :: (list ++ [')', ':']))) with
    ⟨hIndent, hRest⟩
  have hNamed : (!name.toList.isEmpty) = true := by
    simp [hName.toList_ne_nil]
  simp only [functionHeader?, Option.bind_eq_bind,
    Option.bind_eq_some_iff, Option.guard_eq_some',
    Option.pure_def, hKeyword]
  refine ⟨_, rfl, (), ?_, (), ?_, _, ?_, list, hParameters, ?_⟩
  · rw [hIndent]
    exact Nat.one_pos
  · rw [hRest, hTake]
    exact hNamed
  · rw [hRest, hDrop, hParenthesis]
    rfl
  · rw [hRest, hTake, hList, String.ofList_toList]

/- The last colon is found again behind what it followed. -/
theorem beforeLastColon?_append (cs : List Char) :
    beforeLastColon? (cs ++ [':']) = some cs := by
  simp [beforeLastColon?]

theorem headerExpression?_colon
    {text : String}
    (hText : IsExpression text) :
    headerExpression? (' ' :: (text.toList ++ [':'])) =
      some text := by
  rcases hText with ⟨hNonempty, hTrimmed⟩
  rcases List.exists_cons_of_ne_nil
      (mt String.toList_eq_nil_iff.mp hNonempty) with
    ⟨c, cs, hCons⟩
  have hFirst :
      ∀ d ∈ (text.toList ++ [':']).head?, isSpace d = false := by
    rw [hCons] at hTrimmed ⊢
    exact hTrimmed.1
  rcases indentOf_space_cons hFirst with ⟨hIndent, hRest⟩
  rw [headerExpression?, hIndent, hRest,
    beforeLastColon?_append, hCons]
  simp [← hCons, trim_eq_self hTrimmed]

theorem condition?_conditionalText
    {condition : String}
    (chained : Bool)
    (hCondition : IsExpression condition) :
    condition? (conditionalText chained condition).toList =
      some condition := by
  have hRead := headerExpression?_colon hCondition
  cases chained <;>
    simp [condition?, conditionalText, after?, hRead]

theorem loopHeader?_loopText
    {iterator iterable : String}
    (hIterator : IsWordName iterator)
    (hIterable : IsExpression iterable) :
    loopHeader? (loopText iterator iterable).toList =
      some (iterator, iterable) := by
  have hRead := headerExpression?_colon hIterable
  have hText :
      (loopText iterator iterable).toList =
        'f' :: 'o' :: 'r' :: ' ' ::
          (iterator.toList ++
            ' ' :: 'i' :: 'n' :: ' ' ::
              (iterable.toList ++ [':'])) := by
    simp [loopText]
  rw [hText]
  generalize ' ' :: (iterable.toList ++ [':']) = tail at *
  have hStop :
      ∀ c ∈ (' ' :: 'i' :: 'n' :: tail).head?,
        isWord c = false := by
    simp only [List.head?_cons, Option.mem_def,
      Option.some.injEq, forall_eq']
    decide
  have hIn :
      ∀ c ∈ ('i' :: 'n' :: tail).head?, isSpace c = false := by
    simp only [List.head?_cons, Option.mem_def,
      Option.some.injEq, forall_eq']
    decide
  have hTake := takeWhile_append_stop hIterator.2 hStop
  have hDrop := dropWhile_append_stop hIterator.2 hStop
  rcases indentOf_space_cons hIn with ⟨hInIndent, hInRest⟩
  rcases indentOf_space_cons
      (hIterator.first (' ' :: 'i' :: 'n' :: tail)) with
    ⟨hIndent, hRest⟩
  have hNamed : (!iterator.toList.isEmpty) = true := by
    simp [hIterator.toList_ne_nil]
  simp only [loopHeader?, Option.bind_eq_bind,
    Option.bind_eq_some_iff, Option.guard_eq_some',
    Option.pure_def]
  refine
    ⟨_, rfl, (), ?_, (), ?_, (), ?_, tail, ?_, iterable, hRead, ?_⟩
  · rw [hIndent]
    exact Nat.one_pos
  · rw [hRest, hTake]
    exact hNamed
  · rw [hRest, hDrop, hInIndent]
    exact Nat.one_pos
  · rw [hRest, hDrop, hInRest]
    rfl
  · rw [hRest, hTake, String.ofList_toList]

end Source

end BlockProgram
