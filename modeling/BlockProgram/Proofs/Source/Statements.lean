import BlockProgram.Proofs.Source.Headers

/-
  Statements that are read again as they were written.

  What stands before the first blank or parenthesis tells the
  form of a statement.  Only an assignment to a keyword is
  taken for what the keyword opens; a call never is, since a
  parenthesis follows its name at once.

  Main declarations:
    * `Source.IsVariable`
    * `Source.isCallee`
    * `Source.keywords`
    * `Source.startsWith_assignmentText_iff`
    * `Source.Statement.read_functionText`
    * `Source.Statement.read_assignmentText`
    * `Source.Statement.read_callText`
-/

namespace BlockProgram

namespace Source

open Text

------------------------------------------------------------
-- Names
------------------------------------------------------------

/- Texts that can stand left of an equals sign. -/
def IsVariable (name : String) : Prop :=
  isTarget name.toList = true ∧ '=' ∉ name.toList

instance (name : String) : Decidable (IsVariable name) := by
  unfold IsVariable
  infer_instance

/- Texts that can be called. -/
def isCallee (cs : List Char) : Bool :=
  match cs with
  | [] => false
  | c :: rest => isNameStart c && rest.all isNamePart

/- The words that open a statement when a blank follows. -/
def keywords : List String :=
  ["def", "if", "for", "return"]

theorem isNamePart_of_mem_keywords :
    ∀ k ∈ keywords, ∀ c ∈ k.toList, isNamePart c = true := by
  have hAll :
      keywords.all (fun k => k.toList.all isNamePart) = true := by
    decide
  intro k hk
  exact List.all_eq_true.mp (List.all_eq_true.mp hAll k hk)

theorem ne_nil_of_mem_keywords :
    ∀ k ∈ keywords, k.toList ≠ [] := by
  decide

theorem isNamePart_of_isSpace
    {c : Char}
    (hSpace : isSpace c = true) :
    isNamePart c = false := by
  cases hPart : isNamePart c with
  | false => rfl
  | true =>
      rw [isSpace_of_isNamePart hPart] at hSpace
      cases hSpace

theorem isEnclosed_iff
    {first last : Char}
    {cs : List Char} :
    isEnclosed first last cs = true ↔
      ∃ inner, cs = first :: (inner ++ [last]) := by
  unfold isEnclosed
  split
  · next c d ds =>
      rw [Bool.and_eq_true, beq_iff_eq, beq_iff_eq,
        List.getLast?_eq_some_iff]
      constructor
      · rintro ⟨rfl, inner, hInner⟩
        exact ⟨inner, by rw [hInner]⟩
      · rintro ⟨inner, hInner⟩
        rcases List.cons.inj hInner with ⟨rfl, hRest⟩
        exact ⟨rfl, inner, hRest⟩
  · next hShort =>
      simp only [Bool.false_eq_true, false_iff, not_exists]
      rintro inner rfl
      cases inner with
      | nil => exact hShort first last [] rfl
      | cons c inner =>
          exact hShort first c (inner ++ [last]) rfl

/- A target is a name, and brackets may follow it. -/
theorem exists_of_isTarget
    {cs : List Char}
    (hTarget : isTarget cs = true) :
    ∃ c run tail,
      cs = (c :: run) ++ tail ∧
        isNameStart c = true ∧
          (∀ d ∈ c :: run, isNamePart d = true) ∧
            (tail = [] ∨
              ∃ inner, tail = '[' :: (inner ++ [']'])) := by
  cases cs with
  | nil => cases hTarget
  | cons c rest =>
      simp only [isTarget, Bool.and_eq_true, Bool.or_eq_true,
        List.isEmpty_iff, isEnclosed_iff] at hTarget
      rcases hTarget with ⟨hStart, hTail⟩
      refine
        ⟨c, rest.takeWhile isNamePart,
          rest.dropWhile isNamePart, ?_, hStart, ?_, hTail⟩
      · rw [List.cons_append, List.takeWhile_append_dropWhile]
      · intro d hd
        rcases List.mem_cons.mp hd with rfl | hd
        · exact isNamePart_of_isNameStart hStart
        · exact List.all_eq_true.mp List.all_takeWhile d hd

theorem isTrimmed_of_isTarget
    {cs : List Char}
    (hTarget : isTarget cs = true) :
    IsTrimmed cs := by
  rcases exists_of_isTarget hTarget with
    ⟨c, run, tail, rfl, _, hRun, hTail⟩
  constructor
  · intro d hd
    rcases Option.some.inj hd with rfl
    exact isSpace_of_isNamePart (hRun c List.mem_cons_self)
  · intro d hd
    rcases hTail with rfl | ⟨inner, rfl⟩
    · rw [List.append_nil] at hd
      exact
        isSpace_of_isNamePart (hRun d (List.mem_of_getLast? hd))
    · rw [← List.cons_append, ← List.append_assoc,
        List.getLast?_concat] at hd
      rcases Option.some.inj hd with rfl
      decide

theorem isCallee_iff
    {cs : List Char} :
    isCallee cs = true ↔
      ∃ c rest,
        cs = c :: rest ∧
          isNameStart c = true ∧
            ∀ d ∈ cs, isNamePart d = true := by
  cases cs with
  | nil => simp [isCallee]
  | cons c rest =>
      simp only [isCallee, Bool.and_eq_true, List.all_eq_true,
        List.cons.injEq, List.mem_cons, forall_eq_or_imp]
      constructor
      · rintro ⟨hStart, hRest⟩
        exact
          ⟨c, rest, ⟨rfl, rfl⟩, hStart,
            isNamePart_of_isNameStart hStart, hRest⟩
      · rintro ⟨d, ds, ⟨rfl, rfl⟩, hStart, _, hRest⟩
        exact ⟨hStart, hRest⟩

------------------------------------------------------------
-- Two Equals Signs
------------------------------------------------------------

theorem hasDoubleEquals_cons
    (c : Char)
    (cs : List Char) :
    hasDoubleEquals (c :: cs) =
      ((c == '=' && (cs.head? == some '=')) ||
        hasDoubleEquals cs) := by
  cases cs with
  | nil => simp [hasDoubleEquals]
  | cons d ds =>
      by_cases hBoth : c = '=' ∧ d = '='
      · rcases hBoth with ⟨rfl, rfl⟩
        simp [hasDoubleEquals]
      · conv => lhs; unfold hasDoubleEquals
        split
        · next hEq =>
            rcases List.cons.inj hEq with ⟨rfl, hRest⟩
            exact absurd ⟨rfl, (List.cons.inj hRest).1⟩ hBoth
        · next hEq =>
            rw [← (List.cons.inj hEq).2]
            have hNot :
                (c == '=' && (some d == some '=')) = false := by
              simpa using hBoth
            rw [List.head?_cons, hNot, Bool.false_or]
        · next hEq => cases hEq

/- Another character keeps equals signs apart. -/
theorem hasDoubleEquals_delimited
    {d : Char}
    (hNe : d ≠ '=')
    (cs ds : List Char) :
    hasDoubleEquals (cs ++ d :: ds) =
      (hasDoubleEquals cs || hasDoubleEquals ds) := by
  induction cs with
  | nil => simp [hasDoubleEquals_cons, hasDoubleEquals, hNe]
  | cons c cs ih =>
      rw [List.cons_append, hasDoubleEquals_cons, ih,
        hasDoubleEquals_cons, Bool.or_assoc]
      cases cs with
      | nil => simp [hNe]
      | cons e es => rfl

theorem hasDoubleEquals_of_isInfix
    {cs ds : List Char}
    (hInfix : cs <:+: ds)
    (hTwo : hasDoubleEquals cs = true) :
    hasDoubleEquals ds = true := by
  rcases hInfix with ⟨before, after, rfl⟩
  have hGrown : hasDoubleEquals (cs ++ after) = true := by
    induction cs with
    | nil => cases hTwo
    | cons c cs ih =>
        rw [hasDoubleEquals_cons, Bool.or_eq_true] at hTwo
        rw [List.cons_append, hasDoubleEquals_cons,
          Bool.or_eq_true]
        rcases hTwo with hTwo | hTwo
        · left
          cases cs with
          | nil => simp at hTwo
          | cons d ds => exact hTwo
        · exact Or.inr (ih hTwo)
  rw [List.append_assoc]
  induction before with
  | nil => exact hGrown
  | cons b before ih => simp [hasDoubleEquals_cons, ih]

theorem hasDoubleEquals_of_notMem
    {cs : List Char}
    (hNone : '=' ∉ cs) :
    hasDoubleEquals cs = false := by
  induction cs with
  | nil => rfl
  | cons c cs ih =>
      simp only [List.mem_cons, not_or] at hNone
      simp [hasDoubleEquals_cons, ih hNone.2, Ne.symm hNone.1]

------------------------------------------------------------
-- Keywords At The Front
------------------------------------------------------------

/-
  A text begins with a keyword and a blank only when the
  whole run of name characters at its front is the keyword.
-/
theorem startsWith_run_iff
    {front keyword : String}
    {run rest : List Char}
    (hFront : front = keyword ++ " ")
    (hKeyword : ∀ c ∈ keyword.toList, isNamePart c = true)
    (hRun : ∀ c ∈ run, isNamePart c = true)
    (hStop : ∀ c ∈ rest.head?, isNamePart c = false) :
    startsWith front (run ++ rest) = true ↔
      run = keyword.toList ∧ rest.head? = some ' ' := by
  have hBlank :
      ∀ after, ∀ c ∈ ([' '] ++ after).head?,
        isNamePart c = false := by
    intro after c hc
    rcases Option.some.inj hc with rfl
    decide
  have hChars : front.toList = keyword.toList ++ [' '] := by
    simp [hFront]
  rw [startsWith_iff, hChars]
  constructor
  · rintro ⟨after, hText⟩
    rw [List.append_assoc] at hText
    rcases append_stop_inj hRun hKeyword hStop (hBlank after)
        hText with
      ⟨hName, hAfter⟩
    exact ⟨hName, by rw [hAfter]; rfl⟩
  · rintro ⟨rfl, hHead⟩
    cases rest with
    | nil => cases hHead
    | cons c rest =>
        rcases Option.some.inj hHead with rfl
        exact ⟨rest, by simp⟩

theorem startsWith_assignmentText_iff
    {front keyword name : String}
    {value : Value}
    (hFront : front = keyword ++ " ")
    (hKeyword : ∀ c ∈ keyword.toList, isNamePart c = true)
    (hName : IsVariable name) :
    startsWith front (assignmentText name value).toList = true ↔
      name = keyword := by
  rcases exists_of_isTarget hName.1 with
    ⟨c, run, tail, hCut, _, hRun, hTail⟩
  have hText :
      (assignmentText name value).toList =
        (c :: run) ++
          (tail ++ ' ' :: '=' :: ' ' :: value.source.toList) := by
    simp [assignmentText, hCut]
  have hStop :
      ∀ d ∈
          (tail ++
            ' ' :: '=' :: ' ' :: value.source.toList).head?,
        isNamePart d = false := by
    intro d hd
    rcases hTail with rfl | ⟨inner, rfl⟩
    · rcases Option.some.inj hd with rfl
      decide
    · rcases Option.some.inj hd with rfl
      decide
  rw [hText, startsWith_run_iff hFront hKeyword hRun hStop]
  constructor
  · rintro ⟨hWhole, hHead⟩
    rcases hTail with rfl | ⟨inner, rfl⟩
    · rw [List.append_nil, hWhole] at hCut
      exact String.toList_inj.mp hCut
    · simp at hHead
  · rintro rfl
    rcases hTail with rfl | ⟨inner, rfl⟩
    · exact ⟨by simpa using hCut.symm, rfl⟩
    · have hBracket := hKeyword '[' (by simp [hCut])
      have hNot : isNamePart '[' = false := by
        decide
      rw [hNot] at hBracket
      cases hBracket

/- The parenthesis keeps a callee from being a keyword. -/
theorem startsWith_callText
    {front keyword callee : String}
    {arguments : List String}
    (hFront : front = keyword ++ " ")
    (hKeyword : ∀ c ∈ keyword.toList, isNamePart c = true)
    (hCallee : isCallee callee.toList = true) :
    startsWith front (callText callee arguments).toList =
      false := by
  rcases isCallee_iff.mp hCallee with ⟨_, _, _, _, hParts⟩
  have hText :
      (callText callee arguments).toList =
        callee.toList ++
          '(' ::
            ((", ".intercalate arguments).toList ++ [')']) := by
    simp [callText]
  have hStop :
      ∀ d ∈
          ('(' ::
            ((", ".intercalate arguments).toList ++ [')'])).head?,
        isNamePart d = false := by
    intro d hd
    rcases Option.some.inj hd with rfl
    decide
  rw [Bool.eq_false_iff, hText]
  intro hStart
  rcases (startsWith_run_iff hFront hKeyword hParts hStop).mp
      hStart with
    ⟨_, hHead⟩
  simp at hHead

------------------------------------------------------------
-- Reading Assignments And Calls Again
------------------------------------------------------------

theorem assignment?_assignmentText
    {name : String}
    {value : Value}
    (hName : IsVariable name)
    (hValue : hasDoubleEquals value.source.toList = false) :
    assignment? (assignmentText name value).toList =
      some (name, trimmed value.source) := by
  rcases hName with ⟨hTarget, hNone⟩
  have hText :
      (assignmentText name value).toList =
        (name.toList ++ [' ']) ++
          '=' :: ' ' :: value.source.toList := by
    simp [assignmentText]
  rw [hText]
  generalize hSource : value.source.toList = source at *
  have hOnce :
      hasDoubleEquals
          ((name.toList ++ [' ']) ++ '=' :: ' ' :: source) =
        false := by
    rw [List.append_assoc, List.singleton_append,
      hasDoubleEquals_delimited (by decide),
      hasDoubleEquals_of_notMem hNone]
    simp [hasDoubleEquals_cons, hValue]
  have hRun : ∀ c ∈ name.toList ++ [' '], (c != '=') = true := by
    intro c hc
    rw [bne_iff_ne]
    rintro rfl
    simp [hNone] at hc
  have hStop :
      ∀ c ∈ ('=' :: ' ' :: source).head?, (c != '=') = false := by
    simp
  have hTarget' : trim (name.toList ++ [' ']) = name.toList :=
    trim_between (List.forall_mem_nil _) isSpace_of_mem_blank
      (isTrimmed_of_isTarget hTarget)
  have hValue' : trim ([' '] ++ source ++ []) = trim source :=
    trim_append isSpace_of_mem_blank (List.forall_mem_nil _)
  rw [assignment?, hOnce, takeWhile_append_stop hRun hStop,
    dropWhile_append_stop hRun hStop, hTarget']
  rw [List.append_nil, List.singleton_append] at hValue'
  simp [hTarget, hValue', trimmed, hSource]

/-
  A target that begins with a word goes on behind it with an
  index, or with nothing but the blanks that are trimmed.
-/
theorem exists_of_isTarget_trim
    {word rest : List Char}
    {stop : Char}
    (hWord : ∀ c ∈ word, isNamePart c = true)
    (hNonempty : word ≠ [])
    (hStop : isNamePart stop = false)
    (hTarget : isTarget (trim (word ++ stop :: rest)) = true) :
    ∃ tail after,
      trim (word ++ stop :: rest) = word ++ tail ∧
        stop :: rest = tail ++ after ∧
          (tail = [] ∨ ∃ inner, tail = '[' :: inner) ∧
            ∀ c ∈ after, isSpace c = true := by
  rcases List.exists_cons_of_ne_nil hNonempty with ⟨c, cs, rfl⟩
  rcases exists_append_trim ((c :: cs) ++ stop :: rest) with
    ⟨before, after, hBefore, hAfter, hText⟩
  rcases exists_of_isTarget hTarget with
    ⟨d, run, tail, hCut, _, hRun, hTail⟩
  rw [hCut] at hText
  cases before with
  | cons b before =>
      have hSpace := hBefore b List.mem_cons_self
      rw [List.cons_append, List.cons_append,
        List.cons_append] at hText
      rw [← (List.cons.inj hText).1,
        isSpace_of_isNamePart (hWord c List.mem_cons_self)]
        at hSpace
      cases hSpace
  | nil =>
      rw [List.nil_append, List.append_assoc] at hText
      have hFirst :
          ∀ e ∈ (stop :: rest).head?, isNamePart e = false := by
        intro e he
        rcases Option.some.inj he with rfl
        exact hStop
      have hBehind :
          ∀ e ∈ (tail ++ after).head?, isNamePart e = false := by
        intro e he
        rcases hTail with rfl | ⟨inner, rfl⟩
        · exact
            isNamePart_of_isSpace
              (hAfter e (List.mem_of_head? he))
        · rcases Option.some.inj he with rfl
          decide
      rcases append_stop_inj hWord hRun hFirst hBehind hText with
        ⟨hSame, hRest⟩
      refine ⟨tail, after, by rw [hCut, ← hSame], hRest, ?_, hAfter⟩
      rcases hTail with hNone | ⟨inner, hIndex⟩
      · exact Or.inl hNone
      · exact Or.inr ⟨_, hIndex⟩

/- What begins like a call is no target. -/
theorem isTarget_trim_callee
    {callee rest : List Char}
    (hCallee : isCallee callee = true) :
    isTarget (trim (callee ++ '(' :: rest)) = false := by
  rcases isCallee_iff.mp hCallee with ⟨c, cs, rfl, _, hParts⟩
  rw [Bool.eq_false_iff]
  intro hTarget
  rcases exists_of_isTarget_trim hParts (List.cons_ne_nil c cs)
      (by decide) hTarget with
    ⟨tail, after, _, hRest, hTail, hAfter⟩
  rcases hTail with rfl | ⟨inner, rfl⟩
  · rw [List.nil_append] at hRest
    have hSpace := hAfter '(' (by simp [← hRest])
    revert hSpace
    decide
  · simp at hRest

theorem assignment?_callText
    {callee : String}
    {arguments : List String}
    (hCallee : isCallee callee.toList = true) :
    assignment? (callText callee arguments).toList = none := by
  rcases isCallee_iff.mp hCallee with ⟨_, _, _, _, hParts⟩
  have hText :
      (callText callee arguments).toList =
        (callee.toList ++ ['(']) ++
          ((", ".intercalate arguments).toList ++ [')']) := by
    simp [callText]
  have hRun :
      ∀ c ∈ callee.toList ++ ['('], (c != '=') = true := by
    intro c hc
    rw [bne_iff_ne]
    rintro rfl
    rcases List.mem_append.mp hc with hc | hc
    · have hPart := hParts '=' hc
      revert hPart
      decide
    · simp at hc
  rw [hText, assignment?]
  split
  · rfl
  · split
    · rfl
    · rw [List.takeWhile_append_of_pos hRun, List.append_assoc,
        List.singleton_append]
      exact if_neg (by simp [isTarget_trim_callee hCallee])

theorem call?_callText
    {callee : String}
    {arguments : List String}
    (hCallee : isCallee callee.toList = true)
    (hItems : AreItems arguments) :
    call? (callText callee arguments).toList =
      some (callee, arguments) := by
  rcases isCallee_iff.mp hCallee with
    ⟨c, cs, hCons, hStart, hParts⟩
  have hList := commaList_intercalate hItems
  have hText :
      (callText callee arguments).toList =
        c ::
          (cs ++
            '(' ::
              ((", ".intercalate arguments).toList ++
                [')'])) := by
    simp [callText, hCons]
  rw [hText]
  generalize (", ".intercalate arguments).toList = list at *
  have hRun : ∀ d ∈ cs, isNamePart d = true := by
    intro d hd
    exact hParts d (by simp [hCons, hd])
  have hStop :
      ∀ d ∈ ('(' :: (list ++ [')'])).head?,
        isNamePart d = false := by
    intro d hd
    rcases Option.some.inj hd with rfl
    decide
  have hEnclosed :
      isEnclosed '(' ')' ('(' :: (list ++ [')'])) = true :=
    isEnclosed_iff.mpr ⟨list, rfl⟩
  simp [call?, takeWhile_append_stop hRun hStop,
    dropWhile_append_stop hRun hStop, hStart, hEnclosed, hList,
    ← hCons]

------------------------------------------------------------
-- Returned Values
------------------------------------------------------------

theorem ofList_ne_empty
    {cs : List Char}
    (hNonempty : cs ≠ []) :
    String.ofList cs ≠ "" := by
  intro hEmpty
  apply hNonempty
  simpa using congrArg String.toList hEmpty

/- A return always names a value. -/
theorem isExpression_returned (cs : List Char) :
    IsExpression (returned cs) := by
  unfold returned
  split
  · decide
  · next hSome =>
      constructor
      · exact ofList_ne_empty (by simpa using hSome)
      · rw [String.toList_ofList]
        exact isTrimmed_trim cs

theorem retText_eq (value : String) :
    retText value = "return " ++ returned value.toList := by
  simp only [retText, trimmed, returned]
  by_cases hBlank : trim value.toList = []
  · simp [hBlank]
  · simp [hBlank]

/- A value is returned as it stands after the blank. -/
theorem returned_space_cons
    {text : String}
    (hText : IsExpression text) :
    returned (' ' :: text.toList) = text := by
  rcases hText with ⟨hNonempty, hTrimmed⟩
  have hBlank : trim ([' '] ++ text.toList ++ []) = text.toList :=
    trim_between isSpace_of_mem_blank (List.forall_mem_nil _)
      hTrimmed
  rw [List.append_nil, List.singleton_append] at hBlank
  have hChars : text.toList ≠ [] :=
    mt String.toList_eq_nil_iff.mp hNonempty
  simp [returned, hBlank, hChars]

------------------------------------------------------------
-- Reading Lines Again
------------------------------------------------------------

namespace Statement

theorem read_functionText
    {name : String}
    {parameters : List String}
    (hName : IsWordName name)
    (hItems : AreItems parameters)
    (hOpen : ∀ x ∈ parameters, closesHeader x.toList = false) :
    read (functionText name parameters) =
      .function (some (name, parameters)) := by
  have hHeader := functionHeader?_functionText hName hItems hOpen
  have hDef :
      startsWith "def " (functionText name parameters).toList =
        true := by
    simp [startsWith, after?, functionText]
  simp [read, hDef, hHeader]

theorem read_conditionalText
    {condition : String}
    (hCondition : IsExpression condition) :
    read (conditionalText false condition) =
      .conditional (some condition) := by
  have hHeader := condition?_conditionalText false hCondition
  have hDef :
      startsWith "def " (conditionalText false condition).toList =
        false := by
    simp [startsWith, after?, conditionalText]
  have hIf :
      startsWith "if " (conditionalText false condition).toList =
        true := by
    simp [startsWith, after?, conditionalText]
  simp [read, hDef, hIf, hHeader]

theorem read_loopText
    {iterator iterable : String}
    (hIterator : IsWordName iterator)
    (hIterable : IsExpression iterable) :
    read (loopText iterator iterable) =
      .loop (some (iterator, iterable)) := by
  have hHeader := loopHeader?_loopText hIterator hIterable
  have hDef :
      startsWith "def " (loopText iterator iterable).toList =
        false := by
    simp [startsWith, after?, loopText]
  have hIf :
      startsWith "if " (loopText iterator iterable).toList =
        false := by
    simp [startsWith, after?, loopText]
  have hFor :
      startsWith "for " (loopText iterator iterable).toList =
        true := by
    simp [startsWith, after?, loopText]
  simp [read, hDef, hIf, hFor, hHeader]

theorem read_return
    {text : String}
    (hText : IsExpression text) :
    read ("return " ++ text) = .ret text := by
  have hReturned := returned_space_cons hText
  simp [read, startsWith, after?, hReturned]

theorem read_retText (value : String) :
    read (retText value) = .ret (returned value.toList) := by
  rw [retText_eq]
  exact read_return (isExpression_returned value.toList)

/- Without a keyword a line assigns, calls or says nothing. -/
theorem read_of_no_keyword
    {text : String}
    (hKeywords :
      ∀ k ∈ keywords, startsWith (k ++ " ") text.toList = false)
    (hReturn : text ≠ "return") :
    read text =
      match assignment? text.toList, call? text.toList with
      | some (target, value), _ => .assignment target value
      | none, some (callee, arguments) => .call callee arguments
      | none, none => .unrecognized := by
  have hDef : startsWith "def " text.toList = false :=
    hKeywords "def" (by decide)
  have hIf : startsWith "if " text.toList = false :=
    hKeywords "if" (by decide)
  have hFor : startsWith "for " text.toList = false :=
    hKeywords "for" (by decide)
  have hReturnBlank : startsWith "return " text.toList = false :=
    hKeywords "return" (by decide)
  simp only [read, hDef, hIf, hFor, hReturnBlank, hReturn]
  rfl

theorem read_assignmentText
    {name : String}
    {value : Value}
    (hName : IsVariable name)
    (hPlain : name ∉ keywords)
    (hValue : hasDoubleEquals value.source.toList = false) :
    read (assignmentText name value) =
      .assignment name (trimmed value.source) := by
  rw [read_of_no_keyword]
  · rw [assignment?_assignmentText hName hValue]
  · intro k hk
    rw [Bool.eq_false_iff]
    intro hStart
    rw [startsWith_assignmentText_iff rfl
      (isNamePart_of_mem_keywords k hk) hName] at hStart
    exact hPlain (hStart ▸ hk)
  · intro hReturn
    have hChars := congrArg (fun s => '=' ∈ s.toList) hReturn
    simp [assignmentText] at hChars

theorem read_callText
    {callee : String}
    {arguments : List String}
    (hCallee : isCallee callee.toList = true)
    (hItems : AreItems arguments) :
    read (callText callee arguments) =
      .call callee arguments := by
  rw [read_of_no_keyword]
  · rw [assignment?_callText hCallee,
      call?_callText hCallee hItems]
  · intro k hk
    exact
      startsWith_callText rfl
        (isNamePart_of_mem_keywords k hk) hCallee
  · intro hReturn
    have hChars := congrArg (fun s => '(' ∈ s.toList) hReturn
    simp [callText] at hChars

theorem read_placeholderText :
    read placeholderText = .unrecognized := by
  decide

end Statement

end Source

end BlockProgram
