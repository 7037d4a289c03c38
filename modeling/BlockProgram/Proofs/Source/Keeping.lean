import BlockProgram.Proofs.Source.Reformatting
import BlockProgram.Proofs.Text.Squash

/-
  What a statement keeps of the line it was read from.

  Its parts were cut from the line, and the row that is
  written for it puts them together again.  White space
  aside, that is the line, except that a header ends at the
  colon that its reader stopped at, and that a value is put
  where none was written.

  Main declarations:
    * `Source.SaysSame`
    * `Source.Keeps`
    * `Source.squash_commaList`
    * `Source.keeps_functionText`
    * `Source.keeps_conditionalText`
    * `Source.keeps_loopText`
    * `Source.saysSame_retText`
    * `Source.saysSame_assignmentText`
    * `Source.saysSame_callText`
    * `Source.Statement.keyword_of_read`
-/

namespace BlockProgram

namespace Source

open Text

------------------------------------------------------------
-- Lines That Are Kept
------------------------------------------------------------

/-
  What was written says the same as a line: white space
  aside, the two are equal, except that a bare `return` is
  written with the value for none, and an empty value as an
  empty literal.
-/
inductive SaysSame (line written : List Char) : Prop where
  | equal
      (hText : squash written = squash line)
  | bareReturn
      (hLine : trim line = "return".toList)
      (hText : squash written = "returnNone".toList)
  | emptyValue
      (target : List Char)
      (hFree : '=' ∉ target)
      (hLine : squash line = target ++ ['='])
      (hText : squash written = target ++ "=\"\"".toList)

/- The keywords of headers that end at their last colon. -/
def colonKeywords : List String :=
  ["if ", "elif ", "for "]

/-
  What was written keeps a line: it says the same, or the
  line is a header and the two are equal up to the colon that
  ends the header, white space aside.

    * The header of a function ends at the first colon that
      only white space separates from a closing parenthesis
      before it.
    * Any other header ends at its last colon.
-/
inductive Keeps (line written : List Char) : Prop where
  | whole
      (hSame : SaysSame line written)
  | definition
      (front gap dropped : List Char)
      (hKeyword : startsWith "def " line = true)
      (hLine : line = front ++ ')' :: (gap ++ ':' :: dropped))
      (hGap : ∀ c ∈ gap, isSpace c = true)
      (hFirst : closesHeader front = false)
      (hText : squash written = squash front ++ "):".toList)
  | header
      (front dropped : List Char)
      (hKeyword : ∃ k ∈ colonKeywords, startsWith k line = true)
      (hLine : line = front ++ ':' :: dropped)
      (hLast : ':' ∉ dropped)
      (hText : squash written = squash front ++ [':'])

/- White space in what was written does not matter. -/
theorem Keeps.congr
    {line written written' : List Char}
    (hKeeps : Keeps line written)
    (hText : squash written' = squash written) :
    Keeps line written' := by
  cases hKeeps with
  | whole hSame =>
      apply Keeps.whole
      cases hSame with
      | equal hEqual => exact .equal (hText.trans hEqual)
      | bareReturn hLine hNone =>
          exact .bareReturn hLine (hText.trans hNone)
      | emptyValue target hFree hLine hEmpty =>
          exact .emptyValue target hFree hLine (hText.trans hEmpty)
  | definition front gap dropped hKeyword hLine hGap hFirst hFront =>
      exact
        .definition front gap dropped hKeyword hLine hGap hFirst
          (hText.trans hFront)
  | header front dropped hKeyword hLine hLast hFront =>
      exact
        .header front dropped hKeyword hLine hLast
          (hText.trans hFront)

------------------------------------------------------------
-- Cuts Of A Line
------------------------------------------------------------

/- White space in front of a text, and what follows it. -/
theorem exists_gap (cs : List Char) :
    ∃ gap,
      (∀ c ∈ gap, isSpace c = true) ∧ cs = gap ++ trimStart cs :=
  ⟨cs.takeWhile isSpace, List.all_eq_true.mp List.all_takeWhile,
    List.takeWhile_append_dropWhile.symm⟩

/- A word with the blanks on its two sides. -/
theorem exists_word (cs : List Char) :
    ∃ first second,
      (∀ c ∈ first, isSpace c = true) ∧
        (∀ c ∈ second, isSpace c = true) ∧
          cs =
            first ++ (trimStart cs).takeWhile isWord ++ second ++
              trimStart ((trimStart cs).dropWhile isWord) := by
  rcases exists_gap cs with ⟨first, hFirst, hCs⟩
  rcases exists_gap ((trimStart cs).dropWhile isWord) with
    ⟨second, hSecond, hBehind⟩
  refine ⟨first, second, hFirst, hSecond, ?_⟩
  rw [List.append_assoc, ← hBehind, List.append_assoc,
    List.takeWhile_append_dropWhile]
  exact hCs

/- The items of a list say what the list says. -/
theorem squash_commaList (cs : List Char) :
    squash (", ".intercalate (commaList cs)).toList =
      squash cs := by
  unfold commaList
  split
  · next hBlank =>
      rw [← squash_trim cs, List.isEmpty_iff.mp hBlank]
      rfl
  · rw [squash_intercalate_trim, List.intercalate_splitOn,
      squash_trim]

/- Where the parameters of a header end. -/
theorem exists_of_parameterText?
    {cs list : List Char}
    (hRead : parameterText? cs = some list) :
    ∃ gap dropped,
      (∀ c ∈ gap, isSpace c = true) ∧
        cs = list ++ ')' :: (gap ++ ':' :: dropped) := by
  induction cs generalizing list with
  | nil => cases hRead
  | cons c cs ih =>
      rw [parameterText?] at hRead
      split at hRead
      · next hCloses =>
          rcases hCloses with ⟨rfl, hColon⟩
          rcases Option.some.inj hRead with rfl
          rcases exists_gap cs with ⟨gap, hGap, hCut⟩
          rcases List.head?_eq_some_iff.mp hColon with
            ⟨dropped, hRest⟩
          refine ⟨gap, dropped, hGap, ?_⟩
          rw [List.nil_append, ← hRest, ← hCut]
      · rcases Option.map_eq_some_iff.mp hRead with
          ⟨others, hOthers, rfl⟩
        rcases ih hOthers with ⟨gap, dropped, hGap, rfl⟩
        exact ⟨gap, dropped, hGap, rfl⟩

/- Where the expression of a header ends. -/
theorem exists_of_beforeLastColon?
    {cs front : List Char}
    (hFront : beforeLastColon? cs = some front) :
    ∃ dropped, cs = front ++ ':' :: dropped ∧ ':' ∉ dropped := by
  unfold beforeLastColon? at hFront
  split at hFront
  · cases hFront
  · next c rest hRest =>
      rcases Option.some.inj hFront with rfl
      have hColon := List.head?_dropWhile_not (· != ':') cs.reverse
      rw [hRest] at hColon
      rcases (by simpa using hColon : c = ':') with rfl
      have hCut :
          cs.reverse.takeWhile (· != ':') ++ ':' :: rest =
            cs.reverse := by
        rw [← hRest, List.takeWhile_append_dropWhile]
      have hAfter :
          ∀ d ∈ cs.reverse.takeWhile (· != ':'),
            (d != ':') = true :=
        List.all_eq_true.mp List.all_takeWhile
      generalize cs.reverse.takeWhile (· != ':') = run at *
      refine ⟨run.reverse, ?_, ?_⟩
      · rw [← List.reverse_inj, ← hCut]
        simp
      · rw [List.mem_reverse]
        exact notMem_of_run hAfter (by simp)

/- The expression of a header is all that stands in it. -/
theorem exists_of_headerExpression?
    {cs : List Char}
    {text : String}
    (hRead : headerExpression? cs = some text) :
    ∃ front dropped,
      cs = front ++ ':' :: dropped ∧
        ':' ∉ dropped ∧ squash front = squash text.toList := by
  have hCut :
      ∃ expression,
        beforeLastColon? (trimStart cs) = some expression ∧
          squash expression = squash text.toList := by
    unfold headerExpression? at hRead
    simp only at hRead
    split at hRead
    · cases hRead
    · next hFront =>
        split at hRead
        · rcases Option.some.inj hRead with rfl
          exact ⟨[], hFront, rfl⟩
        · cases hRead
    · next expression _ hFront =>
        split at hRead
        · rcases Option.some.inj hRead with rfl
          refine ⟨expression, hFront, ?_⟩
          rw [String.toList_ofList, squash_trim]
        · cases hRead
  rcases hCut with ⟨expression, hFront, hSame⟩
  rcases exists_of_beforeLastColon? hFront with
    ⟨dropped, hRest, hLast⟩
  rcases exists_gap cs with ⟨gap, hGap, hLine⟩
  refine ⟨gap ++ expression, dropped, ?_, hLast, ?_⟩
  · rw [List.append_assoc, ← hRest, ← hLine]
  · rw [squash_append, squash_eq_nil_iff.mpr hGap,
      List.nil_append, hSame]

------------------------------------------------------------
-- Headers
------------------------------------------------------------

theorem closesHeader_of_notMem
    {cs : List Char}
    (hFree : ')' ∉ cs) :
    closesHeader cs = false := by
  induction cs with
  | nil => rfl
  | cons c cs ih =>
      rw [List.mem_cons, not_or] at hFree
      simp [closesHeader, Ne.symm hFree.1, ih hFree.2]

/- The parts of a function's header, and where they stand. -/
theorem exists_of_functionHeader?
    {cs : List Char}
    {name : String}
    {parameters : List String}
    (hRead : functionHeader? cs = some (name, parameters)) :
    ∃ before list gap dropped,
      cs =
          before ++
            '(' :: (list ++ ')' :: (gap ++ ':' :: dropped)) ∧
        ')' ∉ before ∧
          squash before = "def".toList ++ squash name.toList ∧
            parameters = commaList list ∧
              closesHeader list = false ∧
                ∀ c ∈ gap, isSpace c = true := by
  simp only [functionHeader?, Option.bind_eq_bind,
    Option.bind_eq_some_iff, Option.guard_eq_some',
    Option.pure_def, after?_eq_some_iff] at hRead
  rcases hRead with
    ⟨rest, hDef, _, _, _, _, tail, hOpen, list, hList, hParts⟩
  rcases Prod.mk.inj (Option.some.inj hParts) with ⟨rfl, rfl⟩
  rcases exists_of_parameterText? hList with
    ⟨gap, dropped, hGap, rfl⟩
  rcases exists_gap cs with ⟨first, hFirst, hCs⟩
  rcases exists_word rest with
    ⟨second, third, hSecond, hThird, hRest⟩
  have hWord :
      ∀ c ∈ (trimStart rest).takeWhile isWord, isWord c = true :=
    List.all_eq_true.mp List.all_takeWhile
  rw [hOpen] at hRest
  generalize (trimStart rest).takeWhile isWord = word at *
  refine
    ⟨first ++ "def".toList ++ second ++ word ++ third, list, gap,
      dropped, ?_, ?_, ?_, rfl,
      (closesHeader_of_parameterText? hList).1, hGap⟩
  · rw [hCs, hDef, hRest]
    simp
  · have hClose : isSpace ')' = false := by
      decide
    simp [notMem_of_run hFirst hClose,
      notMem_of_run hSecond hClose, notMem_of_run hThird hClose,
      notMem_of_run hWord (by decide : isWord ')' = false)]
  · simp only [squash_append, squash_eq_nil_iff.mpr hFirst,
      squash_eq_nil_iff.mpr hSecond, squash_eq_nil_iff.mpr hThird,
      String.toList_ofList, List.append_nil, List.nil_append]
    rfl

theorem keeps_functionText
    {cs : List Char}
    {name : String}
    {parameters : List String}
    (hKeyword : startsWith "def " cs = true)
    (hRead : functionHeader? cs = some (name, parameters)) :
    Keeps cs (functionText name parameters).toList := by
  rcases exists_of_functionHeader? hRead with
    ⟨before, list, gap, dropped, rfl, hFree, hBefore, rfl, hOpen,
      hGap⟩
  refine
    .definition (before ++ '(' :: list) gap dropped hKeyword
      (by simp) hGap ?_ ?_
  · rw [closesHeader_delimited (by decide) (by decide),
      closesHeader_of_notMem hFree]
    simpa [closesHeader] using hOpen
  · have hDef : squash "def ".toList = "def".toList := rfl
    have hParenthesis : squash "(".toList = ['('] := rfl
    have hColon : squash "):".toList = "):".toList := rfl
    simp only [functionText, String.toList_append, squash_append,
      squash_commaList, hBefore, hDef, hParenthesis, hColon,
      squash_cons (by decide : isSpace '(' = false),
      List.append_assoc, List.cons_append, List.nil_append]

/- A header that has nothing but a keyword and its expression. -/
theorem keeps_headerExpression
    {keyword text : String}
    {tail : List Char}
    (hKeyword : keyword ∈ colonKeywords)
    (hRead : headerExpression? (' ' :: tail) = some text) :
    Keeps (keyword.toList ++ tail)
      (keyword ++ text ++ ":").toList := by
  rcases exists_of_headerExpression? hRead with
    ⟨front, dropped, hCut, hLast, hFront⟩
  cases front with
  | nil => cases hCut
  | cons blank front =>
      rcases List.cons.inj hCut with ⟨rfl, rfl⟩
      refine
        .header (keyword.toList ++ front) dropped
          ⟨keyword, hKeyword, startsWith_iff.mpr ⟨_, rfl⟩⟩
          (List.append_assoc _ _ _).symm hLast ?_
      have hBlank : squash (' ' :: front) = squash front := rfl
      have hColon : squash ":".toList = [':'] := rfl
      rw [String.toList_append, String.toList_append,
        squash_append, squash_append, squash_append, ← hFront,
        hBlank, hColon]

theorem keeps_conditionalText
    {cs : List Char}
    {condition : String}
    (chained : Bool)
    (hKeyword :
      startsWith (if chained then "elif " else "if ") cs = true)
    (hRead : condition? cs = some condition) :
    Keeps cs (conditionalText chained condition).toList := by
  rcases startsWith_iff.mp hKeyword with ⟨tail, rfl⟩
  cases chained with
  | false => exact keeps_headerExpression (by decide) hRead
  | true => exact keeps_headerExpression (by decide) hRead

/- The parts of a loop's header, and where they stand. -/
theorem exists_of_loopHeader?
    {cs : List Char}
    {iterator iterable : String}
    (hRead : loopHeader? cs = some (iterator, iterable)) :
    ∃ front dropped,
      cs = front ++ ':' :: dropped ∧
        ':' ∉ dropped ∧
          squash front =
            "for".toList ++ squash iterator.toList ++
              "in".toList ++ squash iterable.toList := by
  simp only [loopHeader?, Option.bind_eq_bind,
    Option.bind_eq_some_iff, Option.guard_eq_some',
    Option.pure_def, after?_eq_some_iff] at hRead
  rcases hRead with
    ⟨rest, hFor, _, _, _, _, _, _, tail, hIn, text, hText, hParts⟩
  rcases Prod.mk.inj (Option.some.inj hParts) with ⟨rfl, rfl⟩
  rcases exists_of_headerExpression? hText with
    ⟨front, dropped, rfl, hLast, hFront⟩
  rcases exists_word rest with
    ⟨first, second, hFirst, hSecond, hRest⟩
  rw [hIn] at hRest
  generalize (trimStart rest).takeWhile isWord = word at *
  refine
    ⟨"for".toList ++ first ++ word ++ second ++ "in".toList ++
        front,
      dropped, ?_, hLast, ?_⟩
  · rw [hFor, hRest]
    simp
  · simp only [squash_append, squash_eq_nil_iff.mpr hFirst,
      squash_eq_nil_iff.mpr hSecond, String.toList_ofList,
      List.append_nil, hFront]
    rfl

theorem keeps_loopText
    {cs : List Char}
    {iterator iterable : String}
    (hKeyword : startsWith "for " cs = true)
    (hRead : loopHeader? cs = some (iterator, iterable)) :
    Keeps cs (loopText iterator iterable).toList := by
  rcases exists_of_loopHeader? hRead with
    ⟨front, dropped, rfl, hLast, hFront⟩
  refine
    .header front dropped ⟨"for ", by decide, hKeyword⟩ rfl hLast
      ?_
  have hFor : squash "for ".toList = "for".toList := rfl
  have hIn : squash " in ".toList = "in".toList := rfl
  have hColon : squash ":".toList = [':'] := rfl
  simp only [loopText, String.toList_append, squash_append, hFront,
    hFor, hIn, hColon, List.append_assoc]

------------------------------------------------------------
-- Simple Statements
------------------------------------------------------------

theorem saysSame_retText (rest : List Char) :
    SaysSame ("return".toList ++ rest)
      (retText (returned rest)).toList := by
  have hReturn : squash "return ".toList = "return".toList := rfl
  rw [retText_eq,
    returned_of_isExpression (isExpression_returned rest),
    String.toList_append]
  by_cases hBlank : trim rest = []
  · apply SaysSame.bareReturn
    · have hSpaces : ∀ c ∈ rest, isSpace c = true := by
        rw [← squash_eq_nil_iff, ← squash_trim, hBlank]
        rfl
      exact
        trim_between (List.forall_mem_nil _) hSpaces (by decide)
    · have hNone : returned rest = noValue := by
        simp [returned, hBlank]
      rw [hNone]
      rfl
  · apply SaysSame.equal
    have hValue : squash (returned rest).toList = squash rest := by
      simp [returned, hBlank, squash_trim]
    rw [squash_append, hReturn, hValue, squash_append]
    rfl

theorem saysSame_assignmentText
    {cs : List Char}
    {target value : String}
    (hRead : assignment? cs = some (target, value)) :
    SaysSame cs (assignmentText target (.simple value)).toList := by
  rcases exists_of_assignment? hRead with
    ⟨c, rest, _, hRest, _, hTarget, hValue⟩
  have hEquals := List.head?_dropWhile_not (· != '=') cs
  rw [hRest] at hEquals
  rcases (by simpa using hEquals : c = '=') with rfl
  have hCut : cs.takeWhile (· != '=') ++ '=' :: rest = cs := by
    rw [← hRest, List.takeWhile_append_dropWhile]
  have hFree :
      ∀ d ∈ cs.takeWhile (· != '='), (d != '=') = true :=
    List.all_eq_true.mp List.all_takeWhile
  generalize cs.takeWhile (· != '=') = run at *
  have hLine : squash cs = squash run ++ '=' :: squash rest := by
    rw [← hCut, squash_append, squash_cons (by decide)]
  have hSign : squash " = ".toList = ['='] := rfl
  have hWritten :
      squash (assignmentText target (.simple value)).toList =
        squash run ++
          '=' :: squash (Value.source (.simple value)).toList := by
    simp only [assignmentText, String.toList_append,
      squash_append, hTarget, squash_trim, hSign,
      List.append_assoc, List.singleton_append]
  rw [← squash_trim rest, ← hValue] at hLine
  by_cases hEmpty : value = ""
  · subst hEmpty
    refine .emptyValue (squash run) ?_ hLine hWritten
    intro hMember
    exact
      notMem_of_run hFree (by simp) (List.mem_filter.mp hMember).1
  · rw [Value.source, if_neg hEmpty] at hWritten
    exact .equal (hWritten.trans hLine.symm)

theorem saysSame_callText
    {cs : List Char}
    {callee : String}
    {arguments : List String}
    (hRead : call? cs = some (callee, arguments)) :
    SaysSame cs (callText callee arguments).toList := by
  unfold call? at hRead
  split at hRead
  · cases hRead
  · next c rest =>
      simp only at hRead
      split at hRead
      · next hShape =>
          rcases Prod.mk.inj (Option.some.inj hRead) with
            ⟨rfl, rfl⟩
          rw [Bool.and_eq_true, isEnclosed_iff] at hShape
          rcases hShape with ⟨_, inner, hTail⟩
          have hLine :
              c :: rest =
                (c :: rest.takeWhile isNamePart) ++
                  '(' :: (inner ++ [')']) := by
            rw [← hTail, List.cons_append,
              List.takeWhile_append_dropWhile]
          have hInner :
              ((rest.dropWhile isNamePart).drop 1).dropLast =
                inner := by
            rw [hTail, List.drop_one, List.tail_cons,
              List.dropLast_concat]
          have hOpen : squash "(".toList = ['('] := rfl
          have hClose : squash ")".toList = squash [')'] := rfl
          apply SaysSame.equal
          rw [hInner, hLine]
          simp only [callText, String.toList_append,
            String.toList_ofList, squash_append, squash_commaList,
            hOpen, hClose,
            squash_cons (by decide : isSpace '(' = false),
            List.append_assoc, List.singleton_append]
      · cases hRead

------------------------------------------------------------
-- The Form Of A Line
------------------------------------------------------------

/- A keyword stands before what is read after it. -/
theorem Statement.keyword_of_read (text : String) :
    match Statement.read text with
    | .function _ => startsWith "def " text.toList = true
    | .conditional _ => startsWith "if " text.toList = true
    | .loop _ => startsWith "for " text.toList = true
    | .ret _ => ∃ rest, text.toList = "return".toList ++ rest
    | .assignment .. | .call .. | .unrecognized => True := by
  by_cases hDef : startsWith "def " text.toList = true
  · simp [Statement.read, hDef]
  · by_cases hIf : startsWith "if " text.toList = true
    · simp [Statement.read, hDef, hIf]
    · by_cases hFor : startsWith "for " text.toList = true
      · simp [Statement.read, hDef, hIf, hFor]
      · by_cases hReturn :
            text = "return" ∨ startsWith "return " text.toList = true
        · have hRest :
              ∃ rest, text.toList = "return".toList ++ rest := by
            rcases hReturn with rfl | hStart
            · exact ⟨[], rfl⟩
            · rcases startsWith_iff.mp hStart with ⟨rest, hRest⟩
              exact ⟨' ' :: rest, hRest⟩
          simpa [Statement.read, hDef, hIf, hFor, hReturn] using
            hRest
        · simp only [Statement.read, hDef, hIf, hFor, hReturn]
          cases assignment? text.toList with
          | some parts => trivial
          | none =>
              cases call? text.toList with
              | some parts => trivial
              | none => trivial

section Line

variable {text : String}

theorem keeps_of_read_function
    {parts : String × List String}
    (hRead : Statement.read text = .function (some parts)) :
    Keeps text.toList (functionText parts.1 parts.2).toList := by
  have hKeyword := Statement.keyword_of_read text
  rw [hRead] at hKeyword
  exact
    keeps_functionText hKeyword
      (Statement.eq_of_read_function hRead).symm

theorem keeps_of_read_conditional
    {condition : String}
    (hRead : Statement.read text = .conditional (some condition)) :
    Keeps text.toList
      (conditionalText false condition).toList := by
  have hKeyword := Statement.keyword_of_read text
  rw [hRead] at hKeyword
  exact
    keeps_conditionalText false hKeyword
      (Statement.eq_of_read_conditional hRead).symm

theorem keeps_of_read_loop
    {parts : String × String}
    (hRead : Statement.read text = .loop (some parts)) :
    Keeps text.toList (loopText parts.1 parts.2).toList := by
  have hKeyword := Statement.keyword_of_read text
  rw [hRead] at hKeyword
  exact
    keeps_loopText hKeyword (Statement.eq_of_read_loop hRead).symm

theorem saysSame_of_read_ret
    {value : String}
    (hRead : Statement.read text = .ret value) :
    SaysSame text.toList (retText value).toList := by
  have hKeyword := Statement.keyword_of_read text
  have hValue := Statement.eq_of_read_ret hRead
  rw [hRead] at hKeyword
  rcases hKeyword with ⟨rest, hText⟩
  have hRest : text.toList.drop 6 = rest := by
    rw [hText]
    rfl
  rw [hValue, hRest, hText]
  exact saysSame_retText rest

end Line

end Source

end BlockProgram
