import BlockProgram.Proofs.Source.Indentation
import BlockProgram.Proofs.Source.Patterns

/-
  Which lines are recognized as headers.

  A line is first told by its keyword and a blank behind it,
  and only then read as a header.  So a line that matches the
  pattern of a header makes that header's block exactly when
  a plain blank follows the keyword.  With any other white
  space there it is skipped, or assigns to the keyword.

  Main declarations:
    * `Source.IsOpened`
    * `Source.blockOf?`
    * `Source.parse_recognizes_headers`
    * `Source.parse_skips_tabbed_def`
-/

namespace BlockProgram

namespace Source

open Text

------------------------------------------------------------
-- Lines That A Word Opens
------------------------------------------------------------

/- The text is a word, one white space character and a rest. -/
structure IsOpened
    (keyword : String)
    (space : Char)
    (rest : List Char)
    (text : String) : Prop where
  isPart : ∀ c ∈ keyword.toList, isNamePart c = true
  ne_nil : keyword.toList ≠ []
  isSpace : isSpace space = true
  toList : text.toList = keyword.toList ++ space :: rest

/- Of a word and a rest, only the word alone is a target. -/
theorem trim_of_isTarget
    {word rest : List Char}
    {space : Char}
    (hPart : ∀ c ∈ word, isNamePart c = true)
    (hNonempty : word ≠ [])
    (hSpace : Text.isSpace space = true)
    (hTarget : isTarget (trim (word ++ space :: rest)) = true) :
    trim (word ++ space :: rest) = word ∧
      ∀ c ∈ rest, Text.isSpace c = true := by
  rcases exists_of_isTarget_trim hPart hNonempty
      (isNamePart_of_isSpace hSpace) hTarget with
    ⟨tail, after, hCut, hRest, hTail, hAfter⟩
  rcases hTail with rfl | ⟨inner, rfl⟩
  · rw [List.nil_append] at hRest
    rw [hCut, List.append_nil]
    refine ⟨rfl, ?_⟩
    intro c hc
    exact hAfter c (by simp [← hRest, hc])
  · rw [List.cons_append] at hRest
    rw [(List.cons.inj hRest).1] at hSpace
    exact absurd hSpace (by decide)

section Opened

variable {keyword text : String}
variable {space : Char}
variable {rest : List Char}
variable (hOpened : IsOpened keyword space rest text)

include hOpened

theorem IsOpened.stop :
    ∀ c ∈ (space :: rest).head?, isNamePart c = false := by
  intro c hc
  rcases Option.some.inj hc with rfl
  exact isNamePart_of_isSpace hOpened.isSpace

/- Only a plain blank behind the keyword counts. -/
theorem IsOpened.startsWith_iff
    {front other : String}
    (hFront : front = other ++ " ")
    (hOther : ∀ c ∈ other.toList, isNamePart c = true) :
    startsWith front text.toList = true ↔
      keyword = other ∧ space = ' ' := by
  rw [hOpened.toList,
    startsWith_run_iff hFront hOther hOpened.isPart hOpened.stop,
    String.toList_inj]
  simp

theorem IsOpened.startsWith_own_iff
    {front : String}
    (hFront : front = keyword ++ " ") :
    startsWith front text.toList = true ↔ space = ' ' := by
  rw [hOpened.startsWith_iff hFront hOpened.isPart]
  exact and_iff_right rfl

theorem IsOpened.ne_of_notMem
    {other : String}
    (hOther : other.toList.any Text.isSpace = false) :
    text ≠ other := by
  rintro rfl
  have hSpace :=
    List.any_eq_false.mp hOther space (by simp [hOpened.toList])
  exact hSpace hOpened.isSpace

theorem IsOpened.not_isElif
    (hElif : keyword ≠ "elif")
    {line : Line}
    (hText : line.text = text) :
    line.isElif = false := by
  subst hText
  rw [Line.isElif, Bool.eq_false_iff]
  intro hStart
  have hFront : "elif " = "elif" ++ " " := rfl
  have hWord : "elif".toList.all isNamePart = true := by decide
  rw [hOpened.startsWith_iff hFront
    (List.all_eq_true.mp hWord)] at hStart
  exact hElif hStart.1

/- White space after the name keeps the line from calling. -/
theorem IsOpened.call?_eq_none : call? text.toList = none := by
  rw [hOpened.toList]
  rcases List.exists_cons_of_ne_nil hOpened.ne_nil with
    ⟨k, ks, hCons⟩
  have hRun : ∀ c ∈ ks, isNamePart c = true :=
    fun c hc => hOpened.isPart c (by simp [hCons, hc])
  have hNotOpen : space ≠ '(' := by
    rintro rfl
    exact absurd hOpened.isSpace (by decide)
  have hEnclosed : isEnclosed '(' ')' (space :: rest) = false := by
    cases rest with
    | nil => rfl
    | cons d ds => simp [isEnclosed, hNotOpen]
  rw [hCons, List.cons_append]
  simp [call?, dropWhile_append_stop hRun hOpened.stop, hEnclosed]

/-
  A line that a word opens can assign to that word only, and
  does so when nothing but white space stands before `=`.
-/
theorem IsOpened.eq_of_assignment?
    {target value : String}
    (hRead : assignment? text.toList = some (target, value)) :
    target = keyword ∧
      ∀ c ∈ rest.takeWhile (· != '='), Text.isSpace c = true := by
  rcases exists_of_assignment? hRead with
    ⟨_, _, _, _, hTarget, hName, _⟩
  have hRun :
      ∀ c ∈ keyword.toList ++ [space], (c != '=') = true := by
    intro c hc
    rw [bne_iff_ne]
    rintro rfl
    rcases List.mem_append.mp hc with hPart | hSpace
    · exact absurd (hOpened.isPart '=' hPart) (by decide)
    · rcases List.mem_singleton.mp hSpace with rfl
      exact absurd hOpened.isSpace (by decide)
  have hBefore :
      text.toList.takeWhile (· != '=') =
        keyword.toList ++ space :: rest.takeWhile (· != '=') := by
    rw [hOpened.toList, List.append_cons,
      List.takeWhile_append_of_pos hRun, ← List.append_cons]
  rw [hBefore] at hTarget hName
  rcases trim_of_isTarget hOpened.isPart hOpened.ne_nil
      hOpened.isSpace hTarget with
    ⟨hTrim, hSpaces⟩
  rw [hTrim] at hName
  exact ⟨String.toList_inj.mp hName, hSpaces⟩

end Opened

------------------------------------------------------------
-- The Form Of An Opened Line
------------------------------------------------------------

namespace Statement

variable {text : String}
variable {rest : List Char}

theorem read_def
    (hText : text.toList = "def".toList ++ ' ' :: rest) :
    read text = .function (functionHeader? text.toList) := by
  have hDef : startsWith "def " text.toList = true :=
    startsWith_iff.mpr ⟨rest, hText⟩
  rw [read, if_pos hDef]

theorem read_if
    (hText : text.toList = "if".toList ++ ' ' :: rest) :
    read text = .conditional (condition? text.toList) := by
  have hDef : startsWith "def " text.toList = false := by
    rw [hText]
    rfl
  have hIf : startsWith "if " text.toList = true :=
    startsWith_iff.mpr ⟨rest, hText⟩
  simp only [read, hDef, hIf]
  rfl

theorem read_for
    (hText : text.toList = "for".toList ++ ' ' :: rest) :
    read text = .loop (loopHeader? text.toList) := by
  have hDef : startsWith "def " text.toList = false := by
    rw [hText]
    rfl
  have hIf : startsWith "if " text.toList = false := by
    rw [hText]
    rfl
  have hFor : startsWith "for " text.toList = true :=
    startsWith_iff.mpr ⟨rest, hText⟩
  simp only [read, hDef, hIf, hFor]
  rfl

/- With other white space the word is no keyword. -/
theorem read_of_ne_blank
    {keyword : String}
    {space : Char}
    (hOpened : IsOpened keyword space rest text)
    (hBlank : space ≠ ' ') :
    read text =
      match assignment? text.toList with
      | some (_, value) => .assignment keyword value
      | none => .unrecognized := by
  rw [read_of_no_keyword, hOpened.call?_eq_none]
  · cases hRead : assignment? text.toList with
    | none => rfl
    | some parts =>
        have hTarget := (hOpened.eq_of_assignment? hRead).1
        simp [← hTarget]
  · intro k hk
    rw [Bool.eq_false_iff]
    intro hStart
    rw [hOpened.startsWith_iff rfl
      (isNamePart_of_mem_keywords k hk)] at hStart
    exact hBlank hStart.2
  · exact hOpened.ne_of_notMem (by decide)

end Statement

------------------------------------------------------------
-- Lines That Match A Pattern
------------------------------------------------------------

/- White space and a word begin with no assignment. -/
theorem exists_space_of_word
    {cs : List Char}
    (hIndent : 0 < indentOf cs)
    (hNamed :
      (!((trimStart cs).takeWhile isWord).isEmpty) = true) :
    ∃ space rest,
      cs = space :: rest ∧
        isSpace space = true ∧
          ∃ c ∈ rest.takeWhile (· != '='), isSpace c = false := by
  have hGap : ∀ c ∈ cs.takeWhile isSpace, isSpace c = true :=
    List.all_eq_true.mp List.all_takeWhile
  have hCut : cs.takeWhile isSpace ++ trimStart cs = cs :=
    List.takeWhile_append_dropWhile
  rw [indentOf] at hIndent
  generalize cs.takeWhile isSpace = gap at *
  rcases List.exists_cons_of_length_pos hIndent with
    ⟨space, blanks, rfl⟩
  cases hWord : trimStart cs with
  | nil => simp [hWord] at hNamed
  | cons c tail =>
      have hFirst : isWord c = true := by
        by_contra hNot
        simp [hWord, hNot] at hNamed
      have hRun : ∀ d ∈ blanks ++ [c], (d != '=') = true := by
        intro d hd
        rw [bne_iff_ne]
        rintro rfl
        rcases List.mem_append.mp hd with hBlank | hOwn
        · have hSpace :=
            hGap '=' (List.mem_cons_of_mem space hBlank)
          exact absurd hSpace (by decide)
        · rcases List.mem_singleton.mp hOwn with rfl
          exact absurd hFirst (by decide)
      refine
        ⟨space, blanks ++ c :: tail, ?_,
          hGap space List.mem_cons_self, c, ?_,
          isSpace_of_isWord hFirst⟩
      · rw [← hCut, hWord, List.cons_append]
      · rw [List.append_cons, List.takeWhile_append_of_pos hRun]
        simp

/- A keyword that a gap and a word follow opens the line. -/
theorem exists_opened_of_word
    {keyword text : String}
    {after : List Char}
    (hKeyword : keyword ∈ keywords)
    (hAfter : after? keyword.toList text.toList = some after)
    (hIndent : 0 < indentOf after)
    (hNamed :
      (!((trimStart after).takeWhile isWord).isEmpty) = true) :
    ∃ space rest,
      IsOpened keyword space rest text ∧
        ∃ c ∈ rest.takeWhile (· != '='), isSpace c = false := by
  rcases exists_space_of_word hIndent hNamed with
    ⟨space, rest, rfl, hSpace, hWord⟩
  have hPart := isNamePart_of_mem_keywords keyword hKeyword
  have hNonempty := ne_nil_of_mem_keywords keyword hKeyword
  refine ⟨space, rest, ⟨hPart, hNonempty, hSpace, ?_⟩, hWord⟩
  exact after?_eq_some_iff.mp hAfter

theorem exists_opened_of_function
    {text : String}
    {header : String × List String}
    (hFirst : trimStart text.toList = text.toList)
    (hRead : functionHeader? text.toList = some header) :
    ∃ space rest,
      IsOpened "def" space rest text ∧
        ∃ c ∈ rest.takeWhile (· != '='), isSpace c = false := by
  simp only [functionHeader?, hFirst, Option.bind_eq_bind,
    Option.bind_eq_some_iff, Option.guard_eq_some'] at hRead
  rcases hRead with ⟨after, hDef, _, hIndent, _, hNamed, _⟩
  exact exists_opened_of_word (by decide) hDef hIndent hNamed

theorem exists_opened_of_loop
    {text : String}
    {header : String × String}
    (hRead : loopHeader? text.toList = some header) :
    ∃ space rest,
      IsOpened "for" space rest text ∧
        ∃ c ∈ rest.takeWhile (· != '='), isSpace c = false := by
  simp only [loopHeader?, Option.bind_eq_bind,
    Option.bind_eq_some_iff, Option.guard_eq_some'] at hRead
  rcases hRead with ⟨after, hFor, _, hIndent, _, hNamed, _⟩
  exact exists_opened_of_word (by decide) hFor hIndent hNamed

theorem exists_opened_of_condition
    {text : String}
    {found : List (List Char)}
    (hFound :
      captures? conditionPattern text.toList = some found) :
    ∃ space rest, IsOpened "if" space rest text := by
  rcases exists_of_captures?_text hFound with
    ⟨after, hIf, hExpression⟩
  rcases exists_of_captures?_greedy hExpression with
    ⟨n, _, hLeast, hMost, _⟩
  have hGap : ∀ c ∈ after.takeWhile isSpace, isSpace c = true :=
    List.all_eq_true.mp List.all_takeWhile
  have hCut : after.takeWhile isSpace ++ trimStart after = after :=
    List.takeWhile_append_dropWhile
  generalize after.takeWhile isSpace = gap at *
  rcases List.exists_cons_of_length_pos
      (Nat.lt_of_lt_of_le hLeast hMost) with
    ⟨space, blanks, rfl⟩
  have hPart := isNamePart_of_mem_keywords "if" (by decide)
  refine
    ⟨space, blanks ++ trimStart after, hPart, by decide,
      hGap space List.mem_cons_self, ?_⟩
  rw [after?_eq_some_iff.mp hIf]
  exact congrArg ("if".toList ++ ·) hCut.symm

------------------------------------------------------------
-- The Block Of A Line
------------------------------------------------------------

/- No two blocks of a text are made by the same line. -/
theorem nodup_idsOf_tracedProgram (source : String) :
    (idsOf (tracedProgram source)).Nodup := by
  have hSublist :=
    idsOf_traced_sublist (outline (significantLines source))
  rw [linesOf_outline] at hSublist
  apply hSublist.nodup
  have hOrder := areOrdered_significantLines source
  rw [AreOrdered, List.pairwise_map] at hOrder
  rw [List.Nodup, List.pairwise_map]
  apply hOrder.imp
  intro line line' hLess hName
  have hNumber := number_eq_of_name_eq hName
  omega

section Found

variable {source : String}
variable {line : Line}
variable (hLine : line ∈ significantLines source)
variable (hElif : line.isElif = false)

include hLine

/- A block that has the name of a line is made by the line. -/
theorem makes_of_find?
    {b : Block}
    (hFind : find? line.name (tracedProgram source) = some b) :
    b.id = line.name ∧ line.Makes b := by
  rcases find?_eq_some hFind with ⟨hMember, hId⟩
  rcases areMadeBy_traced_outline _ b hMember with
    ⟨line', hLine', hId', hMakes⟩
  have hSame : line' = line :=
    eq_of_name_eq (areOrdered_significantLines source) hLine'
      hLine (hId'.symm.trans hId)
  exact ⟨hId, hSame ▸ hMakes⟩

theorem exists_find?_of_read
    (hRead : Statement.read line.text ≠ .unrecognized) :
    ∃ b,
      find? line.name (tracedProgram source) = some b ∧
        b.id = line.name ∧ line.Makes b := by
  have hMember :=
    (mem_idsOf_of_read hRead).1 (significantLines source)
      hLine
  cases hFind : find? line.name (tracedProgram source) with
  | none => exact absurd hMember (find?_eq_none_iff.mp hFind)
  | some b => exact ⟨b, rfl, makes_of_find? hLine hFind⟩

include hElif

theorem find?_of_read_unrecognized
    (hRead : Statement.read line.text = .unrecognized) :
    find? line.name (tracedProgram source) = none := by
  rw [Option.eq_none_iff_forall_ne_some]
  intro b hFind
  have hMakes := (makes_of_find? hLine hFind).2
  cases b <;> simp [Line.Makes, hRead, hElif] at hMakes

theorem find?_of_read_function
    {name : String}
    {parameters : List String}
    (hRead :
      Statement.read line.text =
        .function (some (name, parameters))) :
    ∃ body,
      find? line.name (tracedProgram source) =
        some (.function line.name name parameters body) := by
  rcases exists_find?_of_read hLine (by simp [hRead]) with
    ⟨b, hFind, hId, hMakes⟩
  cases b with
  | function id name' parameters' body =>
      rcases hMakes with ⟨header, hHeader, hParts⟩
      rw [hRead, Statement.function.injEq] at hHeader
      subst hHeader
      rcases Prod.mk.inj hParts with ⟨rfl, rfl⟩
      rcases hId with rfl
      exact ⟨body, hFind⟩
  | _ => simp [Line.Makes, hRead, hElif] at hMakes

theorem find?_of_read_conditional
    {condition : String}
    (hRead :
      Statement.read line.text = .conditional (some condition)) :
    ∃ body elseKind elseBody,
      find? line.name (tracedProgram source) =
        some
          (.conditional line.name condition body elseKind
            elseBody) := by
  rcases exists_find?_of_read hLine (by simp [hRead]) with
    ⟨b, hFind, hId, hMakes⟩
  cases b with
  | conditional id condition' body elseKind elseBody =>
      rcases hMakes with ⟨stated, hStated, rfl⟩
      rcases hStated with hHeader | ⟨hOther, _⟩
      · rw [hRead, Statement.conditional.injEq] at hHeader
        subst hHeader
        rcases hId with rfl
        exact ⟨body, elseKind, elseBody, hFind⟩
      · rw [hElif] at hOther
        cases hOther
  | _ => simp [Line.Makes, hRead] at hMakes

theorem find?_of_read_loop
    {iterator iterable : String}
    (hRead :
      Statement.read line.text =
        .loop (some (iterator, iterable))) :
    ∃ body,
      find? line.name (tracedProgram source) =
        some (.loop line.name iterator iterable body) := by
  rcases exists_find?_of_read hLine (by simp [hRead]) with
    ⟨b, hFind, hId, hMakes⟩
  cases b with
  | loop id iterator' iterable' body =>
      rcases hMakes with ⟨header, hHeader, hParts⟩
      rw [hRead, Statement.loop.injEq] at hHeader
      subst hHeader
      rcases Prod.mk.inj hParts with ⟨rfl, rfl⟩
      rcases hId with rfl
      exact ⟨body, hFind⟩
  | _ => simp [Line.Makes, hRead, hElif] at hMakes

theorem find?_of_read_assignment
    {target value : String}
    (hRead :
      Statement.read line.text = .assignment target value) :
    find? line.name (tracedProgram source) =
      some (.assignment line.name target (.simple value)) := by
  rcases exists_find?_of_read hLine (by simp [hRead]) with
    ⟨b, hFind, hId, hMakes⟩
  cases b with
  | assignment id name value' =>
      rcases hMakes with ⟨text, hStated, rfl⟩
      rw [hRead] at hStated
      rcases Statement.assignment.inj hStated with ⟨rfl, rfl⟩
      rcases hId with rfl
      exact hFind
  | _ => simp [Line.Makes, hRead, hElif] at hMakes

end Found

------------------------------------------------------------
-- Headers Of A Text
------------------------------------------------------------

/- The block that a line of a text makes, if it makes one. -/
def blockOf?
    (source : String)
    (line : Line) : Option Block :=
  find? line.name (tracedProgram source)

/-
  A line that matches the pattern of a function header makes
  that function, with what the pattern captures, when a plain
  blank follows the keyword.  If not, the line is skipped.
-/
def RecognizesFunction
    (source : String)
    (line : Line) : Prop :=
  ∀ found,
    captures? functionPattern line.text.toList = some found →
      ∃ name list,
        found = [name, list] ∧
          if startsWith "def " line.text.toList then
            ∃ body,
              blockOf? source line =
                some
                  (.function line.name (String.ofList name)
                    (commaList list) body)
          else blockOf? source line = none

/-
  The same for an `if` header, except that without a plain
  blank the line may assign to the keyword.
-/
def RecognizesCondition
    (source : String)
    (line : Line) : Prop :=
  ∀ found,
    captures? conditionPattern line.text.toList = some found →
      ∃ condition,
        found = [condition] ∧
          if startsWith "if " line.text.toList then
            ∃ body elseKind elseBody,
              blockOf? source line =
                some
                  (.conditional line.name
                    (String.ofList (trim condition)) body
                    elseKind elseBody)
          else
            blockOf? source line =
              (assignment? line.text.toList).map fun parts =>
                .assignment line.name "if" (.simple parts.2)

/- The same for a loop header. -/
def RecognizesLoop
    (source : String)
    (line : Line) : Prop :=
  ∀ found,
    captures? loopPattern line.text.toList = some found →
      ∃ name iterable,
        found = [name, iterable] ∧
          if startsWith "for " line.text.toList then
            ∃ body,
              blockOf? source line =
                some
                  (.loop line.name (String.ofList name)
                    (String.ofList (trim iterable)) body)
          else blockOf? source line = none

section Headers

variable {source : String}
variable {line : Line}
variable (hLine : line ∈ significantLines source)
variable {keyword : String}
variable {space : Char}
variable {rest : List Char}

include hLine

/- Without a plain blank the line assigns or is skipped. -/
theorem IsOpened.find?_of_ne_blank
    (hOpened : IsOpened keyword space rest line.text)
    (hKeyword : keyword ≠ "elif")
    (hBlank : space ≠ ' ') :
    find? line.name (tracedProgram source) =
      (assignment? line.text.toList).map fun parts =>
        .assignment line.name keyword (.simple parts.2) := by
  have hElif := hOpened.not_isElif hKeyword rfl
  have hRead := Statement.read_of_ne_blank hOpened hBlank
  cases hParts : assignment? line.text.toList with
  | none =>
      rw [hParts] at hRead
      exact find?_of_read_unrecognized hLine hElif hRead
  | some parts =>
      rw [hParts] at hRead
      exact find?_of_read_assignment hLine hElif hRead

/- A word behind the keyword keeps the line from assigning. -/
theorem IsOpened.find?_eq_none
    (hOpened : IsOpened keyword space rest line.text)
    (hKeyword : keyword ≠ "elif")
    (hBlank : space ≠ ' ')
    (hWord :
      ∃ c ∈ rest.takeWhile (· != '='), Text.isSpace c = false) :
    find? line.name (tracedProgram source) = none := by
  rw [hOpened.find?_of_ne_blank hLine hKeyword hBlank,
    Option.map_eq_none_iff, Option.eq_none_iff_forall_ne_some]
  intro parts hRead
  rcases hWord with ⟨c, hc, hNot⟩
  rw [(hOpened.eq_of_assignment? hRead).2 c hc] at hNot
  cases hNot

theorem recognizesFunction : RecognizesFunction source line := by
  intro found hFound
  have hText := areLines_significantLines source line hLine
  have hTrimmed : trimStart line.text.toList = line.text.toList := by
    rcases (mem_significantLines.mp hLine).2 with ⟨raw, _, hOf⟩
    rw [hOf, Line.ofRaw, String.toList_ofList]
    exact trimStart_eq_self (isTrimmed_trim raw).1
  rcases exists_of_captures?_function hText hFound with
    ⟨name, list, rfl, hRead⟩
  rcases exists_opened_of_function hTrimmed hRead with
    ⟨space, rest, hOpened, hWord⟩
  have hElif := hOpened.not_isElif (by decide) rfl
  refine ⟨name, list, rfl, ?_⟩
  have hStart :
      startsWith "def " line.text.toList = true ↔ space = ' ' :=
    hOpened.startsWith_own_iff rfl
  split
  · next hDef =>
      rcases hStart.mp hDef with rfl
      apply find?_of_read_function hLine hElif
      rw [Statement.read_def hOpened.toList, hRead]
  · next hOther =>
      exact
        hOpened.find?_eq_none hLine (by decide)
          (fun hBlank => hOther (hStart.mpr hBlank)) hWord

theorem recognizesCondition :
    RecognizesCondition source line := by
  intro found hFound
  have hText := areLines_significantLines source line hLine
  rcases exists_of_captures?_condition hText hFound with
    ⟨condition, rfl, hRead⟩
  rcases exists_opened_of_condition hFound with
    ⟨space, rest, hOpened⟩
  have hElif := hOpened.not_isElif (by decide) rfl
  refine ⟨condition, rfl, ?_⟩
  have hStart :
      startsWith "if " line.text.toList = true ↔ space = ' ' :=
    hOpened.startsWith_own_iff rfl
  split
  · next hIf =>
      rcases hStart.mp hIf with rfl
      apply find?_of_read_conditional hLine hElif
      rw [Statement.read_if hOpened.toList, hRead]
  · next hOther =>
      exact
        hOpened.find?_of_ne_blank hLine (by decide)
          fun hBlank => hOther (hStart.mpr hBlank)

theorem recognizesLoop : RecognizesLoop source line := by
  intro found hFound
  have hText := areLines_significantLines source line hLine
  rcases exists_of_captures?_loop hText hFound with
    ⟨name, iterable, rfl, hRead⟩
  rcases exists_opened_of_loop hRead with
    ⟨space, rest, hOpened, hWord⟩
  have hElif := hOpened.not_isElif (by decide) rfl
  refine ⟨name, iterable, rfl, ?_⟩
  have hStart :
      startsWith "for " line.text.toList = true ↔ space = ' ' :=
    hOpened.startsWith_own_iff rfl
  split
  · next hFor =>
      rcases hStart.mp hFor with rfl
      apply find?_of_read_loop hLine hElif
      rw [Statement.read_for hOpened.toList, hRead]
  · next hOther =>
      exact
        hOpened.find?_eq_none hLine (by decide)
          (fun hBlank => hOther (hStart.mpr hBlank)) hWord

end Headers

/-
  The program of a text is, with fresh ids, one that holds at
  most one block for each line.  For a line that matches the
  pattern of a header, this is the header's block with the
  parts that the pattern captures exactly when a plain blank
  follows the keyword.
-/
theorem parse_recognizes_headers
    (n : Nat)
    (source : String) :
    parse n source =
        Block.renumberClosingAll n (tracedProgram source) ∧
      (idsOf (tracedProgram source)).Nodup ∧
        ∀ line ∈ significantLines source,
          RecognizesFunction source line ∧
            RecognizesCondition source line ∧
              RecognizesLoop source line := by
  refine
    ⟨parse_eq_renumber_traced n source,
      nodup_idsOf_tracedProgram source, ?_⟩
  intro line hLine
  exact
    ⟨recognizesFunction hLine, recognizesCondition hLine,
      recognizesLoop hLine⟩

/- The blank may be followed by any other white space. -/
theorem parse_recognizes_spaced_def :
    ∃ body,
      blockOf? "def \t f (x) :" ⟨0, 0, "def \t f (x) :"⟩ =
        some (.function "0" "f" ["x"] body) := by
  have hLines :
      significantLines "def \t f (x) :" =
        [⟨0, 0, "def \t f (x) :"⟩] := by
    decide +kernel
  have hFound :
      captures? functionPattern "def \t f (x) :".toList =
        some [['f'], ['x']] := by
    decide +kernel
  have hRecognizes :=
    (parse_recognizes_headers 1 "def \t f (x) :").2.2
      ⟨0, 0, "def \t f (x) :"⟩ (by simp [hLines])
  rcases hRecognizes.1 _ hFound with ⟨name, list, hParts, hBlock⟩
  rcases List.cons.inj hParts with ⟨rfl, hRest⟩
  rcases List.cons.inj hRest with ⟨rfl, _⟩
  exact hBlock

/-
  A tab behind `def` matches the pattern, but the line makes
  no block, and what stands below it moves out.
-/
theorem parse_skips_tabbed_def :
    captures? functionPattern "def\tf(x):".toList =
        some [['f'], ['x']] ∧
      significantLines "def\tf(x):\n    y = 1" =
          [⟨0, 0, "def\tf(x):"⟩, ⟨1, 4, "y = 1"⟩] ∧
        parse 1 "def\tf(x):\n    y = 1" =
          [.assignment "variable-1" "y" (.simple "1")] := by
  have hLines :
      significantLines "def\tf(x):\n    y = 1" =
        [⟨0, 0, "def\tf(x):"⟩, ⟨1, 4, "y = 1"⟩] := by
    decide +kernel
  have hSkipped :
      Statement.read (Line.text ⟨0, 0, "def\tf(x):"⟩) =
        .unrecognized := by
    decide +kernel
  have hAssignment :
      Statement.read (Line.text ⟨1, 4, "y = 1"⟩) =
        .assignment "y" "1" := by
    decide +kernel
  refine ⟨by decide +kernel, hLines, ?_⟩
  rw [parse_eq, hLines, blocksOf_unrecognized hSkipped,
    blocksOf_assignment hAssignment, blocksOf_nil]
  rfl

end Source

end BlockProgram
