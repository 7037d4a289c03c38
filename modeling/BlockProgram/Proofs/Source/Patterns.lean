import BlockProgram.Proofs.Source.Keeping
import BlockProgram.Proofs.Source.Readable
import BlockProgram.Proofs.Text.Pattern

/-
  The patterns of the three kinds of header.

  The reader of a header looks for the ends of its parts.
  What it finds is what the header's pattern captures, as
  long as the text is one line.

  Main declarations:
    * `Source.functionPattern`
    * `Source.conditionPattern`
    * `Source.loopPattern`
    * `Source.exists_of_captures?_function`
    * `Source.exists_of_captures?_condition`
    * `Source.exists_of_captures?_loop`
-/

namespace BlockProgram

namespace Source

open Text

------------------------------------------------------------
-- The Patterns
------------------------------------------------------------

/- Any character of a line. -/
def inLine (c : Char) : Bool :=
  c != '\n'

/- At least so many white space characters. -/
def blanks (least : Nat) : Piece :=
  .run isSpace least true false

/- A captured run of word characters. -/
def wordPiece : Piece :=
  .run isWord 1 true true

/- `)` and `:`, with white space between. -/
def closingPattern : List Piece :=
  [.text [')'], blanks 0, .text [':']]

/- `\s*def\s+(\w+)\s*\((.*?)\)\s*:` -/
def functionPattern : List Piece :=
  [ blanks 0, .text "def".toList, blanks 1, wordPiece, blanks 0,
    .text ['('], .run inLine 0 false true ] ++
    closingPattern

/- `(.+):` -/
def untilColon : List Piece :=
  [.run inLine 1 true true, .text [':']]

/- `\s+(.+):` -/
def expressionPattern : List Piece :=
  blanks 1 :: untilColon

/- `if\s+(.+):` -/
def conditionPattern : List Piece :=
  .text "if".toList :: expressionPattern

/- `for\s+(\w+)\s+in\s+(.+):` -/
def loopPattern : List Piece :=
  [ .text "for".toList, blanks 1, wordPiece, blanks 1,
    .text "in".toList ] ++
    expressionPattern

------------------------------------------------------------
-- One Piece At A Time
------------------------------------------------------------

section Pieces

variable {kind : Char → Bool}
variable {least : Nat}
variable {captured : Bool}
variable {pieces : List Piece}
variable {cs front : List Char}
variable {found : List (List Char)}

theorem exists_of_captures?_text
    (hFound : captures? (.text front :: pieces) cs = some found) :
    ∃ rest,
      after? front cs = some rest ∧
        captures? pieces rest = some found := by
  rw [captures?] at hFound
  exact Option.bind_eq_some_iff.mp hFound

/- A run before a piece that refuses it goes to its end. -/
theorem exists_of_captures?_run
    (hRefuses : Refuses kind pieces)
    (hFound :
      captures? (.run kind least true captured :: pieces) cs =
        some found) :
    least ≤ (cs.takeWhile kind).length ∧
      ∃ others,
        captures? pieces (cs.dropWhile kind) = some others ∧
          found =
            if captured then cs.takeWhile kind :: others
            else others := by
  rw [captures?_run_of_refuses hRefuses] at hFound
  split at hFound
  · next hLeast =>
      rcases Option.map_eq_some_iff.mp hFound with
        ⟨others, hOthers, hParts⟩
      exact ⟨hLeast, others, hOthers, hParts.symm⟩
  · cases hFound

theorem exists_of_captures?_blanks
    (hRefuses : Refuses isSpace pieces)
    (hFound :
      captures? (blanks least :: pieces) cs = some found) :
    least ≤ indentOf cs ∧
      captures? pieces (trimStart cs) = some found := by
  rcases exists_of_captures?_run hRefuses hFound with
    ⟨hLeast, others, hOthers, rfl⟩
  exact ⟨hLeast, hOthers⟩

theorem exists_of_captures?_word
    (hRefuses : Refuses isWord pieces)
    (hFound :
      captures? (wordPiece :: pieces) cs = some found) :
    (!(cs.takeWhile isWord).isEmpty) = true ∧
      ∃ others,
        captures? pieces (cs.dropWhile isWord) = some others ∧
          found = cs.takeWhile isWord :: others := by
  rcases exists_of_captures?_run hRefuses hFound with
    ⟨hLeast, others, hOthers, rfl⟩
  have hSome : cs.takeWhile isWord ≠ [] :=
    List.length_pos_iff.mp hLeast
  exact ⟨by simpa using hSome, others, hOthers, rfl⟩

end Pieces

theorem not_isWord_of_isSpace
    {c : Char}
    (hSpace : isSpace c = true) :
    isWord c = false := by
  rw [Bool.eq_false_iff]
  intro hWord
  rw [isSpace_of_isWord hWord] at hSpace
  cases hSpace

/- White space does not begin a word. -/
theorem refuses_wordPiece (pieces : List Piece) :
    Refuses isSpace (wordPiece :: pieces) :=
  refuses_run (fun _ => not_isWord_of_isSpace) Nat.one_pos

/- A word does not go on in white space. -/
theorem refuses_blanks
    (least : Nat)
    {pieces : List Piece}
    (hRefuses : Refuses isWord pieces) :
    Refuses isWord (blanks least :: pieces) :=
  refuses_run_of_refuses (fun _ => isSpace_of_isWord) hRefuses

------------------------------------------------------------
-- Where Parameters End
------------------------------------------------------------

theorem captures?_closingPattern
    (c : Char)
    (rest : List Char) :
    captures? closingPattern (c :: rest) =
      if c = ')' ∧ (trimStart rest).head? = some ':' then some []
      else none := by
  have hRefuses : Refuses isSpace [.text [':']] :=
    refuses_text (by decide)
  rw [closingPattern, captures?, after?]
  by_cases hClose : c = ')'
  · subst hClose
    rw [if_pos rfl, after?, Option.bind_some, blanks,
      captures?_run_of_refuses hRefuses,
      if_pos (Nat.zero_le _), ← trimStart]
    cases trimStart rest with
    | nil => simp [captures?, after?]
    | cons d tail =>
        by_cases hColon : d = ':'
        · simp [captures?, after?, hColon]
        · simp [captures?, after?, hColon, Ne.symm hColon]
  · rw [if_neg (Ne.symm hClose), Option.bind_none]
    simp [hClose]

/- A text up to where it closes, taken as short as can be. -/
theorem captures?_parameters
    {cs : List Char}
    (hLine : '\n' ∉ cs) :
    captures? (.run inLine 0 false true :: closingPattern) cs =
      (parameterText? cs).map fun list => [list] := by
  induction cs with
  | nil => rw [captures?_shortest_nil]; rfl
  | cons c cs ih =>
      rw [List.mem_cons, not_or] at hLine
      have hKind : inLine c = true := by
        rw [inLine, bne_iff_ne]
        exact Ne.symm hLine.1
      rw [captures?_shortest_cons hKind, ih hLine.2,
        captures?_closingPattern, parameterText?]
      split
      · rfl
      · cases parameterText? cs <;> rfl

------------------------------------------------------------
-- Where An Expression Ends
------------------------------------------------------------

theorem takeWhile_inLine
    {cs : List Char}
    (hLine : '\n' ∉ cs) :
    cs.takeWhile inLine = cs := by
  rw [List.takeWhile_eq_self_iff]
  intro c hc
  rw [inLine, bne_iff_ne]
  rintro rfl
  exact hLine hc

theorem captures?_colon
    {cs : List Char}
    {found : List (List Char)} :
    captures? [.text [':']] cs = some found ↔
      found = [] ∧ cs.head? = some ':' := by
  cases cs with
  | nil => simp [captures?, after?]
  | cons c cs =>
      by_cases hColon : c = ':'
      · simp [captures?, after?, hColon, eq_comm]
      · simp [captures?, after?, hColon, Ne.symm hColon]

theorem captures?_colon_of_notMem
    {cs : List Char}
    (hNone : ':' ∉ cs) :
    captures? [.text [':']] cs = none := by
  rw [Option.eq_none_iff_forall_ne_some]
  intro found hFound
  have hHead := (captures?_colon.mp hFound).2
  exact hNone (List.mem_of_head? hHead)

theorem colon_notMem_of_beforeLastColon?
    {cs : List Char}
    (hNone : beforeLastColon? cs = none) :
    ':' ∉ cs := by
  unfold beforeLastColon? at hNone
  split at hNone
  · next hAll =>
      rw [List.dropWhile_eq_nil_iff] at hAll
      intro hMember
      have hColon := hAll ':' (List.mem_reverse.mpr hMember)
      revert hColon
      decide
  · cases hNone

theorem beforeLastColon?_of_notMem
    {dropped : List Char}
    (hLast : ':' ∉ dropped)
    (front : List Char) :
    beforeLastColon? (front ++ ':' :: dropped) = some front := by
  have hRun : ∀ c ∈ dropped.reverse, (c != ':') = true := by
    intro c hc
    rw [bne_iff_ne]
    rintro rfl
    exact hLast (List.mem_reverse.mp hc)
  have hStop :
      ∀ c ∈ (':' :: front.reverse).head?, (c != ':') = false := by
    simp
  have hReverse :
      (front ++ ':' :: dropped).reverse =
        dropped.reverse ++ ':' :: front.reverse := by
    simp
  rw [beforeLastColon?, hReverse, dropWhile_append_stop hRun hStop]
  simp

/- What stands before the last colon, if anything does. -/
theorem captures?_untilColon
    {cs : List Char}
    (hLine : '\n' ∉ cs)
    {found : List (List Char)} :
    captures? untilColon cs = some found ↔
      ∃ front,
        beforeLastColon? cs = some front ∧
          front ≠ [] ∧ found = [front] := by
  have hAll := takeWhile_inLine hLine
  cases hFront : beforeLastColon? cs with
  | none =>
      have hNone := colon_notMem_of_beforeLastColon? hFront
      have hFails : captures? untilColon cs = none :=
        captures?_run_eq_none fun n _ _ =>
          captures?_colon_of_notMem fun hMember =>
            hNone (List.mem_of_mem_drop hMember)
      simp [hFails]
  | some front =>
      rcases exists_of_beforeLastColon? hFront with
        ⟨dropped, rfl, hLast⟩
      have hAt :
          captures? [.text [':']]
              ((front ++ ':' :: dropped).drop front.length) =
            some [] :=
        captures?_colon.mpr ⟨rfl, by simp⟩
      have hBehind (m : Nat) (hMore : front.length < m) :
          captures? [.text [':']]
              ((front ++ ':' :: dropped).drop m) =
            none := by
        rcases Nat.exists_eq_add_of_lt hMore with ⟨k, rfl⟩
        apply captures?_colon_of_notMem
        rw [Nat.add_assoc, List.drop_length_add_append,
          List.drop_succ_cons]
        exact fun hMember => hLast (List.mem_of_mem_drop hMember)
      by_cases hEmpty : front = []
      · have hFails :
            captures? untilColon (front ++ ':' :: dropped) =
              none :=
          captures?_run_eq_none fun m hLeast _ =>
            hBehind m (by simp [hEmpty]; omega)
        rw [hFails]
        simp [hEmpty]
      · have hCaptured :
            captures? untilColon (front ++ ':' :: dropped) =
              some
                [(front ++ ':' :: dropped).take front.length] :=
          captures?_longest (List.length_pos_iff.mpr hEmpty)
            (by rw [hAll]; simp) hAt
            fun m hMore _ => hBehind m hMore
        rw [List.take_left] at hCaptured
        simp [hCaptured, hEmpty, eq_comm]

theorem headerExpression?_of_ne_nil
    {cs front : List Char}
    (hFront : beforeLastColon? (trimStart cs) = some front)
    (hSome : front ≠ [])
    (hGap : 0 < indentOf cs) :
    headerExpression? cs = some (String.ofList (trim front)) := by
  cases front with
  | nil => contradiction
  | cons c front => simp [headerExpression?, hFront, hGap]

/- A blank is taken for the expression when no other text is. -/
theorem headerExpression?_of_nil
    {cs : List Char}
    (hFront : beforeLastColon? (trimStart cs) = some [])
    (hGap : 2 ≤ indentOf cs) :
    headerExpression? cs = some "" := by
  simp [headerExpression?, hFront, hGap]

theorem trim_of_isSpace
    {cs : List Char}
    (hSpaces : ∀ c ∈ cs, isSpace c = true) :
    trim cs = [] := by
  have hNone : trimStart cs = [] :=
    List.dropWhile_eq_nil_iff.mpr hSpaces
  rw [trim, hNone]
  rfl

theorem drop_of_le_indentOf
    {cs : List Char}
    {n : Nat}
    (hMost : n ≤ indentOf cs) :
    cs.drop n = (cs.takeWhile isSpace).drop n ++ trimStart cs := by
  have hCut : cs.takeWhile isSpace ++ trimStart cs = cs :=
    List.takeWhile_append_dropWhile
  rw [← List.drop_append_of_le_length hMost, hCut]

theorem isSpace_of_mem_indent
    {cs : List Char}
    (n : Nat) :
    ∀ c ∈ (cs.takeWhile isSpace).drop n, isSpace c = true :=
  fun c hc =>
    List.all_eq_true.mp List.all_takeWhile c
      (List.mem_of_mem_drop hc)

/-
  When an expression is found behind a part of the white space
  but none behind all of it, a colon follows all of it.
-/
theorem beforeLastColon?_of_shorter
    {cs front : List Char}
    {n : Nat}
    (hLine : '\n' ∉ trimStart cs)
    (hMost : n ≤ indentOf cs)
    (hFront : beforeLastColon? (cs.drop n) = some front)
    (hEnd : captures? untilColon (trimStart cs) = none) :
    beforeLastColon? (trimStart cs) = some [] := by
  cases hRest : beforeLastColon? (trimStart cs) with
  | none =>
      have hNone := colon_notMem_of_beforeLastColon? hRest
      rcases exists_of_beforeLastColon? hFront with
        ⟨dropped, hText, _⟩
      have hMember : ':' ∈ cs.drop n := by
        simp [hText]
      rw [drop_of_le_indentOf hMost] at hMember
      rcases List.mem_append.mp hMember with hBlank | hIn
      · have hColon := isSpace_of_mem_indent n ':' hBlank
        revert hColon
        decide
      · exact absurd hIn hNone
  | some text =>
      by_cases hText : text = []
      · rw [hText]
      · have hCaptured :=
          (captures?_untilColon hLine).mpr
            ⟨text, hRest, hText, rfl⟩
        rw [hEnd] at hCaptured
        cases hCaptured

/- The expression of a header is what its pattern captures. -/
theorem exists_of_captures?_expression
    {cs : List Char}
    (hLine : '\n' ∉ cs)
    {found : List (List Char)}
    (hFound : captures? expressionPattern cs = some found) :
    ∃ text,
      found = [text] ∧
        headerExpression? cs =
          some (String.ofList (trim text)) := by
  rcases exists_of_captures?_greedy hFound with
    ⟨n, others, hLeast, hMost, hHere, rfl, hLonger⟩
  have hLineHere : '\n' ∉ cs.drop n :=
    fun hMember => hLine (List.mem_of_mem_drop hMember)
  rcases (captures?_untilColon hLineHere).mp hHere with
    ⟨front, hFront, hSome, rfl⟩
  refine ⟨front, rfl, ?_⟩
  have hFromEnd : cs.drop (indentOf cs) = trimStart cs := by
    rw [drop_of_le_indentOf (Nat.le_refl _), indentOf,
      List.drop_length, List.nil_append]
  rcases Nat.lt_or_eq_of_le hMost with hLess | rfl
  · -- The longest gap fails, so only a colon stands behind it,
    -- and the expression is white space.
    have hEnd := hLonger (indentOf cs) hLess (Nat.le_refl _)
    have hLineEnd : '\n' ∉ trimStart cs :=
      fun hMember =>
        hLine ((List.dropWhile_suffix _).subset hMember)
    have hColon :=
      beforeLastColon?_of_shorter hLineEnd hMost hFront
        (hFromEnd ▸ hEnd)
    rcases exists_of_beforeLastColon? hColon with
      ⟨dropped, hRest, hLast⟩
    rw [drop_of_le_indentOf hMost, hRest, List.nil_append,
      beforeLastColon?_of_notMem hLast] at hFront
    rcases Option.some.inj hFront with rfl
    rw [trim_of_isSpace (isSpace_of_mem_indent n)]
    have hMore : n < indentOf cs := hLess
    exact headerExpression?_of_nil hColon (by omega)
  · rw [← indentOf, hFromEnd] at hFront
    exact headerExpression?_of_ne_nil hFront hSome hLeast

------------------------------------------------------------
-- Headers
------------------------------------------------------------

section Headers

variable {cs : List Char}
variable (hLine : '\n' ∉ cs)
variable {found : List (List Char)}

include hLine

theorem exists_of_captures?_function
    (hFound : captures? functionPattern cs = some found) :
    ∃ name list,
      found = [name, list] ∧
        functionHeader? cs =
          some (String.ofList name, commaList list) := by
  rcases exists_of_captures?_blanks (refuses_text (by decide))
      hFound with
    ⟨_, hStart⟩
  rcases exists_of_captures?_text hStart with
    ⟨rest, hDef, hName⟩
  rcases exists_of_captures?_blanks (refuses_wordPiece _) hName with
    ⟨hIndent, hName⟩
  rcases exists_of_captures?_word
      (refuses_blanks 0 (refuses_text (by decide))) hName with
    ⟨hNamed, others, hOthers, rfl⟩
  rcases exists_of_captures?_blanks (refuses_text (by decide))
      hOthers with
    ⟨_, hOpening⟩
  rcases exists_of_captures?_text hOpening with
    ⟨tail, hOpen, hList⟩
  have hTail : tail <:+ cs :=
    (suffix_of_after?_word hOpen).trans
      ((suffix_of_after? hDef).trans (List.dropWhile_suffix _))
  have hTailLine := newline_notMem_of_isInfix hTail.isInfix hLine
  rcases Option.map_eq_some_iff.mp
      ((captures?_parameters hTailLine).symm.trans hList) with
    ⟨list, hParameters, rfl⟩
  refine ⟨_, list, rfl, ?_⟩
  simp only [functionHeader?, Option.bind_eq_bind,
    Option.bind_eq_some_iff, Option.guard_eq_some',
    Option.pure_def]
  exact
    ⟨rest, hDef, (), hIndent, (), hNamed, tail, hOpen, list,
      hParameters, rfl⟩

theorem exists_of_captures?_condition
    (hFound : captures? conditionPattern cs = some found) :
    ∃ text,
      found = [text] ∧
        condition? cs = some (String.ofList (trim text)) := by
  rcases exists_of_captures?_text hFound with
    ⟨rest, hIf, hExpression⟩
  have hRest :=
    newline_notMem_of_isInfix (suffix_of_after? hIf).isInfix hLine
  rcases exists_of_captures?_expression hRest hExpression with
    ⟨text, rfl, hRead⟩
  have hIf' : after? ['i', 'f'] cs = some rest := hIf
  refine ⟨text, rfl, ?_⟩
  rw [condition?, hIf']
  exact hRead

theorem exists_of_captures?_loop
    (hFound : captures? loopPattern cs = some found) :
    ∃ name text,
      found = [name, text] ∧
        loopHeader? cs =
          some (String.ofList name, String.ofList (trim text)) := by
  rcases exists_of_captures?_text hFound with ⟨rest, hFor, hName⟩
  rcases exists_of_captures?_blanks (refuses_wordPiece _) hName with
    ⟨hIndent, hName⟩
  rcases exists_of_captures?_word
      (refuses_run (fun _ => isSpace_of_isWord) Nat.one_pos)
      hName with
    ⟨hNamed, others, hOthers, rfl⟩
  rcases exists_of_captures?_blanks (refuses_text (by decide))
      hOthers with
    ⟨hGap, hKeyword⟩
  rcases exists_of_captures?_text hKeyword with
    ⟨tail, hAfter, hExpression⟩
  have hTail : tail <:+ cs :=
    (suffix_of_after?_word hAfter).trans (suffix_of_after? hFor)
  have hTailLine := newline_notMem_of_isInfix hTail.isInfix hLine
  rcases exists_of_captures?_expression hTailLine hExpression with
    ⟨text, rfl, hRead⟩
  refine ⟨_, text, rfl, ?_⟩
  simp only [loopHeader?, Option.bind_eq_bind,
    Option.bind_eq_some_iff, Option.guard_eq_some',
    Option.pure_def]
  exact
    ⟨rest, hFor, (), hIndent, (), hNamed, (), hGap, tail, hAfter, _,
      hRead, rfl⟩

end Headers

end Source

end BlockProgram
