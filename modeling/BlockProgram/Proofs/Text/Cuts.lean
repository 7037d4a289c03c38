import BlockProgram.Text.Space

/-
  How texts are put together again from their cuts.

  Trimming takes a run of white space from each end, so a
  text without white space at its ends is found again inside
  any white space that is put around it.

  Main declarations:
    * `Text.IsTrimmed`
    * `Text.trim_eq_self`
    * `Text.trim_between`
    * `Text.isTrimmed_trim`
    * `Text.exists_indent_append_trim`
    * `Text.after?_eq_some_iff`
-/

namespace BlockProgram

namespace Text

------------------------------------------------------------
-- Trimmed Texts
------------------------------------------------------------

/- White space stands at neither end. -/
def IsTrimmed (cs : List Char) : Prop :=
  (∀ c ∈ cs.head?, isSpace c = false) ∧
    ∀ c ∈ cs.getLast?, isSpace c = false

/- Only the two ends are looked at, and not every character. -/
instance (cs : List Char) : Decidable (IsTrimmed cs) :=
  @instDecidableAnd _ _
    (Option.decidableForallMem _) (Option.decidableForallMem _)

theorem isTrimmed_nil : IsTrimmed [] := by
  simp [IsTrimmed]

theorem isSpace_of_mem_blank : ∀ c ∈ [' '], isSpace c = true :=
  List.forall_mem_singleton.mpr rfl

/- A text of several characters, by its first and last one. -/
theorem isTrimmed_of_ends
    {c d : Char}
    {cs : List Char}
    (hFirst : isSpace c = false)
    (hLast : isSpace d = false) :
    IsTrimmed (c :: (cs ++ [d])) := by
  constructor
  · simpa using hFirst
  · intro e hLastChar
    rw [← List.cons_append, List.getLast?_concat] at hLastChar
    rcases Option.some.inj hLastChar with rfl
    exact hLast

/- A run of white space at the front is dropped. -/
theorem trimStart_append
    {gap cs : List Char}
    (hGap : ∀ c ∈ gap, isSpace c = true) :
    trimStart (gap ++ cs) = trimStart cs := by
  unfold trimStart
  exact List.dropWhile_append_of_pos hGap

theorem trimStart_eq_self
    {cs : List Char}
    (hFirst : ∀ c ∈ cs.head?, isSpace c = false) :
    trimStart cs = cs := by
  cases cs with
  | nil => rfl
  | cons c cs =>
      unfold trimStart
      exact
        List.dropWhile_cons_of_neg
          (by simpa using hFirst c (by simp))

theorem trimEnd_eq_self
    {cs : List Char}
    (hLast : ∀ c ∈ cs.getLast?, isSpace c = false) :
    trimEnd cs = cs := by
  have hReversed : trimStart cs.reverse = cs.reverse :=
    trimStart_eq_self (by simpa using hLast)
  unfold trimStart at hReversed
  rw [trimEnd, hReversed, List.reverse_reverse]

theorem trimEnd_append
    {gap cs : List Char}
    (hGap : ∀ c ∈ gap, isSpace c = true) :
    trimEnd (cs ++ gap) = trimEnd cs := by
  unfold trimEnd
  rw [List.reverse_append,
    List.dropWhile_append_of_pos
      fun c hc => hGap c (List.mem_reverse.mp hc)]

/- Nothing is trimmed from a trimmed text. -/
theorem trim_eq_self
    {cs : List Char}
    (h : IsTrimmed cs) :
    trim cs = cs := by
  rw [trim, trimStart_eq_self h.1, trimEnd_eq_self h.2]

/- The white space around a trimmed text is trimmed away. -/
theorem trim_between
    {before cs after : List Char}
    (hBefore : ∀ c ∈ before, isSpace c = true)
    (hAfter : ∀ c ∈ after, isSpace c = true)
    (h : IsTrimmed cs) :
    trim (before ++ cs ++ after) = cs := by
  rw [trim, List.append_assoc, trimStart_append hBefore]
  cases cs with
  | nil =>
      have hNothing : trimStart after = [] := by
        have hDropped : trimStart (after ++ []) = trimStart [] :=
          trimStart_append hAfter
        simpa [trimStart] using hDropped
      rw [List.nil_append, hNothing]
      rfl
  | cons c cs =>
      rw [trimStart_eq_self (by simpa using h.1),
        trimEnd_append hAfter, trimEnd_eq_self h.2]

------------------------------------------------------------
-- What Trimming Takes
------------------------------------------------------------

theorem head?_trimStart
    {cs : List Char}
    {c : Char}
    (hFirst : c ∈ (trimStart cs).head?) :
    isSpace c = false := by
  have hNot := List.head?_dropWhile_not isSpace cs
  unfold trimStart at hFirst
  rw [Option.mem_def] at hFirst
  simpa [hFirst] using hNot

/- Trimming takes white space and nothing else. -/
theorem exists_append_trim (cs : List Char) :
    ∃ before after,
      (∀ c ∈ before, isSpace c = true) ∧
        (∀ c ∈ after, isSpace c = true) ∧
          cs = before ++ trim cs ++ after := by
  have hAll :
      ∀ ds : List Char, ∀ c ∈ ds.takeWhile isSpace,
        isSpace c = true := by
    intro ds c hc
    have hTaken : (ds.takeWhile isSpace).all isSpace = true :=
      List.all_takeWhile
    exact List.all_eq_true.mp hTaken c hc
  refine
    ⟨cs.takeWhile isSpace,
      ((trimStart cs).reverse.takeWhile isSpace).reverse,
      hAll cs, ?_, ?_⟩
  · intro c hc
    exact hAll _ c (List.mem_reverse.mp hc)
  · have hEnd :
        trim cs ++
            ((trimStart cs).reverse.takeWhile isSpace).reverse =
          trimStart cs := by
      rw [trim, trimEnd, ← List.reverse_append,
        List.takeWhile_append_dropWhile, List.reverse_reverse]
    rw [List.append_assoc, hEnd, trimStart,
      List.takeWhile_append_dropWhile]

/- What is left is trimmed. -/
theorem isTrimmed_trim (cs : List Char) : IsTrimmed (trim cs) := by
  constructor
  · intro c hc
    -- The first character left is the first one kept before.
    have hPrefix : trim cs <+: trimStart cs := by
      rw [trim, trimEnd, ← List.reverse_suffix,
        List.reverse_reverse]
      exact List.dropWhile_suffix isSpace
    rcases hPrefix with ⟨after, hAfter⟩
    refine head?_trimStart (?_ : c ∈ (trimStart cs).head?)
    rw [← hAfter]
    cases hTrim : trim cs with
    | nil => simp [hTrim] at hc
    | cons d ds => simpa [hTrim] using hc
  · intro c hc
    have hReversed :
        c ∈ (trimStart (trimStart cs).reverse).head? := by
      simpa [trim, trimEnd, trimStart] using hc
    exact head?_trimStart hReversed

/- What is left is a piece of the text. -/
theorem isInfix_trim (cs : List Char) : trim cs <:+: cs := by
  rcases exists_append_trim cs with ⟨before, after, _, _, h⟩
  exact ⟨before, after, h.symm⟩

/- White space around a text is no matter to trimming it. -/
theorem trim_append
    {before cs after : List Char}
    (hBefore : ∀ c ∈ before, isSpace c = true)
    (hAfter : ∀ c ∈ after, isSpace c = true) :
    trim (before ++ cs ++ after) = trim cs := by
  rcases exists_append_trim cs with ⟨l, r, hL, hR, h⟩
  have hCut :
      before ++ cs ++ after =
        (before ++ l) ++ trim cs ++ (r ++ after) := by
    conv => lhs; rw [h]
    simp only [List.append_assoc]
  rw [hCut]
  apply trim_between _ _ (isTrimmed_trim cs)
  · intro c hc
    rcases List.mem_append.mp hc with hc | hc
    · exact hBefore c hc
    · exact hL c hc
  · intro c hc
    rcases List.mem_append.mp hc with hc | hc
    · exact hR c hc
    · exact hAfter c hc

------------------------------------------------------------
-- Indents
------------------------------------------------------------

/- The indent is the white space put before a text. -/
theorem indentOf_append
    {gap cs : List Char}
    (hGap : ∀ c ∈ gap, isSpace c = true)
    (hFirst : ∀ c ∈ cs.head?, isSpace c = false) :
    indentOf (gap ++ cs) = gap.length := by
  have hNone : cs.takeWhile isSpace = [] := by
    cases cs with
    | nil => rfl
    | cons c cs =>
        exact
          List.takeWhile_cons_of_neg
            (by simpa using hFirst c (by simp))
  unfold indentOf
  rw [List.takeWhile_append_of_pos hGap, hNone, List.append_nil]

/- The same with a trimmed text, and anything behind it. -/
theorem indentOf_append_trim
    {gap cs : List Char}
    (hGap : ∀ c ∈ gap, isSpace c = true)
    (hSome : trim cs ≠ [])
    (rest : List Char) :
    indentOf (gap ++ (trim cs ++ rest)) = gap.length := by
  rcases List.exists_cons_of_ne_nil hSome with ⟨d, ds, hTrim⟩
  have hFirst : isSpace d = false :=
    (isTrimmed_trim cs).1 d (by simp [hTrim])
  apply indentOf_append hGap
  simpa [hTrim] using hFirst

/- A text that is not blank, cut behind its indent. -/
theorem exists_indent_append_trim
    {cs : List Char}
    (hSome : trim cs ≠ []) :
    ∃ gap after,
      (∀ c ∈ gap, isSpace c = true) ∧
        (∀ c ∈ after, isSpace c = true) ∧
          gap.length = indentOf cs ∧
            cs = gap ++ trim cs ++ after := by
  rcases exists_append_trim cs with
    ⟨gap, after, hGap, hAfter, hText⟩
  have hIndent := indentOf_append_trim hGap hSome after
  rw [← List.append_assoc, ← hText] at hIndent
  exact ⟨gap, after, hGap, hAfter, hIndent.symm, hText⟩

/- What follows a text that is not blank is not its indent. -/
theorem indentOf_append_of_trim_ne_nil
    {cs : List Char}
    (hSome : trim cs ≠ [])
    (rest : List Char) :
    indentOf (cs ++ rest) = indentOf cs := by
  rcases exists_indent_append_trim hSome with
    ⟨gap, after, hGap, _, hLength, hText⟩
  have hWhole :
      cs ++ rest = gap ++ (trim cs ++ (after ++ rest)) := by
    conv => lhs; rw [hText]
    simp only [List.append_assoc]
  rw [hWhole, indentOf_append_trim hGap hSome, hLength]

------------------------------------------------------------
-- Fixed Texts At The Front
------------------------------------------------------------

/- What follows a fixed text is what it was put before. -/
theorem after?_eq_some_iff
    {front cs rest : List Char} :
    after? front cs = some rest ↔ cs = front ++ rest := by
  fun_induction after? front cs with
  | case1 cs => simp
  | case2 => simp
  | case3 c fs cs ih => simpa using ih
  | case4 f fs c cs hNe =>
      simp only [reduceCtorEq, List.cons_append,
        List.cons.injEq, false_iff, not_and]
      intro hEq
      exact absurd hEq.symm hNe

theorem startsWith_iff
    {front : String}
    {cs : List Char} :
    startsWith front cs = true ↔
      ∃ rest, cs = front.toList ++ rest := by
  simp only [startsWith, Option.isSome_iff_exists,
    after?_eq_some_iff]

end Text

end BlockProgram
