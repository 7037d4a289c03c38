/-
  Runs of items of one kind at the front of a list, and the
  pieces of a list between separators.

  Main declarations:
    * `Text.takeWhile_append_stop`
    * `Text.dropWhile_append_stop`
    * `Text.notMem_of_run`
    * `Text.append_stop_inj`
    * `Text.piece_of_mem_splitOn`
-/

namespace BlockProgram

namespace Text

------------------------------------------------------------
-- Runs
------------------------------------------------------------

variable {α : Type}
variable {p : α → Bool}

/- A run ends before an item of another kind. -/
theorem takeWhile_append_stop
    {run rest : List α}
    (hRun : ∀ c ∈ run, p c = true)
    (hStop : ∀ c ∈ rest.head?, p c = false) :
    (run ++ rest).takeWhile p = run := by
  rw [List.takeWhile_append_of_pos hRun]
  cases rest with
  | nil => simp
  | cons c rest => simp [hStop c (by simp)]

theorem dropWhile_append_stop
    {run rest : List α}
    (hRun : ∀ c ∈ run, p c = true)
    (hStop : ∀ c ∈ rest.head?, p c = false) :
    (run ++ rest).dropWhile p = rest := by
  rw [List.dropWhile_append_of_pos hRun]
  cases rest with
  | nil => simp
  | cons c rest => simp [hStop c (by simp)]

/- An item of another kind is not in a run. -/
theorem notMem_of_run
    {run : List α}
    {d : α}
    (hRun : ∀ c ∈ run, p c = true)
    (hOther : p d = false) :
    d ∉ run := by
  intro hMember
  rw [hRun d hMember] at hOther
  cases hOther

/- Two lists that agree begin with the same run. -/
theorem append_stop_inj
    {run run' rest rest' : List α}
    (hRun : ∀ c ∈ run, p c = true)
    (hRun' : ∀ c ∈ run', p c = true)
    (hStop : ∀ c ∈ rest.head?, p c = false)
    (hStop' : ∀ c ∈ rest'.head?, p c = false)
    (hEq : run ++ rest = run' ++ rest') :
    run = run' ∧ rest = rest' := by
  constructor
  · rw [← takeWhile_append_stop hRun hStop, hEq,
      takeWhile_append_stop hRun' hStop']
  · rw [← dropWhile_append_stop hRun hStop, hEq,
      dropWhile_append_stop hRun' hStop']

------------------------------------------------------------
-- Pieces
------------------------------------------------------------

/-
  A piece between separators is a part of the list, and has
  no separator in it.  `sofar` is the part of the first piece
  that has been passed.
-/
theorem piece_of_mem_splitOn
    [DecidableEq α]
    {separator : α}
    (sofar rest : List α)
    (hSofar : separator ∉ sofar)
    {piece : List α}
    (hPiece : piece ∈ (sofar ++ rest).splitOn separator) :
    separator ∉ piece ∧ piece <:+: sofar ++ rest := by
  induction rest generalizing sofar with
  | nil =>
      rw [List.append_nil, List.splitOn_eq_singleton hSofar,
        List.mem_singleton] at hPiece
      subst hPiece
      exact ⟨hSofar, by simp⟩
  | cons c cs ih =>
      by_cases hSeparator : c = separator
      · subst hSeparator
        rw [List.splitOn_append_cons_self_of_not_mem hSofar,
          List.mem_cons] at hPiece
        rcases hPiece with rfl | hPiece
        · exact ⟨hSofar, (List.prefix_append _ _).isInfix⟩
        · rcases ih [] (by simp) hPiece with ⟨hFree, hInfix⟩
          refine ⟨hFree, hInfix.trans ?_⟩
          exact
            (List.suffix_cons c cs).isInfix.trans
              (List.suffix_append sofar (c :: cs)).isInfix
      · have hNext :=
          ih (sofar ++ [c]) (by simp [hSofar, Ne.symm hSeparator])
            (by simpa using hPiece)
        simpa using hNext

end Text

end BlockProgram
