import BlockProgram.Proofs.Text.Cuts
import BlockProgram.Proofs.Text.Runs

/-
  Patterns at the front of a text.

  A pattern is a row of fixed texts and of runs of characters
  of a kind.  The lengths that a run can have are tried one
  after another, and the first with which the rest of the
  pattern can go on is taken.  A greedy run tries its longest
  length first, and any other run its shortest.

  Main declarations:
    * `Text.Piece`
    * `Text.captures?`
    * `Text.captures?_longest`
    * `Text.exists_of_captures?_greedy`
    * `Text.captures?_run_of_refuses`
    * `Text.captures?_shortest_cons`
-/

namespace BlockProgram

namespace Text

------------------------------------------------------------
-- Patterns
------------------------------------------------------------

/-
  A part of a pattern.  The characters that a captured run
  goes over are told.
-/
inductive Piece where
  /- A fixed text. -/
  | text (front : List Char)
  /- At least so many characters of a kind. -/
  | run
      (kind : Char → Bool)
      (least : Nat)
      (greedy captured : Bool)

/- The lengths of a run, from the one that is tried first. -/
def runLengths
    (kind : Char → Bool)
    (least : Nat)
    (greedy : Bool)
    (cs : List Char) : List Nat :=
  let longest := (cs.takeWhile kind).length
  let lengths := List.range' least (longest + 1 - least)
  if greedy then lengths.reverse else lengths

/-
  What the captured runs of a pattern go over at the front of
  a text, when the text begins as the pattern says.
-/
def captures? :
    List Piece →
    List Char →
    Option (List (List Char))
  | [], _ => some []
  | .text front :: pieces, cs =>
      (after? front cs).bind (captures? pieces)
  | .run kind least greedy captured :: pieces, cs =>
      (runLengths kind least greedy cs).findSome? fun n =>
        (captures? pieces (cs.drop n)).map fun found =>
          if captured then cs.take n :: found else found

------------------------------------------------------------
-- Runs Of A Pattern
------------------------------------------------------------

section Runs

variable {kind : Char → Bool}
variable {least : Nat}
variable {greedy captured : Bool}
variable {pieces : List Piece}
variable {cs : List Char}

theorem mem_runLengths
    {n : Nat} :
    n ∈ runLengths kind least greedy cs ↔
      least ≤ n ∧ n ≤ (cs.takeWhile kind).length := by
  unfold runLengths
  cases greedy <;>
    simp only [Bool.false_eq_true, ↓reduceIte, List.mem_reverse,
      List.mem_range'_1] <;>
    omega

/- No length of a run lets the pattern go on. -/
theorem captures?_run_eq_none
    (hNone :
      ∀ n,
        least ≤ n →
          n ≤ (cs.takeWhile kind).length →
            captures? pieces (cs.drop n) = none) :
    captures? (.run kind least greedy captured :: pieces) cs =
      none := by
  rw [captures?, List.findSome?_eq_none_iff]
  intro n hn
  rcases mem_runLengths.mp hn with ⟨hLeast, hMost⟩
  rw [hNone n hLeast hMost, Option.map_none]

/- A greedy run has the longest length that goes on. -/
theorem captures?_longest
    {n : Nat}
    {found : List (List Char)}
    (hLeast : least ≤ n)
    (hMost : n ≤ (cs.takeWhile kind).length)
    (hFound : captures? pieces (cs.drop n) = some found)
    (hLonger :
      ∀ m,
        n < m →
          m ≤ (cs.takeWhile kind).length →
            captures? pieces (cs.drop m) = none) :
    captures? (.run kind least true captured :: pieces) cs =
      some (if captured then cs.take n :: found else found) := by
  have hSplit :
      runLengths kind least true cs =
        (List.range' (n + 1)
              ((cs.takeWhile kind).length - n)).reverse ++
          n :: (List.range' least (n - least)).reverse := by
    rw [← List.reverse_inj]
    simp only [runLengths, ↓reduceIte, List.reverse_append,
      List.reverse_cons, List.reverse_reverse, List.append_assoc,
      List.singleton_append]
    have hCount :
        (cs.takeWhile kind).length + 1 - least =
          (n - least) + (1 + ((cs.takeWhile kind).length - n)) := by
      omega
    have hNext : least + (n - least) = n := by
      omega
    rw [hCount, List.range'_append_1.symm, hNext,
      Nat.add_comm 1, List.range'_succ]
  rw [captures?, List.findSome?_eq_some_iff]
  refine ⟨_, n, _, hSplit, ?_, ?_⟩
  · rw [hFound, Option.map_some]
  · intro m hm
    rw [List.mem_reverse, List.mem_range'_1] at hm
    rw [hLonger m (by omega) (by omega), Option.map_none]

/- No longer length than that of a greedy run goes on. -/
theorem exists_of_captures?_greedy
    {found : List (List Char)}
    (hFound :
      captures? (.run kind least true captured :: pieces) cs =
        some found) :
    ∃ n others,
      least ≤ n ∧
        n ≤ (cs.takeWhile kind).length ∧
          captures? pieces (cs.drop n) = some others ∧
            found =
                (if captured then cs.take n :: others
                else others) ∧
              ∀ m,
                n < m →
                  m ≤ (cs.takeWhile kind).length →
                    captures? pieces (cs.drop m) = none := by
  have hDescending :
      (runLengths kind least true cs).Pairwise (· > ·) := by
    rw [runLengths, if_pos rfl, List.pairwise_reverse]
    exact List.pairwise_lt_range'
  rw [captures?, List.findSome?_eq_some_iff] at hFound
  rcases hFound with ⟨longer, n, shorter, hSplit, hHere, hLonger⟩
  rcases Option.map_eq_some_iff.mp hHere with
    ⟨others, hOthers, rfl⟩
  have hMember : n ∈ runLengths kind least true cs := by
    simp [hSplit]
  rcases mem_runLengths.mp hMember with ⟨hLeast, hMost⟩
  refine ⟨n, others, hLeast, hMost, hOthers, rfl, ?_⟩
  intro m hMore hWithin
  have hTried : m ∈ runLengths kind least true cs :=
    mem_runLengths.mpr ⟨by omega, hWithin⟩
  rw [hSplit] at hTried hDescending
  rcases List.mem_append.mp hTried with hBefore | hAfter
  · exact Option.map_eq_none_iff.mp (hLonger m hBefore)
  · rcases List.mem_cons.mp hAfter with rfl | hShorter
    · omega
    · rw [List.pairwise_append, List.pairwise_cons]
        at hDescending
      have hLess := hDescending.2.1.1 m hShorter
      omega

/- The pattern does not go on with a character of the kind. -/
def Refuses
    (kind : Char → Bool)
    (pieces : List Piece) : Prop :=
  ∀ c cs, kind c = true → captures? pieces (c :: cs) = none

theorem refuses_text
    {c : Char}
    {front : List Char}
    (hFirst : kind c = false) :
    Refuses kind (.text (c :: front) :: pieces) := by
  intro d ds hKind
  have hNe : c ≠ d := by
    rintro rfl
    rw [hKind] at hFirst
    cases hFirst
  simp [captures?, after?, hNe]

/- A run of other characters that cannot be empty. -/
theorem refuses_run
    {other : Char → Bool}
    (hOther : ∀ c, kind c = true → other c = false)
    (hLeast : 0 < least) :
    Refuses kind
      (.run other least greedy captured :: pieces) := by
  intro c cs hKind
  apply captures?_run_eq_none
  intro n hMore hMost
  simp only [hOther c hKind, List.takeWhile_cons,
    Bool.false_eq_true, ↓reduceIte, List.length_nil] at hMost
  omega

/- A run of other characters, before a piece that refuses. -/
theorem refuses_run_of_refuses
    {other : Char → Bool}
    (hOther : ∀ c, kind c = true → other c = false)
    (hRest : Refuses kind pieces) :
    Refuses kind
      (.run other least greedy captured :: pieces) := by
  intro c cs hKind
  apply captures?_run_eq_none
  intro n hMore hMost
  simp only [hOther c hKind, List.takeWhile_cons,
    Bool.false_eq_true, ↓reduceIte, List.length_nil,
    Nat.le_zero] at hMost
  rw [hMost, List.drop_zero]
  exact hRest c cs hKind

/-
  A greedy run before a piece that refuses its characters has
  one length at most: it goes over all of them.
-/
theorem captures?_run_of_refuses
    (hRefuses : Refuses kind pieces) :
    captures? (.run kind least true captured :: pieces) cs =
      if least ≤ (cs.takeWhile kind).length then
        (captures? pieces (cs.dropWhile kind)).map fun found =>
          if captured then cs.takeWhile kind :: found else found
      else none := by
  have hAll :
      cs.takeWhile kind ++ cs.dropWhile kind = cs :=
    List.takeWhile_append_dropWhile
  have hKind : ∀ c ∈ cs.takeWhile kind, kind c = true :=
    List.all_eq_true.mp List.all_takeWhile
  generalize hRun : cs.takeWhile kind = run at *
  generalize cs.dropWhile kind = rest at *
  have hShorter (m : Nat) (hm : m < run.length) :
      captures? pieces (cs.drop m) = none := by
    rw [← hAll, List.drop_append_of_le_length (Nat.le_of_lt hm),
      List.drop_eq_getElem_cons hm]
    exact hRefuses _ _ (hKind _ (List.getElem_mem hm))
  have hDrop : cs.drop run.length = rest := by
    rw [← hAll, List.drop_left]
  have hTake : cs.take run.length = run := by
    rw [← hAll, List.take_left]
  split
  · next hLeast =>
      cases hFound : captures? pieces rest with
      | some found =>
          have hLongest :
              captures? (.run kind least true captured :: pieces)
                  cs =
                some
                  (if captured then cs.take run.length :: found
                  else found) :=
            captures?_longest hLeast
              (Nat.le_of_eq (by rw [hRun])) (hDrop.symm ▸ hFound)
              fun m hLonger hMost => by
                rw [hRun] at hMost
                omega
          rw [hLongest, hTake, Option.map_some]
      | none =>
          apply captures?_run_eq_none
          intro m _ hMost
          rw [hRun] at hMost
          rcases Nat.lt_or_eq_of_le hMost with hLess | rfl
          · exact hShorter m hLess
          · rw [hDrop, hFound]
  · next hMore =>
      apply captures?_run_eq_none
      intro m hLeast hMost
      rw [hRun] at hMost
      omega

/-
  A run that tries its shortest length first: it is empty if
  the pattern goes on at once, and has a first character and
  then is such a run again if not.
-/
theorem captures?_shortest_cons
    {c : Char}
    (hKind : kind c = true) :
    captures? (.run kind 0 false true :: pieces) (c :: cs) =
      ((captures? pieces (c :: cs)).map ([] :: ·)).or
        ((captures? (.run kind 0 false true :: pieces) cs).map
          (List.modifyHead (c :: ·))) := by
  have hLengths :
      runLengths kind 0 false (c :: cs) =
        0 :: (runLengths kind 0 false cs).map (· + 1) := by
    simp only [runLengths, Bool.false_eq_true, ↓reduceIte,
      List.takeWhile_cons, hKind, List.length_cons, Nat.sub_zero,
      ← List.range_eq_range', List.range_succ_eq_map]
  rw [captures?, hLengths, List.findSome?_cons, captures?,
    List.drop_zero, List.take_zero]
  cases captures? pieces (c :: cs) with
  | some found => simp
  | none =>
      simp only [Option.map_none, Option.none_or, ↓reduceIte,
        List.map_findSome?, List.findSome?_map]
      simp [Function.comp_def]

theorem captures?_shortest_nil :
    captures? (.run kind 0 false true :: pieces) [] =
      (captures? pieces []).map ([] :: ·) := by
  simp [captures?, runLengths]

end Runs

end Text

end BlockProgram
