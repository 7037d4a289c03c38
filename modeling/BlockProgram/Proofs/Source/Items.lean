import BlockProgram.Proofs.Text.Cuts
import BlockProgram.Proofs.Text.Runs
import BlockProgram.Source.Statement

/-
  Lists of texts between commas.

  A list that was read from a text is written and read again
  without loss.  The same holds of any list of trimmed texts
  without commas, except the list of one empty text, which
  is written like no list at all.

  Main declarations:
    * `Source.AreItems`
    * `Source.commaList_intercalate`
    * `Source.areItems_commaList`
    * `Source.infix_of_mem_commaList`
-/

namespace BlockProgram

namespace Source

open Text

------------------------------------------------------------
-- Items
------------------------------------------------------------

/- Texts that can stand between commas. -/
def AreItems (items : List String) : Prop :=
  items ≠ [""] ∧
    ∀ x ∈ items, IsTrimmed x.toList ∧ ',' ∉ x.toList

instance (items : List String) : Decidable (AreItems items) :=
  @instDecidableAnd _ _ inferInstance (List.decidableBAll _ _)

------------------------------------------------------------
-- Pieces Of A Text
------------------------------------------------------------

theorem isSpace_comma : isSpace ',' = false := by
  decide

theorem comma_notMem_of_space
    {gap : List Char}
    (hGap : ∀ c ∈ gap, isSpace c = true) :
    ',' ∉ gap :=
  notMem_of_run hGap isSpace_comma

/-
  White space around a text is trimmed from its outer pieces.
  `sofar` is the part of the first piece that has been read.
-/
theorem map_trim_splitOn_between
    {before after : List Char}
    (hBefore : ∀ c ∈ before, isSpace c = true)
    (hAfter : ∀ c ∈ after, isSpace c = true)
    (sofar cs : List Char)
    (hSofar : ',' ∉ sofar) :
    ((before ++ (sofar ++ cs) ++ after).splitOn ',').map trim =
      ((sofar ++ cs).splitOn ',').map trim := by
  induction cs generalizing before sofar with
  | nil =>
      have hWhole : ',' ∉ before ++ sofar ++ after := by
        simp [hSofar, comma_notMem_of_space hBefore,
          comma_notMem_of_space hAfter]
      rw [List.append_nil, List.splitOn_eq_singleton hSofar,
        List.splitOn_eq_singleton hWhole, List.map_singleton,
        trim_append hBefore hAfter, List.map_singleton]
  | cons c cs ih =>
      by_cases hComma : c = ','
      · subst hComma
        have hFirst : ',' ∉ before ++ sofar := by
          simp [hSofar, comma_notMem_of_space hBefore]
        have hCut :
            before ++ (sofar ++ ',' :: cs) ++ after =
              (before ++ sofar) ++ ',' :: (cs ++ after) := by
          simp
        have hTrim : trim (before ++ sofar) = trim sofar := by
          simpa using
            trim_append hBefore (List.forall_mem_nil _)
        have hRest := ih (List.forall_mem_nil _) [] (by simp)
        rw [hCut, List.splitOn_append_cons_self_of_not_mem hFirst,
          List.splitOn_append_cons_self_of_not_mem hSofar]
        simp only [List.map_cons, hTrim]
        simpa using hRest
      · have hNext := ih hBefore (sofar ++ [c]) (by
          simp [hSofar, Ne.symm hComma])
        simpa using hNext

------------------------------------------------------------
-- Reading And Writing Lists
------------------------------------------------------------

/- The pieces of a list text are its items again. -/
theorem map_trim_splitOn_intercalate
    {items : List String}
    (hNonempty : items ≠ [])
    (hItems : ∀ x ∈ items, IsTrimmed x.toList ∧ ',' ∉ x.toList) :
    ((", ".intercalate items).toList.splitOn ',').map
        (fun piece => String.ofList (trim piece)) =
      items := by
  induction items with
  | nil => exact absurd rfl hNonempty
  | cons x items ih =>
      rcases hItems x List.mem_cons_self with ⟨hTrimmed, hFree⟩
      cases items with
      | nil =>
          rw [String.intercalate_singleton,
            List.splitOn_eq_singleton hFree]
          simp [trim_eq_self hTrimmed]
      | cons y items =>
          have hRest :=
            ih (by simp) fun z hz =>
              hItems z (List.mem_cons_of_mem x hz)
          have hText :
              (", ".intercalate (x :: y :: items)).toList =
                x.toList ++
                  ',' ::
                    ([' '] ++
                        ([] ++
                          (", ".intercalate (y :: items)).toList) ++
                      []) := by
            simp
          have hSpaces :=
            map_trim_splitOn_between
              isSpace_of_mem_blank (List.forall_mem_nil _) []
              (", ".intercalate (y :: items)).toList (by simp)
          have hPieces :=
            congrArg (List.map String.ofList) hSpaces
          simp only [List.map_map] at hPieces
          rw [hText, List.splitOn_append_cons_self_of_not_mem hFree,
            List.map_cons, trim_eq_self hTrimmed,
            String.ofList_toList]
          congr 1
          exact hPieces.trans hRest

/- A list of items is read from its own text. -/
theorem commaList_intercalate
    {items : List String}
    (hItems : AreItems items) :
    commaList (", ".intercalate items).toList = items := by
  rcases hItems with ⟨hNotBlank, hEach⟩
  unfold commaList
  by_cases hBlank : trim (", ".intercalate items).toList = []
  · rw [hBlank]
    cases items with
    | nil => rfl
    | cons x items =>
        exfalso
        have hPieces :=
          map_trim_splitOn_intercalate
            (List.cons_ne_nil x items) hEach
        rcases exists_append_trim
            (", ".intercalate (x :: items)).toList with
          ⟨before, after, hBefore, hAfter, hText⟩
        have hSpace :
            ',' ∉ (", ".intercalate (x :: items)).toList := by
          rw [hText, hBlank]
          simp [comma_notMem_of_space hBefore,
            comma_notMem_of_space hAfter]
        rw [List.splitOn_eq_singleton hSpace] at hPieces
        simp only [List.map_cons, List.map_nil, hBlank] at hPieces
        exact hNotBlank hPieces.symm
  · have hSome :
        (trim (", ".intercalate items).toList).isEmpty =
          false := by
      simpa using hBlank
    rw [hSome, if_neg (by simp)]
    have hNonempty : items ≠ [] := by
      rintro rfl
      exact hBlank rfl
    rcases exists_append_trim (", ".intercalate items).toList with
      ⟨before, after, hBefore, hAfter, hText⟩
    have hSpaces :=
      map_trim_splitOn_between hBefore hAfter []
        (trim (", ".intercalate items).toList) (by simp)
    rw [List.nil_append, ← hText] at hSpaces
    have hPieces := congrArg (List.map String.ofList) hSpaces
    simp only [List.map_map] at hPieces
    exact
      hPieces.symm.trans
        (map_trim_splitOn_intercalate hNonempty hEach)

/- What is read from a text is a list of items. -/
theorem areItems_commaList (cs : List Char) :
    AreItems (commaList cs) := by
  unfold commaList
  by_cases hBlank : (trim cs).isEmpty
  · simp [hBlank, AreItems]
  · rw [if_neg hBlank]
    constructor
    · intro hSingle
      rw [List.map_eq_singleton_iff] at hSingle
      rcases hSingle with ⟨piece, hPiece, hEmpty⟩
      have hWhole :
          [','].intercalate ((trim cs).splitOn ',') = trim cs :=
        List.intercalate_splitOn ','
      rw [hPiece, List.intercalate_singleton] at hWhole
      subst hWhole
      apply hBlank
      have hTrim := trim_eq_self (isTrimmed_trim cs)
      rw [hTrim] at hEmpty
      simpa using hEmpty
    · intro x hx
      rcases List.mem_map.mp hx with ⟨piece, hPiece, rfl⟩
      rcases piece_of_mem_splitOn [] (trim cs) (by simp) hPiece with
        ⟨hFree, _⟩
      rw [String.toList_ofList]
      exact
        ⟨isTrimmed_trim piece,
          fun h => hFree ((isInfix_trim piece).subset h)⟩

/- An item is a part of the text that it was read from. -/
theorem infix_of_mem_commaList
    {cs : List Char}
    {x : String}
    (hx : x ∈ commaList cs) :
    x.toList <:+: cs := by
  unfold commaList at hx
  split at hx
  · simp at hx
  · rcases List.mem_map.mp hx with ⟨piece, hPiece, rfl⟩
    rcases piece_of_mem_splitOn [] (trim cs) (by simp) hPiece with
      ⟨_, hInfix⟩
    rw [String.toList_ofList]
    exact (isInfix_trim piece).trans (hInfix.trans (isInfix_trim cs))

end Source

end BlockProgram
