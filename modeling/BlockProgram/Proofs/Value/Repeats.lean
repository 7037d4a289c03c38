import BlockProgram.Value.Basic

/-
  Which keys of an object are reported as repeated.

  A key is reported where it stands for the second time.  So
  the report has the keys that stand in the object at least
  twice, each once, in the order of their second places.  No
  other list is like that.

  Main declarations:
    * `Value.IsSecondAt`
    * `Value.ListsRepeats`
    * `Value.HasMet`
    * `Value.repeats_listsFrom`
    * `Value.duplicateKeys_are_repeats_in_order`
-/

namespace BlockProgram

namespace Value

variable {keys listed seen reported : List String}
variable {before behind : List String}
variable {key other met : String}
variable {place later start : Nat}

------------------------------------------------------------
-- Second Places
------------------------------------------------------------

/- The key stands at the place, and that for the second
   time. -/
structure IsSecondAt
    (keys : List String)
    (place : Nat)
    (key : String) : Prop where
  stands : keys[place]? = some key
  once : (keys.take place).count key = 1

theorem IsSecondAt.place_lt
    (hSecond : IsSecondAt keys place key) :
    place < keys.length :=
  (List.getElem?_eq_some_iff.mp hSecond.stands).1

theorem IsSecondAt.key_unique
    (hSecond : IsSecondAt keys place key)
    (hOther : IsSecondAt keys place other) :
    key = other :=
  Option.some.inj (hSecond.stands.symm.trans hOther.stands)

theorem IsSecondAt.count_take_succ
    (hSecond : IsSecondAt keys place key) :
    (keys.take (place + 1)).count key = 2 := by
  rw [List.take_add_one, hSecond.stands, List.count_append,
    hSecond.once, Option.toList_some, List.count_singleton_self]

/- Behind its second place a key has stood twice already. -/
theorem IsSecondAt.not_place_lt
    (hSecond : IsSecondAt keys place key)
    (hLater : IsSecondAt keys later key) :
    ¬place < later := by
  intro hLess
  have hCount :
      (keys.take (place + 1)).count key ≤
        (keys.take later).count key :=
    (List.take_sublist_take_left hLess).count_le key
  rw [hSecond.count_take_succ, hLater.once] at hCount
  omega

theorem IsSecondAt.place_unique
    (hSecond : IsSecondAt keys place key)
    (hLater : IsSecondAt keys later key) :
    place = later :=
  Nat.le_antisymm
    (Nat.le_of_not_lt (hLater.not_place_lt hSecond))
    (Nat.le_of_not_lt (hSecond.not_place_lt hLater))

/- Whether a place is a second one is seen from what stands
   before it. -/
theorem isSecondAt_length_iff :
    IsSecondAt (before ++ met :: behind) before.length key ↔
      key = met ∧ before.count met = 1 := by
  constructor
  · rintro ⟨hStands, hOnce⟩
    rw [List.getElem?_append_right (Nat.le_refl _), Nat.sub_self,
      List.getElem?_cons_zero, Option.some.injEq] at hStands
    rw [List.take_left] at hOnce
    subst hStands
    exact ⟨rfl, hOnce⟩
  · rintro ⟨rfl, hOnce⟩
    exact ⟨by simp, by simpa using hOnce⟩

/- A key has a second place when it stands there twice. -/
theorem exists_isSecondAt_iff :
    (∃ place, IsSecondAt keys place key) ↔
      2 ≤ keys.count key := by
  constructor
  · rintro ⟨place, hSecond⟩
    rw [← hSecond.count_take_succ]
    exact (List.take_sublist (place + 1) keys).count_le key
  · intro hTwice
    have hMember : key ∈ keys := List.count_pos_iff.mp (by omega)
    rcases List.eq_append_cons_of_mem hMember with
      ⟨front, rest, rfl, hFront⟩
    rw [List.count_append, List.count_cons_self,
      List.count_eq_zero.mpr hFront] at hTwice
    have hAgain : key ∈ rest := List.count_pos_iff.mp (by omega)
    rcases List.eq_append_cons_of_mem hAgain with
      ⟨middle, back, rfl, hMiddle⟩
    have hOnce : (front ++ key :: middle).count key = 1 := by
      rw [List.count_append, List.count_cons_self,
        List.count_eq_zero.mpr hFront,
        List.count_eq_zero.mpr hMiddle]
    refine ⟨(front ++ key :: middle).length, ?_⟩
    rw [← List.cons_append, ← List.append_assoc]
    exact isSecondAt_length_iff.mpr ⟨rfl, hOnce⟩

------------------------------------------------------------
-- Order Of Repeats
------------------------------------------------------------

/- The second place of one key is before that of another. -/
def RepeatsBefore
    (keys : List String)
    (key other : String) : Prop :=
  ∃ place later,
    place < later ∧
      IsSecondAt keys place key ∧ IsSecondAt keys later other

/- No second place of any key is before that of this one. -/
def RepeatsFirst
    (keys : List String)
    (key : String) : Prop :=
  ∃ place,
    IsSecondAt keys place key ∧
      ∀ later other, IsSecondAt keys later other → place ≤ later

theorem RepeatsBefore.asymm
    (hBefore : RepeatsBefore keys key other) :
    ¬RepeatsBefore keys other key := by
  rintro ⟨later', place', hLess', hLater', hPlace'⟩
  rcases hBefore with ⟨place, later, hLess, hPlace, hLater⟩
  have hSame := hPlace.place_unique hPlace'
  have hSameLater := hLater.place_unique hLater'
  omega

theorem RepeatsBefore.ne
    (hBefore : RepeatsBefore keys key other) :
    key ≠ other := by
  rintro rfl
  exact hBefore.asymm hBefore

theorem RepeatsFirst.unique
    (hFirst : RepeatsFirst keys key)
    (hOther : RepeatsFirst keys other) :
    key = other := by
  rcases hFirst with ⟨place, hPlace, hLeast⟩
  rcases hOther with ⟨later, hLater, hLeast'⟩
  have hSame : place = later :=
    Nat.le_antisymm (hLeast _ _ hLater) (hLeast' _ _ hPlace)
  subst hSame
  exact hPlace.key_unique hLater

------------------------------------------------------------
-- Reports
------------------------------------------------------------

/-
  What a report about keys is to be: it has the keys that
  stand there at least twice, each once, and a key with an
  earlier second place stands before one with a later.
-/
structure ListsRepeats
    (keys listed : List String) : Prop where
  mem_iff : ∀ key, key ∈ listed ↔ 2 ≤ keys.count key
  nodup : listed.Nodup
  inOrder : listed.Pairwise (RepeatsBefore keys)

/- There is only one such report. -/
theorem ListsRepeats.unique
    {listed' : List String}
    (hLists : ListsRepeats keys listed)
    (hLists' : ListsRepeats keys listed') :
    listed = listed' := by
  have hPerm : listed.Perm listed' := by
    rw [List.perm_ext_iff_of_nodup hLists.nodup hLists'.nodup]
    intro key
    rw [hLists.mem_iff, hLists'.mem_iff]
  exact
    hPerm.eq_of_pairwise
      (fun _ _ _ _ hBefore hBehind =>
        absurd hBehind hBefore.asymm)
      hLists.inOrder hLists'.inOrder

theorem ListsRepeats.mem_iff_exists
    (hLists : ListsRepeats keys listed) :
    key ∈ listed ↔ ∃ place, IsSecondAt keys place key := by
  rw [hLists.mem_iff, exists_isSecondAt_iff]

/- The key at the front of a report repeats first. -/
theorem ListsRepeats.repeatsFirst
    (hLists : ListsRepeats keys (key :: listed)) :
    RepeatsFirst keys key := by
  rcases hLists.mem_iff_exists.mp List.mem_cons_self with
    ⟨place, hPlace⟩
  refine ⟨place, hPlace, ?_⟩
  intro later other hLater
  have hOther : other ∈ key :: listed :=
    hLists.mem_iff_exists.mpr ⟨later, hLater⟩
  rcases List.mem_cons.mp hOther with rfl | hBehind
  · exact Nat.le_of_eq (hPlace.place_unique hLater)
  · rcases List.rel_of_pairwise_cons hLists.inOrder hBehind with
      ⟨place', later', hLess, hPlace', hLater'⟩
    rw [hPlace.place_unique hPlace', hLater.place_unique hLater']
    exact Nat.le_of_lt hLess

theorem ListsRepeats.head?_eq_some_iff
    (hLists : ListsRepeats keys listed) :
    listed.head? = some key ↔ RepeatsFirst keys key := by
  cases listed with
  | nil =>
      have hNone : ¬RepeatsFirst keys key := by
        rintro ⟨place, hPlace, _⟩
        exact
          List.not_mem_nil
            (hLists.mem_iff_exists.mpr ⟨place, hPlace⟩)
      simp [hNone]
  | cons front rest =>
      have hFront := hLists.repeatsFirst
      rw [List.head?_cons, Option.some.injEq]
      constructor
      · rintro rfl
        exact hFront
      · exact hFront.unique

------------------------------------------------------------
-- Reports From A Place On
------------------------------------------------------------

/-
  The list has what repeats at a place or behind it, in
  order.
-/
structure ListsFrom
    (keys : List String)
    (start : Nat)
    (listed : List String) : Prop where
  mem_iff :
    ∀ key,
      key ∈ listed ↔
        ∃ place, start ≤ place ∧ IsSecondAt keys place key
  inOrder : listed.Pairwise (RepeatsBefore keys)

/- Behind the last key nothing repeats. -/
theorem listsFrom_length : ListsFrom keys keys.length [] where
  mem_iff key := by
    simp only [List.not_mem_nil, false_iff]
    rintro ⟨place, hStart, hSecond⟩
    exact Nat.not_lt.mpr hStart hSecond.place_lt
  inOrder := .nil

/- A second place from here on is here or behind. -/
theorem exists_isSecondAt_from_iff :
    (∃ place, start ≤ place ∧ IsSecondAt keys place key) ↔
      IsSecondAt keys start key ∨
        ∃ place, start + 1 ≤ place ∧ IsSecondAt keys place key := by
  constructor
  · rintro ⟨place, hStart, hPlace⟩
    rcases Nat.eq_or_lt_of_le hStart with rfl | hBehind
    · exact Or.inl hPlace
    · exact Or.inr ⟨place, hBehind, hPlace⟩
  · rintro (hStart | ⟨place, hBehind, hPlace⟩)
    · exact ⟨start, Nat.le_refl _, hStart⟩
    · exact ⟨place, Nat.le_of_succ_le hBehind, hPlace⟩

/- A second place puts its key in front. -/
theorem ListsFrom.cons
    (hSecond : IsSecondAt keys start key)
    (hLists : ListsFrom keys (start + 1) listed) :
    ListsFrom keys start (key :: listed) where
  mem_iff other := by
    have hHere : other = key ↔ IsSecondAt keys start other := by
      constructor
      · rintro rfl
        exact hSecond
      · exact fun hOther => hOther.key_unique hSecond
    rw [exists_isSecondAt_from_iff, ← hLists.mem_iff, ← hHere,
      List.mem_cons]
  inOrder := by
    refine List.pairwise_cons.mpr ⟨?_, hLists.inOrder⟩
    intro other hOther
    rcases (hLists.mem_iff other).mp hOther with
      ⟨later, hBehind, hLater⟩
    exact ⟨start, later, hBehind, hSecond, hLater⟩

/- Any other place is passed over. -/
theorem ListsFrom.skip
    (hOther : ∀ key, ¬IsSecondAt keys start key)
    (hLists : ListsFrom keys (start + 1) listed) :
    ListsFrom keys start listed where
  mem_iff key := by
    rw [exists_isSecondAt_from_iff, ← hLists.mem_iff,
      or_iff_right (hOther key)]
  inOrder := hLists.inOrder

/- Behind one key more, the list is from one place on. -/
theorem ListsFrom.of_snoc
    (hLists :
      ListsFrom (before ++ [met] ++ behind)
        (before ++ [met]).length listed) :
    ListsFrom (before ++ met :: behind) (before.length + 1)
      listed := by
  rw [List.append_assoc, List.length_append] at hLists
  exact hLists

/- From the first place on, that is the whole report. -/
theorem ListsFrom.listsRepeats
    (hLists : ListsFrom keys 0 listed) :
    ListsRepeats keys listed where
  mem_iff key := by
    rw [hLists.mem_iff, ← exists_isSecondAt_iff]
    simp only [Nat.zero_le, true_and]
  nodup := hLists.inOrder.imp RepeatsBefore.ne
  inOrder := hLists.inOrder

------------------------------------------------------------
-- The Walk
------------------------------------------------------------

/-
  What the walk knows of the keys it has passed: which ones
  it has seen, and which ones it has reported.
-/
structure HasMet
    (before seen reported : List String) : Prop where
  mem_seen : ∀ key, key ∈ seen ↔ 1 ≤ before.count key
  mem_reported : ∀ key, key ∈ reported ↔ 2 ≤ before.count key

theorem hasMet_nil : HasMet [] [] [] where
  mem_seen _ := by simp
  mem_reported _ := by simp

/- A key passed is the last one, or it is one before it. -/
theorem one_le_count_snoc_iff :
    1 ≤ (before ++ [met]).count key ↔
      key = met ∨ 1 ≤ before.count key := by
  rw [List.count_append, List.count_singleton]
  by_cases hSame : key = met
  · simp [hSame]
  · simp [hSame, Ne.symm hSame]

/- A key passed twice is the last one, as a repeat, or it was
   passed twice before that. -/
theorem two_le_count_snoc_iff :
    2 ≤ (before ++ [met]).count key ↔
      (key = met ∧ 1 ≤ before.count met) ∨
        2 ≤ before.count key := by
  rw [List.count_append, List.count_singleton]
  by_cases hSame : key = met
  · subst hSame
    simp only [beq_self_eq_true, if_true, true_and]
    omega
  · simp [hSame, Ne.symm hSame]

/- Every key reported has been seen. -/
theorem HasMet.seen_of_reported
    (hMet : HasMet before seen reported)
    (hReported : key ∈ reported) :
    key ∈ seen := by
  rw [hMet.mem_reported] at hReported
  exact (hMet.mem_seen key).mpr (Nat.le_of_succ_le hReported)

/- A key seen before adds nothing to what has been seen. -/
theorem HasMet.mem_seen_snoc
    (hMet : HasMet before seen reported)
    (hSeen : key ∈ seen) :
    other ∈ seen ↔ 1 ≤ (before ++ [key]).count other := by
  rw [one_le_count_snoc_iff, ← hMet.mem_seen]
  exact (or_iff_right_of_imp fun hSame => hSame ▸ hSeen).symm

/- A key is met for the first time. -/
theorem HasMet.first
    (hMet : HasMet before seen reported)
    (hNew : key ∉ seen) :
    HasMet (before ++ [key]) (key :: seen) reported where
  mem_seen other := by
    rw [one_le_count_snoc_iff, ← hMet.mem_seen, List.mem_cons]
  mem_reported other := by
    rw [two_le_count_snoc_iff, ← hMet.mem_seen,
      ← hMet.mem_reported]
    exact (or_iff_right fun hAgain => hNew hAgain.2).symm

/- A key is met for the second time. -/
theorem HasMet.second
    (hMet : HasMet before seen reported)
    (hSeen : key ∈ seen) :
    HasMet (before ++ [key]) seen (key :: reported) where
  mem_seen _ := hMet.mem_seen_snoc hSeen
  mem_reported other := by
    rw [two_le_count_snoc_iff, ← hMet.mem_seen,
      ← hMet.mem_reported, List.mem_cons,
      and_iff_left hSeen]

/- A key is met once more. -/
theorem HasMet.again
    (hMet : HasMet before seen reported)
    (hReported : key ∈ reported) :
    HasMet (before ++ [key]) seen reported where
  mem_seen _ :=
    hMet.mem_seen_snoc (hMet.seen_of_reported hReported)
  mem_reported other := by
    rw [two_le_count_snoc_iff, ← hMet.mem_reported]
    exact
      (or_iff_right_of_imp fun hSame =>
        hSame.1 ▸ hReported).symm

/-
  The walk stands at a second place exactly when it has seen
  the key there and has not reported it.
-/
theorem HasMet.isSecondAt_iff
    (hMet : HasMet before seen reported) :
    IsSecondAt (before ++ met :: behind) before.length key ↔
      key = met ∧ met ∈ seen ∧ met ∉ reported := by
  rw [isSecondAt_length_iff, hMet.mem_seen, hMet.mem_reported]
  constructor
  · rintro ⟨rfl, hOnce⟩
    exact ⟨rfl, by omega, by omega⟩
  · rintro ⟨rfl, hSeen, hUnreported⟩
    exact ⟨rfl, by omega⟩

/-
  The walk lists what repeats from its place on.  It is
  followed key by key, and what it knows of the keys passed is
  the invariant.
-/
theorem repeats_listsFrom
    (hMet : HasMet before seen reported) :
    ListsFrom (before ++ behind) before.length
      (repeats seen reported behind) := by
  fun_induction repeats seen reported behind generalizing before
    with
  | case1 seen reported =>
      rw [List.append_nil]
      exact listsFrom_length
  | case2 seen reported key keys hSeen hReported ih =>
      refine (ih (hMet.again hReported)).of_snoc.skip ?_
      intro other hSecond
      exact (hMet.isSecondAt_iff.mp hSecond).2.2 hReported
  | case3 seen reported key keys hSeen hUnreported ih =>
      have hSecond :
          IsSecondAt (before ++ key :: keys) before.length key :=
        hMet.isSecondAt_iff.mpr ⟨rfl, hSeen, hUnreported⟩
      exact (ih (hMet.second hSeen)).of_snoc.cons hSecond
  | case4 seen reported key keys hNew ih =>
      refine (ih (hMet.first hNew)).of_snoc.skip ?_
      intro other hSecond
      exact hNew (hMet.isSecondAt_iff.mp hSecond).2.1

------------------------------------------------------------
-- Repeated Keys Of Objects
------------------------------------------------------------

theorem duplicateKeys_listsRepeats
    (properties : List (String × Value)) :
    ListsRepeats (properties.map Prod.fst)
      (object properties).duplicateKeys :=
  (repeats_listsFrom hasMet_nil).listsRepeats

/-
  An object reports the keys that it holds at least twice,
  each once, in the order of their second places, and that is
  the only list of this kind.  At its front stands the key
  that repeats first, whatever repeats behind it.
-/
theorem duplicateKeys_are_repeats_in_order
    (properties : List (String × Value)) :
    (∀ listed,
        (object properties).duplicateKeys = listed ↔
          ListsRepeats (properties.map Prod.fst) listed) ∧
      ∀ key,
        (object properties).duplicateKeys.head? = some key ↔
          RepeatsFirst (properties.map Prod.fst) key := by
  have hLists := duplicateKeys_listsRepeats properties
  refine ⟨?_, fun key => hLists.head?_eq_some_iff⟩
  intro listed
  constructor
  · rintro rfl
    exact hLists
  · exact hLists.unique

/- `a` stands first, but `b` repeats first, and is reported
   once. -/
example :
    (object
        [("a", simple "1"), ("b", simple "2"), ("b", simple "3"),
          ("a", simple "4"), ("b", simple "5")]).duplicateKeys =
      ["b", "a"] :=
  rfl

end Value

end BlockProgram
