import BlockProgram.Proofs.Json.Spelling
import BlockProgram.Proofs.Wire.Records
import BlockProgram.Wire.Document

/-
  Reading the tokens of a value, watched.

  A value is handed to the frame that waits for it, unless
  lists and objects are nested too deep.  Below a member of a
  block nothing is watched.  Above, each block is found to be
  in order if it can be decoded at all.

  Main declarations:
    * `Wire.ReadsOn`
    * `Wire.readsOn_of_isQuiet`
    * `Wire.readsOn_of_decodes`
    * `Wire.readsOn_document`
-/

namespace BlockProgram

namespace Wire

open Json
  (State Frame Token complete maxDepth spelled spelledItems
    spelledMembers)

------------------------------------------------------------
-- Outcomes Within A Depth
------------------------------------------------------------

/- What is read if no more brackets than allowed are open. -/
def withinDepth
    (depth : Nat)
    (outcome : Except Problem State) : Except Problem State :=
  if depth ≤ maxDepth then outcome
  else .error (.fault .tooDeep)

theorem withinDepth_of_le
    {depth : Nat}
    (hDepth : depth ≤ maxDepth)
    (outcome : Except Problem State) :
    withinDepth depth outcome = outcome :=
  if_pos hDepth

theorem withinDepth_withinDepth
    (depth depth' : Nat)
    (outcome : Except Problem State) :
    withinDepth depth (withinDepth depth' outcome) =
      withinDepth (max depth depth') outcome := by
  unfold withinDepth
  by_cases hOuter : depth ≤ maxDepth
  · by_cases hInner : depth' ≤ maxDepth
    · have hBoth : max depth depth' ≤ maxDepth :=
        Nat.max_le.mpr ⟨hOuter, hInner⟩
      rw [if_pos hOuter, if_pos hInner, if_pos hBoth]
    · have hBoth : ¬max depth depth' ≤ maxDepth := by
        omega
      rw [if_pos hOuter, if_neg hInner, if_neg hBoth]
  · have hBoth : ¬max depth depth' ≤ maxDepth := by
      omega
    rw [if_neg hOuter, if_neg hBoth]

/-
  Reading the tokens of a value hands it to the innermost
  frame, and fails where it is nested too deep.
-/
def ReadsOn
    (stack : List Frame)
    (v : Json) : Prop :=
  ∀ rest,
    watchedRun (.value stack) (spelled v rest) =
      withinDepth (stack.length + v.depth)
        (watchedRun (complete v stack) rest)

------------------------------------------------------------
-- Single Steps
------------------------------------------------------------

section Steps

variable {state next : State}
variable {token : Token}
variable {rest : List Token}

/- A step that nothing is found wrong with. -/
theorem watchedRun_of_step
    (hNotice : notice state token = none)
    (hStep : state.step token = .ok next)
    (hBlock : noticeBlock next = none) :
    watchedRun state (token :: rest) = watchedRun next rest := by
  rw [watchedRun, watchedStep, hNotice, hStep]
  simp only [hBlock]

/- A step that the reader itself cannot make. -/
theorem watchedRun_of_fault
    {why : Json.Fault}
    (hNotice : notice state token = none)
    (hStep : state.step token = .error why) :
    watchedRun state (token :: rest) = .error (.fault why) := by
  rw [watchedRun, watchedStep, hNotice, hStep]

/- Only the end of a list is not begun as a value. -/
theorem step_value
    (hToken : token ≠ .closeList)
    (stack : List Frame) :
    (State.value stack).step token =
      Json.beginValue stack token := by
  cases stack with
  | nil => rfl
  | cons frame stack =>
      cases frame with
      | item items =>
          cases token with
          | closeList => exact absurd rfl hToken
          | _ => rfl
      | member members key => rfl

/- Only the end of a list is no item of it. -/
theorem step_firstItem
    (hToken : token ≠ .closeList)
    (stack : List Frame) :
    (State.firstItem stack).step token =
      Json.beginValue (.item [] :: stack) token := by
  cases token with
  | closeList => exact absurd rfl hToken
  | _ => rfl

/- The tokens of a value do not begin by ending a list. -/
theorem exists_spelled_eq_cons
    (v : Json)
    (rest : List Token) :
    ∃ token others,
      spelled v rest = token :: others ∧ token ≠ .closeList := by
  cases v with
  | array items => cases items <;> exact ⟨_, _, rfl, by simp⟩
  | object members => cases members <;> exact ⟨_, _, rfl, by simp⟩
  | _ => exact ⟨_, _, rfl, by simp⟩

/- The first item of a list is read like any other. -/
theorem watchedRun_firstItem
    {stack : List Frame}
    (hFirst : ∀ token, notice (.firstItem stack) token = none)
    (v : Json)
    (rest : List Token) :
    watchedRun (.firstItem stack) (spelled v rest) =
      watchedRun (.value (.item [] :: stack)) (spelled v rest) := by
  rcases exists_spelled_eq_cons v rest with
    ⟨token, others, hTokens, hToken⟩
  have hItem : notice (.value (.item [] :: stack)) token = none :=
    rfl
  rw [hTokens, watchedRun, watchedRun, watchedStep, watchedStep,
    hFirst, hItem, step_firstItem hToken, step_value hToken]

end Steps

------------------------------------------------------------
-- Lists
------------------------------------------------------------

section Lists

variable {stack : List Frame}

/- An item of a list and the items after it, up to its end. -/
theorem watchedRun_items
    (hDone :
      ∀ items, noticeBlock (complete (.array items) stack) = none)
    {v : Json}
    {vs : List Json}
    (hItems :
      ∀ w ∈ v :: vs, ∀ items, ReadsOn (.item items :: stack) w)
    (items : List Json)
    (rest : List Token) :
    watchedRun (.value (.item items :: stack))
        (spelled v (spelledItems vs (.closeList :: rest))) =
      withinDepth (stack.length + 1 + Json.depthItems (v :: vs))
        (watchedRun
          (complete (.array (items.reverse ++ v :: vs)) stack)
          rest) := by
  induction vs generalizing v items with
  | nil =>
      have hClose :
          watchedRun (.afterItem (v :: items) stack)
              (.closeList :: rest) =
            watchedRun
              (complete (.array (v :: items).reverse) stack)
              rest :=
        watchedRun_of_step rfl rfl (hDone _)
      have hDepth :
          (Frame.item items :: stack).length + v.depth =
            stack.length + 1 + Json.depthItems [v] := by
        simp [Json.depthItems]
      rw [spelledItems, hItems v List.mem_cons_self items,
        complete, hClose, hDepth, List.reverse_cons]
  | cons w ws ih =>
      have hComma :
          watchedRun (.afterItem (v :: items) stack)
              (spelledItems (w :: ws) (.closeList :: rest)) =
            watchedRun (.value (.item (v :: items) :: stack))
              (spelled w (spelledItems ws (.closeList :: rest))) :=
        watchedRun_of_step rfl rfl rfl
      have hOthers :=
        ih (fun u hu => hItems u (List.mem_cons_of_mem v hu))
          (v :: items)
      have hDepth :
          max ((Frame.item items :: stack).length + v.depth)
              (stack.length + 1 + Json.depthItems (w :: ws)) =
            stack.length + 1 + Json.depthItems (v :: w :: ws) := by
        rw [List.length_cons, Json.depthItems.eq_2 v]
        omega
      rw [hItems v List.mem_cons_self items, complete, hComma,
        hOthers, withinDepth_withinDepth, hDepth,
        List.reverse_cons, List.append_assoc,
        List.singleton_append]

/- A list, in a place where nothing is found wrong with it. -/
theorem readsOn_array
    {vs : List Json}
    (hOpen : notice (.value stack) .openList = none)
    (hFirst : ∀ token, notice (.firstItem stack) token = none)
    (hItems :
      stack.length < maxDepth →
        ∀ v ∈ vs, ∀ items, ReadsOn (.item items :: stack) v)
    (hDone :
      ∀ items, noticeBlock (complete (.array items) stack) = none) :
    ReadsOn stack (.array vs) := by
  intro rest
  have hStep :
      (State.value stack).step .openList =
        Json.beginValue stack .openList :=
    step_value (by simp) stack
  rw [Json.depth, ← Nat.add_assoc]
  by_cases hDeep : stack.length < maxDepth
  · rw [Json.beginValue, if_pos hDeep] at hStep
    cases vs with
    | nil =>
        rw [spelled, watchedRun_of_step hOpen hStep rfl,
          Json.depthItems, withinDepth_of_le hDeep]
        exact watchedRun_of_step (hFirst _) rfl (hDone _)
    | cons v vs =>
        rw [spelled, watchedRun_of_step hOpen hStep rfl,
          watchedRun_firstItem hFirst]
        exact watchedRun_items hDone (hItems hDeep) [] rest
  · rw [Json.beginValue, if_neg hDeep] at hStep
    have hOver :
        ¬stack.length + 1 + Json.depthItems vs ≤ maxDepth := by
      omega
    rw [withinDepth, if_neg hOver]
    cases vs with
    | nil => exact watchedRun_of_fault hOpen hStep
    | cons v vs => exact watchedRun_of_fault hOpen hStep

end Lists

------------------------------------------------------------
-- Objects
------------------------------------------------------------

section Objects

variable {stack : List Frame}

/- A member's value and the members after it, to the end. -/
theorem watchedRun_members
    {key : String}
    {v : Json}
    {done ms : List (String × Json)}
    (hKeys :
      ∀ before k w after,
        ms = before ++ (k, w) :: after →
          notice
              (.nextKey (before.reverse ++ (key, v) :: done)
                stack)
              (.text k) =
            none)
    (hMembers :
      ∀ m ∈ (key, v) :: ms,
        ∀ done, ReadsOn (.member done m.1 :: stack) m.2)
    (hDone :
      noticeBlock
          (complete (.object (done.reverse ++ (key, v) :: ms))
            stack) =
        none)
    (rest : List Token) :
    watchedRun (.value (.member done key :: stack))
        (spelled v (spelledMembers ms (.closeMap :: rest))) =
      withinDepth
        (stack.length + 1 + Json.depthMembers ((key, v) :: ms))
        (watchedRun
          (complete (.object (done.reverse ++ (key, v) :: ms))
            stack)
          rest) := by
  have hValue := hMembers (key, v) List.mem_cons_self done
  induction ms generalizing key v done with
  | nil =>
      have hClose :
          watchedRun (.afterMember ((key, v) :: done) stack)
              (.closeMap :: rest) =
            watchedRun
              (complete (.object ((key, v) :: done).reverse) stack)
              rest := by
        apply watchedRun_of_step rfl rfl
        rw [List.reverse_cons]
        exact hDone
      have hDepth :
          (Frame.member done key :: stack).length + v.depth =
            stack.length + 1 + Json.depthMembers [(key, v)] := by
        simp [Json.depthMembers]
      rw [spelledMembers, hValue, complete, hClose, hDepth,
        List.reverse_cons]
  | cons m ms ih =>
      rcases m with ⟨k, w⟩
      have hKey :
          notice (.nextKey ((key, v) :: done) stack) (.text k) =
            none :=
        hKeys [] k w ms rfl
      have hNext :
          watchedRun (.afterMember ((key, v) :: done) stack)
              (spelledMembers ((k, w) :: ms)
                (.closeMap :: rest)) =
            watchedRun
              (.value (.member ((key, v) :: done) k :: stack))
              (spelled w
                (spelledMembers ms (.closeMap :: rest))) := by
        rw [spelledMembers, watchedRun_of_step rfl rfl rfl,
          watchedRun_of_step hKey rfl rfl,
          watchedRun_of_step rfl rfl rfl]
      have hSame :
          ((key, v) :: done).reverse ++ (k, w) :: ms =
            done.reverse ++ (key, v) :: (k, w) :: ms := by
        simp
      have hLater :
          ∀ before k' w' after,
            ms = before ++ (k', w') :: after →
              notice
                  (.nextKey
                    (before.reverse ++ (k, w) :: (key, v) :: done)
                    stack)
                  (.text k') =
                none := by
        intro before k' w' after hCut
        have hNotice :=
          hKeys ((k, w) :: before) k' w' after
            (by rw [hCut, List.cons_append])
        simpa using hNotice
      have hRest :=
        fun m hm => hMembers m (List.mem_cons_of_mem (key, v) hm)
      rw [← hSame] at hDone
      have hOthers :=
        ih hLater hRest hDone (hRest (k, w) List.mem_cons_self _)
      have hDepth :
          max ((Frame.member done key :: stack).length + v.depth)
              (stack.length + 1 +
                Json.depthMembers ((k, w) :: ms)) =
            stack.length + 1 +
              Json.depthMembers ((key, v) :: (k, w) :: ms) := by
        rw [List.length_cons, Json.depthMembers.eq_2 key]
        omega
      rw [hValue, complete, hNext, hOthers,
        withinDepth_withinDepth, hDepth, hSame]

/- An object, in a place where nothing is wrong with it. -/
theorem readsOn_object
    {ms : List (String × Json)}
    (hOpen : notice (.value stack) .openMap = none)
    (hKeys :
      ∀ before k w after,
        ms = before ++ (k, w) :: after →
          notice (.nextKey before.reverse stack) (.text k) = none)
    (hMembers :
      stack.length < maxDepth →
        ∀ m ∈ ms,
          ∀ done, ReadsOn (.member done m.1 :: stack) m.2)
    (hDone : noticeBlock (complete (.object ms) stack) = none) :
    ReadsOn stack (.object ms) := by
  intro rest
  have hStep :
      (State.value stack).step .openMap =
        Json.beginValue stack .openMap :=
    step_value (by simp) stack
  rw [Json.depth, ← Nat.add_assoc]
  by_cases hDeep : stack.length < maxDepth
  · rw [Json.beginValue, if_pos hDeep] at hStep
    rcases ms with _ | ⟨⟨key, v⟩, ms⟩
    · rw [spelled, watchedRun_of_step hOpen hStep rfl,
        Json.depthMembers, withinDepth_of_le hDeep]
      exact watchedRun_of_step rfl rfl hDone
    · rw [spelled, watchedRun_of_step hOpen hStep rfl,
        watchedRun_of_step rfl rfl rfl,
        watchedRun_of_step rfl rfl rfl]
      refine
        @watchedRun_members stack key v [] ms ?_ (hMembers hDeep)
          hDone rest
      intro before k w after hCut
      have hNotice :=
        hKeys ((key, v) :: before) k w after
          (by rw [hCut, List.cons_append])
      rw [List.reverse_cons] at hNotice
      exact hNotice
  · rw [Json.beginValue, if_neg hDeep] at hStep
    have hOver :
        ¬stack.length + 1 + Json.depthMembers ms ≤ maxDepth := by
      omega
    rw [withinDepth, if_neg hOver]
    cases ms with
    | nil => exact watchedRun_of_fault hOpen hStep
    | cons m ms => exact watchedRun_of_fault hOpen hStep

end Objects

------------------------------------------------------------
-- Unwatched Places
------------------------------------------------------------

/-
  A stack deep enough that nothing is watched, neither the
  value that it waits for nor anything inside the value.
-/
structure IsQuiet (stack : List Frame) : Prop where
  inner : 2 ≤ stack.length
  bounded : stack.length ≤ maxDepth
  silent : ∀ token, notice (.value stack) token = none

section Quiet

variable {stack : List Frame}

/- No block is completed inside a frame of a block. -/
theorem noticeBlock_complete
    (hInner : 2 ≤ stack.length)
    (v : Json) :
    noticeBlock (complete v stack) = none := by
  rcases stack with _ | ⟨frame, _ | ⟨other, stack⟩⟩
  · simp at hInner
  · simp at hInner
  · cases frame with
    | item items => rfl
    | member members key => rfl

theorem notice_firstItem
    (hInner : 2 ≤ stack.length)
    (token : Token) :
    notice (.firstItem stack) token = none := by
  rcases stack with _ | ⟨frame, _ | ⟨other, stack⟩⟩
  · simp at hInner
  · simp at hInner
  · cases frame <;> rfl

theorem notice_nextKey
    (hInner : 2 ≤ stack.length)
    (members : List (String × Json))
    (token : Token) :
    notice (.nextKey members stack) token = none := by
  rcases stack with _ | ⟨frame, _ | ⟨other, stack⟩⟩
  · simp at hInner
  · simp at hInner
  · cases frame <;> rfl

/- One frame more, and still nothing is watched. -/
theorem isQuiet_cons
    (hInner : 2 ≤ stack.length)
    (hRoom : stack.length < maxDepth)
    (frame : Frame) :
    IsQuiet (frame :: stack) where
  inner := Nat.le_succ_of_le hInner
  bounded := hRoom
  silent := by
    rcases stack with _ | ⟨second, _ | ⟨third, stack⟩⟩
    · simp at hInner
    · simp at hInner
    · intro token
      cases frame <;> cases second <;> rfl

/- A value of one token. -/
theorem readsOn_of_token
    (hRoom : stack.length ≤ maxDepth)
    {v : Json}
    {token : Token}
    (hSpelled : ∀ rest, spelled v rest = token :: rest)
    (hDepth : v.depth = 0)
    (hNotice : notice (.value stack) token = none)
    (hStep :
      (State.value stack).step token = .ok (complete v stack))
    (hDone : noticeBlock (complete v stack) = none) :
    ReadsOn stack v := by
  intro rest
  rw [hDepth, Nat.add_zero, withinDepth_of_le hRoom, hSpelled]
  exact watchedRun_of_step hNotice hStep hDone

/- Any value is read where nothing is watched. -/
theorem readsOn_of_isQuiet
    (hQuiet : IsQuiet stack)
    (v : Json) :
    ReadsOn stack v := by
  have hDone :=
    fun v => noticeBlock_complete hQuiet.inner v
  induction v using Json.induction generalizing stack with
  | null =>
      exact
        readsOn_of_token hQuiet.bounded (fun _ => rfl) rfl
          (hQuiet.silent _) (step_value (by simp) stack) (hDone _)
  | bool b =>
      exact
        readsOn_of_token hQuiet.bounded (fun _ => rfl) rfl
          (hQuiet.silent _) (step_value (by simp) stack) (hDone _)
  | number n =>
      exact
        readsOn_of_token hQuiet.bounded (fun _ => rfl) rfl
          (hQuiet.silent _) (step_value (by simp) stack) (hDone _)
  | text s =>
      exact
        readsOn_of_token hQuiet.bounded (fun _ => rfl) rfl
          (hQuiet.silent _) (step_value (by simp) stack) (hDone _)
  | array items ih =>
      apply readsOn_array (hQuiet.silent _)
      · exact notice_firstItem hQuiet.inner
      · intro hRoom v hv before
        have hInner :=
          isQuiet_cons hQuiet.inner hRoom (.item before)
        exact
          ih v hv hInner fun v =>
            noticeBlock_complete hInner.inner v
      · exact fun items => hDone (.array items)
  | object members ih =>
      apply readsOn_object (hQuiet.silent _)
      · intro before k w after _
        exact notice_nextKey hQuiet.inner _ _
      · intro hRoom m hm done
        have hInner :=
          isQuiet_cons hQuiet.inner hRoom (.member done m.1)
        exact
          ih m hm hInner fun v =>
            noticeBlock_complete hInner.inner v
      · exact hDone (.object members)

end Quiet

------------------------------------------------------------
-- Blocks
------------------------------------------------------------

/- A tag that is found stands once, and it can be read. -/
theorem tagAmong_eq_ok
    {read : Json → Except Mismatch α}
    {members : List (String × Json)}
    {tag : α}
    (hTag : tagAmong read members none = .ok tag) :
    (∀ m ∈ members, m.1 = tagKey → ∃ t, read m.2 = .ok t) ∧
      ∀ before k w after,
        members = before ++ (k, w) :: after →
          k = tagKey → tagKey ∉ before.map Prod.fst := by
  rcases tagAmong_eq_ok_iff.mp hTag with ⟨json, hAlone, hRead⟩
  constructor
  · intro m hm hKey
    have hTagged : m ∈ tagMembers members :=
      List.mem_filter.mpr ⟨hm, decide_eq_true hKey⟩
    rw [hAlone] at hTagged
    rw [List.mem_singleton.mp hTagged]
    exact ⟨tag, hRead⟩
  · rintro before k w after rfl hKey hBefore
    rcases List.mem_map.mp hBefore with ⟨m, hm, hSame⟩
    have hTagged : m ∈ tagMembers before :=
      List.mem_filter.mpr ⟨hm, decide_eq_true hSame⟩
    have hLength := congrArg List.length hAlone
    rw [tagMembers_append, tagMembers_cons, if_pos hKey] at hLength
    have hPos := List.length_pos_of_mem hTagged
    simp only [List.length_append, List.length_cons,
      List.length_nil] at hLength
    omega

/- A tag by its word alone is a text. -/
theorem noticeTag_of_kindOf
    {json : Json}
    {kind : Kind}
    (hKind : kindOf .words json = .ok kind) :
    ∃ s, json = .text s ∧ noticeTag (.text s) = none := by
  cases json with
  | text s =>
      refine ⟨s, rfl, ?_⟩
      rw [noticeTag, hKind]
  | number n => cases n <;> cases hKind
  | null => cases hKind
  | bool b => cases hKind
  | array items => cases hKind
  | object members => cases hKind

/- A block that can be decoded is not objected to before. -/
theorem readsOn_of_decodes
    {members : List (String × Json)}
    {b : Block}
    (hDecodes : decode (.block .words) (.object members) = .ok b)
    (items : List Json) :
    ReadsOn [.item items] (.object members) := by
  have hTag :
      ∃ kind,
        tagAmong (kindOf .words) members none = .ok kind := by
    rw [decode] at hDecodes
    cases hTag : tagAmong (kindOf .words) members none with
    | ok kind => exact ⟨kind, rfl⟩
    | error why => simp [hTag, bind, Except.bind] at hDecodes
  rcases hTag with ⟨kind, hTag⟩
  rcases tagAmong_eq_ok hTag with ⟨hTags, hCuts⟩
  apply readsOn_object rfl
  · intro before k w after hCut
    have hOnce :
        ¬(Token.text k = .text tagKey ∧
            tagKey ∈ before.reverse.map Prod.fst) := by
      rintro ⟨hSame, hMember⟩
      rw [List.map_reverse, List.mem_reverse] at hMember
      exact
        hCuts before k w after hCut (Token.text.inj hSame) hMember
    exact if_neg hOnce
  · intro _ m hm done
    have hInner :
        2 ≤ [Frame.member done m.1, Frame.item items].length :=
      Nat.le_refl 2
    have hRoom :
        [Frame.member done m.1, Frame.item items].length ≤
          maxDepth :=
      Nat.le_of_ble_eq_true rfl
    by_cases hKey : m.1 = tagKey
    · rcases hTags m hm hKey with ⟨t, hKind⟩
      rcases noticeTag_of_kindOf hKind with ⟨s, hText, hNotice⟩
      rw [hText]
      apply readsOn_of_token hRoom (fun _ => rfl) rfl _ rfl rfl
      rw [notice, if_pos hKey]
      exact hNotice
    · apply readsOn_of_isQuiet
      refine ⟨hInner, hRoom, ?_⟩
      intro token
      rw [notice, if_neg hKey]
  · rw [complete, noticeBlock, hDecodes]

------------------------------------------------------------
-- Documents
------------------------------------------------------------

/- A list of blocks as a document holds it. -/
theorem readsOn_document
    {jsons : List Json}
    (hBlocks :
      ∀ json ∈ jsons,
        ∃ members b,
          json = .object members ∧
            decode (.block .words) json = .ok b) :
    ReadsOn [] (.array jsons) := by
  apply readsOn_array rfl
  · exact fun _ => rfl
  · intro _ json hMember items
    rcases hBlocks json hMember with ⟨members, b, rfl, hDecodes⟩
    exact readsOn_of_decodes hDecodes items
  · exact fun _ => rfl

end Wire

end BlockProgram
