import BlockProgram.Json.Reader
import BlockProgram.Proofs.Json.Reordering

/-
  No value that is read is nested too deep.

  The reader counts the lists and objects that are open.  So
  whatever a frame holds fits under the frames around it, and
  the value of a text is nested no deeper than the limit.

  Main declarations:
    * `Json.Frame.held`
    * `Json.State.Fits`
    * `Json.fits_of_step`
-/

namespace BlockProgram

namespace Json

------------------------------------------------------------
-- Nesting Of The Parts
------------------------------------------------------------

theorem depthItems_le_iff
    {vs : List Json}
    {n : Nat} :
    depthItems vs ≤ n ↔ ∀ v ∈ vs, v.depth ≤ n := by
  induction vs with
  | nil => simp [depthItems]
  | cons v vs ih =>
      rw [depthItems, Nat.max_le, ih, List.forall_mem_cons]

theorem depthMembers_le_iff
    {ms : List (String × Json)}
    {n : Nat} :
    depthMembers ms ≤ n ↔ ∀ m ∈ ms, m.2.depth ≤ n := by
  induction ms with
  | nil => simp [depthMembers]
  | cons m ms ih =>
      rw [depthMembers, Nat.max_le, ih, List.forall_mem_cons]

------------------------------------------------------------
-- States Within The Limit
------------------------------------------------------------

/- The values that an open list or object holds. -/
def Frame.held : Frame → List Json
  | .item items => items
  | .member members _ => members.map Prod.snd

/- A value fits into a place under the frames of a stack. -/
def FitsUnder
    (stack : List Frame)
    (v : Json) : Prop :=
  stack.length + v.depth ≤ maxDepth

/-
  Every frame of a stack could be opened, and what it holds
  fits under it and the frames around it.
-/
def FitStack : List Frame → Prop
  | [] => True
  | frame :: stack =>
      stack.length < maxDepth ∧
        (∀ v ∈ frame.held, FitsUnder (frame :: stack) v) ∧
        FitStack stack

/- Nothing that the reader holds is nested too deep. -/
def State.Fits : State → Prop
  | .value stack => FitStack stack
  | .firstItem stack => FitStack (.item [] :: stack)
  | .afterItem items stack => FitStack (.item items :: stack)
  | .firstKey stack => FitStack (.member [] "" :: stack)
  | .nextKey members stack =>
      FitStack (.member members "" :: stack)
  | .colon members key stack =>
      FitStack (.member members key :: stack)
  | .afterMember members stack =>
      FitStack (.member members "" :: stack)
  | .ended v => FitsUnder [] v

section Limit

variable {stack : List Frame}

theorem fitStack_item
    {items : List Json}
    {v : Json}
    (hStack : FitStack (.item items :: stack))
    (hValue : FitsUnder (.item items :: stack) v) :
    FitStack (.item (v :: items) :: stack) := by
  rcases hStack with ⟨hRoom, hItems, hBelow⟩
  have hHeld := List.forall_mem_cons.mpr ⟨hValue, hItems⟩
  exact ⟨hRoom, hHeld, hBelow⟩

theorem fitStack_member
    {members : List (String × Json)}
    {key : String}
    {v : Json}
    (hStack : FitStack (.member members key :: stack))
    (hValue : FitsUnder (.member members key :: stack) v) :
    FitStack (.member ((key, v) :: members) "" :: stack) := by
  rcases hStack with ⟨hRoom, hMembers, hBelow⟩
  have hHeld := List.forall_mem_cons.mpr ⟨hValue, hMembers⟩
  exact ⟨hRoom, hHeld, hBelow⟩

/- A value that fits is handed to a frame that has room. -/
theorem fits_complete
    {v : Json}
    (hStack : FitStack stack)
    (hValue : FitsUnder stack v) :
    (complete v stack).Fits := by
  cases stack with
  | nil => exact hValue
  | cons frame stack =>
      cases frame with
      | item items => exact fitStack_item hStack hValue
      | member members key => exact fitStack_member hStack hValue

/- A list fits where its items fit inside it. -/
theorem fitsUnder_array
    {items : List Json}
    (hStack : FitStack (.item items :: stack)) :
    FitsUnder stack (.array items.reverse) := by
  rcases hStack with ⟨hRoom, hItems, _⟩
  have hDepth :
      depthItems items.reverse ≤
        maxDepth - (stack.length + 1) := by
    rw [depthItems_le_iff]
    intro v hv
    have hItem := hItems v (List.mem_reverse.mp hv)
    rw [FitsUnder, List.length_cons] at hItem
    omega
  rw [FitsUnder, depth]
  omega

/- An object fits where its members fit inside it. -/
theorem fitsUnder_object
    {members : List (String × Json)}
    {key : String}
    (hStack : FitStack (.member members key :: stack)) :
    FitsUnder stack (.object members.reverse) := by
  rcases hStack with ⟨hRoom, hMembers, _⟩
  have hDepth :
      depthMembers members.reverse ≤
        maxDepth - (stack.length + 1) := by
    rw [depthMembers_le_iff]
    intro m hm
    have hMember :=
      hMembers m.2 (List.mem_map_of_mem (List.mem_reverse.mp hm))
    rw [FitsUnder, List.length_cons] at hMember
    omega
  rw [FitsUnder, depth]
  omega

------------------------------------------------------------
-- Steps And Runs
------------------------------------------------------------

theorem length_le_of_fitStack
    (hStack : FitStack stack) :
    stack.length ≤ maxDepth := by
  cases stack with
  | nil => exact Nat.zero_le _
  | cons frame stack => exact hStack.1

/- A bracket is opened only where there is room for it. -/
theorem fits_of_beginValue
    {token : Token}
    {next : State}
    (hStack : FitStack stack)
    (hBegin : beginValue stack token = .ok next) :
    next.Fits := by
  have hLeaf {v : Json} (hDepth : v.depth = 0) :
      (complete v stack).Fits := by
    apply fits_complete hStack
    rw [FitsUnder, hDepth]
    exact length_le_of_fitStack hStack
  cases token with
  | openList =>
      rw [beginValue] at hBegin
      split at hBegin
      · next hRoom =>
          cases hBegin
          exact ⟨hRoom, List.forall_mem_nil _, hStack⟩
      · cases hBegin
  | openMap =>
      rw [beginValue] at hBegin
      split at hBegin
      · next hRoom =>
          cases hBegin
          exact ⟨hRoom, List.forall_mem_nil _, hStack⟩
      · cases hBegin
  | null => cases hBegin; exact hLeaf rfl
  | bool b => cases hBegin; exact hLeaf rfl
  | number n => cases hBegin; exact hLeaf rfl
  | text s => cases hBegin; exact hLeaf rfl
  | badText fault => cases hBegin
  | bad fault => cases hBegin
  | closeList => cases hBegin
  | closeMap => cases hBegin
  | comma => cases hBegin
  | colon => cases hBegin

theorem fits_of_beginMember
    {members : List (String × Json)}
    {token : Token}
    {next : State}
    (hStack : FitStack (.member members "" :: stack))
    (hBegin : beginMember members stack token = .ok next) :
    next.Fits := by
  cases token with
  | text key => cases hBegin; exact hStack
  | _ => cases hBegin

end Limit

/- No step of the reader goes beyond the limit. -/
theorem fits_of_step
    {state next : State}
    {token : Token}
    (hFits : state.Fits)
    (hStep : state.step token = .ok next) :
    next.Fits := by
  cases state with
  | value stack =>
      simp only [State.step.eq_def] at hStep
      split at hStep
      · cases hStep
      · exact fits_of_beginValue hFits hStep
  | firstItem stack =>
      simp only [State.step.eq_def] at hStep
      split at hStep
      · cases hStep
        exact fits_complete hFits.2.2 (fitsUnder_array hFits)
      · exact fits_of_beginValue hFits hStep
  | afterItem items stack =>
      cases token with
      | comma => cases hStep; exact hFits
      | closeList =>
          cases hStep
          exact fits_complete hFits.2.2 (fitsUnder_array hFits)
      | _ => cases hStep
  | firstKey stack =>
      simp only [State.step.eq_def] at hStep
      split at hStep
      · cases hStep
        exact fits_complete hFits.2.2 (fitsUnder_object hFits)
      · exact fits_of_beginMember hFits hStep
  | nextKey members stack =>
      simp only [State.step.eq_def] at hStep
      split at hStep
      · cases hStep
      · exact fits_of_beginMember hFits hStep
  | colon members key stack =>
      cases token with
      | colon => cases hStep; exact hFits
      | _ => cases hStep
  | afterMember members stack =>
      cases token with
      | comma => cases hStep; exact hFits
      | closeMap =>
          cases hStep
          exact fits_complete hFits.2.2 (fitsUnder_object hFits)
      | _ => cases hStep
  | ended v => cases hStep

end Json

end BlockProgram
