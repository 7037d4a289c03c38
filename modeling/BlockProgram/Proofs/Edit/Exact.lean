import BlockProgram.Proofs.Edit.Clause
import BlockProgram.Proofs.Edit.Outcome

/-
  The exact outcome of every edit of a sound tree.

  Each edit finds its target, or fails with the name that it
  was given.  It exchanges the target and keeps all else, and
  an edit that brings a new block in then checks the ids.

  Main declarations:
    * `Edit.replace_eq`
    * `Edit.delete_eq`
    * `Edit.Appends`
    * `Edit.append_eq`
    * `Edit.setElse_eq`
-/

namespace BlockProgram

namespace Edit

open Block (AreSound Fits)

------------------------------------------------------------
-- Outcomes
------------------------------------------------------------

/- A tree is given back once its ids have been checked. -/
def withIdsChecked
    (blocks : List Block) : Except TreeError (List Block) := do
  checkIds blocks
  return blocks

/- The tree with the block exchanged, or the misfit left. -/
def exchanged
    (target : BlockId)
    (new blocks : List Block) : Except TreeError (List Block) :=
  match misfit? target new blocks with
  | some owner => .error (.malformedElif owner)
  | none => .ok (exchange target new blocks)

/- A search is for the first block with the id. -/
theorem met?_eq_find?
    (target : BlockId)
    (blocks : List Block) :
    met? (fun b => b.id = target) blocks = find? target blocks := by
  rw [find?, Block.findInAll?_eq_find?]
  rfl

/- A conditional can stand wherever a block of its kind did. -/
theorem misfit?_eq_none
    {target : BlockId}
    {new : Block}
    (hKind : new.kind = .conditional)
    (blocks : List Block) :
    misfit? target [new] blocks = none := by
  have hFits : Fits (collapsed .elif [new]) [new] := by
    simp [collapsed, Fits, hKind]
  rw [misfit?, if_pos hFits]

/- A misfit holds the target, and its new block is another. -/
theorem misfit?_eq_some
    {target owner : BlockId}
    {new : Block}
    {blocks : List Block}
    (hMisfit : misfit? target [new] blocks = some owner) :
    new.kind ≠ .conditional ∧
      ∃ condition body held,
        .conditional owner condition body .elif [held] ∈
            documentOrder blocks ∧
          held.id = target := by
  constructor
  · intro hKind
    rw [misfit?_eq_none hKind] at hMisfit
    cases hMisfit
  · rw [misfit?, Option.ite_none_left_eq_some] at hMisfit
    exact elifHolder?_eq_some hMisfit.2

/- Nothing at all fits, since the clause goes with it. -/
theorem misfit?_nil
    {target : BlockId}
    (blocks : List Block) :
    misfit? target [] blocks = none := by
  have hFits : Fits (collapsed .elif []) [] := by
    simp [collapsed, Fits]
  rw [misfit?, if_pos hFits]

/- A block of the same kind can stand where the old one did. -/
theorem misfit?_of_kind
    {old new : Block}
    {blocks : List Block}
    (hSound : AreSound blocks)
    (hNodup : (idsOf blocks).Nodup)
    (hOld : old ∈ documentOrder blocks)
    (hKind : new.kind = old.kind) :
    misfit? old.id [new] blocks = none := by
  by_cases hConditional : new.kind = .conditional
  · exact misfit?_eq_none hConditional blocks
  · rw [misfit?, ite_eq_left_iff]
    intro _
    cases hHolder : elifHolder? old.id blocks with
    | none => rfl
    | some owner =>
        rcases elifHolder?_eq_some hHolder with
          ⟨condition, body, held, hOwner, hId⟩
        have hHeld := held_mem_documentOrder hOwner
        have hSame : held = old :=
          List.inj_on_of_nodup_map hNodup hHeld hOld hId
        have hFits : Fits .elif [held] := hSound _ hOwner
        rw [hSame] at hFits
        simp only [Fits, List.map_cons, List.map_nil,
          List.cons.injEq, and_true] at hFits
        exact absurd (hKind.trans hFits) hConditional

------------------------------------------------------------
-- Replacing
------------------------------------------------------------

theorem replacing_some
    (target : BlockId)
    (new b : Block) :
    replacing target b (some new) =
      if b.id = target then .ok (.replace new) none
      else .ok .keep (some new) := by
  by_cases hId : b.id = target
  · rw [if_pos hId]
    simp only [replacing, hId, if_true]
    rfl
  · rw [if_neg hId]
    simp only [replacing, hId, if_false]
    rfl

theorem replacing_seeks
    (target : BlockId)
    (new : Block) :
    Seeks (fun b => b.id = target) (some new)
      (replacing target) := by
  intro b hNot
  rw [replacing_some, if_neg (by simpa using hNot)]

theorem replacing_exchanges
    (new : Block)
    {target : BlockId}
    {old : Block}
    (hId : old.id = target) :
    Exchanges (replacing target) (fun b => b.id = target)
      (some new) none old [new] where
  seeks := replacing_seeks target new
  acts :=
    ⟨.replace new, by rw [replacing_some, if_pos hId], rfl⟩
  keeps := fun b _ => rfl

/- Without the target the new block stays to be placed. -/
theorem rewrite_of_absent
    {σ : Type}
    {editor : Editor σ}
    {target : BlockId}
    {s : σ}
    {blocks : List Block}
    (hSeeks : Seeks (fun b => b.id = target) s editor)
    (hSound : AreSound blocks)
    (hFind : find? target blocks = none) :
    rewrite editor blocks s = .ok blocks s :=
  rewrite_of_not_met hSeeks hSound
    ((met?_eq_find? target blocks).trans hFind)

/- Replacing a block of a sound tree. -/
theorem replace_eq
    {blocks : List Block}
    (hSound : AreSound blocks)
    (hNodup : (idsOf blocks).Nodup)
    (target : BlockId)
    (new : Block) :
    replace target new blocks =
      (match find? target blocks with
        | none => .error (.blockNotFound target)
        | some _ => do
            let edited ← exchanged target [new] blocks
            withIdsChecked edited) := by
  rw [replace, EStateM.run]
  cases hFind : find? target blocks with
  | none =>
      rw [rewrite_of_absent (replacing_seeks target new) hSound
        hFind]
      rfl
  | some old =>
      have hId := (find?_eq_some hFind).2
      have hMet := (met?_eq_find? target blocks).trans hFind
      have hRun :=
        rewrite_of_met (replacing_exchanges new hId) hSound hNodup
          hMet
      rw [hRun, hId]
      unfold exchanged
      cases misfit? target [new] blocks <;> rfl

------------------------------------------------------------
-- Deleting
------------------------------------------------------------

theorem deleting_seeks (target : BlockId) :
    Seeks (fun b => b.id = target) false (deleting target) := by
  intro b hNot
  have hOther : b.id ≠ target := by simpa using hNot
  rw [deleting, if_neg hOther]
  rfl

theorem deleting_exchanges
    {target : BlockId}
    {old : Block}
    (hId : old.id = target) :
    Exchanges (deleting target) (fun b => b.id = target) false true
      old [] where
  seeks := deleting_seeks target
  acts := by
    refine ⟨.remove, ?_, rfl⟩
    rw [deleting, if_pos hId]
    rfl
  keeps := by
    intro b hOther
    rw [deleting, if_neg (hId ▸ hOther)]
    rfl

/- Deleting a block of a sound tree. -/
theorem delete_eq
    {blocks : List Block}
    (hSound : AreSound blocks)
    (hNodup : (idsOf blocks).Nodup)
    (target : BlockId) :
    delete target blocks =
      match find? target blocks with
      | none => .error (.blockNotFound target)
      | some _ => .ok (exchange target [] blocks) := by
  rw [delete, EStateM.run]
  cases hFind : find? target blocks with
  | none =>
      rw [rewrite_of_absent (deleting_seeks target) hSound hFind]
  | some old =>
      have hId := (find?_eq_some hFind).2
      have hMet := (met?_eq_find? target blocks).trans hFind
      have hRun :=
        rewrite_of_met (deleting_exchanges hId) hSound hNodup hMet
      rw [hRun, hId, misfit?_nil]
      rfl

------------------------------------------------------------
-- Appending
------------------------------------------------------------

/- The name addresses the block or its else branch. -/
def isAddressed
    (parent : String)
    (b : Block) : Bool :=
  b.id = parent ∨
    b.id ++ elseSuffix = parent ∧ b.kind = .conditional

/- A block that is addressed, with the child in its place. -/
def grown
    (parent : String)
    (child : Block)
    (b : Block) : Except TreeError Block :=
  if b.id = parent then
    match appended? child b with
    | none => .error (.notAContainer b.id)
    | some new => .ok new
  else
    match elseAppended child b with
    | .error fault => .error fault
    | .ok none => .ok b
    | .ok (some new) => .ok new

/-
  What becomes of the block that a name addresses when a
  child is appended: it grows by the child, or it is at
  fault.
-/
inductive Appends
    (parent : String)
    (child : Block) :
    Block → Except TreeError Block → Prop where
  | function
      {id name : String}
      {parameters : List String}
      {body : List Block}
      (hId : id = parent) :
      Appends parent child
        (.function id name parameters body)
        (.ok (.function id name parameters (body ++ [child])))
  | branch
      {id condition : String}
      {body elseBody : List Block}
      {elseKind : ElseKind}
      (hId : id = parent) :
      Appends parent child
        (.conditional id condition body elseKind elseBody)
        (.ok
          (.conditional id condition (body ++ [child]) elseKind
            elseBody))
  | loop
      {id iterator iterable : String}
      {body : List Block}
      (hId : id = parent) :
      Appends parent child
        (.loop id iterator iterable body)
        (.ok (.loop id iterator iterable (body ++ [child])))
  /- No block without a body can hold another. -/
  | bodyless
      {b : Block}
      (hId : b.id = parent)
      (hKind : b.kind ∈ [Kind.assignment, .ret, .call]) :
      Appends parent child b (.error (.notAContainer parent))
  | elseBranch
      {id condition : String}
      {body elseBody : List Block}
      {elseKind : ElseKind}
      (hName : id ++ elseSuffix = parent)
      (hKind : elseKind ≠ .elif) :
      Appends parent child
        (.conditional id condition body elseKind elseBody)
        (.ok
          (.conditional id condition body .otherwise
            (elseBody ++ [child])))
  /- The one place in the branch of an `elif` is taken. -/
  | occupied
      {id condition : String}
      {body elseBody : List Block}
      (hName : id ++ elseSuffix = parent) :
      Appends parent child
        (.conditional id condition body .elif elseBody)
        (.error (.elifBranchOccupied id))

theorem appends_grown
    {parent : String}
    {old : Block}
    (hOld : isAddressed parent old = true)
    (child : Block) :
    Appends parent child old (grown parent child old) := by
  by_cases hId : old.id = parent
  · rw [grown, if_pos hId]
    cases old with
    | function => exact .function hId
    | conditional => exact .branch hId
    | loop => exact .loop hId
    | assignment => exact hId ▸ .bodyless rfl (by simp [Block.kind])
    | ret => exact hId ▸ .bodyless rfl (by simp [Block.kind])
    | call => exact hId ▸ .bodyless rfl (by simp [Block.kind])
  · rw [grown, if_neg hId]
    have hElse :
        old.id ++ elseSuffix = parent ∧
          old.kind = .conditional := by
      simpa [isAddressed, hId] using hOld
    cases old with
    | conditional id condition body elseKind elseBody =>
        cases elseKind with
        | none => exact .elseBranch hElse.1 (by simp)
        | elif => exact .occupied hElse.1
        | otherwise => exact .elseBranch hElse.1 (by simp)
    | function => cases hElse.2
    | loop => cases hElse.2
    | assignment => cases hElse.2
    | ret => cases hElse.2
    | call => cases hElse.2

/- What has grown is of the kind that it was. -/
theorem Appends.kind_eq
    {parent : String}
    {child old new : Block}
    (hAppends : Appends parent child old (.ok new)) :
    new.kind = old.kind := by
  cases hAppends <;> rfl

theorem appending_of_id
    {parent : String}
    {b : Block}
    (hId : b.id = parent)
    (child : Block) :
    appending parent b (some child) =
      match grown parent child b with
      | .error fault => .error fault (some child)
      | .ok new => .ok (.replace new) none := by
  rw [grown, if_pos hId]
  simp only [appending, get_bind, if_pos hId]
  cases appended? child b <;> rfl

theorem appending_of_ne
    {parent : String}
    {b : Block}
    (hId : b.id ≠ parent)
    (child : Block) :
    appending parent b (some child) =
      if isAddressed parent b then
        match grown parent child b with
        | .error fault => .error fault (some child)
        | .ok new => .ok (.replace new) none
      else .ok .keep (some child) := by
  have hRun :
      appending parent b (some child) =
        if b.id ++ elseSuffix = parent then
          match elseAppended child b with
          | .error fault => .error fault (some child)
          | .ok none => .ok .keep (some child)
          | .ok (some new) => .ok (.replace new) none
        else .ok .keep (some child) := by
    simp only [appending, get_bind, if_neg hId]
    split
    · cases elseAppended child b with
      | error fault => rfl
      | ok new => cases new <;> rfl
    · rfl
  rw [hRun]
  by_cases hElse : b.id ++ elseSuffix = parent
  · rw [if_pos hElse]
    cases b with
    | conditional id condition body elseKind elseBody =>
        have hOld :
            isAddressed parent
                (.conditional id condition body elseKind
                  elseBody) =
              true := by
          simp [isAddressed, hElse, Block.kind]
        rw [if_pos hOld, grown, if_neg hId]
        cases elseKind <;> rfl
    | function => simp [isAddressed, hId, Block.kind, elseAppended]
    | assignment =>
        simp [isAddressed, hId, Block.kind, elseAppended]
    | loop => simp [isAddressed, hId, Block.kind, elseAppended]
    | ret => simp [isAddressed, hId, Block.kind, elseAppended]
    | call => simp [isAddressed, hId, Block.kind, elseAppended]
  · simp [isAddressed, hId, hElse]

theorem appending_seeks
    (parent : String)
    (child : Block) :
    Seeks (isAddressed parent) (some child) (appending parent) := by
  intro b hNot
  have hId : b.id ≠ parent := by
    intro hId
    simp [isAddressed, hId] at hNot
  rw [appending_of_ne hId, if_neg (by simp [hNot])]

/- The addressed block grows, or says why it cannot. -/
theorem appending_of_addressed
    {parent : String}
    {old : Block}
    (hOld : isAddressed parent old = true)
    (child : Block) :
    appending parent old (some child) =
      match grown parent child old with
      | .error fault => .error fault (some child)
      | .ok new => .ok (.replace new) none := by
  by_cases hId : old.id = parent
  · exact appending_of_id hId child
  · rw [appending_of_ne hId, if_pos hOld]

theorem appending_exchanges
    {parent : String}
    {child old new : Block}
    (hOld : isAddressed parent old = true)
    (hGrown : grown parent child old = .ok new) :
    Exchanges (appending parent) (isAddressed parent) (some child)
      none old [new] where
  seeks := appending_seeks parent child
  acts := by
    refine ⟨.replace new, ?_, rfl⟩
    rw [appending_of_addressed hOld, hGrown]
  keeps := fun b _ => rfl

/- Appending to a block of a sound tree. -/
theorem append_eq
    {blocks : List Block}
    (hSound : AreSound blocks)
    (hNodup : (idsOf blocks).Nodup)
    (parent : String)
    (child : Block) :
    append parent child blocks =
      (match met? (isAddressed parent) blocks with
        | none => .error (.blockNotFound parent)
        | some old => do
            let new ← grown parent child old
            withIdsChecked (exchange old.id [new] blocks)) := by
  rw [append, EStateM.run]
  cases hMet : met? (isAddressed parent) blocks with
  | none =>
      rw [rewrite_of_not_met (appending_seeks parent child) hSound
        hMet]
      rfl
  | some old =>
      have hOld : isAddressed parent old = true :=
        List.find?_some hMet
      cases hGrown : grown parent child old with
      | error fault =>
          have hFault := appending_of_addressed hOld child
          rw [hGrown] at hFault
          rw [rewrite_of_fault (appending_seeks parent child) hFault
            hSound hMet]
          simp only [hGrown]
          rfl
      | ok new =>
          have hAppends := appends_grown hOld child
          rw [hGrown] at hAppends
          rw [rewrite_of_met (appending_exchanges hOld hGrown)
            hSound hNodup hMet,
            misfit?_of_kind hSound hNodup
              (List.mem_of_find?_eq_some hMet) hAppends.kind_eq]
          simp only [hGrown]
          rfl

------------------------------------------------------------
-- Changing The Else Clause
------------------------------------------------------------

/- The branch that a new clause of the kind begins with. -/
def newBranch
    (kind : ElseKind)
    (n : Nat) : List Block :=
  match kind with
  | .none | .otherwise => []
  | .elif => [Kind.conditional.placeholder n]

/-
  A conditional with a clause of the kind, and the number
  that comes next.
-/
def reclaused?
    (kind : ElseKind)
    (n : Nat) :
    Block →
    Option (Block × Nat)
  | .conditional id condition body elseKind elseBody =>
      if elseKind = kind then
        some (.conditional id condition body elseKind elseBody, n)
      else
        some
          (.conditional id condition body kind (newBranch kind n),
            n + (newBranch kind n).length)
  | .function .. | .assignment .. | .loop .. | .ret ..
  | .call .. => none

variable {target : BlockId}
variable {kind : ElseKind}

theorem settingElse_keeps
    (s : Search)
    {b : Block}
    (hId : b.id ≠ target) :
    settingElse target kind b s = .ok .keep s := by
  simp only [settingElse, if_neg hId]
  rfl

theorem settingElse_eq
    (kind : ElseKind)
    (n : Nat)
    {old : Block}
    (hId : old.id = target) :
    settingElse target kind old ⟨false, n⟩ =
      match reclaused? kind n old with
      | none => .error (.notAConditional target) ⟨true, n⟩
      | some (new, next) => .ok (.replace new) ⟨true, next⟩ := by
  simp only [settingElse, if_pos hId]
  cases old with
  | conditional id condition body elseKind elseBody =>
      by_cases hSame : elseKind = kind
      · simp only [reclaused?, if_pos hSame]
        rfl
      · simp only [reclaused?, if_neg hSame]
        cases kind <;> rfl
  | function => rfl
  | assignment => rfl
  | loop => rfl
  | ret => rfl
  | call => rfl

theorem settingElse_exchanges
    {n next : Nat}
    {old new : Block}
    (hId : old.id = target)
    (hNew : reclaused? kind n old = some (new, next)) :
    Exchanges (settingElse target kind) (fun b => b.id = target)
      ⟨false, n⟩ ⟨true, next⟩ old [new] where
  seeks := fun b hNot =>
    settingElse_keeps _ (by simpa using hNot)
  acts := by
    refine ⟨.replace new, ?_, rfl⟩
    rw [settingElse_eq kind n hId, hNew]
  keeps := fun b hOther =>
    settingElse_keeps _ (hId ▸ hOther)

theorem kind_reclaused?
    {n next : Nat}
    {old new : Block}
    (hNew : reclaused? kind n old = some (new, next)) :
    new.kind = old.kind := by
  cases old with
  | conditional id condition body elseKind elseBody =>
      rw [reclaused?] at hNew
      split at hNew <;> cases hNew <;> rfl
  | function => cases hNew
  | assignment => cases hNew
  | loop => cases hNew
  | ret => cases hNew
  | call => cases hNew

/- Changing a clause of a sound tree. -/
theorem setElse_eq
    {blocks : List Block}
    (hSound : AreSound blocks)
    (hNodup : (idsOf blocks).Nodup)
    (target : BlockId)
    (kind : ElseKind)
    (n : Nat) :
    setElse target kind n blocks =
      match find? target blocks with
      | none => (.error (.blockNotFound target), n)
      | some old =>
          match reclaused? kind n old with
          | none => (.error (.notAConditional target), n)
          | some (new, next) =>
              (.ok (exchange target [new] blocks), next) := by
  have hSeeks :
      Seeks (fun b => b.id = target) ⟨false, n⟩
        (settingElse target kind) :=
    fun b hNot => settingElse_keeps _ (by simpa using hNot)
  rw [setElse, EStateM.run]
  cases hFind : find? target blocks with
  | none =>
      rw [rewrite_of_absent hSeeks hSound hFind]
      rfl
  | some old =>
      have hId := (find?_eq_some hFind).2
      have hMet := (met?_eq_find? target blocks).trans hFind
      cases hNew : reclaused? kind n old with
      | none =>
          have hFault := settingElse_eq kind n hId
          rw [hNew] at hFault
          rw [rewrite_of_fault hSeeks hFault hSound hMet]
          simp only [hNew]
      | some made =>
          rcases made with ⟨new, next⟩
          have hFits :=
            misfit?_of_kind hSound hNodup (find?_eq_some hFind).1
              (kind_reclaused? hNew)
          rw [rewrite_of_met (settingElse_exchanges hId hNew)
            hSound hNodup hMet, hFits, hId]
          simp only [hNew]
          rfl

end Edit

end BlockProgram
