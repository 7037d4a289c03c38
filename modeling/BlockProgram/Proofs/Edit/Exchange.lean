import BlockProgram.Proofs.Block.Search
import BlockProgram.Proofs.Edit.Steps

/-
  Edits that act on one block.

  When no id repeats, an edit that looks for an id acts on
  one block and keeps all others.  The tree that it makes is
  the old one with that block exchanged, and the ids of the
  new tree are those of the old one with a run exchanged.

  Main declarations:
    * `Edit.exchange`
    * `Edit.ActsOn`
    * `Edit.exchangesRun_exchange`
    * `Edit.acted_of_rewrite`
-/

namespace BlockProgram

namespace Edit

------------------------------------------------------------
-- Exchanging A Block
------------------------------------------------------------

mutual

/- A block that stays, with its contents exchanged. -/
def around
    (target : BlockId)
    (new : List Block) :
    Block →
    Block
  | .function id name parameters body =>
      .function id name parameters (exchange target new body)
  | .assignment id name value => .assignment id name value
  | .conditional id condition body elseKind elseBody =>
      .conditional id condition (exchange target new body)
        (collapsed elseKind (exchange target new elseBody))
        (exchange target new elseBody)
  | .loop id iterator iterable body =>
      .loop id iterator iterable (exchange target new body)
  | .ret id value => .ret id value
  | .call id callee arguments => .call id callee arguments

/-
  A list of blocks in which others stand for the one with the
  target's id, at any depth.
-/
def exchange
    (target : BlockId)
    (new : List Block) :
    List Block →
    List Block
  | [] => []
  | b :: bs =>
      if b.id = target then new ++ exchange target new bs
      else around target new b :: exchange target new bs

end

variable {target : BlockId}

------------------------------------------------------------
-- Ids After An Exchange
------------------------------------------------------------

/- Where the target is not, an exchange changes no id. -/
theorem idsOf_exchange_of_forall
    {new bs : List Block}
    (h :
      ∀ b ∈ bs,
        target ∉ idsOf [b] →
          idsOf [around target new b] = idsOf [b])
    (hAbsent : target ∉ idsOf bs) :
    idsOf (exchange target new bs) = idsOf bs := by
  induction bs with
  | nil => rfl
  | cons b bs ih =>
      rw [idsOf_cons, List.mem_append, not_or] at hAbsent
      have hId : b.id ≠ target := by
        rintro rfl
        exact hAbsent.1 b.id_mem_idsOf
      rw [exchange, if_neg hId, idsOf_cons, idsOf_cons b,
        h b List.mem_cons_self hAbsent.1,
        ih (fun c hc => h c (List.mem_cons_of_mem b hc)) hAbsent.2]

theorem idsOf_around_of_notMem
    (new : List Block)
    (b : Block)
    (hAbsent : target ∉ idsOf [b]) :
    idsOf [around target new b] = idsOf [b] := by
  induction b using Block.induction with
  | function id name parameters body ih =>
      rw [idsOf_function, List.mem_cons, not_or] at hAbsent
      rw [around, idsOf_function, idsOf_function,
        idsOf_exchange_of_forall ih hAbsent.2]
  | assignment id name value => rfl
  | conditional id condition body elseKind elseBody ihBody
      ihElse =>
      rw [idsOf_conditional, List.mem_cons, List.mem_append,
        not_or, not_or] at hAbsent
      rw [around, idsOf_conditional, idsOf_conditional,
        idsOf_exchange_of_forall ihBody hAbsent.2.1,
        idsOf_exchange_of_forall ihElse hAbsent.2.2]
  | loop id iterator iterable body ih =>
      rw [idsOf_loop, List.mem_cons, not_or] at hAbsent
      rw [around, idsOf_loop, idsOf_loop,
        idsOf_exchange_of_forall ih hAbsent.2]
  | ret id value => rfl
  | call id callee arguments => rfl

theorem idsOf_exchange_of_notMem
    (new : List Block)
    {bs : List Block}
    (hAbsent : target ∉ idsOf bs) :
    idsOf (exchange target new bs) = idsOf bs :=
  idsOf_exchange_of_forall
    (fun b _ => idsOf_around_of_notMem new b) hAbsent

/-
  Ids among which those of the old block are one run, and
  what they become when new blocks stand in its place.
-/
def ExchangesRun
    (old : Block)
    (ids : List BlockId)
    (exchanged : List Block → List BlockId) : Prop :=
  ∃ before behind,
    ids = before ++ (idsOf [old] ++ behind) ∧
      ∀ new, exchanged new = before ++ (idsOf new ++ behind)

namespace ExchangesRun

variable {old : Block}
variable {ids : List BlockId}
variable {exchanged : List Block → List BlockId}

theorem self (old : Block) :
    ExchangesRun old (idsOf [old]) idsOf :=
  ⟨[], [], by simp, by simp⟩

theorem append_right
    (h : ExchangesRun old ids exchanged)
    (others : List BlockId) :
    ExchangesRun old (ids ++ others)
      (fun new => exchanged new ++ others) := by
  rcases h with ⟨before, behind, hOld, hNew⟩
  exact
    ⟨before, behind ++ others, by simp [hOld], by simp [hNew]⟩

theorem append_left
    (h : ExchangesRun old ids exchanged)
    (others : List BlockId) :
    ExchangesRun old (others ++ ids)
      (fun new => others ++ exchanged new) := by
  rcases h with ⟨before, behind, hOld, hNew⟩
  exact
    ⟨others ++ before, behind, by simp [hOld], by simp [hNew]⟩

end ExchangesRun

/- The run is in the one member of a list that has it. -/
theorem exchangesRun_of_forall
    {old : Block}
    {bs : List Block}
    (h :
      ∀ b ∈ bs,
        (idsOf [b]).Nodup →
          b.id ≠ target →
            find? target [b] = some old →
              ExchangesRun old (idsOf [b])
                (fun new => idsOf [around target new b]))
    (hNodup : (idsOf bs).Nodup)
    (hFind : find? target bs = some old) :
    ExchangesRun old (idsOf bs)
      (fun new => idsOf (exchange target new bs)) := by
  induction bs with
  | nil => simp [find?, Block.findInAll?] at hFind
  | cons b bs ih =>
      have hOthers :=
        ih fun c hc => h c (List.mem_cons_of_mem b hc)
      rw [idsOf_cons] at hNodup ⊢
      rcases List.nodup_append.mp hNodup with
        ⟨hFirst, hRest, hApart⟩
      by_cases hId : b.id = target
      · -- No other block of the list has the id again.
        have hAbsent : target ∉ idsOf bs := by
          rintro hMember
          exact hApart b.id b.id_mem_idsOf target hMember hId
        have hOld : b = old := by
          rw [find?_cons, find?_self hId] at hFind
          exact Option.some.inj hFind
        subst hOld
        simp only [exchange, if_pos hId, idsOf_append,
          idsOf_exchange_of_notMem _ hAbsent]
        exact (ExchangesRun.self b).append_right _
      · simp only [exchange, if_neg hId,
          idsOf_cons (around _ _ b) (exchange _ _ bs)]
        rw [find?_cons] at hFind
        cases hIn : find? target [b] with
        | none =>
            rw [hIn, Option.none_or] at hFind
            have hAbsent := find?_eq_none_iff.mp hIn
            simp only [idsOf_around_of_notMem _ b hAbsent]
            exact (hOthers hRest hFind).append_left _
        | some found =>
            rw [hIn, Option.some_or] at hFind
            rcases Option.some.inj hFind with rfl
            have hMember := mem_idsOf_of_find? hIn
            have hAbsent : target ∉ idsOf bs := fun hOther =>
              hApart target hMember target hOther rfl
            simp only [idsOf_exchange_of_notMem _ hAbsent]
            exact
              (h b List.mem_cons_self hFirst hId hIn).append_right _

theorem exchange_append
    (new bs cs : List Block) :
    exchange target new (bs ++ cs) =
      exchange target new bs ++ exchange target new cs := by
  induction bs with
  | nil => rfl
  | cons b bs ih =>
      rw [List.cons_append, exchange, exchange, ih]
      split
      · rw [List.append_assoc]
      · rw [List.cons_append]

theorem exchangesRun_around
    {old : Block}
    (b : Block)
    (hNodup : (idsOf [b]).Nodup)
    (hId : b.id ≠ target)
    (hFind : find? target [b] = some old) :
    ExchangesRun old (idsOf [b])
      (fun new => idsOf [around target new b]) := by
  induction b using Block.induction with
  | function id name parameters body ih =>
      rw [find?_function hId] at hFind
      rw [idsOf_function, List.nodup_cons] at hNodup
      have hBody := exchangesRun_of_forall ih hNodup.2 hFind
      simpa [around] using hBody.append_left [id]
  | assignment id name value =>
      rw [find?_eq_none_of_inOrder rfl hId] at hFind
      cases hFind
  | conditional id condition body elseKind elseBody ihBody
      ihElse =>
      rw [find?_conditional hId] at hFind
      rw [idsOf_conditional, List.nodup_cons, ← idsOf_append]
        at hNodup
      have hBoth :=
        exchangesRun_of_forall
          (List.forall_mem_append.mpr ⟨ihBody, ihElse⟩)
          hNodup.2 hFind
      simpa [around, exchange_append] using hBoth.append_left [id]
  | loop id iterator iterable body ih =>
      rw [find?_loop hId] at hFind
      rw [idsOf_loop, List.nodup_cons] at hNodup
      have hBody := exchangesRun_of_forall ih hNodup.2 hFind
      simpa [around] using hBody.append_left [id]
  | ret id value =>
      rw [find?_eq_none_of_inOrder rfl hId] at hFind
      cases hFind
  | call id callee arguments =>
      rw [find?_eq_none_of_inOrder rfl hId] at hFind
      cases hFind

/-
  The ids of the new tree are those of the old one, with the
  ids of the new blocks for the run of the old block.
-/
theorem exchangesRun_exchange
    {old : Block}
    {bs : List Block}
    (hNodup : (idsOf bs).Nodup)
    (hFind : find? target bs = some old) :
    ExchangesRun old (idsOf bs)
      (fun new => idsOf (exchange target new bs)) :=
  exchangesRun_of_forall (fun b _ => exchangesRun_around b)
    hNodup hFind

------------------------------------------------------------
-- Editors Of One Block
------------------------------------------------------------

variable {σ : Type}

/-
  An editor that looks for an id.  It keeps every block with
  another id, and puts something in the place of the block
  that it looks for.
-/
structure ActsOn
    (target : BlockId)
    (editor : Editor σ) : Prop where
  keeps :
    ∀ b s change t,
      b.id ≠ target →
        editor b s = .ok change t → change = .keep ∧ t = s
  acts :
    ∀ b s change t,
      b.id = target →
        editor b s = .ok change t → ∃ new, change = .replace new

/-
  What a run of such an editor did, given the block that it
  was to find: nothing, or it put a new block in its place.
  `outcome` says what came out for what was put there.
-/
def Acted
    (editor : Editor σ)
    (s s' : σ)
    (outcome : List Block → Prop) :
    Option Block →
    Prop
  | none => s' = s ∧ ∀ new, outcome new
  | some old =>
      ∃ new, editor old s = .ok (.replace new) s' ∧ outcome [new]

namespace Acted

variable {editor : Editor σ}
variable {s t s' : σ}
variable {outcome outcome' : List Block → Prop}

theorem mono
    {found : Option Block}
    (h : Acted editor s s' outcome found)
    (hOutcome : ∀ new, outcome new → outcome' new) :
    Acted editor s s' outcome' found := by
  cases found with
  | none => exact ⟨h.1, fun new => hOutcome new (h.2 new)⟩
  | some old =>
      rcases h with ⟨new, hEditor, hNew⟩
      exact ⟨new, hEditor, hOutcome [new] hNew⟩

/- At most one of two runs in a row finds its block. -/
theorem both
    {first second : Option Block}
    (hFirst : Acted editor s t outcome first)
    (hSecond : Acted editor t s' outcome' second)
    (hApart : first ≠ none → second = none) :
    Acted editor s s' (fun new => outcome new ∧ outcome' new)
      (first.or second) := by
  cases first with
  | none =>
      rcases hFirst with ⟨rfl, hOutcome⟩
      exact hSecond.mono fun new hNew => ⟨hOutcome new, hNew⟩
  | some old =>
      rcases hApart (by simp) with rfl
      rcases hSecond with ⟨rfl, hOutcome⟩
      rcases hFirst with ⟨new, hEditor, hNew⟩
      exact ⟨new, hEditor, hNew, hOutcome [new]⟩

end Acted

/- Ids that do not repeat are found in one of two lists. -/
theorem find?_eq_none_of_nodup
    {bs cs : List Block}
    (hNodup : (idsOf bs ++ idsOf cs).Nodup)
    (hFound : find? target bs ≠ none) :
    find? target cs = none := by
  rw [ne_eq, find?_eq_none_iff, Decidable.not_not] at hFound
  rw [find?_eq_none_iff]
  intro hOther
  exact
    (List.nodup_append.mp hNodup).2.2 target hFound target
      hOther rfl

section Runs

variable {editor : Editor σ}
variable (hEditor : ActsOn target editor)
include hEditor

theorem acted_of_forall
    {bs : List Block}
    (hBlocks :
      ∀ b ∈ bs,
        (idsOf [b]).Nodup →
          b.id ≠ target →
            ∀ s s' b',
              rebuild editor b s = .ok b' s' →
                Acted editor s s'
                  (fun new => b' = around target new b)
                  (find? target [b]))
    (hNodup : (idsOf bs).Nodup)
    {s s' : σ}
    {bs' : List Block}
    (hRun : rewrite editor bs s = .ok bs' s') :
    Acted editor s s' (fun new => bs' = exchange target new bs)
      (find? target bs) := by
  induction bs generalizing s bs' with
  | nil =>
      rcases rewrite_nil_eq_ok.mp hRun with ⟨rfl, rfl⟩
      exact ⟨rfl, fun _ => rfl⟩
  | cons b bs ih =>
      rw [idsOf_cons] at hNodup
      rcases List.nodup_append.mp hNodup with ⟨hFirst, hRest, _⟩
      have hOthers {t : σ} {others : List Block}
          (hRun : rewrite editor bs t = .ok others s') :=
        ih (fun c hc => hBlocks c (List.mem_cons_of_mem b hc))
          hRest hRun
      have hApart :
          find? target [b] ≠ none → find? target bs = none :=
        find?_eq_none_of_nodup hNodup
      rw [find?_cons]
      rcases rewrite_cons_eq_ok.mp hRun with
        ⟨t, u, kept, others, hKeep, hKept, hOther, rfl⟩ |
          ⟨t, new, others, hReplace, hOther, rfl⟩ |
          ⟨t, hRemove, _⟩
      · by_cases hId : b.id = target
        · rcases hEditor.acts b _ _ _ hId hKeep with ⟨_, hChange⟩
          cases hChange
        · rcases hEditor.keeps b _ _ _ hId hKeep with ⟨_, rfl⟩
          have hOwn :=
            hBlocks b List.mem_cons_self hFirst hId _ _ _ hKept
          refine (hOwn.both (hOthers hOther) hApart).mono ?_
          rintro new ⟨rfl, rfl⟩
          rw [exchange, if_neg hId]
      · by_cases hId : b.id = target
        · have hOwn :
              Acted editor s t (fun put => put = [new])
                (find? target [b]) := by
            rw [find?_self hId]
            exact ⟨new, hReplace, rfl⟩
          refine (hOwn.both (hOthers hOther) hApart).mono ?_
          rintro put ⟨rfl, rfl⟩
          rw [exchange, if_pos hId, List.singleton_append]
        · rcases hEditor.keeps b _ _ _ hId hReplace with
            ⟨hChange, _⟩
          cases hChange
      · by_cases hId : b.id = target
        · rcases hEditor.acts b _ _ _ hId hRemove with
            ⟨_, hChange⟩
          cases hChange
        · rcases hEditor.keeps b _ _ _ hId hRemove with
            ⟨hChange, _⟩
          cases hChange

theorem acted_of_rebuild
    (b : Block)
    (hNodup : (idsOf [b]).Nodup)
    (hId : b.id ≠ target)
    (s s' : σ)
    (b' : Block)
    (hRun : rebuild editor b s = .ok b' s') :
    Acted editor s s' (fun new => b' = around target new b)
      (find? target [b]) := by
  induction b using Block.induction generalizing s s' b' with
  | function id name parameters body ih =>
      rcases rebuild_function_eq_ok.mp hRun with
        ⟨body', hBody, rfl⟩
      rw [idsOf_function, List.nodup_cons] at hNodup
      rw [find?_function hId]
      refine (acted_of_forall hEditor ih hNodup.2 hBody).mono ?_
      rintro new rfl
      rfl
  | assignment id name value =>
      rcases rebuild_assignment_eq_ok.mp hRun with ⟨rfl, rfl⟩
      rw [find?_eq_none_of_inOrder rfl hId]
      exact ⟨rfl, fun _ => rfl⟩
  | conditional id condition body elseKind elseBody ihBody
      ihElse =>
      rcases rebuild_conditional_eq_ok.mp hRun with
        ⟨body', elseBody', t, hBody, hElse, _, rfl⟩
      rw [idsOf_conditional, List.nodup_cons] at hNodup
      rcases List.nodup_append.mp hNodup.2 with
        ⟨hFirst, hSecond, _⟩
      have hActed :=
        (acted_of_forall hEditor ihBody hFirst hBody).both
          (acted_of_forall hEditor ihElse hSecond hElse)
          (find?_eq_none_of_nodup hNodup.2)
      rw [find?_conditional hId, find?_append]
      refine hActed.mono ?_
      rintro new ⟨rfl, rfl⟩
      rfl
  | loop id iterator iterable body ih =>
      rcases rebuild_loop_eq_ok.mp hRun with ⟨body', hBody, rfl⟩
      rw [idsOf_loop, List.nodup_cons] at hNodup
      rw [find?_loop hId]
      refine (acted_of_forall hEditor ih hNodup.2 hBody).mono ?_
      rintro new rfl
      rfl
  | ret id value =>
      rcases rebuild_ret_eq_ok.mp hRun with ⟨rfl, rfl⟩
      rw [find?_eq_none_of_inOrder rfl hId]
      exact ⟨rfl, fun _ => rfl⟩
  | call id callee arguments =>
      rcases rebuild_call_eq_ok.mp hRun with ⟨rfl, rfl⟩
      rw [find?_eq_none_of_inOrder rfl hId]
      exact ⟨rfl, fun _ => rfl⟩

/-
  A run over a tree without repeated ids puts the new block
  in the place of the one that a search finds.
-/
theorem acted_of_rewrite
    {bs bs' : List Block}
    {s s' : σ}
    (hNodup : (idsOf bs).Nodup)
    (hRun : rewrite editor bs s = .ok bs' s') :
    Acted editor s s' (fun new => bs' = exchange target new bs)
      (find? target bs) :=
  acted_of_forall hEditor
    (fun b _ => acted_of_rebuild hEditor b) hNodup hRun

end Runs

end Edit

end BlockProgram
