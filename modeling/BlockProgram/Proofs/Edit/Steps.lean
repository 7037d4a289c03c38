import BlockProgram.Edit.Operations

/-
  What a successful rebuild went through.

  A rebuild is a chain of computations that may fail.  The
  lemmas here take a rebuild that came to its end apart, one
  block at a time.

  Main declarations:
    * `Edit.rewrite_cons_eq_ok`
    * `Edit.rebuild_conditional_eq_ok`
-/

namespace BlockProgram

namespace Edit

variable {σ α β : Type}

------------------------------------------------------------
-- Computations
------------------------------------------------------------

/- A chain ends well when both of its parts do. -/
theorem bind_eq_ok
    {x : Editing σ α}
    {f : α → Editing σ β}
    {s s' : σ}
    {b : β} :
    (x >>= f) s = .ok b s' ↔
      ∃ a t, x s = .ok a t ∧ f a t = .ok b s' := by
  simp only [bind, EStateM.bind]
  cases x s with
  | ok a t => simp [and_assoc]
  | error fault t => simp

/- A chain that begins by reading the state goes on with it. -/
theorem get_bind
    (f : σ → Editing σ α)
    (s : σ) :
    ((get : Editing σ σ) >>= f) s = f s s :=
  rfl

/- Giving a value back leaves the state alone. -/
theorem pure_eq_ok
    {a b : α}
    {s s' : σ} :
    (pure a : Editing σ α) s = .ok b s' ↔ a = b ∧ s = s' := by
  simp [pure, EStateM.pure]

/- A check that is passed leaves the state alone. -/
theorem checking_eq_ok
    {outcome : Except TreeError Unit}
    {s s' : σ}
    {u : Unit} :
    checking outcome s = .ok u s' ↔
      outcome = .ok () ∧ s = s' := by
  cases outcome with
  | ok v => simp [checking, pure, EStateM.pure]
  | error fault =>
      have hFault :
          (checking (.error fault) : Editing σ Unit) s =
            .error fault s :=
        rfl
      simp [hFault]

------------------------------------------------------------
-- Rebuilding A List
------------------------------------------------------------

variable {editor : Editor σ}

theorem rewrite_nil_eq_ok
    {bs : List Block}
    {s s' : σ} :
    rewrite editor [] s = .ok bs s' ↔ bs = [] ∧ s' = s := by
  rw [rewrite, pure_eq_ok]
  exact and_congr eq_comm eq_comm

/-
  The first block of a list is kept and rebuilt, or gives way
  to another, or goes; then the others follow.
-/
theorem rewrite_cons_eq_ok
    {b : Block}
    {bs bs' : List Block}
    {s s' : σ} :
    rewrite editor (b :: bs) s = .ok bs' s' ↔
      (∃ t u kept others,
        editor b s = .ok .keep t ∧
          rebuild editor b t = .ok kept u ∧
            rewrite editor bs u = .ok others s' ∧
              bs' = kept :: others) ∨
        (∃ t new others,
          editor b s = .ok (.replace new) t ∧
            rewrite editor bs t = .ok others s' ∧
              bs' = new :: others) ∨
          ∃ t,
            editor b s = .ok .remove t ∧
              rewrite editor bs t = .ok bs' s' := by
  rw [rewrite, bind_eq_ok]
  constructor
  · rintro ⟨change, t, hEditor, hRest⟩
    cases change with
    | keep =>
        simp only [bind_eq_ok, pure_eq_ok] at hRest
        rcases hRest with
          ⟨kept, u, hKept, others, v, hOthers, rfl, rfl⟩
        exact
          Or.inl
            ⟨t, u, kept, others, hEditor, hKept, hOthers, rfl⟩
    | replace new =>
        simp only [bind_eq_ok, pure_eq_ok] at hRest
        rcases hRest with ⟨others, v, hOthers, rfl, rfl⟩
        exact
          Or.inr (Or.inl ⟨t, new, others, hEditor, hOthers, rfl⟩)
    | remove => exact Or.inr (Or.inr ⟨t, hEditor, hRest⟩)
  · rintro
      (⟨t, u, kept, others, hEditor, hKept, hOthers, rfl⟩ |
        ⟨t, new, others, hEditor, hOthers, rfl⟩ |
        ⟨t, hEditor, hRest⟩)
    · refine ⟨.keep, t, hEditor, ?_⟩
      simp only [bind_eq_ok, pure_eq_ok]
      exact ⟨kept, u, hKept, others, s', hOthers, rfl, rfl⟩
    · refine ⟨.replace new, t, hEditor, ?_⟩
      simp only [bind_eq_ok, pure_eq_ok]
      exact ⟨others, s', hOthers, rfl, rfl⟩
    · exact ⟨.remove, t, hEditor, hRest⟩

------------------------------------------------------------
-- Rebuilding A Block
------------------------------------------------------------

theorem rebuild_function_eq_ok
    {id name : String}
    {parameters : List String}
    {body : List Block}
    {b : Block}
    {s s' : σ} :
    rebuild editor (.function id name parameters body) s =
        .ok b s' ↔
      ∃ body',
        rewrite editor body s = .ok body' s' ∧
          b = .function id name parameters body' := by
  simp only [rebuild, bind_eq_ok, pure_eq_ok]
  constructor
  · rintro ⟨body', t, hBody, rfl, rfl⟩
    exact ⟨body', hBody, rfl⟩
  · rintro ⟨body', hBody, rfl⟩
    exact ⟨body', s', hBody, rfl, rfl⟩

theorem rebuild_loop_eq_ok
    {id iterator iterable : String}
    {body : List Block}
    {b : Block}
    {s s' : σ} :
    rebuild editor (.loop id iterator iterable body) s =
        .ok b s' ↔
      ∃ body',
        rewrite editor body s = .ok body' s' ∧
          b = .loop id iterator iterable body' := by
  simp only [rebuild, bind_eq_ok, pure_eq_ok]
  constructor
  · rintro ⟨body', t, hBody, rfl, rfl⟩
    exact ⟨body', hBody, rfl⟩
  · rintro ⟨body', hBody, rfl⟩
    exact ⟨body', s', hBody, rfl, rfl⟩

/-
  Both branches of a conditional are rebuilt, and its else
  branch passes its check again.
-/
theorem rebuild_conditional_eq_ok
    {id condition : String}
    {body elseBody : List Block}
    {elseKind : ElseKind}
    {b : Block}
    {s s' : σ} :
    rebuild editor
        (.conditional id condition body elseKind elseBody) s =
        .ok b s' ↔
      ∃ body' elseBody' t,
        rewrite editor body s = .ok body' t ∧
          rewrite editor elseBody t = .ok elseBody' s' ∧
            checkElse id (collapsed elseKind elseBody')
                elseBody' = .ok () ∧
              b =
                .conditional id condition body'
                  (collapsed elseKind elseBody') elseBody' := by
  simp only [rebuild, bind_eq_ok, pure_eq_ok, checking_eq_ok]
  constructor
  · rintro
      ⟨body', t, hBody, elseBody', u, hElse, _, _,
        ⟨hCheck, rfl⟩, rfl, rfl⟩
    exact ⟨body', elseBody', t, hBody, hElse, hCheck, rfl⟩
  · rintro ⟨body', elseBody', t, hBody, hElse, hCheck, rfl⟩
    exact
      ⟨body', t, hBody, elseBody', s', hElse, (), s',
        ⟨hCheck, rfl⟩, rfl, rfl⟩

theorem rebuild_assignment_eq_ok
    {id name : String}
    {value : Value}
    {b : Block}
    {s s' : σ} :
    rebuild editor (.assignment id name value) s = .ok b s' ↔
      b = .assignment id name value ∧ s' = s := by
  rw [rebuild, pure_eq_ok]
  exact and_congr eq_comm eq_comm

theorem rebuild_ret_eq_ok
    {id value : String}
    {b : Block}
    {s s' : σ} :
    rebuild editor (.ret id value) s = .ok b s' ↔
      b = .ret id value ∧ s' = s := by
  rw [rebuild, pure_eq_ok]
  exact and_congr eq_comm eq_comm

theorem rebuild_call_eq_ok
    {id callee : String}
    {arguments : List String}
    {b : Block}
    {s s' : σ} :
    rebuild editor (.call id callee arguments) s = .ok b s' ↔
      b = .call id callee arguments ∧ s' = s := by
  rw [rebuild, pure_eq_ok]
  exact and_congr eq_comm eq_comm

end Edit

end BlockProgram
