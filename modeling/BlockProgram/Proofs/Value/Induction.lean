import BlockProgram.Value.Basic

/-
  Induction over values.

  Main declarations:
    * `Value.induction`
-/

namespace BlockProgram

namespace Value

/-
  What holds of a value whenever it holds of the values
  directly inside it holds of every value.
-/
@[elab_as_elim]
theorem induction
    {motive : Value → Prop}
    (simple : ∀ text, motive (.simple text))
    (array :
      ∀ items, (∀ v ∈ items, motive v) → motive (.array items))
    (object :
      ∀ properties,
        (∀ p ∈ properties, motive p.2) →
          motive (.object properties))
    (call :
      ∀ callee arguments,
        (∀ a ∈ arguments, motive a.2) →
          motive (.call callee arguments))
    (v : Value) :
    motive v := by
  apply
    @Value.rec motive (fun items => ∀ v ∈ items, motive v)
      (fun properties => ∀ p ∈ properties, motive p.2)
      (fun arguments => ∀ a ∈ arguments, motive a.2)
      (fun p => motive p.2) (fun a => motive a.2)
  · exact simple
  · exact array
  · exact object
  · exact call
  · exact List.forall_mem_nil _
  · intro v vs hFirst hOthers
    exact List.forall_mem_cons.mpr ⟨hFirst, hOthers⟩
  · exact List.forall_mem_nil _
  · intro p ps hFirst hOthers
    exact List.forall_mem_cons.mpr ⟨hFirst, hOthers⟩
  · exact List.forall_mem_nil _
  · intro a as hFirst hOthers
    exact List.forall_mem_cons.mpr ⟨hFirst, hOthers⟩
  · intro key v hValue
    exact hValue
  · intro name v hValue
    exact hValue

end Value

end BlockProgram
