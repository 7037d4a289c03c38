import BlockProgram.Text.Space

/-
  Values: the right-hand sides of assignments.

  A simple value is opaque expression text.  The other forms
  are structure that an editor builds up piece by piece.

  Key definitions:
    * `Value`
    * `Value.ofText`
    * `Value.leafCount`
    * `Value.isEmpty`
    * `Value.duplicateKeys`
-/

namespace BlockProgram

------------------------------------------------------------
-- Values
------------------------------------------------------------

/-
  A value.  The properties of an object keep their order and
  may repeat a key.  A call's argument is positional when it
  has no name, and a keyword argument otherwise.
-/
inductive Value where
  | simple (text : String)
  | array (items : List Value)
  | object (properties : List (String × Value))
  | call
      (callee : String)
      (arguments : List (Option String × Value))
  deriving Repr

namespace Value

/- The value of an assignment that was given none. -/
instance : Inhabited Value :=
  ⟨.simple ""⟩

/- Plain expression text, as older documents store it. -/
def ofText (text : String) : Value :=
  .simple text

------------------------------------------------------------
-- Equality
------------------------------------------------------------

mutual

/- Decide equality of values by walking both. -/
def decEq :
    (v w : Value) →
    Decidable (v = w)
  | .simple s, w =>
      match w with
      | .simple t =>
          if h : s = t then isTrue (by rw [h])
          else isFalse (by simp [h])
      | .array _ | .object _ | .call _ _ =>
          isFalse (by simp)
  | .array is, w =>
      match w with
      | .array js =>
          match decEqItems is js with
          | isTrue h => isTrue (by rw [h])
          | isFalse h => isFalse (by simp [h])
      | .simple _ | .object _ | .call _ _ =>
          isFalse (by simp)
  | .object ps, w =>
      match w with
      | .object qs =>
          match decEqProperties ps qs with
          | isTrue h => isTrue (by rw [h])
          | isFalse h => isFalse (by simp [h])
      | .simple _ | .array _ | .call _ _ =>
          isFalse (by simp)
  | .call f as, w =>
      match w with
      | .call g bs =>
          if hf : f = g then
            match decEqArguments as bs with
            | isTrue h => isTrue (by rw [hf, h])
            | isFalse h => isFalse (by simp [h])
          else isFalse (by simp [hf])
      | .simple _ | .array _ | .object _ =>
          isFalse (by simp)

/- `decEq` on the items of an array. -/
def decEqItems :
    (vs ws : List Value) →
    Decidable (vs = ws)
  | [], [] => isTrue rfl
  | [], _ :: _ => isFalse (by simp)
  | _ :: _, [] => isFalse (by simp)
  | v :: vs, w :: ws =>
      match decEq v w with
      | isFalse h => isFalse (by simp [h])
      | isTrue h =>
          match decEqItems vs ws with
          | isTrue hs => isTrue (by rw [h, hs])
          | isFalse hs => isFalse (by simp [hs])

/- `decEq` on the properties of an object. -/
def decEqProperties :
    (ps qs : List (String × Value)) →
    Decidable (ps = qs)
  | [], [] => isTrue rfl
  | [], _ :: _ => isFalse (by simp)
  | _ :: _, [] => isFalse (by simp)
  | (k, v) :: ps, (l, w) :: qs =>
      if hk : k = l then
        match decEq v w with
        | isFalse h => isFalse (by simp [h])
        | isTrue h =>
            match decEqProperties ps qs with
            | isTrue hs => isTrue (by rw [hk, h, hs])
            | isFalse hs => isFalse (by simp [hs])
      else isFalse (by simp [hk])

/- `decEq` on the arguments of a call. -/
def decEqArguments :
    (as bs : List (Option String × Value)) →
    Decidable (as = bs)
  | [], [] => isTrue rfl
  | [], _ :: _ => isFalse (by simp)
  | _ :: _, [] => isFalse (by simp)
  | (n, v) :: as, (m, w) :: bs =>
      if hn : n = m then
        match decEq v w with
        | isFalse h => isFalse (by simp [h])
        | isTrue h =>
            match decEqArguments as bs with
            | isTrue hs => isTrue (by rw [hn, h, hs])
            | isFalse hs => isFalse (by simp [hs])
      else isFalse (by simp [hn])

end

instance : DecidableEq Value :=
  decEq

------------------------------------------------------------
-- Counting Leaves
------------------------------------------------------------

mutual

/- The number of simple values inside a value. -/
def leafCount : Value → Nat
  | .simple _ => 1
  | .array items => leafCountItems items
  | .object properties => leafCountProperties properties
  | .call _ arguments => leafCountArguments arguments

/- The simple values of an array. -/
def leafCountItems : List Value → Nat
  | [] => 0
  | v :: vs => v.leafCount + leafCountItems vs

/- The simple values of an object. -/
def leafCountProperties : List (String × Value) → Nat
  | [] => 0
  | (_, v) :: ps => v.leafCount + leafCountProperties ps

/- The simple values of a call. -/
def leafCountArguments : List (Option String × Value) → Nat
  | [] => 0
  | (_, v) :: as => v.leafCount + leafCountArguments as

end

------------------------------------------------------------
-- Emptiness
------------------------------------------------------------

/-
  Whether nothing has been filled in: blank text, no items,
  no properties, or a call without a callee.
-/
def isEmpty : Value → Bool
  | .simple text => (Text.trim text.toList).isEmpty
  | .array items => items.isEmpty
  | .object properties => properties.isEmpty
  | .call callee _ => (Text.trim callee.toList).isEmpty

------------------------------------------------------------
-- Repeated Keys
------------------------------------------------------------

/-
  The texts that repeat one before them, each once, where
  `seen` has been met already and `reported` is no news.
-/
def repeats
    (seen reported : List String) :
    List String →
    List String
  | [] => []
  | k :: ks =>
      if k ∈ seen then
        if k ∈ reported then repeats seen reported ks
        else k :: repeats seen (k :: reported) ks
      else repeats (k :: seen) reported ks

/-
  The keys that an object holds more than once, each once,
  in the order their first repeats stand.
-/
def duplicateKeys : Value → List String
  | .object properties =>
      repeats [] [] (properties.map Prod.fst)
  | .simple _ | .array _ | .call _ _ => []

end Value

end BlockProgram
