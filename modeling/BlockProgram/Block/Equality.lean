import BlockProgram.Block.Basic

/-
  Deciding whether two blocks are the same, ids included.

  Key definitions:
    * `Block.decEq`
-/

namespace BlockProgram

namespace Block

mutual

/- Decide equality of blocks by walking both. -/
def decEq :
    (b c : Block) →
    Decidable (b = c)
  | .function i n ps body, c =>
      match c with
      | .function j m qs other =>
          if h : i = j ∧ n = m ∧ ps = qs then
            match decEqAll body other with
            | isTrue hBody => isTrue (by simp [h, hBody])
            | isFalse hBody => isFalse (by simp [hBody])
          else isFalse (by simp; grind)
      | .assignment .. | .conditional .. | .loop .. | .ret ..
      | .call .. => isFalse (by simp)
  | .assignment i n v, c =>
      match c with
      | .assignment j m w =>
          if h : i = j ∧ n = m ∧ v = w then
            isTrue (by simp [h])
          else isFalse (by simpa using h)
      | .function .. | .conditional .. | .loop .. | .ret ..
      | .call .. => isFalse (by simp)
  | .conditional i e body k elseBody, c =>
      match c with
      | .conditional j f other l otherElse =>
          if h : i = j ∧ e = f ∧ k = l then
            match decEqAll body other with
            | isFalse hBody => isFalse (by simp [hBody])
            | isTrue hBody =>
                match decEqAll elseBody otherElse with
                | isTrue hElse =>
                    isTrue (by simp [h, hBody, hElse])
                | isFalse hElse => isFalse (by simp [hElse])
          else isFalse (by simp; grind)
      | .function .. | .assignment .. | .loop .. | .ret ..
      | .call .. => isFalse (by simp)
  | .loop i x e body, c =>
      match c with
      | .loop j y f other =>
          if h : i = j ∧ x = y ∧ e = f then
            match decEqAll body other with
            | isTrue hBody => isTrue (by simp [h, hBody])
            | isFalse hBody => isFalse (by simp [hBody])
          else isFalse (by simp; grind)
      | .function .. | .assignment .. | .conditional ..
      | .ret .. | .call .. => isFalse (by simp)
  | .ret i v, c =>
      match c with
      | .ret j w =>
          if h : i = j ∧ v = w then isTrue (by simp [h])
          else isFalse (by simpa using h)
      | .function .. | .assignment .. | .conditional ..
      | .loop .. | .call .. => isFalse (by simp)
  | .call i f as, c =>
      match c with
      | .call j g bs =>
          if h : i = j ∧ f = g ∧ as = bs then
            isTrue (by simp [h])
          else isFalse (by simpa using h)
      | .function .. | .assignment .. | .conditional ..
      | .loop .. | .ret .. => isFalse (by simp)

/- `decEq` on lists of blocks. -/
def decEqAll :
    (bs cs : List Block) →
    Decidable (bs = cs)
  | [], [] => isTrue rfl
  | [], _ :: _ => isFalse (by simp)
  | _ :: _, [] => isFalse (by simp)
  | b :: bs, c :: cs =>
      match decEq b c with
      | isFalse h => isFalse (by simp [h])
      | isTrue h =>
          match decEqAll bs cs with
          | isTrue hs => isTrue (by rw [h, hs])
          | isFalse hs => isFalse (by simp [hs])

end

instance : DecidableEq Block :=
  decEq

end Block

end BlockProgram
