import BlockProgram.Source.Line
import BlockProgram.Source.Statement

/-
  The outline of a source text: which lines each line holds.

  Indentation alone decides.  A header holds the run of
  deeper lines that follows it, and a conditional also takes
  an `elif` or `else:` line of its own indent that stands
  next.  Every significant line has exactly one place in the
  outline, also one that says nothing.

  Key definitions:
    * `Entry`
    * `Clause`
    * `deeper`
    * `afterDeeper`
    * `outline`
-/

namespace BlockProgram

namespace Source

------------------------------------------------------------
-- Entries
------------------------------------------------------------

mutual

/- A line with the lines that it holds. -/
inductive Entry where
  | function
      (line : Line)
      (header : Option (String × List String))
      (body : List Entry)
  | conditional
      (line : Line)
      (condition : Option String)
      (body : List Entry)
      (clause : Clause)
  | loop
      (line : Line)
      (header : Option (String × String))
      (body : List Entry)
  | ret
      (line : Line)
      (value : String)
  | assignment
      (line : Line)
      (target value : String)
  | call
      (line : Line)
      (callee : String)
      (arguments : List String)
  | unrecognized
      (line : Line)

/- What follows the body of a conditional at its indent. -/
inductive Clause where
  | none
  | elif
      (line : Line)
      (condition : Option String)
      (body : List Entry)
      (clause : Clause)
  | otherwise
      (line : Line)
      (body : List Entry)

end

------------------------------------------------------------
-- Runs Of Deeper Lines
------------------------------------------------------------

/- The lines at the front that are indented deeper. -/
def deeper
    (indent : Nat)
    (lines : List Line) : List Line :=
  lines.takeWhile fun line => indent < line.indent

/- The lines from the first that is not indented deeper. -/
def afterDeeper
    (indent : Nat)
    (lines : List Line) : List Line :=
  lines.dropWhile fun line => indent < line.indent

/- A run of deeper lines is no longer than the lines. -/
theorem length_deeper_le
    (indent : Nat)
    (lines : List Line) :
    (deeper indent lines).length ≤ lines.length :=
  (List.takeWhile_sublist _).length_le

/- No more lines follow such a run than there were. -/
theorem length_afterDeeper_le
    (indent : Nat)
    (lines : List Line) :
    (afterDeeper indent lines).length ≤ lines.length :=
  (List.dropWhile_sublist _).length_le

------------------------------------------------------------
-- Clauses
------------------------------------------------------------

/- The line chains another condition. -/
def Line.isElif (line : Line) : Bool :=
  Text.startsWith "elif " line.text.toList

/- The line opens the branch for all other cases. -/
def Line.isElse (line : Line) : Bool :=
  line.text == "else:"

/-
  The lines left over once a conditional of the given indent
  has taken its clauses from the front.
-/
def afterClauses
    (indent : Nat) :
    List Line →
    List Line
  | [] => []
  | line :: rest =>
      if line.indent = indent then
        if line.isElif then
          afterClauses indent (afterDeeper indent rest)
        else if line.isElse then afterDeeper indent rest
        else line :: rest
      else line :: rest
termination_by lines => lines.length
decreasing_by
  have := length_afterDeeper_le indent rest
  simp only [List.length_cons]
  omega

/- No more lines follow the clauses than there were. -/
theorem length_afterClauses_le
    (indent : Nat)
    (lines : List Line) :
    (afterClauses indent lines).length ≤ lines.length := by
  fun_induction afterClauses indent lines with
  | case1 => exact Nat.le_refl _
  | case2 line rest _ _ ih =>
      have := length_afterDeeper_le indent rest
      simp only [List.length_cons]
      omega
  | case3 line rest _ _ _ =>
      have := length_afterDeeper_le indent rest
      simp only [List.length_cons]
      omega
  | case4 => exact Nat.le_refl _
  | case5 => exact Nat.le_refl _

------------------------------------------------------------
-- Outlines
------------------------------------------------------------

mutual

/- The outline of a run of significant lines. -/
def outline : List Line → List Entry
  | [] => []
  | line :: rest =>
      match Statement.read line.text with
      | .function header =>
          .function line header
              (outline (deeper line.indent rest)) ::
            outline (afterDeeper line.indent rest)
      | .conditional condition =>
          .conditional line condition
              (outline (deeper line.indent rest))
              (clauseOf line.indent
                (afterDeeper line.indent rest)) ::
            outline
              (afterClauses line.indent
                (afterDeeper line.indent rest))
      | .loop header =>
          .loop line header
              (outline (deeper line.indent rest)) ::
            outline (afterDeeper line.indent rest)
      | .ret value => .ret line value :: outline rest
      | .assignment target value =>
          .assignment line target value :: outline rest
      | .call callee arguments =>
          .call line callee arguments :: outline rest
      | .unrecognized => .unrecognized line :: outline rest
termination_by lines => lines.length
decreasing_by
  all_goals
    have := length_deeper_le line.indent rest
    have := length_afterDeeper_le line.indent rest
    have :=
      length_afterClauses_le line.indent
        (afterDeeper line.indent rest)
    simp only [List.length_cons]
    omega

/- The clause that a conditional of an indent finds next. -/
def clauseOf
    (indent : Nat) :
    List Line →
    Clause
  | [] => .none
  | line :: rest =>
      if line.indent = indent then
        if line.isElif then
          .elif line (condition? line.text.toList)
            (outline (deeper indent rest))
            (clauseOf indent (afterDeeper indent rest))
        else if line.isElse then
          .otherwise line (outline (deeper indent rest))
        else .none
      else .none
termination_by lines => lines.length
decreasing_by
  all_goals
    have := length_deeper_le indent rest
    have := length_afterDeeper_le indent rest
    simp only [List.length_cons]
    omega

end

end Source

end BlockProgram
