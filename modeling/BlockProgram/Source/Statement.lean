import BlockProgram.Block.Numbering
import BlockProgram.Text.Word

/-
  What a single line says, read from its trimmed text alone.

  A header names its parts, or is malformed and leaves them
  to defaults.  Which lines a header holds is no matter of
  this module.

  Key definitions:
    * `Statement`
    * `commaList`
    * `functionHeader?`
    * `condition?`
    * `loopHeader?`
    * `assignment?`
    * `call?`
    * `Statement.read`
-/

namespace BlockProgram

namespace Source

open Text

------------------------------------------------------------
-- Statements
------------------------------------------------------------

/-
  A line by its form.  The parts of a header are absent when
  it could not be read.
-/
inductive Statement where
  | function (header : Option (String × List String))
  | conditional (condition : Option String)
  | loop (header : Option (String × String))
  | ret (value : String)
  | assignment (target value : String)
  | call (callee : String) (arguments : List String)
  | unrecognized
  deriving DecidableEq, Repr

------------------------------------------------------------
-- Lists
------------------------------------------------------------

/- A list of trimmed texts between commas; blank is empty. -/
def commaList (cs : List Char) : List String :=
  if (trim cs).isEmpty then []
  else
    ((trim cs).splitOn ',').map fun item =>
      String.ofList (trim item)

------------------------------------------------------------
-- Headers
------------------------------------------------------------

/-
  What stands before the first closing parenthesis that only
  white space separates from a colon.
-/
def parameterText? : List Char → Option (List Char)
  | [] => none
  | c :: cs =>
      if c = ')' ∧ (trimStart cs).head? = some ':' then some []
      else (parameterText? cs).map (c :: ·)

/-
  The name and parameters of a function: `def`, a name, and
  the parameters in parentheses before a colon.
-/
def functionHeader?
    (cs : List Char) : Option (String × List String) := do
  let rest ← after? ['d', 'e', 'f'] (trimStart cs)
  guard (0 < indentOf rest)
  let rest := trimStart rest
  let name := rest.takeWhile isWord
  guard (!name.isEmpty)
  let rest ← after? ['('] (trimStart (rest.dropWhile isWord))
  let parameters ← parameterText? rest
  return (String.ofList name, commaList parameters)

/- What stands before the last colon. -/
def beforeLastColon? (cs : List Char) : Option (List Char) :=
  match cs.reverse.dropWhile (· != ':') with
  | [] => none
  | _ :: front => some front.reverse

/-
  The expression of a header, from the white space after its
  keyword to its last colon.  At least one character stands
  between; when all the text is a colon, one of two or more
  white space characters is taken for it.
-/
def headerExpression? (cs : List Char) : Option String :=
  let gap := indentOf cs
  match beforeLastColon? (trimStart cs) with
  | none => none
  | some [] => if 2 ≤ gap then some "" else none
  | some expression =>
      if 0 < gap then some (String.ofList (trim expression))
      else none

/- The condition of an `if` or `elif` header. -/
def condition? (cs : List Char) : Option String :=
  match after? ['i', 'f'] cs with
  | some rest => headerExpression? rest
  | none =>
      (after? ['e', 'l', 'i', 'f'] cs).bind headerExpression?

/-
  The variable and the iterable of a loop: `for`, a name,
  `in`, and an expression before the last colon.
-/
def loopHeader?
    (cs : List Char) : Option (String × String) := do
  let rest ← after? ['f', 'o', 'r'] cs
  guard (0 < indentOf rest)
  let rest := trimStart rest
  let name := rest.takeWhile isWord
  guard (!name.isEmpty)
  let rest := rest.dropWhile isWord
  guard (0 < indentOf rest)
  let rest ← after? ['i', 'n'] (trimStart rest)
  let iterable ← headerExpression? rest
  return (String.ofList name, iterable)

------------------------------------------------------------
-- Simple Statements
------------------------------------------------------------

/- A text begins with one character and ends with another. -/
def isEnclosed
    (first last : Char)
    (cs : List Char) : Bool :=
  match cs with
  | c :: d :: ds =>
      c == first && (d :: ds).getLast? == some last
  | _ => false

/-
  A text that may stand left of `=`: a name, which may go on
  with dots, and which brackets may follow to the end.
-/
def isTarget (cs : List Char) : Bool :=
  match cs with
  | [] => false
  | c :: rest =>
      let tail := rest.dropWhile isNamePart
      isNameStart c &&
        (tail.isEmpty || isEnclosed '[' ']' tail)

/- Two equals signs stand together somewhere. -/
def hasDoubleEquals : List Char → Bool
  | '=' :: '=' :: _ => true
  | _ :: cs => hasDoubleEquals cs
  | [] => false

/-
  A target and what is assigned to it.  A line that compares
  anywhere is no assignment.
-/
def assignment?
    (cs : List Char) : Option (String × String) :=
  if hasDoubleEquals cs then none
  else
    match cs.dropWhile (· != '=') with
    | [] => none
    | _ :: value =>
        let target := trim (cs.takeWhile (· != '='))
        if isTarget target then
          some (String.ofList target, String.ofList (trim value))
        else none

/-
  A callee and its arguments.  The parentheses reach to the
  end of the line.
-/
def call?
    (cs : List Char) : Option (String × List String) :=
  match cs with
  | [] => none
  | c :: rest =>
      let tail := rest.dropWhile isNamePart
      if isNameStart c && isEnclosed '(' ')' tail then
        some
          (String.ofList (c :: rest.takeWhile isNamePart),
            commaList (tail.drop 1).dropLast)
      else none

------------------------------------------------------------
-- Reading A Line
------------------------------------------------------------

/- The value of a `return`, after the keyword. -/
def returned (cs : List Char) : String :=
  if (trim cs).isEmpty then noValue
  else String.ofList (trim cs)

namespace Statement

/-
  The form of a line.  A keyword counts only when a space
  follows it, except that `return` may end the line.
-/
def read (text : String) : Statement :=
  let cs := text.toList
  if startsWith "def " cs then .function (functionHeader? cs)
  else if startsWith "if " cs then .conditional (condition? cs)
  else if startsWith "for " cs then .loop (loopHeader? cs)
  else if text = "return" ∨ startsWith "return " cs then
    .ret (returned (cs.drop 6))
  else
    match assignment? cs, call? cs with
    | some (target, value), _ => .assignment target value
    | none, some (callee, arguments) => .call callee arguments
    | none, none => .unrecognized

end Statement

end Source

end BlockProgram
