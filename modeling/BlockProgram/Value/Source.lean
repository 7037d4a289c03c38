import BlockProgram.Value.Basic

/-
  The expression text of a value, and its shortened display.

  Key definitions:
    * `Value.source`
    * `Value.display`
-/

namespace BlockProgram

namespace Value

------------------------------------------------------------
-- Expression Text
------------------------------------------------------------

/-
  A key is always quoted.  Double quotes give way to single
  ones when the key holds a double quote itself.
-/
def quotedKey (key : String) : String :=
  if '"' ∈ key.toList then "'" ++ key ++ "'"
  else "\"" ++ key ++ "\""

/- The name of a keyword argument, up to its value. -/
def argumentLead : Option String → String
  | none => ""
  | some name => name ++ "="

mutual

/- The expression text of a value; empty text is shown as
   the empty string literal. -/
def source : Value → String
  | .simple text => if text = "" then "\"\"" else text
  | .array items =>
      "[" ++ ", ".intercalate (itemSources items) ++ "]"
  | .object properties =>
      "\x7b" ++
        ", ".intercalate (propertySources properties) ++
        "\x7d"
  | .call callee arguments =>
      callee ++ "(" ++
        ", ".intercalate (argumentSources arguments) ++ ")"

/- The expression texts of an array's items. -/
def itemSources : List Value → List String
  | [] => []
  | v :: vs => v.source :: itemSources vs

/- The expression texts of an object's properties. -/
def propertySources : List (String × Value) → List String
  | [] => []
  | (k, v) :: ps =>
      (quotedKey k ++ ": " ++ v.source) ::
        propertySources ps

/- The expression texts of a call's arguments. -/
def argumentSources :
    List (Option String × Value) →
    List String
  | [] => []
  | (n, v) :: as =>
      (argumentLead n ++ v.source) :: argumentSources as

end

------------------------------------------------------------
-- Shortened Display
------------------------------------------------------------

/-
  The expression text, cut down when it is longer than
  `maxLength` characters.  A cut text ends in three dots,
  which count towards the length where there is room.
-/
def display
    (maxLength : Nat)
    (v : Value) : String :=
  let text := v.source.toList
  if text.length ≤ maxLength then v.source
  else String.ofList (text.take (maxLength - 3) ++ "...".toList)

end Value

end BlockProgram
