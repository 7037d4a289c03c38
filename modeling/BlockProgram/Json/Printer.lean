import BlockProgram.Json.Basic

/-
  The text of a JSON value, compact or pretty.

  The two styles differ only in the blanks between tokens:
  none, or a line for each item and member under two spaces
  a level.

  Key definitions:
    * `Json.Style`
    * `Json.textChars`
    * `Json.write`
    * `Json.compact`
    * `Json.pretty`
-/

namespace BlockProgram

namespace Json

------------------------------------------------------------
-- Styles
------------------------------------------------------------

/- How the tokens of a text are set apart. -/
inductive Style where
  | compact
  | pretty
  deriving DecidableEq, Repr

namespace Style

/- What stands before an item or a bracket of its own line. -/
def lineBreak
    (style : Style)
    (depth : Nat) : List Char :=
  match style with
  | .compact => []
  | .pretty => '\n' :: List.replicate (2 * depth) ' '

/- What stands between a colon and its value. -/
def afterColon : Style → List Char
  | .compact => []
  | .pretty => [' ']

end Style

------------------------------------------------------------
-- Texts And Numbers
------------------------------------------------------------

/- A control character by its code. -/
def controlEscape (c : Char) : List Char :=
  ['\\', 'u', '0', '0', Nat.digitChar (c.toNat / 16),
    Nat.digitChar (c.toNat % 16)]

/- One character inside a text. -/
def escaped (c : Char) : List Char :=
  match c with
  | '"' => ['\\', '"']
  | '\\' => ['\\', '\\']
  | '\x08' => ['\\', 'b']
  | '\x0c' => ['\\', 'f']
  | '\n' => ['\\', 'n']
  | '\r' => ['\\', 'r']
  | '\t' => ['\\', 't']
  | c => if c.toNat < 0x20 then controlEscape c else [c]

/- A text between its quotes. -/
def textChars (s : String) : List Char :=
  '"' :: (s.toList.flatMap escaped ++ ['"'])

/- A number as it is shown. -/
def numberChars : Number → List Char
  | .natural n => (toString n).toList
  | .negative n => '-' :: (toString n).toList
  | .fraction shown => shown.toList

------------------------------------------------------------
-- Values
------------------------------------------------------------

mutual

/-
  The text of a value under a number of open brackets, and
  the text that follows it.
-/
def write
    (style : Style)
    (depth : Nat) :
    Json →
    List Char →
    List Char
  | .null, rest => 'n' :: 'u' :: 'l' :: 'l' :: rest
  | .bool true, rest => 't' :: 'r' :: 'u' :: 'e' :: rest
  | .bool false, rest =>
      'f' :: 'a' :: 'l' :: 's' :: 'e' :: rest
  | .number n, rest => numberChars n ++ rest
  | .text s, rest => textChars s ++ rest
  | .array [], rest => '[' :: ']' :: rest
  | .array (v :: vs), rest =>
      '[' ::
        (style.lineBreak (depth + 1) ++
          write style (depth + 1) v
            (writeItems style (depth + 1) vs
              (style.lineBreak depth ++ ']' :: rest)))
  | .object [], rest => '{' :: '}' :: rest
  | .object ((k, v) :: ms), rest =>
      '{' ::
        (style.lineBreak (depth + 1) ++ textChars k ++
          ':' ::
            (style.afterColon ++
              write style (depth + 1) v
                (writeMembers style (depth + 1) ms
                  (style.lineBreak depth ++ '}' :: rest))))

/- The items of a list after the first, and what follows. -/
def writeItems
    (style : Style)
    (depth : Nat) :
    List Json →
    List Char →
    List Char
  | [], rest => rest
  | v :: vs, rest =>
      ',' ::
        (style.lineBreak depth ++
          write style depth v (writeItems style depth vs rest))

/- The members of an object after the first, and the rest. -/
def writeMembers
    (style : Style)
    (depth : Nat) :
    List (String × Json) →
    List Char →
    List Char
  | [], rest => rest
  | (k, v) :: ms, rest =>
      ',' ::
        (style.lineBreak depth ++ textChars k ++
          ':' ::
            (style.afterColon ++
              write style depth v
                (writeMembers style depth ms rest)))

end

/- The text of a value without blanks. -/
def compact (v : Json) : String :=
  String.ofList (v.write .compact 0 [])

/- The text of a value with a line for each item. -/
def pretty (v : Json) : String :=
  String.ofList (v.write .pretty 0 [])

end Json

end BlockProgram
