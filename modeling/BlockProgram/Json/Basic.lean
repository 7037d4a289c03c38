import BlockProgram.Text.Printable

/-
  JSON values, and the faults that keep a text from being
  one.

  Key definitions:
    * `Number`
    * `Json`
    * `Json.ordered`
    * `Json.Fault`
-/

namespace BlockProgram

------------------------------------------------------------
-- Values
------------------------------------------------------------

/-
  A number.  Whole numbers of 64 bits are kept as they are,
  and of all others only the text by which they are shown.
-/
inductive Number where
  | natural (n : Nat)
  | negative (magnitude : Nat)
  | fraction (shown : String)
  deriving DecidableEq, Repr

/- A JSON value.  The members of an object keep their order,
   and a key may stand in it more than once. -/
inductive Json where
  | null
  | bool (b : Bool)
  | number (n : Number)
  | text (s : String)
  | array (items : List Json)
  | object (members : List (String × Json))
  deriving Repr

namespace Json

/- A whole number. -/
def ofNat (n : Nat) : Json :=
  .number (.natural n)

/- A list of texts. -/
def ofTexts (texts : List String) : Json :=
  .array (texts.map .text)

/- The value of the first member with a key. -/
def member?
    (key : String) :
    Json →
    Option Json
  | .object members => members.lookup key
  | .null | .bool _ | .number _ | .text _ | .array _ => none

------------------------------------------------------------
-- Ordered Members
------------------------------------------------------------

/-
  Put a member where its key belongs among ordered members.
  It takes the place of one with the same key.
-/
def insertMember
    (key : String)
    (value : Json) :
    List (String × Json) →
    List (String × Json)
  | [] => [(key, value)]
  | (k, v) :: rest =>
      if key < k then (key, value) :: (k, v) :: rest
      else if key = k then (key, value) :: rest
      else (k, v) :: insertMember key value rest

mutual

/-
  The same value with the members of every object ordered by
  their keys.  Of members with the same key the last stays.
-/
def ordered : Json → Json
  | .null => .null
  | .bool b => .bool b
  | .number n => .number n
  | .text s => .text s
  | .array items => .array (orderedItems items)
  | .object members => .object (orderedMembers [] members)

/- `ordered` for each item of an array. -/
def orderedItems : List Json → List Json
  | [] => []
  | v :: vs => v.ordered :: orderedItems vs

/- Put the members of an object among those ordered so far. -/
def orderedMembers
    (sofar : List (String × Json)) :
    List (String × Json) →
    List (String × Json)
  | [] => sofar
  | (k, v) :: rest =>
      orderedMembers (insertMember k v.ordered sofar) rest

end

------------------------------------------------------------
-- Faults Of A Text
------------------------------------------------------------

/- Why a text is not a JSON value. -/
inductive Fault where
  | endInValue
  | endInList
  | endInText
  | endInObject
  | expectedValue
  | expectedWord
  | expectedCommaOrBracket
  | expectedCommaOrBrace
  | expectedColon
  | trailingComma
  | trailingCharacters
  | keyNotText
  | badNumber
  | numberOutOfRange
  | badEscape
  | endOfHexEscape
  | loneSurrogate
  | controlCharacter
  | tooDeep
  deriving DecidableEq, Repr

open Text (inBackquotes) in
/-
  What a user is told.  The line and the column of the place,
  which end the message that is shown, are left out, and no
  fault keeps its place.
-/
def Fault.message : Fault → String
  | .endInValue => "EOF while parsing a value"
  | .endInList => "EOF while parsing a list"
  | .endInText => "EOF while parsing a string"
  | .endInObject => "EOF while parsing an object"
  | .expectedValue => "expected value"
  | .expectedWord => "expected ident"
  | .expectedCommaOrBracket =>
      "expected " ++ inBackquotes "," ++ " or " ++ inBackquotes "]"
  | .expectedCommaOrBrace =>
      "expected " ++ inBackquotes "," ++ " or " ++ inBackquotes "\x7d"
  | .expectedColon => "expected " ++ inBackquotes ":"
  | .trailingComma => "trailing comma"
  | .trailingCharacters => "trailing characters"
  | .keyNotText => "key must be a string"
  | .badNumber => "invalid number"
  | .numberOutOfRange => "number out of range"
  | .badEscape => "invalid escape"
  | .endOfHexEscape => "unexpected end of hex escape"
  | .loneSurrogate =>
      "lone leading surrogate in hex escape"
  | .controlCharacter =>
      "control character (\\u0000-\\u001F) found while" ++
        " parsing a string"
  | .tooDeep => "recursion limit exceeded"

end Json

end BlockProgram
