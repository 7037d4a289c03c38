import BlockProgram.Json.Basic
import BlockProgram.Text.Printable

/-
  Why a JSON value is not the form of a block or value.

  Key definitions:
    * `Wire.Found`
    * `Wire.Wanted`
    * `Wire.Mismatch`
    * `Wire.Mismatch.message`
    * `Wire.Problem`
-/

namespace BlockProgram

namespace Wire

open Text (inBackquotes listing)

------------------------------------------------------------
-- What Was Found And Wanted
------------------------------------------------------------

/- What stood where something else was wanted. -/
inductive Found where
  | null
  | bool (b : Bool)
  | number (n : Number)
  | text (s : String)
  | sequence
  | map
  deriving DecidableEq, Repr

namespace Found

/- What a JSON value is found to be. -/
def ofJson : Json → Found
  | .null => .null
  | .bool b => .bool b
  | .number n => .number n
  | .text s => .text s
  | .array _ => .sequence
  | .object _ => .map

/- How a finding is called. -/
def name : Found → String
  | .null => "null"
  | .bool true => "boolean " ++ inBackquotes "true"
  | .bool false => "boolean " ++ inBackquotes "false"
  | .number (.natural n) =>
      "integer " ++ inBackquotes (toString n)
  | .number (.negative n) =>
      "integer " ++ inBackquotes ("-" ++ toString n)
  | .number (.fraction shown) =>
      "floating point " ++ inBackquotes shown
  | .text s => "string " ++ Text.quoted s
  | .sequence => "sequence"
  | .map => "map"

end Found

/- What would have been right. -/
inductive Wanted where
  | text
  | sequence
  | block
  | value
  | property
  | argument
  | tag
  | elseKind
  | nothing
  deriving DecidableEq, Repr

/- How a wanted thing is called. -/
def Wanted.name : Wanted → String
  | .text => "a string"
  | .sequence => "a sequence"
  | .block => "internally tagged enum Block"
  | .value => "internally tagged enum Value"
  | .property => "struct ObjectProperty"
  | .argument => "struct FunctionArgument"
  | .tag => "variant identifier"
  | .elseKind => "string or map"
  | .nothing => "unit"

------------------------------------------------------------
-- Mismatches
------------------------------------------------------------

/- Why a value of one form could not be made. -/
inductive Mismatch where
  /- A field that must be there is not. -/
  | missingField (name : String)
  /- A field stands twice. -/
  | duplicateField (name : String)
  /- A word that is none of those known. -/
  | unknownWord
      (word : String)
      (known : List String)
  /- A number that is the place of none of the known words. -/
  | unknownPlace
      (place : Nat)
      (count : Nat)
  /- Something of another type. -/
  | wrongType
      (found : Found)
      (wanted : Wanted)
  /- An else kind as an object that has not just one key. -/
  | notSingleKey
  /- A list too short for the fields of a form. -/
  | tooShort
      (length : Nat)
      (form : String)
      (count : Nat)
  /- A list with more than the fields of a form. -/
  | tooLong
      (length : Nat)
      (count : Nat)
  /- Neither a value nor the text of one. -/
  | notStored
  deriving DecidableEq, Repr

namespace Mismatch

/- A number of elements. -/
def elements (count : Nat) : String :=
  toString count ++
    (if count = 1 then " element" else " elements")

/- What a user is told. -/
def message : Mismatch → String
  | .missingField name => "missing field " ++ inBackquotes name
  | .duplicateField name => "duplicate field " ++ inBackquotes name
  | .unknownWord word known =>
      "unknown variant " ++ inBackquotes word ++
        ", expected one of " ++ listing known
  | .unknownPlace place count =>
      "invalid value: integer " ++
        inBackquotes (toString place) ++
        ", expected variant index 0 <= i < " ++ toString count
  | .wrongType found wanted =>
      "invalid type: " ++ found.name ++
        ", expected " ++ wanted.name
  | .notSingleKey =>
      "invalid value: map, expected map with a single key"
  | .tooShort length form count =>
      "invalid length " ++ toString length ++
        ", expected " ++ form ++ " with " ++ elements count
  | .tooLong length count =>
      "invalid length " ++ toString length ++
        ", expected " ++ elements count ++ " in sequence"
  | .notStored =>
      "data did not match any variant of untagged enum" ++
        " StoredValue"

end Mismatch

------------------------------------------------------------
-- Problems Of A Text
------------------------------------------------------------

/- Why a text is no list of blocks. -/
inductive Problem where
  /- The text is not JSON. -/
  | fault (fault : Json.Fault)
  /- The JSON value is no list of blocks. -/
  | mismatch (mismatch : Mismatch)
  deriving DecidableEq, Repr

/- What a user is told, but for the line and the column. -/
def Problem.message : Problem → String
  | .fault why => why.message
  | .mismatch why => why.message

end Wire

end BlockProgram
