import BlockProgram.Scope
import BlockProgram.Source.Layout
import BlockProgram.Source.Parse
import BlockProgram.Wire.Document
import BlockProgram.Wire.Encode

/-
  Requests whose texts come in as bytes and whose replies go
  out as JSON.

  A reply is a compact JSON text with the members of every
  object ordered by their keys.  A request that fails is
  answered by an object that holds the message.

  Key definitions:
    * `Boundary.compile`
    * `Boundary.parse`
    * `Boundary.names`
    * `Boundary.reply`
-/

namespace BlockProgram

namespace Boundary

------------------------------------------------------------
-- Texts
------------------------------------------------------------

/- The text of bytes that were handed over. -/
def textOf (bytes : List UInt8) : Except Error String :=
  match Utf8.decode bytes with
  | .ok source => .ok source
  | .error fault => .error (.input (.bytes fault))

/- The program that bytes hold as a JSON text. -/
def programOf (bytes : List UInt8) : Except Error (List Block) := do
  let source ← textOf bytes
  Wire.readProgram source

------------------------------------------------------------
-- Requests
------------------------------------------------------------

/- The source text of a program. -/
def compile (program : List UInt8) : Except Error Json := do
  let blocks ← programOf program
  match Source.compile Source.defaultWidth blocks with
  | .ok source => return .object [("source", .text source)]
  | .error fault => throw (.tree fault)

/- A finding about a source text as JSON. -/
def diagnosticToJson (d : Source.Diagnostic) : Json :=
  .object
    [ ("line", .ofNat d.line),
      ("code", .text d.code),
      ("message", .text d.message) ]

/- What a source text is read as, numbered from `n`. -/
def parse
    (n : Nat)
    (program : List UInt8) : Except Error Json := do
  let source ← textOf program
  let reading := Source.read n source
  return .object
    [ ("blocks", Wire.encode reading.blocks),
      ("diagnostics",
        .array (reading.diagnostics.map diagnosticToJson)) ]

/-
  The names visible before a block of a program, or at the
  end of the program when no id is given.
-/
def names
    (program id : List UInt8) : Except Error Json := do
  let blocks ← programOf program
  let id ← textOf id
  return .ofTexts
    (if id = "" then visibleNames none [] blocks
    else visibleNamesAt id blocks)

------------------------------------------------------------
-- Replies
------------------------------------------------------------

/- The JSON value that answers a request. -/
def answer : Except Error Json → Json
  | .ok json => json
  | .error error => .object [("error", .text error.message)]

/- The text that answers a request. -/
def reply (outcome : Except Error Json) : String :=
  (answer outcome).ordered.compact

end Boundary

end BlockProgram
