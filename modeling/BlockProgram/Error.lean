import BlockProgram.Text.Utf8
import BlockProgram.TreeError
import BlockProgram.Wire.Mismatch

/-
  Why a request from outside can fail.

  Key definitions:
    * `InputFault`
    * `Error`
    * `Error.message`
-/

namespace BlockProgram

------------------------------------------------------------
-- Input
------------------------------------------------------------

/- Why no text could be taken in. -/
inductive InputFault where
  /- Bytes that were handed over are no text. -/
  | bytes (fault : Utf8.Fault)
  /- What was read from a file or stream is no text. -/
  | notText
  /- The file is not there. -/
  | noSuchFile
  /- The system gave another reason. -/
  | system (reason : String)
  deriving DecidableEq, Repr

/- What a user is told. -/
def InputFault.message : InputFault → String
  | .bytes fault => fault.message
  | .notText => "stream did not contain valid UTF-8"
  | .noSuchFile => "No such file or directory (os error 2)"
  | .system reason => reason

------------------------------------------------------------
-- Requests
------------------------------------------------------------

/- Why a request failed. -/
inductive Error where
  /- The tree is at fault, or an edit of it. -/
  | tree (fault : TreeError)
  /- A JSON text or value is no program. -/
  | json (problem : Wire.Problem)
  /- There was no text to begin with. -/
  | input (fault : InputFault)
  deriving DecidableEq, Repr

/-
  What a user is told.  Of a problem with a JSON text the line
  and the column are left out, as in `Json.Fault.message`.
-/
def Error.message : Error → String
  | .tree fault => fault.message
  | .json problem => "JSON error: " ++ problem.message
  | .input fault => "IO error: " ++ fault.message

end BlockProgram
