import BlockProgram.Text.Space

/-
  The lines of a source text.

  Only significant lines matter to the reader of a program:
  blank lines and comments are passed over wherever they
  stand.

  Key definitions:
    * `Line`
    * `rawLines`
    * `significantLines`
-/

namespace BlockProgram

namespace Source

------------------------------------------------------------
-- Lines
------------------------------------------------------------

/-
  A line: its number, counted from zero, the number of white
  space characters before its text, and its trimmed text.
-/
structure Line where
  number : Nat
  indent : Nat
  text : String
  deriving DecidableEq, Repr

namespace Line

/- Measure and trim a line as it stands in the source. -/
def ofRaw
    (number : Nat)
    (raw : List Char) : Line where
  number := number
  indent := Text.indentOf raw
  text := String.ofList (Text.trim raw)

/- The line is neither blank nor a comment. -/
def isSignificant (line : Line) : Bool :=
  match line.text.toList with
  | [] => false
  | c :: _ => c != '#'

end Line

------------------------------------------------------------
-- The Lines Of A Text
------------------------------------------------------------

/- The pieces between newlines.  Nothing else ends a line. -/
def rawLines (source : String) : List (List Char) :=
  source.toList.splitOn '\n'

/- All lines of a text, numbered from `start`. -/
def linesFrom
    (start : Nat) :
    List (List Char) →
    List Line
  | [] => []
  | raw :: rest =>
      Line.ofRaw start raw :: linesFrom (start + 1) rest

/- The lines of a text that are neither blank nor comments. -/
def significantLines (source : String) : List Line :=
  (linesFrom 0 (rawLines source)).filter Line.isSignificant

end Source

end BlockProgram
