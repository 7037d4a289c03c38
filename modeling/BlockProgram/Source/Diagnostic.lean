import BlockProgram.Source.Outline
import BlockProgram.Text.Printable

/-
  Findings about a source text: lines that were skipped, and
  headers that could not be read.  Neither stops the reading
  of the text.

  Key definitions:
    * `Diagnostic`
    * `Diagnostic.message`
    * `Diagnostic.render`
    * `diagnosticsOf`
-/

namespace BlockProgram

namespace Source

------------------------------------------------------------
-- Diagnostics
------------------------------------------------------------

/- What was found about a line. -/
inductive Finding where
  /- The line says nothing that is known, and is skipped. -/
  | unrecognized
  /- The header opened by this keyword uses defaults. -/
  | malformed (keyword : String)
  deriving DecidableEq, Repr

/- A finding, with the line's number and trimmed text. -/
structure Diagnostic where
  line : Nat
  finding : Finding
  text : String
  deriving DecidableEq, Repr

namespace Diagnostic

/- The word by which other programs know the finding. -/
def code (d : Diagnostic) : String :=
  match d.finding with
  | .unrecognized => "unrecognized-statement"
  | .malformed _ => "malformed-header"

/- What a user is told. -/
def message (d : Diagnostic) : String :=
  match d.finding with
  | .unrecognized =>
      "skipped unrecognized statement " ++
        Text.inBackquotes d.text
  | .malformed keyword =>
      "could not read " ++ Text.inBackquotes keyword ++
        " header " ++ Text.inBackquotes d.text ++
        ", using defaults"

/- The finding in one line, with its line counted from one. -/
def summary (d : Diagnostic) : String :=
  toString (d.line + 1) ++ ": " ++ d.message ++
    " (" ++ d.code ++ ")"

------------------------------------------------------------
-- Rendering
------------------------------------------------------------

/- Drop one carriage return from the end. -/
def withoutReturn (cs : List Char) : List Char :=
  match cs.reverse with
  | '\r' :: rest => rest.reverse
  | _ => cs

/-
  The lines of a text as they are shown.  A newline ends a
  line, and a carriage return before it belongs to the line
  end.  A text after the last newline is a line of its own
  when it is not empty.
-/
def shownLines : List (List Char) → List (List Char)
  | [] => []
  | [last] => if last.isEmpty then [] else [last]
  | raw :: rest => withoutReturn raw :: shownLines rest

/-
  The finding below its line, with a caret under the first
  character of the line's text and an underline up to the
  last.
-/
def render
    (source : String)
    (d : Diagnostic) : String :=
  let shown := (shownLines (rawLines source))[d.line]?.getD []
  let width := max (Text.trim shown).length 1
  "WARNING AT LINE " ++ toString (d.line + 1) ++ ":\n" ++
    String.ofList shown ++ "\n" ++
    String.ofList
      (List.replicate (Text.indentOf shown) ' ' ++
        '^' :: List.replicate (width - 1) '_') ++
    "\n" ++ d.summary

end Diagnostic

------------------------------------------------------------
-- The Diagnostics Of An Outline
------------------------------------------------------------

/- A finding about a line. -/
def Line.report
    (line : Line)
    (finding : Finding) : Diagnostic where
  line := line.number
  finding := finding
  text := line.text

/- The finding about a header, when its parts are absent. -/
def Line.reportAbsent
    (line : Line)
    (keyword : String)
    (parts : Option α) : List Diagnostic :=
  match parts with
  | some _ => []
  | none => [line.report (.malformed keyword)]

mutual

/- The findings about an entry, in the order of its lines. -/
def Entry.diagnostics : Entry → List Diagnostic
  | .function line header body =>
      line.reportAbsent "def" header ++ diagnosticsOf body
  | .conditional line condition body clause =>
      line.reportAbsent "if" condition ++
        diagnosticsOf body ++ clause.diagnostics
  | .loop line header body =>
      line.reportAbsent "for" header ++ diagnosticsOf body
  | .ret _ _ => []
  | .assignment _ _ _ => []
  | .call _ _ _ => []
  | .unrecognized line => [line.report .unrecognized]

/- The findings about a clause, in the order of its lines. -/
def Clause.diagnostics : Clause → List Diagnostic
  | .none => []
  | .elif line condition body clause =>
      line.reportAbsent "if" condition ++
        diagnosticsOf body ++ clause.diagnostics
  | .otherwise _ body => diagnosticsOf body

/- The findings about a list of entries, in order. -/
def diagnosticsOf : List Entry → List Diagnostic
  | [] => []
  | e :: es => e.diagnostics ++ diagnosticsOf es

end

end Source

end BlockProgram
