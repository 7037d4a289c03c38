import BlockProgram.Scope
import BlockProgram.Source.Layout
import BlockProgram.Source.Parse
import BlockProgram.Wire.Document
import BlockProgram.Wire.Encode

/-
  The command line: what its arguments ask for, and what is
  written for an input.

  Key definitions:
    * `CommandLine.Command`
    * `CommandLine.Request`
    * `CommandLine.Request.ofArguments?`
    * `CommandLine.Output`
    * `CommandLine.run`
-/

namespace BlockProgram

namespace CommandLine

------------------------------------------------------------
-- Requests
------------------------------------------------------------

/- What is to be done with the input. -/
inductive Command where
  /- Turn a program in JSON into source text. -/
  | compile (width : Nat)
  /- Turn source text into a program in JSON. -/
  | parse (pretty : Bool)
  /- Turn source text into a program and back. -/
  | roundtrip (width : Nat)
  /- List the names visible in a program in JSON. -/
  | scope (before : Option String)
  deriving DecidableEq, Repr

/- What the arguments ask for. -/
inductive Request where
  | version
  | run
      (command : Command)
      (file : Option String)
  deriving DecidableEq, Repr

------------------------------------------------------------
-- Numbers
------------------------------------------------------------

/- A number of 64 bits in decimal digits, after a plus or not. -/
def readNat? (text : String) : Option Nat :=
  let digits :=
    match text.toList with
    | '+' :: rest => rest
    | cs => cs
  if digits.isEmpty || !digits.all Text.isDigit then none
  else
    let n := Text.wholeNumber digits
    if n < Nat.pow 2 64 then some n else none

------------------------------------------------------------
-- Arguments Of A Command
------------------------------------------------------------

/- The option of a command that takes a value or is a flag. -/
structure OptionForm where
  name : String
  takesValue : Bool

/- The file and the option that arguments have given so far. -/
structure Given where
  file : Option String
  option : Option String

/- Give the file; there is room for one. -/
def Given.withFile?
    (file : String)
    (given : Given) : Option Given :=
  match given.file with
  | none => some { given with file := some file }
  | some _ => none

/- Give the option; it can be given once. -/
def Given.withOption?
    (value : String)
    (given : Given) : Option Given :=
  match given.option with
  | none => some { given with option := some value }
  | some _ => none

/- The argument stands for itself and is no option. -/
def isPlain (argument : String) : Bool :=
  argument = "-" || argument.toList.head? != some '-'

/- Read arguments that can only be files. -/
def readFiles? :
    List String →
    Given →
    Option Given
  | [], given => some given
  | argument :: rest, given => do
      let given ← given.withFile? argument
      readFiles? rest given

/-
  Read the arguments of a command with one option.  A value
  follows its option, or an equals sign within the option's
  argument.  After two hyphens there are only files.
-/
def readArguments?
    (form : OptionForm) :
    List String →
    Given →
    Option Given
  | [], given => some given
  | "--" :: rest, given => readFiles? rest given
  | argument :: rest, given =>
      if isPlain argument then do
        let given ← given.withFile? argument
        readArguments? form rest given
      else if form.takesValue then
        if argument = form.name then
          match rest with
          | [] => none
          | value :: rest =>
              if isPlain value then do
                let given ← given.withOption? value
                readArguments? form rest given
              else none
        else do
          let value ←
            Text.after? (form.name ++ "=").toList argument.toList
          let given ← given.withOption? (String.ofList value)
          readArguments? form rest given
      else if argument = form.name then do
        let given ← given.withOption? ""
        readArguments? form rest given
      else none

------------------------------------------------------------
-- Commands
------------------------------------------------------------

/- The option for the spaces of a body. -/
def indentForm : OptionForm :=
  ⟨"--indent", true⟩

/- The spaces for a body, when they are given as a number. -/
def width? : Option String → Option Nat
  | none => some Source.defaultWidth
  | some text => readNat? text

namespace Request

/- What the arguments of a command ask for. -/
def ofCommand?
    (command : String)
    (arguments : List String) : Option Request :=
  let given? (form : OptionForm) :=
    readArguments? form arguments ⟨none, none⟩
  match command with
  | "compile" => do
      let given ← given? indentForm
      let width ← width? given.option
      return .run (.compile width) given.file
  | "parse" => do
      let given ← given? ⟨"--pretty", false⟩
      return .run (.parse given.option.isSome) given.file
  | "roundtrip" => do
      let given ← given? indentForm
      let width ← width? given.option
      return .run (.roundtrip width) given.file
  | "scope" => do
      let given ← given? ⟨"--before", true⟩
      return .run (.scope given.option) given.file
  | _ => none

/- What all arguments ask for, when they can be understood. -/
def ofArguments? : List String → Option Request
  | [] => none
  | first :: rest =>
      if first = "--version" ∨ Text.startsWith "-V" first.toList
      then some .version
      else ofCommand? first rest

end Request

------------------------------------------------------------
-- Running A Command
------------------------------------------------------------

/- What the program leaves behind. -/
structure Output where
  code : Nat
  stdout : String
  stderr : String
  deriving DecidableEq, Repr

/- The name and version of the program. -/
def versionText : String :=
  "blocklang 0.1.0"

/- A text that is written as a line. -/
def printed (text : String) : Output :=
  ⟨0, text ++ "\n", ""⟩

/- A request that failed. -/
def failed (error : Error) : Output :=
  ⟨1, "", "error: " ++ error.message ++ "\n"⟩

/- The arguments could not be understood. -/
def rejected : Output :=
  ⟨2, "", ""⟩

/- What is told about a source text besides the result. -/
def report
    (source : String)
    (diagnostics : List Source.Diagnostic) : String :=
  String.join
    (diagnostics.map fun d => d.render source ++ "\n\n")

/- A failure to write a program is an output too. -/
def compiled
    (width : Nat)
    (blocks : List Block) : Output :=
  match Source.compile width blocks with
  | .ok text => printed text
  | .error fault => failed (.tree fault)

/- The output with a report before whatever went wrong. -/
def Output.after
    (told : String)
    (output : Output) : Output :=
  { output with stderr := told ++ output.stderr }

/- What a command makes of an input. -/
def perform
    (command : Command)
    (input : String) : Output :=
  match command with
  | .compile width =>
      match Wire.readProgram input with
      | .error error => failed error
      | .ok blocks => compiled width blocks
  | .parse pretty =>
      let reading := Source.read 1 input
      (printed
        (if pretty then Wire.prettyText reading.blocks
        else Wire.compactText reading.blocks)).after
          (report input reading.diagnostics)
  | .roundtrip width =>
      let reading := Source.read 1 input
      (compiled width reading.blocks).after
        (report input reading.diagnostics)
  | .scope before =>
      match Wire.readProgram input with
      | .error error => failed error
      | .ok blocks =>
          let names :=
            match before with
            | some id => visibleNamesAt id blocks
            | none => visibleNames none [] blocks
          ⟨0, String.join (names.map (· ++ "\n")), ""⟩

/- What a command makes of an input, if there is one. -/
def run
    (command : Command)
    (input : Except InputFault String) : Output :=
  match input with
  | .ok text => perform command text
  | .error fault => failed (.input fault)

/- The text of what was read from a file or stream. -/
def textOf (bytes : List UInt8) : Except InputFault String :=
  match Utf8.decode bytes with
  | .ok text => .ok text
  | .error _ => .error .notText

end CommandLine

end BlockProgram
