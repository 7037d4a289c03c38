import BlockProgram.CommandLine

/-
  The program: it takes its arguments and input from the
  system, and leaves everything else to the command line.
-/

namespace BlockProgram

namespace CommandLine

/- Everything that a stream still holds. -/
partial def readAll
    (stream : IO.FS.Stream)
    (sofar : ByteArray) : IO ByteArray := do
  let chunk ← stream.read 65536
  if chunk.isEmpty then return sofar
  else readAll stream (sofar ++ chunk)

/- The reason why a file could not be read. -/
def inputFault : IO.Error → InputFault
  | .noFileOrDirectory .. => .noSuchFile
  | error => .system (toString error)

/- The text of a file, or of the standard input. -/
def readInput
    (file : Option String) : IO (Except InputFault String) := do
  try
    let bytes ←
      match file with
      | some name => IO.FS.readBinFile name
      | none => readAll (← IO.getStdin) ByteArray.empty
    return textOf bytes.toList
  catch error => return .error (inputFault error)

/- What the arguments ask for. -/
def respond (arguments : List String) : IO Output := do
  match Request.ofArguments? arguments with
  | none => return rejected
  | some .version => return printed versionText
  | some (.run command file) => do
      let input ← readInput file
      return run command input

end CommandLine

end BlockProgram

/- Answer the arguments, and end with the code of the output. -/
def main (arguments : List String) : IO UInt32 := do
  let output ← BlockProgram.CommandLine.respond arguments
  IO.eprint output.stderr
  IO.print output.stdout
  return output.code.toUInt32
