/-
  White space, and the cuts of a text that depend on it.

  Texts are lists of characters here, so that every cut is a
  plain list operation.

  Key definitions:
    * `isSpace`
    * `indentOf`
    * `trim`
    * `trimmed`
-/

namespace BlockProgram

namespace Text

------------------------------------------------------------
-- White Space
------------------------------------------------------------

/-
  The characters with the Unicode property `White_Space`:
  the ASCII blanks and line ends, the next-line and no-break
  characters, and the blanks of the general punctuation and
  ideographic blocks.
-/
def isSpace (c : Char) : Bool :=
  let n := c.toNat
  (9 ≤ n && n ≤ 13) || n == 0x20 || n == 0x85 ||
    n == 0xA0 || n == 0x1680 ||
    (0x2000 ≤ n && n ≤ 0x200A) ||
    n == 0x2028 || n == 0x2029 || n == 0x202F ||
    n == 0x205F || n == 0x3000

------------------------------------------------------------
-- Cuts
------------------------------------------------------------

/- The number of white space characters at the front. -/
def indentOf (cs : List Char) : Nat :=
  (cs.takeWhile isSpace).length

/- Drop white space from the front. -/
def trimStart (cs : List Char) : List Char :=
  cs.dropWhile isSpace

/- Drop white space from the end. -/
def trimEnd (cs : List Char) : List Char :=
  (cs.reverse.dropWhile isSpace).reverse

/- Drop white space from both ends. -/
def trim (cs : List Char) : List Char :=
  trimEnd (trimStart cs)

/- `trim` on strings. -/
def trimmed (s : String) : String :=
  String.ofList (trim s.toList)

------------------------------------------------------------
-- Fixed Texts At The Front
------------------------------------------------------------

/- What follows `front`, when the text starts with it. -/
def after? :
    (front : List Char) →
    List Char →
    Option (List Char)
  | [], cs => some cs
  | _ :: _, [] => none
  | f :: fs, c :: cs => if f = c then after? fs cs else none

/- A text starts with `front`. -/
def startsWith
    (front : String)
    (cs : List Char) : Bool :=
  (after? front.toList cs).isSome

end Text

end BlockProgram
