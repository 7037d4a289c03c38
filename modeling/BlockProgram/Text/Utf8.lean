/-
  Decoding UTF-8.

  A character is one byte below 128, or a leading byte and
  one to three more, each within bounds that the leading byte
  fixes.  The bounds leave out longer spellings of a shorter
  form, surrogates, and numbers beyond the last code point.

  Key definitions:
    * `Utf8.Fault`
    * `Utf8.tailBounds`
    * `Utf8.decode`
-/

namespace BlockProgram

namespace Utf8

------------------------------------------------------------
-- Faults
------------------------------------------------------------

/- Where and how bytes stop being text. -/
inductive Fault where
  /- These bytes cannot begin or go on with a character. -/
  | invalid
      (length : Nat)
      (start : Nat)
  /- The bytes end within a character. -/
  | incomplete (start : Nat)
  deriving DecidableEq, Repr

/- What a user is told. -/
def Fault.message : Fault → String
  | .invalid length start =>
      "invalid utf-8 sequence of " ++ toString length ++
        " bytes from index " ++ toString start
  | .incomplete start =>
      "incomplete utf-8 byte sequence from index " ++
        toString start

------------------------------------------------------------
-- Leading Bytes
------------------------------------------------------------

/- The least and greatest byte at a place. -/
abbrev Bounds : Type :=
  Nat × Nat

/- The bounds of a byte that is nothing but a tail. -/
def anyTail : Bounds :=
  (0x80, 0xBF)

/- The bounds of the bytes that go with a leading byte. -/
def tailBounds (lead : Nat) : List Bounds :=
  if 0xC2 ≤ lead ∧ lead ≤ 0xDF then [anyTail]
  else if lead = 0xE0 then [(0xA0, 0xBF), anyTail]
  else if lead = 0xED then [(0x80, 0x9F), anyTail]
  else if 0xE1 ≤ lead ∧ lead ≤ 0xEF then [anyTail, anyTail]
  else if lead = 0xF0 then [(0x90, 0xBF), anyTail, anyTail]
  else if lead = 0xF4 then [(0x80, 0x8F), anyTail, anyTail]
  else if 0xF1 ≤ lead ∧ lead ≤ 0xF3 then
    [anyTail, anyTail, anyTail]
  else []

/- The bits of a code point that a leading byte holds. -/
def leadBits (lead : Nat) : Nat :=
  if lead < 0xE0 then lead % 0x20
  else if lead < 0xF0 then lead % 0x10
  else lead % 0x08

------------------------------------------------------------
-- Decoding
------------------------------------------------------------

/-
  Decode bytes from the place `start` on.  Of the character
  that is being read, `length` bytes with the bits `value`
  are known, and `bounds` bytes are still to come.
-/
def decodeFrom
    (start length value : Nat) :
    (bounds : List Bounds) →
    List UInt8 →
    Except Fault (List Char)
  | [], [] => .ok []
  | _ :: _, [] => .error (.incomplete start)
  | [], byte :: rest =>
      let lead := byte.toNat
      if lead < 0x80 then do
        let chars ← decodeFrom (start + 1) 0 0 [] rest
        return Char.ofNat lead :: chars
      else
        match tailBounds lead with
        | [] => .error (.invalid 1 start)
        | bounds => decodeFrom start 1 (leadBits lead) bounds rest
  | (least, greatest) :: bounds, byte :: rest =>
      if least ≤ byte.toNat ∧ byte.toNat ≤ greatest then
        let value := value * 0x40 + byte.toNat % 0x40
        match bounds with
        | [] => do
            let chars ←
              decodeFrom (start + length + 1) 0 0 [] rest
            return Char.ofNat value :: chars
        | bounds => decodeFrom start (length + 1) value bounds rest
      else .error (.invalid length start)

/- The text that bytes encode. -/
def decode (bytes : List UInt8) : Except Fault String :=
  match decodeFrom 0 0 0 [] bytes with
  | .ok chars => .ok (String.ofList chars)
  | .error fault => .error fault

end Utf8

end BlockProgram
