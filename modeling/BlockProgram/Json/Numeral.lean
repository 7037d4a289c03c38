import BlockProgram.Decimal.Shortest
import BlockProgram.Json.Basic
import BlockProgram.Text.Word

/-
  Reading the numbers of a JSON text.

  A whole number of 64 bits is exact.  Any other number is
  scaled from the leading digits that fit 64 bits by a power
  of ten, in floating point arithmetic.

  Key definitions:
    * `Json.leadingDigits`
    * `Json.scaled?`
    * `Json.readNumber`
-/

namespace BlockProgram

namespace Json

open Text (isDigit digitValue wholeNumber)

------------------------------------------------------------
-- Digits Within 64 Bits
------------------------------------------------------------

/-
  Go on with the digits of a number as long as it fits 64
  bits.  The digits that are left over come with it.
-/
def leadingDigits
    (n : Nat) :
    List Char →
    Nat × List Char
  | [] => (n, [])
  | d :: ds =>
      let next := 10 * n + digitValue d
      if next < Nat.pow 2 64 then leadingDigits next ds
      else (n, d :: ds)

------------------------------------------------------------
-- Scaling
------------------------------------------------------------

/- The power of ten nearest to `10 ^ n`. -/
def tenTo (n : Nat) : Float :=
  Float.ofScientific 1 false n

/-
  Scale down by steps of `10 ^ 308` until the exponent left
  is in range or nothing is left of the number.
-/
def scaledDown
    (x : Float)
    (exponent : Nat) :
    Nat →
    Float
  | 0 => 0
  | steps + 1 =>
      if exponent ≤ 308 then x / tenTo exponent
      else if x == 0 then x
      else scaledDown (x / tenTo 308) (exponent - 308) steps

/-
  The floating point number `significand * 10 ^ exponent`,
  when it is in range.  Three steps down leave nothing of a
  number of 64 bits.
-/
def scaled?
    (significand : Nat)
    (exponent : Int) : Option Float :=
  let x := Float.ofNat significand
  if exponent < 0 then
    some (scaledDown x (-exponent).toNat 3)
  else if 308 < exponent then
    if significand = 0 then some 0 else none
  else
    let y := x * tenTo exponent.toNat
    if y.isInf then none else some y

------------------------------------------------------------
-- Numbers
------------------------------------------------------------

/- A number by its sign and the text it is shown by. -/
def fractionOf
    (isNegative : Bool)
    (significand : Nat)
    (exponent : Int) : Except Fault Number :=
  match scaled? significand exponent with
  | none => .error .numberOutOfRange
  | some x =>
      .ok (.fraction (floatText (if isNegative then -x else x)))

/- A number without point and exponent, when it is exact. -/
def wholeOf
    (isNegative : Bool)
    (n : Nat) : Except Fault Number :=
  if !isNegative then .ok (.natural n)
  else if 0 < n ∧ n ≤ Nat.pow 2 63 then .ok (.negative n)
  else fractionOf true n 0

/- What is wrong when digits are missing. -/
def missingDigits : List Char → Fault
  | [] => .endInValue
  | _ :: _ => .badNumber

/- A number, when there is one, with the text after it. -/
def followedBy
    (rest : List Char)
    (number : Except Fault Number) :
    Except Fault (Number × List Char) :=
  match number with
  | .ok n => .ok (n, rest)
  | .error fault => .error fault

/- The sign at the front of an exponent, and what follows. -/
def readSign (cs : List Char) : Bool × List Char :=
  match cs with
  | '-' :: rest => (true, rest)
  | '+' :: rest => (false, rest)
  | _ => (false, cs)

/- The exponent at the front of a text, and what follows. -/
def readExponent
    (cs : List Char) : Except Fault (Int × List Char) :=
  let (isNegative, cs) := readSign cs
  let digits := cs.takeWhile isDigit
  let rest := cs.dropWhile isDigit
  if digits.isEmpty then .error (missingDigits rest)
  else
    let n : Int := wholeNumber digits
    .ok (if isNegative then -n else n, rest)

/- The rest of a number after the mark of its exponent. -/
def readScaled
    (isNegative : Bool)
    (significand : Nat)
    (exponent : Int)
    (cs : List Char) : Except Fault (Number × List Char) :=
  match readExponent cs with
  | .error fault => .error fault
  | .ok (more, rest) =>
      followedBy rest
        (fractionOf isNegative significand (exponent + more))

/-
  The rest of a number from a possible exponent on.
  `plain` is the number without one.
-/
def readFromExponent
    (isNegative : Bool)
    (significand : Nat)
    (exponent : Int)
    (plain : Except Fault Number)
    (cs : List Char) : Except Fault (Number × List Char) :=
  match cs with
  | 'e' :: rest => readScaled isNegative significand exponent rest
  | 'E' :: rest => readScaled isNegative significand exponent rest
  | _ => followedBy cs plain

/- The rest of a number after its point. -/
def readFraction
    (isNegative : Bool)
    (significand : Nat)
    (exponent : Int)
    (cs : List Char) : Except Fault (Number × List Char) :=
  let digits := cs.takeWhile isDigit
  let rest := cs.dropWhile isDigit
  if digits.isEmpty then .error (missingDigits rest)
  else
    let (leading, unused) := leadingDigits significand digits
    let exponent := exponent - digits.length + unused.length
    readFromExponent isNegative leading exponent
      (fractionOf isNegative leading exponent) rest

/-
  The rest of a number from a possible point on.  `spilled`
  counts the digits before it that did not fit 64 bits.
-/
def readAfterDigits
    (isNegative : Bool)
    (significand : Nat)
    (spilled : Nat)
    (cs : List Char) : Except Fault (Number × List Char) :=
  match cs with
  | '.' :: rest =>
      readFraction isNegative significand spilled rest
  | _ =>
      readFromExponent isNegative significand spilled
        (if spilled = 0 then wholeOf isNegative significand
        else fractionOf isNegative significand spilled)
        cs

/- A number after its sign, and what follows it. -/
def readMagnitude
    (isNegative : Bool)
    (cs : List Char) : Except Fault (Number × List Char) :=
  let digits := cs.takeWhile isDigit
  let rest := cs.dropWhile isDigit
  match digits with
  | [] => .error (missingDigits rest)
  | '0' :: _ :: _ => .error .badNumber
  | _ =>
      let (significand, unused) := leadingDigits 0 digits
      readAfterDigits isNegative significand unused.length rest

/- The number at the front of a text, and what follows it. -/
def readNumber
    (cs : List Char) : Except Fault (Number × List Char) :=
  match cs with
  | '-' :: rest => readMagnitude true rest
  | _ => readMagnitude false cs

------------------------------------------------------------
-- What Follows A Number
------------------------------------------------------------

/- Dropping digits makes a text no longer. -/
theorem length_dropDigits_le (cs : List Char) :
    (cs.dropWhile isDigit).length ≤ cs.length :=
  (List.dropWhile_sublist _).length_le

/- A number passes on the text that it was given. -/
theorem eq_of_followedBy
    {rest cs : List Char}
    {number : Except Fault Number}
    {n : Number}
    (h : followedBy rest number = .ok (n, cs)) :
    cs = rest := by
  cases number with
  | error fault => simp [followedBy] at h
  | ok m => simp [followedBy] at h; exact h.2.symm

/- Reading a sign makes a text no longer. -/
theorem length_readSign_le (cs : List Char) :
    (readSign cs).2.length ≤ cs.length := by
  unfold readSign
  split <;> simp

/- Reading an exponent makes a text no longer. -/
theorem length_readExponent_le
    {cs rest : List Char}
    {n : Int}
    (h : readExponent cs = .ok (n, rest)) :
    rest.length ≤ cs.length := by
  unfold readExponent at h
  simp only at h
  split at h
  · simp at h
  · simp only [Except.ok.injEq, Prod.mk.injEq] at h
    rw [← h.2]
    exact
      Nat.le_trans (length_dropDigits_le _)
        (length_readSign_le _)

/- Reading after the mark makes a text no longer. -/
theorem length_readScaled_le
    {isNegative : Bool}
    {significand : Nat}
    {exponent : Int}
    {cs rest : List Char}
    {n : Number}
    (h :
      readScaled isNegative significand exponent cs =
        .ok (n, rest)) :
    rest.length ≤ cs.length := by
  unfold readScaled at h
  split at h
  · simp at h
  · next hExponent =>
      exact eq_of_followedBy h ▸ length_readExponent_le hExponent

/- Reading a possible exponent makes a text no longer. -/
theorem length_readFromExponent_le
    {isNegative : Bool}
    {significand : Nat}
    {exponent : Int}
    {plain : Except Fault Number}
    {cs rest : List Char}
    {n : Number}
    (h :
      readFromExponent isNegative significand exponent plain cs =
        .ok (n, rest)) :
    rest.length ≤ cs.length := by
  unfold readFromExponent at h
  split at h
  · exact Nat.le_succ_of_le (length_readScaled_le h)
  · exact Nat.le_succ_of_le (length_readScaled_le h)
  · exact eq_of_followedBy h ▸ Nat.le_refl _

/- Reading a possible point makes a text no longer. -/
theorem length_readAfterDigits_le
    {isNegative : Bool}
    {significand spilled : Nat}
    {cs rest : List Char}
    {n : Number}
    (h :
      readAfterDigits isNegative significand spilled cs =
        .ok (n, rest)) :
    rest.length ≤ cs.length := by
  unfold readAfterDigits at h
  split at h
  · next tail =>
      unfold readFraction at h
      simp only at h
      split at h
      · simp at h
      · have hScaled := length_readFromExponent_le h
        have hDigits := length_dropDigits_le tail
        simp only [List.length_cons]
        omega
  · exact length_readFromExponent_le h

/- A number takes at least one digit from a text. -/
theorem length_readMagnitude
    {isNegative : Bool}
    {cs rest : List Char}
    {n : Number}
    (h : readMagnitude isNegative cs = .ok (n, rest)) :
    rest.length < cs.length := by
  have hSplit :
      (cs.takeWhile isDigit).length +
          (cs.dropWhile isDigit).length =
        cs.length := by
    rw [← List.length_append, List.takeWhile_append_dropWhile]
  unfold readMagnitude at h
  simp only at h
  split at h
  · simp at h
  · simp at h
  · next hNotNil _ =>
      have hAfter := length_readAfterDigits_le h
      have hDigits : 0 < (cs.takeWhile isDigit).length :=
        List.length_pos_iff.mpr hNotNil
      omega

/- A number takes at least one character from a text. -/
theorem length_readNumber
    {cs rest : List Char}
    {n : Number}
    (h : readNumber cs = .ok (n, rest)) :
    rest.length < cs.length := by
  unfold readNumber at h
  split at h
  · exact Nat.lt_succ_of_lt (length_readMagnitude h)
  · exact length_readMagnitude h

end Json

end BlockProgram
