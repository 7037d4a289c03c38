/-
  The shortest decimal that names a binary fraction.

  A positive number of the form `m * 2 ^ q` is named by every
  decimal nearer to it than to its neighbours.  Among those
  with the fewest digits, the nearest is taken, and of two
  equally near the one with an even last digit.

  Key definitions:
    * `Decimal`
    * `shortest`
    * `Decimal.text`
    * `floatText`
-/

namespace BlockProgram

------------------------------------------------------------
-- Decimals
------------------------------------------------------------

/- The number `digits * 10 ^ exponent`. -/
structure Decimal where
  digits : Nat
  exponent : Int
  deriving DecidableEq, Repr

namespace Decimal

------------------------------------------------------------
-- The Nearest On A Grid
------------------------------------------------------------

/-
  A number and the ends of the interval of all numbers that
  round to it, over one denominator.  The ends belong to the
  interval when `closed` holds.
-/
structure Target where
  low : Nat
  value : Nat
  high : Nat
  den : Nat
  closed : Bool

namespace Target

/-
  The target of `m * 2 ^ q`.  The gap below a power of two is
  half as wide, unless the numbers are evenly spaced there.
-/
def ofBinary
    (m : Nat)
    (q : Int)
    (evenlySpaced : Bool) : Target :=
  let scale := Nat.pow 2 q.toNat
  let below := if evenlySpaced then 2 else 1
  { low := (4 * m - below) * scale
    value := 4 * m * scale
    high := (4 * m + 2) * scale
    den := 4 * Nat.pow 2 (-q).toNat
    closed := m % 2 == 0 }

/- The same target in units of `10 ^ step`. -/
def inSteps
    (step : Int)
    (t : Target) : Target :=
  let up := Nat.pow 10 (-step).toNat
  { low := t.low * up
    value := t.value * up
    high := t.high * up
    den := t.den * Nat.pow 10 step.toNat
    closed := t.closed }

/- A whole number of units lies in the interval. -/
def holds
    (n : Nat)
    (t : Target) : Bool :=
  let x := n * t.den
  if t.closed then t.low ≤ x && x ≤ t.high
  else t.low < x && x < t.high

/- The nearest whole number of units in the interval. -/
def nearest? (t : Target) : Option Nat :=
  let n := t.value / t.den
  let rest := t.value % t.den
  match t.holds n, t.holds (n + 1) with
  | false, false => none
  | true, false => some n
  | false, true => some (n + 1)
  | true, true =>
      if 2 * rest < t.den then some n
      else if t.den < 2 * rest then some (n + 1)
      else some (n + n % 2)

end Target

------------------------------------------------------------
-- The Fewest Digits
------------------------------------------------------------

/- Try grids that are finer and finer, `count` of them. -/
def finest
    (t : Target)
    (step : Int) :
    Nat →
    Decimal
  | 0 => ⟨0, 0⟩
  | count + 1 =>
      match (t.inSteps step).nearest? with
      | some n => ⟨n, step⟩
      | none => finest t (step - 1) count

/- The least power of ten that exceeds the number, or less. -/
def magnitude (t : Target) : Int :=
  let whole := (Nat.toDigits 10 (t.value / t.den)).length
  let part := (Nat.toDigits 10 (t.den / t.value)).length
  if t.den ≤ t.value then whole else 1 - (part : Int)

/- Drop zeros from the end of the digits, `count` at most. -/
def normalize
    (d : Decimal) :
    Nat →
    Decimal
  | 0 => d
  | count + 1 =>
      if d.digits % 10 = 0 ∧ d.digits ≠ 0 then
        normalize ⟨d.digits / 10, d.exponent + 1⟩ count
      else d

/- The shortest decimal of a target. -/
def shortest (t : Target) : Decimal :=
  (finest t (magnitude t) 20).normalize 20

------------------------------------------------------------
-- Text
------------------------------------------------------------

/- A number of zeros. -/
def zeros (n : Nat) : String :=
  String.ofList (List.replicate n '0')

/- An exponent, which always carries its sign. -/
def exponentText (exponent : Int) : String :=
  (if exponent < 0 then "e-" else "e+") ++
    toString exponent.natAbs

/-
  The text of a decimal.  It is positional with at least one
  digit on each side of the point, as long as at most sixteen
  digits stand before the point or at most four zeros follow
  it; beyond that an exponent follows the digits.
-/
def text (d : Decimal) : String :=
  let digits := toString d.digits
  let count := digits.length
  let point : Int := count + d.exponent
  if 0 ≤ d.exponent ∧ point ≤ 16 then
    digits ++ zeros d.exponent.toNat ++ ".0"
  else if 0 < point ∧ point ≤ 16 then
    String.ofList (digits.toList.take point.toNat) ++ "." ++
      String.ofList (digits.toList.drop point.toNat)
  else if -5 < point ∧ point ≤ 0 then
    "0." ++ zeros (-point).toNat ++ digits
  else
    let fraction := digits.toList.drop 1
    String.ofList (digits.toList.take 1) ++
      (if fraction.isEmpty then ""
      else "." ++ String.ofList fraction) ++
      exponentText (point - 1)

end Decimal

------------------------------------------------------------
-- Floating Point Numbers
------------------------------------------------------------

/- The place value of the sign of a floating point number. -/
def signPlace : Nat :=
  Nat.pow 2 63

/- The place value of its exponent.  The fraction is below. -/
def exponentPlace : Nat :=
  Nat.pow 2 52

/- The number of exponents. -/
def exponentCount : Nat :=
  Nat.pow 2 11

/- The text of a finite floating point number. -/
def floatText (x : Float) : String :=
  let bits := x.toBits.toNat
  let sign := if signPlace ≤ bits then "-" else ""
  let fraction := bits % exponentPlace
  let exponent := bits / exponentPlace % exponentCount
  let magnitude :=
    if exponent = 0 ∧ fraction = 0 then "0.0"
    else if exponent = 0 then
      (Decimal.shortest
        (.ofBinary fraction (-1074) true)).text
    else
      (Decimal.shortest
        (.ofBinary (exponentPlace + fraction)
          ((exponent : Int) - 1075)
          (fraction != 0 || exponent == 1))).text
  sign ++ magnitude

end BlockProgram
