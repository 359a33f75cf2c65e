import Mathlib.Algebra.Order.Ring.Rat
import Mathlib.Data.Rat.Defs

/-! JavaScript's numbers. A finite one is a rational, `NaN` and the two
infinities are values of their own; sums are exact, and the two zeros are one.
As a text a finite number has the fewest digits that tell it from the other
doubles. Nothing in this file is about one program. -/
namespace WorkerInformer

inductive Number
  | nan
  | infinity (negative : Bool)
  | finite (value : ℚ)
  deriving DecidableEq

namespace Number

instance : Coe ℚ Number := ⟨finite⟩

instance (n : Nat) [OfNat ℚ n] : OfNat Number n := ⟨finite (OfNat.ofNat n)⟩

/-- A number `JSON.stringify` writes as a number. -/
def isFinite : Number → Bool
  | finite _ => true
  | nan | infinity _ => false

/-- `first < second`. -/
def lt : Number → Number → Bool
  | nan, _ | _, nan => false
  | finite first, finite second => first < second
  | infinity negative, finite _ => negative
  | finite _, infinity negative => !negative
  | infinity first, infinity second => first && !second

/-- `first <= second`. -/
def le : Number → Number → Bool
  | nan, _ | _, nan => false
  | finite first, finite second => first ≤ second
  | infinity negative, finite _ => negative
  | finite _, infinity negative => !negative
  | infinity first, infinity second => first || !second

/-- `number + value` for a finite value. -/
def plus (number : Number) (value : ℚ) : Number :=
  match number with
  | finite other => finite (other + value)
  | nan | infinity _ => number

/-- `number || other`. -/
def orElse (number other : Number) : Number := if number = nan ∨ number = 0 then other else number

/-! ## Numbers as texts -/

/-- `value * base ^ exponent`. -/
def scaled (value : ℚ) (base : Nat) (exponent : ℤ) : ℚ :=
  if 0 ≤ exponent then value * (base ^ exponent.toNat : Nat) else value / (base ^ (-exponent).toNat : Nat)

/-- The nearest integer, the even one of two. -/
def nearestInteger (value : ℚ) : ℤ :=
  let low := value.floor
  if value - low < 1 / 2 ∨ value - low = 1 / 2 ∧ low % 2 = 0 then low else low + 1

/-- The double nearest to a positive number: 53 bits, and none below the 1074th
place. -/
def nearestDouble (value : ℚ) : ℚ :=
  let size : ℤ := value.num.natAbs.log2 - value.den.log2
  let size := if scaled 1 2 size ≤ value then size else size - 1
  let last := max (size - 52) (-1074)
  scaled (nearestInteger (scaled value 2 (-last))) 2 last

/-- The zeros behind the point of a number below one. -/
def leadingZeros (value : ℚ) : Nat :=
  ((List.range 400).find? fun (zeros : Nat) => 1 ≤ scaled value 10 (zeros + 1)).getD 0

/-- The `n` for which a positive number is a fraction `0.d…` with a first digit
that is no zero, times `10 ^ n`. -/
def pointAt (value : ℚ) : ℤ :=
  if 1 ≤ value then (Nat.toDigits 10 value.floor.toNat).length else -(leadingZeros value : ℤ)

/-- A number of this many digits that rounds to the double, the nearest of two. -/
def digitsOf? (value : ℚ) (length : Nat) : Option ℤ :=
  let scale := pointAt value - length
  let near := nearestInteger (scaled value 10 (-scale))
  let other := if near ≤ scaled value 10 (-scale) then near + 1 else near - 1
  [near, other].find? fun digits => nearestDouble (scaled digits 10 scale) = value

/-- The fewest digits of a positive double, and where its point stands in them. -/
def shortest (value : ℚ) : List Char × ℤ :=
  let length := ((List.range 17).find? fun k => (digitsOf? value (k + 1)).isSome).getD 16 + 1
  let digits := Nat.toDigits 10 ((digitsOf? value length).getD 0).toNat
  let point := pointAt value + (digits.length - length)
  ((digits.reverse.dropWhile (· = '0')).reverse, point)

/-- The digits with their point, or with an exponent. -/
def layOut (digits : List Char) (point : ℤ) : List Char :=
  if digits.length ≤ point ∧ point ≤ 21 then digits ++ List.replicate (point.toNat - digits.length) '0'
  else if 0 < point ∧ point ≤ 21 then digits.take point.toNat ++ '.' :: digits.drop point.toNat
  else if -6 < point ∧ point ≤ 0 then '0' :: '.' :: List.replicate (-point).toNat '0' ++ digits
  else
    let mantissa := if digits.length ≤ 1 then digits else digits.take 1 ++ '.' :: digits.drop 1
    let sign := if 0 < point then '+' else '-'
    mantissa ++ 'e' :: sign :: Nat.toDigits 10 (point - 1).natAbs

/-- `String(value)`; integers up to `2 ^ 53` are written out, and other numbers
as the doubles nearest to them. -/
def finiteText (value : ℚ) : String :=
  if value.den = 1 ∧ value.num.natAbs ≤ 2 ^ 53 then toString value.num
  else
    let (digits, point) := shortest (nearestDouble |value|)
    String.ofList (if value < 0 then '-' :: layOut digits point else layOut digits point)

example : finiteText (-1 / 10) = "-0.1" ∧ finiteText (2 / 3) = "0.6666666666666666" ∧
    finiteText (10 ^ 23) = "1e+23" := by decide +kernel

/-- `String(number)`. -/
def toText : Number → String
  | nan => "NaN"
  | infinity negative => if negative then "-Infinity" else "Infinity"
  | finite value => finiteText value

end Number

end WorkerInformer
