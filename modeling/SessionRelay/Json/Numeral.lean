import SessionRelay.Json.Value
import SessionRelay.Number.Integer

/-!
Numbers as they are written in JSON, and what they mean. A numeral without point and exponent that
fits 64 bits is a whole number. Any other is a double: its digits are taken as one whole number of
64 bits as far as they fit, which is rounded and then multiplied or divided by a rounded power of
ten. Such a double may differ from the nearest one in its last place.
-/

namespace SessionRelay.Json

/-- An exponent: its sign and its digits. -/
structure Exponent where
  negative : Bool
  digits : List Nat
  deriving DecidableEq, Repr

/-- A number as written: sign, digits before and after the point, exponent. -/
structure Numeral where
  negative : Bool
  whole : List Nat
  fraction : List Nat
  exponent : Option Exponent
  deriving DecidableEq, Repr

namespace Numeral

/-- Digits taken into a significand: the significand, how many were taken, how many did not fit. -/
structure Taken where
  significand : Nat
  taken : Nat
  dropped : Nat
  deriving DecidableEq, Repr

/-- Takes digits while the significand stays within 64 bits; after the first that does not fit, none
of them is taken any more. -/
def take (start : Nat) (digits : List Nat) : Taken :=
  digits.foldl (fun t d =>
    let next := t.significand * 10 + d
    if t.dropped = 0 ∧ next ≤ Integer.maxUnsigned then ⟨next, t.taken + 1, 0⟩
    else { t with dropped := t.dropped + 1 }) ⟨start, 0, 0⟩

/-- `significand · 10 ^ power`, or none past the greatest double. Each step rounds, and a power
below `10 ^ -308` is divided out in two. -/
def scaled? (significand : Nat) (power : Int) : Option Binary64 :=
  let f := Binary64.ofNat significand
  let ten (n : Nat) := Binary64.ofNat (Nat.pow 10 n)
  if 308 < power then if significand = 0 then some f else none
  else if 0 ≤ power then
    let product := Binary64.mul f (ten power.toNat)
    if product.isInfinite then none else some product
  else if -308 ≤ power then some (Binary64.div f (ten (-power).toNat))
  else if -616 ≤ power then
    some (Binary64.div (Binary64.div f (ten 308)) (ten (-power - 308).toNat))
  else some Binary64.zero

/-- The greatest exponent whose digits are taken at their word. -/
def maxExponent : Nat := 0x7FFFFFFF

/-- The double that a numeral with a point, an exponent or too many digits writes. -/
def double? (n : Numeral) : Option Binary64 :=
  let whole := take 0 n.whole
  let parts := take whole.significand n.fraction
  let power : Int := (whole.dropped : Int) - (parts.taken : Int)
  let magnitude? :=
    match n.exponent with
    | none => scaled? parts.significand power
    | some e =>
      let size := Integer.ofDigits e.digits
      if maxExponent < size then
        if parts.significand ≠ 0 ∧ !e.negative then none else some Binary64.zero
      else scaled? parts.significand (if e.negative then power - size else power + size)
  magnitude?.map fun x => if n.negative then x.neg else x

/-- The value of a numeral; none if it is too large for a double. -/
def value? (n : Numeral) : Option Number :=
  let size := Integer.ofDigits n.whole
  if n.fraction.isEmpty ∧ n.exponent.isNone ∧ size ≤ Integer.maxUnsigned then
    if !n.negative then some (.integer size)
    else if size = 0 ∨ 1 <<< 63 < size then some (.double (Binary64.ofNat size).neg)
    else some (.integer (-(size : Int)))
  else n.double?.map .double

end Numeral

end SessionRelay.Json
