/-!
Binary floating-point numbers of 64 bits, as exact integers: a finite number is `significand · 2 ^
exponent`, and each operation is the exact result rounded once, ties to the even neighbour.
-/

namespace SessionRelay

/-- A binary64 number, by its bits: sign, eleven bits of exponent, fifty-two of fraction. -/
structure Binary64 where
  bits : UInt64
  deriving DecidableEq, Repr, Inhabited

namespace Binary64

/-- The bits without the sign, as a number; of two magnitudes the greater has the greater value. -/
def magnitude (x : Binary64) : Nat := x.bits.toNat % (1 <<< 63)

def isNegative (x : Binary64) : Bool := 1 <<< 63 ≤ x.bits.toNat

/-- The magnitude of infinity: every exponent bit set and the fraction zero. -/
def infiniteMagnitude : Nat := 0x7FF <<< 52

def isNaN (x : Binary64) : Bool := infiniteMagnitude < x.magnitude

def isInfinite (x : Binary64) : Bool := x.magnitude == infiniteMagnitude

def isFinite (x : Binary64) : Bool := x.magnitude < infiniteMagnitude

def isZero (x : Binary64) : Bool := x.magnitude == 0

def ofMagnitude (negative : Bool) (magnitude : Nat) : Binary64 :=
  ⟨UInt64.ofNat (if negative then 1 <<< 63 + magnitude else magnitude)⟩

def zero : Binary64 := ⟨0⟩

def negativeZero : Binary64 := ofMagnitude true 0

def infinity (negative : Bool) : Binary64 := ofMagnitude negative infiniteMagnitude

/-- The quiet NaN without a sign. -/
def nan : Binary64 := ofMagnitude false (infiniteMagnitude + 1 <<< 51)

def neg (x : Binary64) : Binary64 := ofMagnitude (!x.isNegative) x.magnitude

/-- The integer `m` in `m · 2 ^ exponent`. -/
def significand (x : Binary64) : Nat :=
  let fraction := x.magnitude % (1 <<< 52)
  if x.magnitude < 1 <<< 52 then fraction else 1 <<< 52 + fraction

def exponent (x : Binary64) : Int :=
  let biased : Nat := x.magnitude >>> 52
  if biased = 0 then -1074 else (biased : Int) - 1075

/-- The quotient rounded to the nearest integer, a half to the even one. -/
def roundDiv (num den : Nat) : Nat :=
  let q := num / den
  let twice := 2 * (num % den)
  if twice < den then q
  else if den < twice then q + 1
  else if q % 2 = 0 then q else q + 1

/-- The fraction `num / den · 2 ^ shift` with no negative power left. -/
def scale (num den : Nat) (shift : Int) : Nat × Nat :=
  if 0 ≤ shift then (num <<< shift.toNat, den) else (num, den <<< (-shift).toNat)

/-- The number nearest to `num / den`. Past the greatest finite number it is infinite. The spacing
of numbers near the quotient is a power of two, at least `2 ^ -1074`; the quotient in that unit is
rounded, and carries from the fraction into the exponent by itself. -/
def ofRatio (negative : Bool) (num den : Nat) : Binary64 :=
  if num = 0 then ofMagnitude negative 0
  else
    let low : Int := max (-1074) ((num.log2 : Int) - (den.log2 : Int) - 53)
    let (n, d) := scale num den (-low)
    let unit := if 1 <<< 53 ≤ n / d then low + 1 else low
    let (n, d) := scale num den (-unit)
    let magnitude := ((unit + 1074).toNat <<< 52) + roundDiv n d
    ofMagnitude negative (min magnitude infiniteMagnitude)

/-- The number nearest to `num / den · 2 ^ shift`. -/
def ofScaled (negative : Bool) (num den : Nat) (shift : Int) : Binary64 :=
  let (n, d) := scale num den shift
  ofRatio negative n d

def ofNat (n : Nat) : Binary64 := ofRatio false n 1

def ofInt (n : Int) : Binary64 := ofRatio (n < 0) n.natAbs 1

/-- The number nearest to `digits · 10 ^ power`. -/
def ofDecimal (negative : Bool) (digits : Nat) (power : Int) : Binary64 :=
  if 0 ≤ power then ofRatio negative (digits * Nat.pow 10 power.toNat) 1
  else ofRatio negative digits (Nat.pow 10 (-power).toNat)

def mul (x y : Binary64) : Binary64 :=
  ofScaled (x.isNegative != y.isNegative) (x.significand * y.significand) 1
    (x.exponent + y.exponent)

/-- The quotient of two finite numbers, the second not zero. -/
def div (x y : Binary64) : Binary64 :=
  ofScaled (x.isNegative != y.isNegative) x.significand y.significand (x.exponent - y.exponent)

/-- A finite number's distance from zero as a fraction. -/
def ratio (x : Binary64) : Nat × Nat :=
  scale x.significand 1 x.exponent

end Binary64

end SessionRelay
