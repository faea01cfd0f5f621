import SessionRelay.Number.Integer
import SessionRelay.Number.Shortest

/-!
Binary64 numbers as plain decimal text: reading, with signs, exponents and the words for infinity
and NaN, and writing without an exponent.
-/

namespace SessionRelay.Binary64

def lowerAscii (cs : List Char) : List Char :=
  cs.map Char.toLower

/-- The digits at the front of a text, and the rest. -/
def digitRun (cs : List Char) : List Nat × List Char :=
  ((cs.takeWhile Char.isDigit).filterMap Integer.digit?, cs.dropWhile Char.isDigit)

/-- An exponent after its letter: an optional sign and at least one digit, to the end. -/
def readExponent? (cs : List Char) : Option Int :=
  match cs with
  | '-' :: rest => (Integer.readDigits? rest).map fun n => -(n : Int)
  | '+' :: rest => (Integer.readDigits? rest).map fun n => (n : Int)
  | _ => (Integer.readDigits? cs).map fun n => (n : Int)

/-- The number nearest to `digits · 10 ^ power`. Powers whose result is certain, zero or infinite,
are told by the size of the number alone. -/
def ofDecimalBounded (negative : Bool) (digits : List Nat) (power : Int) : Binary64 :=
  let significant := digits.dropWhile (· == 0)
  let size : Int := power + significant.length
  if significant.isEmpty then ofMagnitude negative 0
  else if 400 < size then infinity negative
  else if size < -400 then ofMagnitude negative 0
  else ofDecimal negative (Integer.ofDigits significant) power

/-- Digits with an optional point among or around them, and an optional exponent. -/
def readUnsigned? (negative : Bool) (cs : List Char) : Option Binary64 :=
  let (whole, rest) := digitRun cs
  let (fraction, rest) :=
    match rest with
    | '.' :: rest => digitRun rest
    | _ => ([], rest)
  if whole.isEmpty && fraction.isEmpty then none
  else
    let exponent? :=
      match rest with
      | [] => some 0
      | 'e' :: rest => readExponent? rest
      | 'E' :: rest => readExponent? rest
      | _ => none
    exponent?.map fun e =>
      ofDecimalBounded negative (whole ++ fraction) (e - (fraction.length : Int))

/-- A number with an optional sign, or one of the words `inf`, `infinity` and `nan` in any case. -/
def readMagnitude? (negative : Bool) (cs : List Char) : Option Binary64 :=
  let word := String.ofList (lowerAscii cs)
  if word = "inf" ∨ word = "infinity" then some (infinity negative)
  else if word = "nan" then some (if negative then neg nan else nan)
  else readUnsigned? negative cs

def read? (cs : List Char) : Option Binary64 :=
  match cs with
  | '-' :: rest => readMagnitude? true rest
  | '+' :: rest => readMagnitude? false rest
  | _ => readMagnitude? false cs

/-- Digits with `10 ^ power` as their unit, written without an exponent. -/
def positional (digits : List Char) (power : Int) : List Char :=
  if 0 ≤ power then digits ++ List.replicate power.toNat '0'
  else
    let places := (-power).toNat
    if places < digits.length then
      digits.take (digits.length - places) ++ '.' :: digits.drop (digits.length - places)
    else '0' :: '.' :: List.replicate (places - digits.length) '0' ++ digits

/-- A number in plain decimal, never with an exponent: `1`, `0.001`, `-0`, `inf`, `NaN`. -/
def text (x : Binary64) : String :=
  if x.isNaN then "NaN"
  else
    let sign := if x.isNegative then ['-'] else []
    if x.isInfinite then String.ofList (sign ++ ['i', 'n', 'f'])
    else if x.isZero then String.ofList (sign ++ ['0'])
    else
      let d := Shortest.decimal .upward x
      String.ofList (sign ++ positional (Integer.digits d.digits) d.power)

end SessionRelay.Binary64
