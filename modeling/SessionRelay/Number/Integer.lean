/-!
Decimal digits and whole numbers: reading with an optional sign, and writing.
-/

namespace SessionRelay.Integer

def digit? (c : Char) : Option Nat :=
  if '0' ≤ c ∧ c ≤ '9' then some (c.toNat - 48) else none

/-- The number that a list of digits writes, most significant digit first. -/
def ofDigits (digits : List Nat) : Nat :=
  digits.foldl (fun n d => n * 10 + d) 0

/-- The digits of a text that holds digits only, and at least one. -/
def digits? (cs : List Char) : Option (List Nat) :=
  if cs.isEmpty then none
  else
    let found := cs.map digit?
    if found.all Option.isSome then some (found.filterMap id) else none

/-- A text of digits, at least one. -/
def readDigits? (cs : List Char) : Option Nat :=
  (digits? cs).map ofDigits

/-- A whole number that is not negative; one plus sign may stand in front. -/
def readNat? (cs : List Char) : Option Nat :=
  match cs with
  | '+' :: rest => readDigits? rest
  | _ => readDigits? cs

def readInt? (cs : List Char) : Option Int :=
  match cs with
  | '-' :: rest => (readDigits? rest).map fun n => -(n : Int)
  | _ => (readNat? cs).map fun n => (n : Int)

def digits (n : Nat) : List Char :=
  Nat.toDigits 10 n

def natText (n : Nat) : String :=
  String.ofList (digits n)

/-- A number in decimal, with a minus sign below zero. -/
def text (n : Int) : String :=
  if n < 0 then String.ofList ('-' :: digits n.natAbs) else natText n.natAbs

/-- The greatest whole number in 64 bits, and the range of those with a sign. -/
def maxUnsigned : Nat := 0xFFFFFFFFFFFFFFFF

def minSigned : Int := -0x8000000000000000

def maxSigned : Int := 0x7FFFFFFFFFFFFFFF

end SessionRelay.Integer
