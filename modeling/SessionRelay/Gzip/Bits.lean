import SessionRelay.Text.Utf8

/-!
A byte sequence as bits, the lowest bit of each byte first. The bytes come in portions, and a
further portion is taken only as long as more content may be wanted.
-/

namespace SessionRelay.Gzip

/-- Why a member does not give its content. -/
inductive Failure where
  | broken
  | tooLarge
  deriving DecidableEq, Repr

def portionSize : Nat := 32768

/-- The number that two bytes write, low byte first. -/
def word16 (low high : UInt8) : Nat := low.toNat + 256 * high.toNat

/-- The bits of a byte, lowest first. -/
def bitsOf (b : UInt8) : List Bool :=
  (List.range 8).map fun i => (b >>> UInt8.ofNat i) &&& 1 == 1

/-- What is left to read: the bits of the byte under way, and the bytes after it, of which the first
`atHand` belong to the portion that was taken last. -/
structure Bits where
  ahead : List Bool
  atHand : Nat
  rest : Bytes
  deriving DecidableEq, Repr

namespace Bits

def count (b : Bits) : Nat := b.ahead.length + 8 * b.rest.length

/-- The next whole byte. `within` says that the content so far is within its limit; past the limit
no further portion is taken, and more content than the limit is all that can be said. -/
def byte (within : Bool) (b : Bits) : Except Failure (UInt8 × Bits) :=
  match b.rest, b.atHand, within with
  | byte :: rest, n + 1, _ => .ok (byte, ⟨[], n, rest⟩)
  | byte :: rest, 0, true => .ok (byte, ⟨[], portionSize - 1, rest⟩)
  | [], _, true => .error .broken
  | _, _, false => .error .tooLarge

def next (within : Bool) (b : Bits) : Except Failure (Bool × Bits) :=
  match b.ahead with
  | bit :: ahead => .ok (bit, { b with ahead := ahead })
  | [] => do
    let (byte, b) ← b.byte within
    match bitsOf byte with
    | bit :: ahead => .ok (bit, { b with ahead := ahead })
    | [] => .error .broken

/-- A number of `n` bits, lowest first. -/
def number (within : Bool) : Nat → Bits → Except Failure (Nat × Bits)
  | 0, b => .ok (0, b)
  | n + 1, b => do
    let (bit, b) ← b.next within
    let (high, b) ← number within n b
    return (high * 2 + bit.toNat, b)

/-- A number of two whole bytes, low byte first. -/
def word (within : Bool) (b : Bits) : Except Failure (Nat × Bits) := do
  let (low, b) ← b.byte within
  let (high, b) ← b.byte within
  return (word16 low high, b)

end Bits

end SessionRelay.Gzip
