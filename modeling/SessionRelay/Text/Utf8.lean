/-!
Bytes and text. `Utf8.encode` writes a text as bytes; `Utf8.units` reads bytes as characters, one
ill-formed stretch at a time. Both readings of foreign bytes, the strict `decode?` and the lenient
`lossy`, are views of `units`.
-/

namespace SessionRelay

/-- Raw bytes, as they travel on a stream or lie in a queue. -/
abbrev Bytes := List UInt8

namespace Utf8

def encode (s : String) : Bytes :=
  s.toList.flatMap String.utf8EncodeChar

/-- A character that has begun: the bytes it still needs, the range its next byte must lie in, and
the value read so far. -/
structure Begun where
  owed : Nat
  low : UInt8
  high : UInt8
  value : Nat
  deriving DecidableEq, Repr

/-- What a byte means where a character may start. -/
inductive Lead where
  | complete (c : Char)
  | begun (b : Begun)
  | illFormed
  deriving DecidableEq, Repr

/-- The narrow ranges after `E0`, `ED`, `F0` and `F4` keep out overlong forms, surrogates and values
past the last code point. -/
def lead (b : UInt8) : Lead :=
  if b < 0x80 then .complete (Char.ofNat b.toNat)
  else if b < 0xC2 then .illFormed
  else if b < 0xE0 then .begun ⟨1, 0x80, 0xBF, b.toNat - 0xC0⟩
  else if b < 0xF0 then
    .begun ⟨2, if b = 0xE0 then 0xA0 else 0x80, if b = 0xED then 0x9F else 0xBF, b.toNat - 0xE0⟩
  else if b < 0xF5 then
    .begun ⟨3, if b = 0xF0 then 0x90 else 0x80, if b = 0xF4 then 0x8F else 0xBF, b.toNat - 0xF0⟩
  else .illFormed

/-- A reading under way. `read` is newest first and holds `none` for an ill-formed stretch. -/
structure Scan where
  begun : Option Begun
  read : List (Option Char)
  deriving DecidableEq, Repr

def Scan.start : Scan := ⟨none, []⟩

/-- A byte at the start of a character. -/
def Scan.first (read : List (Option Char)) (b : UInt8) : Scan :=
  match lead b with
  | .complete c => ⟨none, some c :: read⟩
  | .begun p => ⟨some p, read⟩
  | .illFormed => ⟨none, none :: read⟩

/-- A byte that cannot continue the character under way ends it as ill-formed and starts anew, so an
ill-formed stretch is never longer than the beginning of one character. -/
def Scan.step (s : Scan) (b : UInt8) : Scan :=
  match s.begun with
  | none => Scan.first s.read b
  | some p =>
    if p.low ≤ b ∧ b ≤ p.high then
      let value := p.value * 64 + (b.toNat - 0x80)
      if p.owed ≤ 1 then ⟨none, some (Char.ofNat value) :: s.read⟩
      else ⟨some ⟨p.owed - 1, 0x80, 0xBF, value⟩, s.read⟩
    else Scan.first (none :: s.read) b

/-- What was read, in order; a character left unfinished at the end is ill-formed. -/
def Scan.finish (s : Scan) : List (Option Char) :=
  match s.begun with
  | none => s.read.reverse
  | some _ => (none :: s.read).reverse

/-- The characters of a byte sequence, `none` for every ill-formed stretch. -/
def units (bytes : Bytes) : List (Option Char) :=
  (bytes.foldl Scan.step Scan.start).finish

def decode? (bytes : Bytes) : Option String :=
  let read := units bytes
  if read.all Option.isSome then some (String.ofList (read.filterMap id)) else none

/-- The text of any bytes, with one replacement character for every ill-formed stretch. -/
def lossy (bytes : Bytes) : String :=
  String.ofList ((units bytes).map (·.getD '\uFFFD'))

end Utf8

end SessionRelay
