import SessionRelay.Gzip.Crc
import SessionRelay.Gzip.Inflate

/-!
Gzip members: a header, deflate data, the check value and the length of what was compressed.
`compress` writes stored blocks; `decompress` reads any member, up to a limit.
-/

namespace SessionRelay.Gzip

/-- A number in four bytes, lowest first. -/
def bytes32 (n : Nat) : Bytes :=
  [UInt8.ofNat n, UInt8.ofNat (n / 0x100), UInt8.ofNat (n / 0x10000), UInt8.ofNat (n / 0x1000000)]

def maxStored : Nat := 65535

def stored (last : Bool) (bytes : Bytes) : Bytes :=
  let n := bytes.length
  let complement := maxStored - n
  [if last then 1 else 0, UInt8.ofNat n, UInt8.ofNat (n / 256), UInt8.ofNat complement,
    UInt8.ofNat (complement / 256)] ++ bytes

/-- Bytes as stored blocks, at most `count` full ones before the last. -/
def storedBlocks : Nat → Bytes → Bytes
  | 0, bytes => stored true bytes
  | count + 1, bytes =>
    if bytes.length ≤ maxStored then stored true bytes
    else stored false (bytes.take maxStored) ++ storedBlocks count (bytes.drop maxStored)

/-- The header of a member without name, comment and time. -/
def plainHeader : Bytes := [0x1F, 0x8B, 8, 0, 0, 0, 0, 0, 0, 0xFF]

/-- What stands after the data: check value and length of the content. -/
def trailer (content : Bytes) : Bytes :=
  bytes32 (crc32 content).toNat ++ bytes32 content.length

/-- A member that holds the content. -/
def compress (content : Bytes) : Bytes :=
  plainHeader ++ storedBlocks (content.length / maxStored) content ++ trailer content

/-- The most bytes of a name or a comment. -/
def maxText : Nat := 65535

/-- The bytes after a text of at most `room` bytes that ends with a zero byte. -/
def afterText? : Nat → Bytes → Option Bytes
  | _, 0 :: rest => some rest
  | room + 1, _ :: rest => afterText? room rest
  | _, _ => none

/-- The bytes after an extra field, which has its length in front. -/
def afterExtra? : Bytes → Option Bytes
  | low :: high :: rest =>
    if rest.length < word16 low high then none else some (rest.drop (word16 low high))
  | _ => none

/-- An optional part of a header. -/
def optionalPart (present : Bool) (skip : Bytes → Option Bytes) (bytes : Bytes) : Option Bytes :=
  if present then skip bytes else some bytes

/-- The header's own check value: the low half of that of all header bytes before it. -/
def afterCheck? (whole : Bytes) : Bytes → Option Bytes
  | low :: high :: rest =>
    let head := whole.take (whole.length - rest.length - 2)
    if word16 low high = (crc32 head).toNat % 65536 then some rest else none
  | _ => none

/-- The bytes after a member's header. The three high flags are reserved and must not be set. -/
def afterHeader? (whole : Bytes) : Option Bytes :=
  match whole with
  | 0x1F :: 0x8B :: 8 :: flags :: _ :: _ :: _ :: _ :: _ :: _ :: rest =>
    let has (bit : UInt8) := flags &&& bit != 0
    if has 0xE0 then none
    else
      (optionalPart (has 4) afterExtra? rest).bind fun rest =>
        (optionalPart (has 8) (afterText? maxText) rest).bind fun rest =>
          (optionalPart (has 16) (afterText? maxText) rest).bind fun rest =>
            optionalPart (has 2) (afterCheck? whole) rest
  | _ => none

/-- Where in a member its portions are counted from: the start, unless the extra field fills the
second portion too. Then what the first portion leaves of it is taken at once, and portions are
counted from its end. -/
def portionStart (whole : Bytes) : Nat :=
  match whole with
  | _ :: _ :: _ :: flags :: _ :: _ :: _ :: _ :: _ :: _ :: low :: high :: _ =>
    let after := 12 + word16 low high
    if flags &&& 4 != 0 ∧ 2 * portionSize ≤ after then after else 0
  | _ => 0

/-- The content of the member at the front, if it has at most `limit` bytes. Data that mean nothing
are refused as such wherever they are met, too much content as soon as more would have to be read or
written, and the trailer counts only for content within the limit. -/
def decompress (limit : Nat) (whole : Bytes) : Except Failure Bytes :=
  match afterHeader? whole with
  | none => .error .broken
  | some data =>
    let read := whole.length - data.length - portionStart whole
    match inflate limit ⟨[], portionSize - read % portionSize, data⟩ with
    | .error e => .error e
    | .ok (output, rest) =>
      let content := output.toList
      if limit < output.size then .error .tooLarge
      else if rest.take 8 = trailer content then .ok content
      else .error .broken

end SessionRelay.Gzip
