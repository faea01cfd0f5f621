import SessionRelay.Rfh2.Error
import SessionRelay.Text.Utf8

/-!
The fixed part of an RFH2 header: thirty-six bytes, numbers of 32 bits with a sign, lowest byte
first.
-/

namespace SessionRelay.Rfh2

/-- A number with a sign in four bytes, lowest first; what does not fit them is cut off. -/
def int32Bytes (n : Int) : Bytes :=
  let word := (n % 0x100000000).toNat
  [UInt8.ofNat word, UInt8.ofNat (word / 0x100), UInt8.ofNat (word / 0x10000),
    UInt8.ofNat (word / 0x1000000)]

/-- The number that four bytes write. -/
def int32 (a b c d : UInt8) : Int :=
  let word : Nat := a.toNat + 256 * (b.toNat + 256 * (c.toNat + 256 * d.toNat))
  if word < 0x80000000 then word else (word : Int) - 0x100000000

/-- The number at the front of some bytes, and the rest. -/
def takeInt32? : Bytes → Option (Int × Bytes)
  | a :: b :: c :: d :: rest => some (int32 a b c d, rest)
  | _ => none

def marker : Bytes := [0x52, 0x46, 0x48, 0x20]

def version : Int := 2

structure Header where
  marker : Bytes
  version : Int
  totalLength : Int
  encoding : Int
  charset : Int
  format : Bytes
  flags : Int
  nameCharset : Int
  deriving DecidableEq, Repr

namespace Header

/-- The thirty-six bytes of a header. -/
def bytes (h : Header) : Bytes :=
  h.marker ++ int32Bytes h.version ++ int32Bytes h.totalLength ++ int32Bytes h.encoding ++
    int32Bytes h.charset ++ h.format ++ int32Bytes h.flags ++ int32Bytes h.nameCharset

/-- The header at the front of a message that has as many bytes, and the rest. -/
def take? (message : Bytes) : Option (Header × Bytes) :=
  let (marker, rest) := message.splitAt 4
  (takeInt32? rest).bind fun (version, rest) =>
    (takeInt32? rest).bind fun (totalLength, rest) =>
      (takeInt32? rest).bind fun (encoding, rest) =>
        (takeInt32? rest).bind fun (charset, rest) =>
          let (format, rest) := rest.splitAt 8
          (takeInt32? rest).bind fun (flags, rest) =>
            (takeInt32? rest).map fun (nameCharset, rest) =>
              (⟨marker, version, totalLength, encoding, charset, format, flags, nameCharset⟩, rest)

/-- The header that this program writes: native encoding, UTF-8, a text format. -/
def standard (totalLength : Int) : Header where
  marker := Rfh2.marker
  version := Rfh2.version
  totalLength := totalLength
  encoding := 273
  charset := 1208
  format := [0x4D, 0x51, 0x53, 0x54, 0x52, 0x20, 0x20, 0x20]
  flags := 0
  nameCharset := 1208

end Header

/-- Does a message begin with the marker and the version? -/
def isFramed (message : Bytes) : Bool :=
  message.take 4 == marker &&
    ((takeInt32? (message.drop 4)).map Prod.fst == some version)

end SessionRelay.Rfh2
