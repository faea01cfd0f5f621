import SessionRelay.Text.Utf8

/-!
The 32-bit cyclic redundancy check of gzip, bit by bit with the reversed polynomial.
-/

namespace SessionRelay.Gzip

/-- One bit of the division. -/
def crcBit (r : UInt32) : UInt32 :=
  if r &&& 1 = 1 then (r >>> 1) ^^^ 0xEDB88320 else r >>> 1

def crcByte (r : UInt32) (b : UInt8) : UInt32 :=
  let r := r ^^^ b.toUInt32
  crcBit (crcBit (crcBit (crcBit (crcBit (crcBit (crcBit (crcBit r)))))))

def crc32 (bytes : Bytes) : UInt32 :=
  bytes.foldl crcByte 0xFFFFFFFF ^^^ 0xFFFFFFFF

end SessionRelay.Gzip
