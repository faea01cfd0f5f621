import SessionRelay.Gzip.Huffman

/-!
Decompression of deflate data: stored blocks, blocks with the fixed codes and blocks that bring
codes of their own. A copy that reaches back before the first byte finds zeros there. The content is
written in windows; once it is past its limit no further window is begun.
-/

namespace SessionRelay.Gzip

def windowSize : Nat := 32768

/-- Is the content within its limit? -/
def isWithin (limit : Nat) (output : Array UInt8) : Bool := output.size ≤ limit

/-- The content with one more byte. -/
def put (limit : Nat) (byte : UInt8) (output : Array UInt8) : Except Failure (Array UInt8) :=
  if output.size % windowSize = 0 ∧ limit < output.size then .error .tooLarge
  else .ok (output.push byte)

/-- The codes of a block: one for bytes and copy lengths, one for distances. -/
structure Codes where
  literals : Code
  distances : Code
  deriving Repr

def Codes.fixed : Codes where
  literals := .ofLengths <|
    List.replicate 144 8 ++ List.replicate 112 9 ++ List.replicate 24 7 ++ List.replicate 8 8
  distances := .ofLengths (List.replicate 32 5)

/-- The least copy length of each length symbol, and its extra bits. -/
def copyLengths : List (Nat × Nat) := [
  (3, 0), (4, 0), (5, 0), (6, 0), (7, 0), (8, 0), (9, 0), (10, 0), (11, 1), (13, 1), (15, 1),
  (17, 1), (19, 2), (23, 2), (27, 2), (31, 2), (35, 3), (43, 3), (51, 3), (59, 3), (67, 4),
  (83, 4), (99, 4), (115, 4), (131, 5), (163, 5), (195, 5), (227, 5), (258, 0)]

/-- The least distance of each distance symbol, and its extra bits. -/
def copyDistances : List (Nat × Nat) := [
  (1, 0), (2, 0), (3, 0), (4, 0), (5, 1), (7, 1), (9, 2), (13, 2), (17, 3), (25, 3), (33, 4),
  (49, 4), (65, 5), (97, 5), (129, 6), (193, 6), (257, 7), (385, 7), (513, 8), (769, 8),
  (1025, 9), (1537, 9), (2049, 10), (3073, 10), (4097, 11), (6145, 11), (8193, 12), (12289, 12),
  (16385, 13), (24577, 13)]

/-- Copies `length` bytes from `distance` bytes back, one by one, so that a copy may overlap what it
writes. -/
def copyBack (limit distance : Nat) : Nat → Array UInt8 → Except Failure (Array UInt8)
  | 0, output => .ok output
  | length + 1, output =>
    let byte := if distance ≤ output.size then output.getD (output.size - distance) 0 else 0
    match put limit byte output with
    | .error e => .error e
    | .ok output => copyBack limit distance length output

/-- A number that a table gives for a symbol: its least value and extra bits. -/
def tableNumber (within : Bool) (table : List (Nat × Nat)) (symbol : Nat) (bits : Bits) :
    Except Failure (Nat × Bits) :=
  match table[symbol]? with
  | none => .error .broken
  | some (least, extra) => do
    let (more, bits) ← bits.number within extra
    return (least + more, bits)

/-- A copy whose length symbol has been read: its length and its distance. -/
def copyOf (within : Bool) (codes : Codes) (symbol : Nat) (bits : Bits) :
    Except Failure (Nat × Nat × Bits) := do
  let (length, bits) ← tableNumber within copyLengths symbol bits
  let (s, bits) ← codes.distances.read within bits
  let (distance, bits) ← tableNumber within copyDistances s bits
  return (length, distance, bits)

/-- Bytes and copies up to the end of the block, at most `count` of them. -/
def symbols (limit : Nat) (codes : Codes) : Nat → Array UInt8 → Bits →
    Except Failure (Array UInt8 × Bits)
  | 0, _, _ => .error .broken
  | count + 1, output, bits =>
    let within := isWithin limit output
    match codes.literals.read within bits with
    | .error e => .error e
    | .ok (s, bits) =>
      if s < 256 then
        match put limit (UInt8.ofNat s) output with
        | .error e => .error e
        | .ok output => symbols limit codes count output bits
      else if s = 256 then .ok (output, bits)
      else
        match copyOf within codes (s - 257) bits with
        | .error e => .error e
        | .ok (length, distance, bits) =>
          match copyBack limit distance length output with
          | .error e => .error e
          | .ok output => symbols limit codes count output bits

/-- The next `length` bytes as they are. -/
def storedBytes (limit : Nat) : Nat → Array UInt8 → Bits → Except Failure (Array UInt8 × Bits)
  | 0, output, bits => .ok (output, bits)
  | length + 1, output, bits =>
    match bits.byte (isWithin limit output) with
    | .error e => .error e
    | .ok (byte, bits) =>
      match put limit byte output with
      | .error e => .error e
      | .ok output => storedBytes limit length output bits

/-- A stored block: its length, the complement of its length, its bytes. It begins with a whole
byte. -/
def storedBlock (limit : Nat) (output : Array UInt8) (bits : Bits) :
    Except Failure (Array UInt8 × Bits) := do
  let within := isWithin limit output
  let (length, bits) ← bits.word within
  let (complement, bits) ← bits.word within
  if length + complement = 65535 then storedBytes limit length output bits
  else .error .broken

/-- The order in which the lengths of the code for code lengths are written. -/
def lengthOrder : List Nat := [16, 17, 18, 0, 8, 7, 9, 6, 10, 5, 11, 4, 12, 3, 13, 2, 14, 1, 15]

/-- Numbers of three bits, `n` of them. -/
def triples (within : Bool) : Nat → Bits → Except Failure (List Nat × Bits)
  | 0, bits => .ok ([], bits)
  | n + 1, bits => do
    let (x, bits) ← bits.number within 3
    let (xs, bits) ← triples within n bits
    return (x :: xs, bits)

/-- What a symbol of the code for code lengths adds to the lengths so far, which are newest first:
itself, or a repetition whose number is still to be read. -/
def lengthsOf (within : Bool) (symbol : Nat) (read : List Nat) (bits : Bits) :
    Except Failure (List Nat × Bits) :=
  let repeated (value width least : Nat) : Except Failure (List Nat × Bits) := do
    let (more, bits) ← bits.number within width
    return (List.replicate (least + more) value, bits)
  if symbol < 16 then .ok ([symbol], bits)
  else if symbol = 16 then
    match read with
    | [] => .error .broken
    | last :: _ => repeated last 2 3
  else if symbol = 17 then repeated 0 3 3
  else repeated 0 7 11

/-- Code lengths, newest first, until there are `wanted`; a repetition may not run past that. -/
def codeLengths (within : Bool) (code : Code) (wanted : Nat) : Nat → List Nat → Bits →
    Except Failure (List Nat × Bits)
  | 0, _, _ => .error .broken
  | count + 1, read, bits =>
    if read.length = wanted then .ok (read.reverse, bits)
    else if wanted < read.length then .error .broken
    else
      match code.read within bits with
      | .error e => .error e
      | .ok (s, bits) =>
        match lengthsOf within s read bits with
        | .error e => .error e
        | .ok (lengths, bits) => codeLengths within code wanted count (lengths ++ read) bits

def ownCodes (within : Bool) (bits : Bits) : Except Failure (Codes × Bits) := do
  let (literals, bits) ← bits.number within 5
  let (distances, bits) ← bits.number within 5
  let (listed, bits) ← bits.number within 4
  let literals := literals + 257
  let distances := distances + 1
  if 286 < literals ∨ 30 < distances then .error .broken
  else
    let (lengths, bits) ← triples within (listed + 4) bits
    let assigned := lengthOrder.zip lengths
    let code := Code.ofLengths ((List.range 19).map fun s => (assigned.lookup s).getD 0)
    if !code.isComplete then .error .broken
    else
      let wanted := literals + distances
      let (lengths, bits) ← codeLengths within code wanted (wanted + 1) [] bits
      let codes : Codes :=
        ⟨.ofLengths (lengths.take literals), .ofLengths (lengths.drop literals)⟩
      if codes.literals.isUsable && codes.distances.isUsable then .ok (codes, bits)
      else .error .broken

/-- One block; the result says first whether it was the last. -/
def block (limit : Nat) (output : Array UInt8) (bits : Bits) :
    Except Failure (Bool × Array UInt8 × Bits) := do
  let within := isWithin limit output
  let (last, bits) ← bits.next within
  let (kind, bits) ← bits.number within 2
  let (output, bits) ←
    match kind with
    | 0 => storedBlock limit output bits
    | 1 => symbols limit .fixed (bits.count + 1) output bits
    | 2 => do
      let (codes, bits) ← ownCodes within bits
      symbols limit codes (bits.count + 1) output bits
    | _ => .error .broken
  return (last, output, bits)

/-- Blocks up to the last, at most `count`. -/
def blocks (limit : Nat) : Nat → Array UInt8 → Bits → Except Failure (Array UInt8 × Bytes)
  | 0, _, _ => .error .broken
  | count + 1, output, bits =>
    match block limit output bits with
    | .error e => .error e
    | .ok (true, output, bits) => .ok (output, bits.rest)
    | .ok (false, output, bits) => blocks limit count output bits

/-- Decompresses; gives the content and the bytes after the data. Content past the limit is not
always noticed here, but if the data go on it is. -/
def inflate (limit : Nat) (bits : Bits) : Except Failure (Array UInt8 × Bytes) :=
  blocks limit (bits.count + 1) #[] bits

end SessionRelay.Gzip
