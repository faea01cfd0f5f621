import SessionRelay.Gzip.Bits

/-!
Canonical prefix codes. A code is given by the length of each symbol's code word; of one length the
words are in the order of their symbols, and shorter words come first.
-/

namespace SessionRelay.Gzip

/-- The longest code word. -/
def maxWord : Nat := 15

/-- A code: for each length from one to the longest, the symbols with a word of that length. -/
structure Code where
  byLength : List (List Nat)
  deriving DecidableEq, Repr

namespace Code

/-- The symbols with a word of the given length, in order. -/
def symbolsOf (lengths : List Nat) (length : Nat) : List Nat :=
  lengths.zipIdx.filterMap fun (l, symbol) => if l = length then some symbol else none

/-- The code for the lengths of all symbols; a length of zero stands for no word. -/
def ofLengths (lengths : List Nat) : Code :=
  ⟨(List.range (max 1 (lengths.foldl max 0))).map fun i => symbolsOf lengths (i + 1)⟩

/-- How much of the space of words the code uses, in words of the greatest length. -/
def used (c : Code) : Nat :=
  c.byLength.zipIdx.foldr (fun (symbols, i) n => symbols.length <<< (maxWord - 1 - i) + n) 0

/-- How many symbols have a word. -/
def size (c : Code) : Nat := c.byLength.flatten.length

/-- Does every sequence of bits begin with exactly one word? -/
def isComplete (c : Code) : Bool := c.used == 1 <<< maxWord

/-- May the code be used? It is complete, or it has at most one symbol, whose word is one bit. -/
def isUsable (c : Code) : Bool := c.isComplete || (c.size ≤ 1 && c.byLength.length ≤ 1)

/-- Reads a word bit by bit. `first` is the first word of the length that comes next and `word` the
bits so far, both as numbers. Bits as long as the longest word that are no word mean nothing. -/
def readFrom (within : Bool) (first word : Nat) : List (List Nat) → Bits →
    Except Failure (Nat × Bits)
  | [], _ => .error .broken
  | symbols :: longer, bits =>
    match bits.next within with
    | .error e => .error e
    | .ok (bit, bits) =>
      let first := 2 * first
      let word := 2 * word + bit.toNat
      match symbols[word - first]? with
      | some s => .ok (s, bits)
      | none => readFrom within (first + symbols.length) word longer bits

/-- The symbol whose word comes next. -/
def read (c : Code) (within : Bool) (bits : Bits) : Except Failure (Nat × Bits) :=
  readFrom within 0 0 c.byLength bits

end Code

end SessionRelay.Gzip
