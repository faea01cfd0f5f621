import SessionRelay.Json.Numeral
import SessionRelay.Text.Hex

/-!
The tokens of JSON text. The scanner takes one byte at a time. It settles everything that can be
told from the bytes alone; whether the content of a string is text, and whether a number is in
range, is for the reader to ask, since it asks only for values that it keeps. The first byte that
fits nowhere ends the token list with `junk`.
-/

namespace SessionRelay.Json

/-- A part of a string as written: a byte, or a UTF-16 unit from a numeric escape. -/
inductive Piece where
  | byte (b : UInt8)
  | unit (u : Nat)
  deriving DecidableEq, Repr

inductive Token where
  | openObject
  | closeObject
  | openArray
  | closeArray
  | comma
  | colon
  | null
  | bool (b : Bool)
  | number (n : Numeral)
  | string (pieces : List Piece)
  | junk
  deriving DecidableEq, Repr

/-- How far a numeral has come. Digits are kept newest first until it ends. -/
inductive Numeral.Stage where
  | sign
  | zero
  | whole
  | point
  | fraction
  | letter
  | exponentSign
  | exponent
  deriving DecidableEq, Repr

/-- Where the scanner stands. -/
inductive Scanner.Mode where
  | between
  | word (rest : Bytes) (token : Token)
  | string (read : List Piece)
  | escape (read : List Piece)
  | unit (read : List Piece) (owed : Nat) (value : Nat)
  | number (n : Numeral) (stage : Numeral.Stage)
  | dead
  deriving DecidableEq, Repr

/-- The scanner's place and the tokens so far, newest first. -/
structure Scanner where
  mode : Scanner.Mode
  tokens : List Token
  deriving DecidableEq, Repr

namespace Scanner

def start : Scanner := ⟨.between, []⟩

def fail (tokens : List Token) : Scanner := ⟨.dead, .junk :: tokens⟩

def digit? (b : UInt8) : Option Nat :=
  if 48 ≤ b ∧ b ≤ 57 then some (b.toNat - 48) else none

/-- A byte outside any token. -/
def outside (tokens : List Token) (b : UInt8) : Scanner :=
  match Char.ofNat b.toNat with
  | ' ' => ⟨.between, tokens⟩
  | '\n' => ⟨.between, tokens⟩
  | '\t' => ⟨.between, tokens⟩
  | '\r' => ⟨.between, tokens⟩
  | '\x7b' => ⟨.between, .openObject :: tokens⟩
  | '\x7d' => ⟨.between, .closeObject :: tokens⟩
  | '[' => ⟨.between, .openArray :: tokens⟩
  | ']' => ⟨.between, .closeArray :: tokens⟩
  | ',' => ⟨.between, .comma :: tokens⟩
  | ':' => ⟨.between, .colon :: tokens⟩
  | '\x22' => ⟨.string [], tokens⟩
  | 't' => ⟨.word [114, 117, 101] (.bool true), tokens⟩
  | 'f' => ⟨.word [97, 108, 115, 101] (.bool false), tokens⟩
  | 'n' => ⟨.word [117, 108, 108] .null, tokens⟩
  | '-' => ⟨.number ⟨true, [], [], none⟩ .sign, tokens⟩
  | '0' => ⟨.number ⟨false, [0], [], none⟩ .zero, tokens⟩
  | _ =>
    match digit? b with
    | some d => ⟨.number ⟨false, [d], [], none⟩ .whole, tokens⟩
    | none => fail tokens

/-- The byte that an escape letter stands for. -/
def escaped? (b : UInt8) : Option UInt8 :=
  match Char.ofNat b.toNat with
  | '\x22' => some 0x22
  | '\\' => some 0x5C
  | '/' => some 0x2F
  | 'b' => some 0x08
  | 'f' => some 0x0C
  | 'n' => some 0x0A
  | 'r' => some 0x0D
  | 't' => some 0x09
  | _ => none

/-- Puts the digits of a numeral in the order of reading. -/
def closed (n : Numeral) : Token :=
  .number {
    n with
    whole := n.whole.reverse
    fraction := n.fraction.reverse
    exponent := n.exponent.map fun e => { e with digits := e.digits.reverse } }

/-- May a numeral end at this stage? -/
def mayEnd : Numeral.Stage → Bool
  | .zero | .whole | .fraction | .exponent => true
  | _ => false

/-- A digit within a numeral; the scanner fails where none may stand. -/
def digit (tokens : List Token) (n : Numeral) (stage : Numeral.Stage) (d : Nat) : Scanner :=
  let inExponent : Scanner :=
    let e := n.exponent.getD ⟨false, []⟩
    ⟨.number { n with exponent := some { e with digits := d :: e.digits } } .exponent, tokens⟩
  match stage with
  | .sign => ⟨.number { n with whole := [d] } (if d = 0 then .zero else .whole), tokens⟩
  | .zero => fail tokens
  | .whole => ⟨.number { n with whole := d :: n.whole } .whole, tokens⟩
  | .point => ⟨.number { n with fraction := [d] } .fraction, tokens⟩
  | .fraction => ⟨.number { n with fraction := d :: n.fraction } .fraction, tokens⟩
  | .letter => inExponent
  | .exponentSign => inExponent
  | .exponent => inExponent

/-- A byte within a numeral. One that cannot continue it ends it, if it may end there. -/
def numeral (tokens : List Token) (n : Numeral) (stage : Numeral.Stage) (b : UInt8) : Scanner :=
  match digit? b with
  | some d => digit tokens n stage d
  | none =>
    let c := Char.ofNat b.toNat
    if c = '.' ∧ (stage = .zero ∨ stage = .whole) then ⟨.number n .point, tokens⟩
    else if (c = 'e' ∨ c = 'E') ∧ (stage = .zero ∨ stage = .whole ∨ stage = .fraction) then
      ⟨.number { n with exponent := some ⟨false, []⟩ } .letter, tokens⟩
    else if (c = '+' ∨ c = '-') ∧ stage = .letter then
      ⟨.number { n with exponent := some ⟨c = '-', []⟩ } .exponentSign, tokens⟩
    else if mayEnd stage then outside (closed n :: tokens) b
    else fail tokens

def step (s : Scanner) (b : UInt8) : Scanner :=
  match s.mode with
  | .between => outside s.tokens b
  | .word [] token => outside (token :: s.tokens) b
  | .word [last] token => if b = last then ⟨.between, token :: s.tokens⟩ else fail s.tokens
  | .word (next :: rest) token =>
    if b = next then ⟨.word rest token, s.tokens⟩ else fail s.tokens
  | .string read =>
    if b = 0x22 then ⟨.between, .string read.reverse :: s.tokens⟩
    else if b = 0x5C then ⟨.escape read, s.tokens⟩
    else if b < 0x20 then fail s.tokens
    else ⟨.string (.byte b :: read), s.tokens⟩
  | .escape read =>
    if b = 0x75 then ⟨.unit read 4 0, s.tokens⟩
    else
      match escaped? b with
      | some e => ⟨.string (.byte e :: read), s.tokens⟩
      | none => fail s.tokens
  | .unit read owed value =>
    match Hex.value? (Char.ofNat b.toNat) with
    | none => fail s.tokens
    | some d =>
      let value := value * 16 + d
      if owed ≤ 1 then ⟨.string (.unit value :: read), s.tokens⟩
      else ⟨.unit read (owed - 1) value, s.tokens⟩
  | .number n stage => numeral s.tokens n stage b
  | .dead => s

/-- The tokens in order. What is left unfinished at the end is junk. -/
def finish (s : Scanner) : List Token :=
  match s.mode with
  | .between => s.tokens.reverse
  | .dead => s.tokens.reverse
  | .number n stage =>
    if mayEnd stage then (closed n :: s.tokens).reverse else (.junk :: s.tokens).reverse
  | _ => (.junk :: s.tokens).reverse

end Scanner

/-- The tokens of JSON text. -/
def Token.scan (bytes : Bytes) : List Token :=
  (bytes.foldl Scanner.step Scanner.start).finish

/-- The bytes of a string: numeric escapes become characters, two surrogates one character. None if
a surrogate stands alone. -/
def Piece.bytes? : List Piece → Option Bytes
  | [] => some []
  | .byte b :: rest => (bytes? rest).map (b :: ·)
  | .unit u :: rest =>
    if u < 0xD800 ∨ 0xDFFF < u then
      (bytes? rest).map (String.utf8EncodeChar (Char.ofNat u) ++ ·)
    else if 0xDBFF < u then none
    else
      match rest with
      | .unit low :: rest =>
        if 0xDC00 ≤ low ∧ low ≤ 0xDFFF then
          let c := Char.ofNat (0x10000 + (u - 0xD800) * 0x400 + (low - 0xDC00))
          (bytes? rest).map (String.utf8EncodeChar c ++ ·)
        else none
      | _ => none

/-- The text of a string, if it is well-formed. -/
def Piece.text? (pieces : List Piece) : Option String :=
  (bytes? pieces).bind Utf8.decode?

end SessionRelay.Json
