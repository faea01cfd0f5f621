import SessionRelay.Json.Value
import SessionRelay.Number.Integer
import SessionRelay.Number.Shortest
import SessionRelay.Text.Hex

/-!
Values as compact JSON text. Only quotes, backslashes and control characters are escaped. A double
has the fewest digits that read back and always a point or an exponent.
-/

namespace SessionRelay.Json

def escapeChar (c : Char) : List Char :=
  if c = '\x22' then ['\\', '\x22']
  else if c = '\\' then ['\\', '\\']
  else if c = '\x08' then ['\\', 'b']
  else if c = '\x0c' then ['\\', 'f']
  else if c = '\n' then ['\\', 'n']
  else if c = '\r' then ['\\', 'r']
  else if c = '\t' then ['\\', 't']
  else if c.toNat < 0x20 then ['\\', 'u'] ++ Hex.fixed 4 c.toNat
  else [c]

def stringChars (s : String) : List Char :=
  '\x22' :: s.toList.flatMap escapeChar ++ ['\x22']

/-- Digits with a point after the first `before` of them, or with leading zeros if it is not
positive; at least one digit stands on each side. -/
def pointed (digits : List Char) (before : Int) : List Char :=
  if before ≤ 0 then '0' :: '.' :: List.replicate (-before).toNat '0' ++ digits
  else
    let n := before.toNat
    if digits.length ≤ n then digits ++ List.replicate (n - digits.length) '0' ++ ['.', '0']
    else digits.take n ++ '.' :: digits.drop n

/-- Digits with an exponent: one digit before the point, and no point after a lone digit. -/
def exponential (digits : List Char) (leading : Int) : List Char :=
  let mantissa :=
    match digits with
    | [] => []
    | [d] => [d]
    | d :: rest => d :: '.' :: rest
  let sign := if leading < 0 then '-' else '+'
  mantissa ++ 'e' :: sign :: Integer.digits leading.natAbs

/-- A double: positional if the power of ten of its first digit is from -5 to 15. -/
def doubleChars (x : Binary64) : List Char :=
  let sign := if x.isNegative then ['-'] else []
  if x.isZero then sign ++ ['0', '.', '0']
  else
    let d := Shortest.decimal .toEven x
    let digits := Integer.digits d.digits
    if -5 ≤ d.leading ∧ d.leading ≤ 15 then sign ++ pointed digits (d.leading + 1)
    else sign ++ exponential digits d.leading

def numberChars : Number → List Char
  | .integer n => (Integer.text n).toList
  | .double x => if x.isFinite then doubleChars x else ['n', 'u', 'l', 'l']

mutual

def Value.chars : Value → List Char
  | .null => ['n', 'u', 'l', 'l']
  | .bool true => ['t', 'r', 'u', 'e']
  | .bool false => ['f', 'a', 'l', 's', 'e']
  | .number n => numberChars n
  | .string s => stringChars s
  | .array [] => ['[', ']']
  | .array (v :: rest) => '[' :: v.chars ++ Value.itemsChars rest
  | .object [] => ['\x7b', '\x7d']
  | .object ((key, v) :: rest) =>
    '\x7b' :: stringChars key ++ ':' :: v.chars ++ Value.membersChars rest

/-- The items after the first, and the closing bracket. -/
def Value.itemsChars : List Value → List Char
  | [] => [']']
  | v :: rest => ',' :: v.chars ++ Value.itemsChars rest

/-- The members after the first, and the closing brace. -/
def Value.membersChars : List (String × Value) → List Char
  | [] => ['\x7d']
  | (key, v) :: rest => ',' :: stringChars key ++ ':' :: v.chars ++ Value.membersChars rest

end

def Value.text (v : Value) : String := String.ofList v.chars

def Value.bytes (v : Value) : Bytes := Utf8.encode v.text

/-- A double as text. -/
def doubleText (x : Binary64) : String := String.ofList (doubleChars x)

end SessionRelay.Json
