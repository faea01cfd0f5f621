import SessionRelay.Toml.Scan
import SessionRelay.Toml.Value

/-!
Numbers, dates and words in TOML.
-/

namespace SessionRelay.Toml.Scan

/-- Digits with single underscores between them, which are dropped; `afterDigit` if a digit stands
before the text. -/
def digits (isDigit : Char → Bool) (afterDigit : Bool) : List Char → List Char × List Char
  | [] => ([], [])
  | c :: rest =>
    if isDigit c then
      let (ds, rest) := digits isDigit true rest
      (c :: ds, rest)
    else if afterDigit && c == '_' && rest.head?.any isDigit then digits isDigit false rest
    else ([], c :: rest)

def digits? (isDigit : Char → Bool) : Scan (List Char) := fun cs =>
  match digits isDigit false cs with
  | ([], _) => none
  | result => some result

/-- An optional sign, which is kept. -/
def sign : List Char → List Char × List Char
  | '+' :: rest => (['+'], rest)
  | '-' :: rest => (['-'], rest)
  | cs => ([], cs)

/-- A decimal whole number as its characters: a zero alone, or digits that do not begin with one. -/
def decimal? : Scan (List Char) := fun cs =>
  let (sign, rest) := sign cs
  match rest with
  | '0' :: rest => some (sign ++ ['0'], rest)
  | _ => (digits? Char.isDigit rest).map fun (ds, rest) => (sign ++ ds, rest)

/-- The greatest whole number with a sign of 64 bits. -/
def fits (n : Int) : Bool := Integer.minSigned ≤ n && n ≤ Integer.maxSigned

/-- Digits to a base, after the mark of the base. -/
def based? (base : Nat) : Scan Value := fun cs =>
  let isDigit (c : Char) := (Hex.value? c).any (· < base)
  match digits? isDigit cs with
  | some (ds, rest) =>
    let n := (ds.filterMap Hex.value?).foldl (fun n d => n * base + d) 0
    if fits n then some (.integer n, rest) else none
  | none => none

def integer? : Scan Value
  | '0' :: 'x' :: rest => based? 16 rest
  | '0' :: 'o' :: rest => based? 8 rest
  | '0' :: 'b' :: rest => based? 2 rest
  | cs =>
    match decimal? cs with
    | some (text, rest) =>
      match Integer.readInt? text with
      | some n => if fits n then some (.integer n, rest) else none
      | none => none
    | none => none

/-- An exponent as its characters. -/
def exponent? : Scan (List Char)
  | c :: rest =>
    if c = 'e' ∨ c = 'E' then
      let (sign, rest) := sign rest
      (digits? Char.isDigit rest).map fun (ds, rest) => ('e' :: sign ++ ds, rest)
    else none
  | [] => none

/-- What follows the whole part of a float: a fraction, an exponent, or both. -/
def afterWhole? : Scan (List Char)
  | '.' :: rest =>
    match digits? Char.isDigit rest with
    | none => none
    | some (ds, rest) =>
      match exponent? rest with
      | some (e, rest) => some ('.' :: ds ++ e, rest)
      | none => some ('.' :: ds, rest)
  | cs => exponent? cs

/-- Infinity or NaN, with an optional sign. -/
def special? : Scan Value := fun cs =>
  let (sign, rest) := sign cs
  let negative := sign == ['-']
  match rest with
  | 'i' :: 'n' :: 'f' :: rest => some (.float (Binary64.infinity negative), rest)
  | 'n' :: 'a' :: 'n' :: rest =>
    some (.float (if negative then Binary64.neg Binary64.nan else Binary64.nan), rest)
  | _ => none

/-- A float. One past the greatest is none, except below zero, where it is infinite. -/
def float? : Scan Value := fun cs =>
  match decimal? cs with
  | some (whole, rest) =>
    match afterWhole? rest with
    | some (more, rest) =>
      match Binary64.read? (whole ++ more) with
      | some x => if x = Binary64.infinity false then none else some (.float x, rest)
      | none => none
    | none => none
  | none => special? cs

/-- A number of exactly `n` digits, within bounds. -/
def fixed? (n low high : Nat) : Scan (List Char) := fun cs =>
  let ds := cs.take n
  match Integer.readDigits? ds with
  | some value =>
    if ds.length = n ∧ low ≤ value ∧ value ≤ high then some (ds, cs.drop n) else none
  | none => none

def char? (c : Char) : Scan Unit
  | d :: rest => if c = d then some ((), rest) else none
  | [] => none

def daysIn (year month : Nat) : Nat :=
  if month = 2 then
    if year % 4 = 0 ∧ (year % 100 ≠ 0 ∨ year % 400 = 0) then 29 else 28
  else if month = 4 ∨ month = 6 ∨ month = 9 ∨ month = 11 then 30
  else 31

def valueOf (ds : List Char) : Nat := (Integer.readDigits? ds).getD 0

def date? : Scan (List Char) := fun cs => do
  let (year, cs) ← fixed? 4 0 9999 cs
  let ((), cs) ← char? '-' cs
  let (month, cs) ← fixed? 2 1 12 cs
  let ((), cs) ← char? '-' cs
  let (day, cs) ← fixed? 2 1 (daysIn (valueOf year) (valueOf month)) cs
  return (year ++ '-' :: month ++ '-' :: day, cs)

/-- A fraction of a second as its text, to the nanosecond and without zeros at the end. -/
def secondFraction : List Char → Option (List Char × List Char)
  | '.' :: rest =>
    let ds := rest.takeWhile Char.isDigit
    if ds.isEmpty then none
    else
      let kept := ((ds.take 9).reverse.dropWhile (· == '0')).reverse
      some (if kept.isEmpty then [] else '.' :: kept, rest.dropWhile Char.isDigit)
  | cs => some ([], cs)

def time? : Scan (List Char) := fun cs => do
  let (hour, cs) ← fixed? 2 0 23 cs
  let ((), cs) ← char? ':' cs
  let (minute, cs) ← fixed? 2 0 59 cs
  let ((), cs) ← char? ':' cs
  let (second, cs) ← fixed? 2 0 60 cs
  let (fraction, cs) ← secondFraction cs
  return (hour ++ ':' :: minute ++ ':' :: second ++ fraction, cs)

/-- The distance from universal time as its text, empty if there is none. No distance at all counts
as one to the east. -/
def offset (cs : List Char) : List Char × List Char :=
  match cs with
  | 'Z' :: rest => (['Z'], rest)
  | 'z' :: rest => (['Z'], rest)
  | _ =>
    match sign cs with
    | ([], _) => ([], cs)
    | (sign, rest) =>
      let numbers : Option (List Char × List Char) := do
        let (hour, rest) ← fixed? 2 0 23 rest
        let ((), rest) ← char? ':' rest
        let (minute, rest) ← fixed? 2 0 59 rest
        let sign := if valueOf hour + valueOf minute = 0 then ['+'] else sign
        return (sign ++ hour ++ ':' :: minute, rest)
      numbers.getD ([], cs)

/-- A date with a time or alone, or a time alone. -/
def datetime? : Scan Value := fun cs =>
  match date? cs with
  | none => (time? cs).map fun (text, rest) => (.datetime (String.ofList text), rest)
  | some (date, rest) =>
    let alone := some (Value.datetime (String.ofList date), rest)
    match rest with
    | c :: after =>
      if c = 'T' ∨ c = 't' ∨ c = ' ' then
        match time? after with
        | some (time, rest) =>
          let (offset, rest) := offset rest
          some (.datetime (String.ofList (date ++ 'T' :: time ++ offset)), rest)
        | none => alone
      else alone
    | [] => alone

/-- A value that is no array and no table. -/
def scalar? : Scan Value := fun cs =>
  match cs with
  | 't' :: 'r' :: 'u' :: 'e' :: rest => some (.boolean true, rest)
  | 'f' :: 'a' :: 'l' :: 's' :: 'e' :: rest => some (.boolean false, rest)
  | c :: _ =>
    if c = '\x22' ∨ c = '\x27' then
      (quoted? cs).map fun (text, rest) => (.string (String.ofList text), rest)
    else if c = 'i' ∨ c = 'n' then special? cs
    else ((datetime? cs).orElse fun _ => float? cs).orElse fun _ => integer? cs
  | [] => none

end SessionRelay.Toml.Scan
