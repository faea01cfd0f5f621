import SessionRelay.Text.Hex
import SessionRelay.Text.Split

/-!
White space, comments and quoted text in TOML. A scan takes what it looks for from the front of a
text and leaves the rest; none if it is not there.
-/

namespace SessionRelay.Toml

/-- Takes something from the front of a text. -/
abbrev Scan (α : Type) := List Char → Option (α × List Char)

namespace Scan

def isSpace (c : Char) : Bool := c == ' ' || c == '\t'

def skipSpace (cs : List Char) : List Char := cs.dropWhile isSpace

def lineEnd? : List Char → Option (List Char)
  | '\n' :: rest => some rest
  | '\r' :: '\n' :: rest => some rest
  | _ => none

/-- A character past ASCII, or an ASCII character that is no control; a tab is none here. -/
def isShown (c : Char) : Bool := 0x20 ≤ c.toNat && c.toNat != 0x7F

/-- A character that may stand in a comment or in text on one line. -/
def isPlain (c : Char) : Bool := isShown c || c == '\t'

/-- The text after a comment, if one begins here. -/
def skipComment : List Char → List Char
  | '#' :: rest => rest.dropWhile isPlain
  | cs => cs

/-- The text after the end of a statement: spaces, a comment, and a line end or nothing more. -/
def statementEnd? (cs : List Char) : Option (List Char) :=
  match skipComment (skipSpace cs) with
  | [] => some []
  | rest => lineEnd? rest

/-- The text after spaces, comments and line ends, at most `count` lines. -/
def skipLines : Nat → List Char → List Char
  | 0, cs => cs
  | count + 1, cs =>
    let rest := skipComment (skipSpace cs)
    match lineEnd? rest with
    | some rest => skipLines count rest
    | none => rest

/-- The character that `n` hexadecimal digits write. -/
def codePoint? (n : Nat) : Scan Char := fun cs =>
  let digits := (cs.take n).map Hex.value?
  if digits.length = n ∧ digits.all Option.isSome then
    let value := (digits.filterMap id).foldl (fun v d => v * 16 + d) 0
    if value.isValidChar then some (Char.ofNat value, cs.drop n) else none
  else none

/-- The character of an escape, after its backslash. -/
def escape? : Scan Char
  | 'b' :: rest => some ('\x08', rest)
  | 't' :: rest => some ('\t', rest)
  | 'n' :: rest => some ('\n', rest)
  | 'f' :: rest => some ('\x0c', rest)
  | 'r' :: rest => some ('\r', rest)
  | '\x22' :: rest => some ('\x22', rest)
  | '\\' :: rest => some ('\\', rest)
  | 'u' :: rest => codePoint? 4 rest
  | 'U' :: rest => codePoint? 8 rest
  | _ => none

/-- Text on one line up to a double quote, at most `count` characters. -/
def basicFrom : Nat → Scan (List Char)
  | 0, _ => none
  | count + 1, cs =>
    match cs with
    | [] => none
    | '\x22' :: rest => some ([], rest)
    | '\\' :: rest =>
      match escape? rest with
      | some (c, rest) => (basicFrom count rest).map fun (text, rest) => (c :: text, rest)
      | none => none
    | c :: rest =>
      if isPlain c then (basicFrom count rest).map fun (text, rest) => (c :: text, rest) else none

/-- Text on one line up to a single quote, as it stands. -/
def literal? (cs : List Char) : Option (List Char × List Char) :=
  match Text.cut? ['\x27'] cs with
  | some (text, rest) => if text.all isPlain then some (text, rest) else none
  | none => none

/-- The text after spaces, tabs and line ends. -/
def skipBlank : List Char → List Char
  | '\r' :: '\n' :: rest => skipBlank rest
  | c :: rest => if isSpace c || c == '\n' then skipBlank rest else c :: rest
  | [] => []

/-- The text after a line break that follows a backslash, and after all blank lines then. -/
def foldedLine? (cs : List Char) : Option (List Char) :=
  (lineEnd? (skipSpace cs)).map skipBlank

/-- The end of text over several lines at a run of its quotes: up to two of them belong to the text.
None if the run does not end it. -/
def closing? (quote : Char) (cs : List Char) : Option (List Char × List Char) :=
  let run := cs.takeWhile (· == quote)
  if run.length < 3 then none
  else
    let own := min (run.length - 3) 2
    some (run.take own, cs.drop (own + 3))

/-- Text over several lines up to three quotes, at most `count` parts. Escapes count in text within
double quotes only; a line end is one line feed. -/
def blockFrom (quote : Char) : Nat → Scan (List Char)
  | 0, _ => none
  | count + 1, cs =>
    match closing? quote cs with
    | some result => some result
    | none =>
      match lineEnd? cs with
      | some rest => (blockFrom quote count rest).map fun (text, rest) => ('\n' :: text, rest)
      | none =>
        match cs with
        | [] => none
        | c :: rest =>
          if c = '\\' ∧ quote = '\x22' then
            match escape? rest with
            | some (e, rest) =>
              (blockFrom quote count rest).map fun (text, rest) => (e :: text, rest)
            | none => (foldedLine? rest).bind (blockFrom quote count)
          else if isPlain c then
            (blockFrom quote count rest).map fun (text, rest) => (c :: text, rest)
          else none

/-- Text over several lines after its three quotes; a line end right there does not count. -/
def block? (quote : Char) (cs : List Char) : Option (List Char × List Char) :=
  let cs := (lineEnd? cs).getD cs
  blockFrom quote (cs.length + 1) cs

/-- Text in quotes on one line. -/
def line? : Scan (List Char)
  | '\x22' :: rest => basicFrom (rest.length + 1) rest
  | '\x27' :: rest => literal? rest
  | _ => none

/-- Text in quotes of any kind. -/
def quoted? : Scan (List Char)
  | '\x22' :: '\x22' :: '\x22' :: rest => block? '\x22' rest
  | '\x27' :: '\x27' :: '\x27' :: rest => block? '\x27' rest
  | cs => line? cs

end Scan

end SessionRelay.Toml
