import SessionRelay.Text.Hex
import SessionRelay.Text.Split
import SessionRelay.Number.Integer
import SessionRelay.Xml.Character

/-!
Character data: references and line ends. A reference stands for its character as it is; a line end
that stands in the text itself is read as a line feed.
-/

namespace SessionRelay.Xml

/-- The number that hexadecimal digits write, at least one. -/
def hexNumber? (cs : List Char) : Option Nat :=
  if cs.isEmpty then none
  else
    let digits := cs.map Hex.value?
    if digits.all Option.isSome then some ((digits.filterMap id).foldl (fun n d => n * 16 + d) 0)
    else none

/-- The character of a code point. A number of 32 bits that is no code point gives the replacement
character; what may not stand in a document gives none. -/
def charOf? (n : Nat) : Option Char :=
  if 0x100000000 ≤ n then none
  else
    let c := if n.isValidChar then Char.ofNat n else '\uFFFD'
    if isChar c then some c else none

/-- The character that a reference stands for, by the text between `&` and `;`. -/
def reference? : List Char → Option Char
  | '#' :: 'x' :: digits => (hexNumber? digits).bind charOf?
  | '#' :: digits => (Integer.readDigits? digits).bind charOf?
  | name =>
    match String.ofList name with
    | "amp" => some '&'
    | "lt" => some '<'
    | "gt" => some '>'
    | "quot" => some '\x22'
    | "apos" => some '\x27'
    | _ => none

/-- A character of a text, and whether a reference stands for it. -/
structure Mark where
  char : Char
  referred : Bool
  deriving DecidableEq, Repr

/-- Resolves references. `pending` holds the text since an ampersand, newest first. -/
def resolve? : Option (List Char) → List Char → Option (List Mark)
  | none, [] => some []
  | some _, [] => none
  | none, c :: rest =>
    if c = '&' then resolve? (some []) rest
    else (resolve? none rest).map (⟨c, false⟩ :: ·)
  | some pending, c :: rest =>
    if c = ';' then
      match reference? pending.reverse with
      | some r => (resolve? none rest).map (⟨r, true⟩ :: ·)
      | none => none
    else resolve? (some (c :: pending)) rest

/-- Reads line ends. `read` is newest first; a carriage return at its front becomes a line feed when
the next character of the text comes, unless a reference has come in between. The character after a
reference is taken as it is. -/
def lineEnds : List Char → Bool → List Mark → List Char
  | read, _, [] => read.reverse
  | read, asIs, m :: rest =>
    if m.referred then lineEnds (m.char :: read) true rest
    else if asIs then lineEnds (m.char :: read) false rest
    else
      let last := rest.isEmpty && m.char == '\r'
      match read with
      | '\r' :: before =>
        if last then lineEnds ('\n' :: '\n' :: before) false rest
        else if m.char = '\n' then lineEnds ('\n' :: before) false rest
        else lineEnds (m.char :: '\n' :: before) false rest
      | _ => lineEnds ((if last then '\n' else m.char) :: read) false rest

/-- The text that character data write. -/
def textOf? (raw : List Char) : Option (List Char) :=
  (resolve? none raw).map (lineEnds [] false)

/-- The text of a section without references. -/
def sectionText (raw : List Char) : List Char :=
  lineEnds [] false (raw.map fun c => ⟨c, false⟩)

/-- White space that stands in the text of an attribute is read as spaces, a line end of two
characters as one. What references stand for is taken as it is. -/
def spaced : List Mark → List Char
  | [] => []
  | m :: rest =>
    if m.referred then m.char :: spaced rest
    else if m.char = '\r' ∧ rest.head? = some ⟨'\n', false⟩ then spaced rest
    else if isSpace m.char then ' ' :: spaced rest
    else m.char :: spaced rest

/-- The value that the text of an attribute writes. -/
def attributeText? (raw : List Char) : Option (List Char) :=
  (resolve? none raw).map spaced

end SessionRelay.Xml
