import SessionRelay.Toml.Scalar
import SessionRelay.Toml.Tree

/-!
TOML documents: statements line by line, and the table that they fill. A table that begins with the
key for date-times is read as the date-time that it spells.
-/

namespace SessionRelay.Toml

/-- How deep values may nest and how many parts a name may have, exclusive. -/
def maxDepth : Nat := 80

namespace Scan

def isBare (c : Char) : Bool := c.isAlphanum || c == '_' || c == '-'

/-- One part of a name. -/
def keyPart? : Scan String := fun cs =>
  match cs with
  | [] => none
  | c :: _ =>
    if c = '\x22' ∨ c = '\x27' then
      (line? cs).map fun (text, rest) => (String.ofList text, rest)
    else if isBare c then some (String.ofList (cs.takeWhile isBare), cs.dropWhile isBare)
    else none

/-- The parts of a name, with points between them and space around each; at most `count`. -/
def keyParts? : Nat → Scan (List String)
  | 0, _ => none
  | count + 1, cs =>
    match keyPart? (skipSpace cs) with
    | none => none
    | some (part, rest) =>
      match skipSpace rest with
      | '.' :: rest => (keyParts? count rest).map fun (parts, rest) => (part :: parts, rest)
      | rest => some ([part], rest)

/-- A name: its last part, and the path before it. -/
def key? : Scan (List String × String) := fun cs =>
  match keyParts? (maxDepth - 1) cs with
  | some (parts, rest) => parts.getLast?.map fun last => ((parts.dropLast, last), rest)
  | none => none

mutual

/-- A value, within `depth` further levels; `count` bounds the steps. -/
def value? : Nat → Nat → Scan Value
  | 0, _, _ => none
  | count + 1, depth, cs =>
    match cs, depth with
    | '[' :: _, 0 => none
    | '\x7b' :: _, 0 => none
    | '[' :: rest, depth + 1 =>
      (items? count depth (skipLines rest.length rest)).map fun (items, rest) =>
        (.array items, rest)
    | '\x7b' :: rest, depth + 1 =>
      match skipSpace rest with
      | '\x7d' :: rest => some (.table [], rest)
      | rest =>
        (entries? count depth [] rest).map fun (entries, rest) =>
          (.table (Tree.entriesToValue entries), rest)
    | cs, _ => scalar? cs

/-- The items of an array up to its bracket; a comma may follow the last. -/
def items? : Nat → Nat → Scan (List Value)
  | 0, _, _ => none
  | count + 1, depth, cs =>
    match cs with
    | ']' :: rest => some ([], rest)
    | _ =>
      match value? count depth cs with
      | none => none
      | some (v, rest) =>
        match skipLines rest.length rest with
        | ',' :: rest =>
          (items? count depth (skipLines rest.length rest)).map fun (vs, rest) => (v :: vs, rest)
        | ']' :: rest => some ([v], rest)
        | _ => none

/-- The entries of a table on one line up to its brace. -/
def entries? : Nat → Nat → Entries Tree → Scan (Entries Tree)
  | 0, _, _, _ => none
  | count + 1, depth, entries, cs =>
    match key? cs with
    | some ((path, key), '=' :: rest) =>
      match value? count depth (skipSpace rest) with
      | none => none
      | some (v, rest) =>
        match Tree.assign path key v ⟨false, entries⟩, skipSpace rest with
        | some entries, ',' :: rest => entries? count depth entries rest
        | some entries, '\x7d' :: rest => some (entries, rest)
        | _, _ => none
    | _ => none

end

end Scan

/-- A statement of a document. -/
inductive Statement where
  | table (path : List String) (key : String)
  | item (path : List String) (key : String)
  | assign (path : List String) (key : String) (v : Value)
  deriving Repr

namespace Statement

/-- A header after its brackets, up to the brackets that close it. -/
def header? (close : List Char) (cs : List Char) : Option ((List String × String) × List Char) :=
  match Scan.key? cs with
  | some (name, rest) => (Text.after? close rest).map fun rest => (name, rest)
  | none => none

/-- The statement at the front of a text, which does not begin with space. -/
def next? (cs : List Char) : Option (Statement × List Char) :=
  match cs with
  | '[' :: '[' :: rest =>
    (header? [']', ']'] rest).map fun ((path, key), rest) => (.item path key, rest)
  | '[' :: rest => (header? [']'] rest).map fun ((path, key), rest) => (.table path key, rest)
  | _ =>
    match Scan.key? cs with
    | some ((path, key), '=' :: rest) =>
      let rest := Scan.skipSpace rest
      (Scan.value? (2 * rest.length + 2) (maxDepth - 1) rest).map fun (v, rest) =>
        (.assign path key v, rest)
    | _ => none

/-- All statements of a text, at most `count` lines. -/
def all? : Nat → List Char → Option (List Statement)
  | 0, cs => if cs.isEmpty then some [] else none
  | count + 1, cs =>
    match Scan.skipSpace cs with
    | [] => some []
    | '#' :: rest => (Scan.statementEnd? ('#' :: rest)).bind (all? count)
    | cs =>
      match Scan.lineEnd? cs with
      | some rest => all? count rest
      | none =>
        match next? cs with
        | none => none
        | some (statement, rest) =>
          match (Scan.statementEnd? rest).bind (all? count) with
          | some more => some (statement :: more)
          | none => none

end Statement

/-- A document under construction: its entries, and the path of the table that the last header
opened. -/
structure Drafted where
  entries : Entries Tree
  current : List String
  deriving Repr

namespace Drafted

def step? (d : Drafted) (s : Statement) : Option Drafted :=
  let root : Level := ⟨false, d.entries⟩
  match s with
  | .table path key =>
    (Tree.openTable path key root).map fun entries => ⟨entries, path ++ [key]⟩
  | .item path key => (Tree.openItem path key root).map fun entries => ⟨entries, path ++ [key]⟩
  | .assign path key v =>
    (Tree.change false (Tree.assign path key v) d.current root).map fun entries =>
      { d with entries := entries }

def all? : Drafted → List Statement → Option Drafted
  | d, [] => some d
  | d, s :: rest =>
    match d.step? s with
    | some d => d.all? rest
    | none => none

end Drafted

/-- A table whose first entry has this name is a date-time. -/
def datetimeKey : String := "$__toml_private_datetime"

/-- The date-time that a text spells. -/
def spelledDatetime? : Value → Option Value
  | .string text =>
    match Scan.datetime? text.toList with
    | some (v, []) => some v
    | _ => none
  | _ => none

mutual

/-- A value as it is read: entries are in the order of their names, and a table that spells a
date-time is the date-time, whatever else it holds. None if such a table spells no date-time. -/
def Value.read? : Value → Option Value
  | .table entries =>
    match entries.head? with
    | some (key, spelled) =>
      if key = datetimeKey then spelledDatetime? spelled
      else (readEntries? entries).map .table
    | none => some (.table [])
  | .array items => (readItems? items).map .array
  | v => some v

def readEntries? : List (String × Value) → Option (KeyTable Value)
  | [] => some []
  | (key, v) :: rest =>
    match v.read?, readEntries? rest with
    | some v, some rest => some (KeyTable.put key v rest)
    | _, _ => none

def readItems? : List Value → Option (List Value)
  | [] => some []
  | v :: rest =>
    match v.read?, readItems? rest with
    | some v, some rest => some (v :: rest)
    | _, _ => none

end

/-- The value that a document writes. A byte order mark may stand in front. -/
def Value.ofDocument? (text : String) : Option Value :=
  let cs :=
    match text.toList with
    | '\uFEFF' :: rest => rest
    | cs => cs
  match (Statement.all? (cs.length + 1) cs).bind (Drafted.all? ⟨[], []⟩) with
  | some d => (Value.table (Tree.entriesToValue d.entries)).read?
  | none => none

end SessionRelay.Toml
