import SessionRelay.Json.Token

/-!
Values from tokens. The reader is a stack machine: one frame for each array or object that is open,
and the place within the innermost one. It takes one value from the front of a token list and
leaves the rest, so it serves for whole texts and for the members of a record alike.
-/

namespace SessionRelay.Json

/-- How much of a value the reader looks at: what it asks of strings and of numbers, and how many
levels may be open at once. -/
structure Care where
  string : List Piece → Option String
  number : Numeral → Option Number
  room : Nat

/-- For a value that is kept: strings are well-formed text and numbers are in range. -/
def Care.keep (room : Nat) : Care := ⟨Piece.text?, Numeral.value?, room⟩

/-- For a value that is passed over: its form counts and nothing else. -/
def Care.skip (tokens : List Token) : Care :=
  ⟨fun _ => some "", fun _ => some (.integer 0), tokens.length⟩

/-- An array or object that is open: its items so far, newest first; or its members so far and the
name of the member whose value is next. -/
inductive Frame where
  | items (read : List Value)
  | members (read : KeyTable Value) (key : String)
  deriving Repr

/-- The place within the innermost open frame. -/
inductive Place where
  | value
  | firstItem
  | firstKey
  | key
  | colon
  | afterValue
  deriving DecidableEq, Repr

/-- The state after a token: a value is under way, or complete. -/
inductive Reading where
  | under (stack : List Frame) (place : Place)
  | complete (v : Value)
  deriving Repr

/-- A value that has ended goes to the innermost open frame. -/
def Reading.deliver (v : Value) : List Frame → Reading
  | [] => .complete v
  | .items read :: stack => .under (.items (v :: read) :: stack) .afterValue
  | .members read key :: stack =>
    .under (.members (KeyTable.put key v read) key :: stack) .afterValue

/-- A token where a value may start. -/
def Reading.begin? (care : Care) (stack : List Frame) (token : Token) : Option Reading :=
  match token with
  | .null => some (deliver .null stack)
  | .bool b => some (deliver (.bool b) stack)
  | .number n => (care.number n).map fun n => deliver (.number n) stack
  | .string pieces => (care.string pieces).map fun s => deliver (.string s) stack
  | .openArray =>
    if stack.length < care.room then some (.under (.items [] :: stack) .firstItem) else none
  | .openObject =>
    if stack.length < care.room then some (.under (.members [] "" :: stack) .firstKey) else none
  | _ => none

/-- A token where the name of a member may start. -/
def Reading.name? (care : Care) (stack : List Frame) (token : Token) : Option Reading :=
  match stack, token with
  | .members read _ :: stack, .string pieces =>
    (care.string pieces).map fun key => .under (.members read key :: stack) .colon
  | _, _ => none

/-- A token that may close the innermost open frame. -/
def Reading.close? (stack : List Frame) (token : Token) : Option Reading :=
  match stack, token with
  | .items read :: stack, .closeArray => some (deliver (.array read.reverse) stack)
  | .members read _ :: stack, .closeObject => some (deliver (.object read) stack)
  | _, _ => none

def Reading.step? (care : Care) (stack : List Frame) (place : Place) (token : Token) :
    Option Reading :=
  match place with
  | .value => begin? care stack token
  | .firstItem => if token = .closeArray then close? stack token else begin? care stack token
  | .firstKey => if token = .closeObject then close? stack token else name? care stack token
  | .key => name? care stack token
  | .colon => if token = .colon then some (.under stack .value) else none
  | .afterValue =>
    if token = .comma then
      match stack with
      | .items _ :: _ => some (.under stack .value)
      | .members _ _ :: _ => some (.under stack .key)
      | [] => none
    else close? stack token

/-- Goes on from a place within open frames to the end of the outermost value. -/
def Reading.walk? (care : Care) : List Frame → Place → List Token → Option (Value × List Token)
  | _, _, [] => none
  | stack, place, token :: rest =>
    match step? care stack place token with
    | none => none
    | some (.complete v) => some (v, rest)
    | some (.under stack place) => walk? care stack place rest

namespace Value

/-- The value at the front of a token list, and the rest. -/
def take? (care : Care) (tokens : List Token) : Option (Value × List Token) :=
  Reading.walk? care [] .value tokens

def maxDepth : Nat := 127

/-- The value that a whole text writes. -/
def read? (bytes : Bytes) : Option Value :=
  match take? (.keep maxDepth) (Token.scan bytes) with
  | some (v, []) => some v
  | _ => none

end Value

end SessionRelay.Json
