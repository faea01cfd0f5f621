import SessionRelay.Json.Reader
import SessionRelay.Json.Writer
import SessionRelay.Text.Quoted

/-!
Values of known form from tokens. Reading is one pass, and the first problem that it meets is the
one it reports: text that is not JSON is `malformed`, wherever a shorter look already shows a value
of the wrong form that form is named.
-/

namespace SessionRelay.Json

/-- What stands where something else was wanted. -/
inductive Found where
  | null
  | bool (b : Bool)
  | number (n : Number)
  | string (s : String)
  | sequence
  | map
  deriving DecidableEq, Repr

def Found.text : Found → String
  | .null => "null"
  | .bool true => "boolean `true`"
  | .bool false => "boolean `false`"
  | .number (.integer n) => s!"integer `{Integer.text n}`"
  | .number (.double x) => s!"floating point `{doubleText x}`"
  | .string s => s!"string {Text.quoted s}"
  | .sequence => "sequence"
  | .map => "map"

/-- Why a text does not decode. -/
inductive Fault where
  | malformed
  | wrongType (found : Found) (expected : String)
  | outOfRange (found : Found) (expected : String)
  | wrongLength (count : Nat) (expected : String)
  | missing (field : String)
  | duplicate (field : String)
  deriving DecidableEq, Repr

def Fault.text : Fault → String
  | .malformed => "<syntax>"
  | .wrongType found expected => s!"invalid type: {found.text}, expected {expected}"
  | .outOfRange found expected => s!"invalid value: {found.text}, expected {expected}"
  | .wrongLength count expected => s!"invalid length {Integer.natText count}, expected {expected}"
  | .missing field => s!"missing field `{field}`"
  | .duplicate field => s!"duplicate field `{field}`"

/-- Takes a value of known form from the front of a token list. -/
abbrev Taking (α : Type) := List Token → Except Fault (α × List Token)

namespace Taking

/-- The fault of a token list that does not start with what is expected. -/
def mismatch (expected : String) : List Token → Fault
  | .null :: _ => .wrongType .null expected
  | .bool b :: _ => .wrongType (.bool b) expected
  | .number n :: _ =>
    match n.value? with
    | some n => .wrongType (.number n) expected
    | none => .malformed
  | .string pieces :: _ =>
    match Piece.text? pieces with
    | some s => .wrongType (.string s) expected
    | none => .malformed
  | .openArray :: _ => .wrongType .sequence expected
  | .openObject :: _ => .wrongType .map expected
  | _ => .malformed

def text : Taking String
  | .string pieces :: rest =>
    match Piece.text? pieces with
    | some s => .ok (s, rest)
    | none => .error .malformed
  | tokens => .error (mismatch "a string" tokens)

def bool : Taking Bool
  | .bool b :: rest => .ok (b, rest)
  | tokens => .error (mismatch "a boolean" tokens)

/-- A whole number of 64 bits without a sign. -/
def unsigned : Taking Nat
  | .number n :: rest =>
    match n.value? with
    | none => .error .malformed
    | some (.integer n) =>
      if 0 ≤ n then .ok (n.toNat, rest)
      else .error (.outOfRange (.number (.integer n)) "u64")
    | some (.double x) => .error (.wrongType (.number (.double x)) "u64")
  | tokens => .error (mismatch "u64" tokens)

/-- Any value, with at most `room` levels. -/
def value (room : Nat) : Taking Value := fun tokens =>
  match Value.take? (.keep room) tokens with
  | some result => .ok result
  | none => .error .malformed

/-- An object of any members. -/
def map (room : Nat) : Taking (KeyTable Value)
  | .openObject :: rest =>
    match Value.take? (.keep room) (.openObject :: rest) with
    | some (.object members, rest) => .ok (members, rest)
    | _ => .error .malformed
  | tokens => .error (mismatch "a map" tokens)

/-- Null, or a value of the given form. -/
def optional {α : Type} (take : Taking α) : Taking (Option α)
  | .null :: rest => .ok (none, rest)
  | tokens =>
    match take tokens with
    | .ok (a, rest) => .ok (some a, rest)
    | .error fault => .error fault

def whole {α : Type} (take : Taking α) (bytes : Bytes) : Except Fault α :=
  match take (Token.scan bytes) with
  | .ok (a, []) => .ok a
  | .ok (_, _ :: _) => .error .malformed
  | .error fault => .error fault

end Taking

/-- A field of a record: its name, whether it must be there, and how its value is taken into the
record. -/
structure Field (ρ : Type) where
  name : String
  required : Bool
  take : ρ → Taking ρ

/-- A field whose value is taken on its own and then set. -/
def Field.ofTaking {ρ α : Type} (name : String) (required : Bool) (take : Taking α)
    (set : ρ → α → ρ) : Field ρ :=
  ⟨name, required, fun r tokens => (take tokens).map fun (a, rest) => (set r a, rest)⟩

/-- A record: its title in messages, its fields in order, and the record in which every field has
its default. It is written as an object or as an array of the fields' values. -/
structure Record (ρ : Type) where
  title : String
  fields : List (Field ρ)
  blank : ρ

namespace Record

variable {ρ : Type}

/-- The record at its closing brace: every required field must have been seen. -/
def close (r : Record ρ) (value : ρ) (seen : List String) (rest : List Token) :
    Except Fault (ρ × List Token) :=
  match r.fields.find? fun f => f.required && !seen.contains f.name with
  | some f => .error (.missing f.name)
  | none => .ok (value, rest)

/-- The value of a member after its name. That a field has been seen before is noticed at its name;
the value of a name that is no field is passed over. -/
def memberValue (r : Record ρ) (value : ρ) (seen : List String) (name : String)
    (rest : List Token) : Except Fault (ρ × List String × List Token) :=
  match r.fields.find? fun f => f.name == name with
  | some f =>
    if seen.contains name then .error (.duplicate name)
    else
      match rest with
      | .colon :: rest =>
        match f.take value rest with
        | .ok (value, rest) => .ok (value, name :: seen, rest)
        | .error fault => .error fault
      | _ => .error .malformed
  | none =>
    match rest with
    | .colon :: rest =>
      match Value.take? (.skip rest) rest with
      | some (_, rest) => .ok (value, seen, rest)
      | none => .error .malformed
    | _ => .error .malformed

/-- The members from the name of one to the closing brace; at most `count` of them. -/
def members (r : Record ρ) : Nat → ρ → List String → List Token → Except Fault (ρ × List Token)
  | 0, _, _, _ => .error .malformed
  | count + 1, value, seen, tokens =>
    match tokens with
    | .string pieces :: rest =>
      match Piece.text? pieces with
      | none => .error .malformed
      | some name =>
        match r.memberValue value seen name rest with
        | .error fault => .error fault
        | .ok (value, seen, .comma :: rest) => r.members count value seen rest
        | .ok (value, seen, .closeObject :: rest) => r.close value seen rest
        | .ok _ => .error .malformed
    | _ => .error .malformed

/-- How the array form is named in messages. -/
def arrayTitle (r : Record ρ) : String :=
  s!"{r.title} with {Integer.natText r.fields.length} elements"

/-- The items of the array form from the field at `index` on. Fields that are not required may be
left out at the end, and nothing may follow the last field. -/
def items (r : Record ρ) : List (Field ρ) → Nat → ρ → List Token → Except Fault (ρ × List Token)
  | [], _, value, .closeArray :: rest => .ok (value, rest)
  | [], _, _, _ => .error .malformed
  | f :: fields, index, value, tokens =>
    match tokens with
    | .closeArray :: rest =>
      match (f :: fields).findIdx? fun f => f.required with
      | some ahead => .error (.wrongLength (index + ahead) r.arrayTitle)
      | none => .ok (value, rest)
    | _ =>
      let item? : Option (List Token) :=
        match index, tokens with
        | 0, tokens => some tokens
        | _, .comma :: rest => some rest
        | _, _ => none
      match item? with
      | none => .error .malformed
      | some tokens =>
        match f.take value tokens with
        | .error fault => .error fault
        | .ok (value, rest) => r.items fields (index + 1) value rest

def take (r : Record ρ) : Taking ρ
  | .openObject :: .closeObject :: rest => r.close r.blank [] rest
  | .openObject :: rest => r.members rest.length r.blank [] rest
  | .openArray :: rest => r.items r.fields 0 r.blank rest
  | tokens => .error (Taking.mismatch r.title tokens)

end Record

end SessionRelay.Json
