import SessionRelay.Config.Error
import SessionRelay.Text.Split

/-!
Settings from the command line: pairs of `--section.key` and a value. A value is read as what
already stands at its path, so an override never changes the kind of a setting and never makes one.
-/

namespace SessionRelay.Config

open Toml (Value)

/-- A setting on the command line: the path without its dashes, and the value as it was typed. -/
structure Override where
  key : String
  raw : String
  deriving DecidableEq, Repr

namespace Override

/-- The pairs of a command line. -/
def readAll : List String → Except Error (List Override)
  | [] => .ok []
  | argument :: rest =>
    match Text.after? ['-', '-'] argument.toList with
    | none => .error (.invalidArgument argument)
    | some [] => .error (.invalidArgument argument)
    | some key =>
      match rest with
      | [] => .error (.missingValue (String.ofList key))
      | raw :: rest => (readAll rest).map fun more => ⟨String.ofList key, raw⟩ :: more

def path (o : Override) : List String :=
  (Text.pieces '.' o.key.toList).map String.ofList

/-- The typed value, read as what `current` is. -/
def valueLike (o : Override) (current : Value) : Except Error Value :=
  let read (expected : String) (v? : Option Value) : Except Error Value :=
    match v? with
    | some v => .ok v
    | none => .error (.invalidValue o.key expected o.raw)
  match current with
  | .string _ => .ok (.string o.raw)
  | .integer _ =>
    read "integer" <| (Integer.readInt? o.raw.toList).bind fun n =>
      if Integer.minSigned ≤ n ∧ n ≤ Integer.maxSigned then some (.integer n) else none
  | .float _ => read "float" ((Binary64.read? o.raw.toList).map .float)
  | .boolean _ =>
    read "boolean" <|
      if o.raw = "true" then some (.boolean true)
      else if o.raw = "false" then some (.boolean false)
      else none
  | _ => .error (.unsupportedOverride o.key)

/-- The value below `root` at a path, replaced by its like. -/
def replaceAt (o : Override) : List String → Value → Except Error Value
  | [], current => o.valueLike current
  | key :: path, .table entries =>
    match KeyTable.value? key entries with
    | none => .error (.unknownPath o.key)
    | some v => (o.replaceAt path v).map fun v => .table (KeyTable.put key v entries)
  | _ :: _, _ => .error (.unknownPath o.key)

def apply (o : Override) (root : Value) : Except Error Value :=
  if o.path.any String.isEmpty then .error (.invalidPath o.key) else o.replaceAt o.path root

/-- Overrides in order; the first that fails decides. -/
def applyAll : List Override → Value → Except Error Value
  | [], root => .ok root
  | o :: rest, root =>
    match o.apply root with
    | .error e => .error e
    | .ok root => applyAll rest root

end Override

end SessionRelay.Config
