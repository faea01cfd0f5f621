import SessionRelay.Toml.Value

/-!
Merging a document into another. Tables merge key by key, so a document that sets some keys keeps
all others; everything else replaces what was there. `value?` looks up what stands at a path.
-/

namespace SessionRelay.Toml.Value

mutual

def merged (base : Value) : Value → Value
  | .table entries =>
    match base with
    | .table known => .table (mergedEntries known entries)
    | _ => .table entries
  | v => v

/-- The entries of a table with those of another one merged into them. -/
def mergedEntries (known : KeyTable Value) : List (String × Value) → KeyTable Value
  | [] => known
  | (key, v) :: rest =>
    let v :=
      match KeyTable.value? key known with
      | some base => merged base v
      | none => v
    mergedEntries (KeyTable.put key v known) rest

end

/-- What stands at a path of names. -/
def at? : List String → Value → Option Value
  | [], v => some v
  | key :: path, .table entries => (KeyTable.value? key entries).bind (at? path)
  | _ :: _, _ => none

end SessionRelay.Toml.Value
