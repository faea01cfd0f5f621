import SessionRelay.Config.Merge
import SessionRelay.Proofs.KeyTable

/-!
What stands at the paths of a document: the kind of a value and the entries of a table, and a value
that is put at a path in place of another. It changes nothing that stands neither above nor below.
-/

namespace SessionRelay.Toml.Value

/-- What a value is, whatever it says. -/
inductive Kind where
  | string
  | integer
  | float
  | boolean
  | datetime
  | array
  | table
  deriving DecidableEq, Repr

def kind : Value → Kind
  | .string _ => .string
  | .integer _ => .integer
  | .float _ => .float
  | .boolean _ => .boolean
  | .datetime _ => .datetime
  | .array _ => .array
  | .table _ => .table

/-- The kind of what stands at a path. -/
def kindAt? (path : List String) (root : Value) : Option Kind := (root.at? path).map kind

/-- What stands in a value: the entries of a table, and nothing in any other value. -/
def entries : Value → KeyTable Value
  | .table entries => entries
  | _ => []

/-- The document with another value at a path, if anything stands there. -/
def putAt : List String → Value → Value → Value
  | [], _, new => new
  | key :: path, root, new =>
    match KeyTable.value? key root.entries with
    | none => root
    | some v => .table (KeyTable.put key (v.putAt path new) root.entries)

/-! ### Paths -/

theorem at?_cons (key : String) (path : List String) (root : Value) :
    root.at? (key :: path) = (KeyTable.value? key root.entries).bind (at? path) := by
  cases root <;> rfl

theorem kindAt?_of_at? {path : List String} {root v : Value} (found : root.at? path = some v) :
    root.kindAt? path = some v.kind := by
  rw [kindAt?, found, Option.map_some]

theorem kind_table (known : KeyTable Value) : (table known).kind = .table := rfl

@[simp] theorem entries_table (known : KeyTable Value) : (table known).entries = known := rfl

/-- Only tables have anything below them. -/
theorem kind_of_value? {key : String} {root v : Value}
    (found : KeyTable.value? key root.entries = some v) : root.kind = .table := by
  cases root with
  | table => rfl
  | string | integer | float | boolean | datetime | array => cases found

theorem at?_cons_of_ne_table {root : Value} (leaf : root.kind ≠ .table) (key : String)
    (path : List String) : root.at? (key :: path) = none := by
  rw [at?_cons]
  cases found : KeyTable.value? key root.entries with
  | none => rfl
  | some v => exact absurd (kind_of_value? found) leaf

theorem at?_append (path below : List String) (root : Value) :
    root.at? (path ++ below) = (root.at? path).bind (at? below) := by
  induction path generalizing root with
  | nil => rfl
  | cons key path ih =>
    rw [List.cons_append, at?_cons, at?_cons]
    cases KeyTable.value? key root.entries with
    | none => rfl
    | some v => exact ih v

theorem at?_putAt_self {path : List String} {root old : Value} (found : root.at? path = some old)
    (new : Value) : (root.putAt path new).at? path = some new := by
  induction path generalizing root with
  | nil => rfl
  | cons key path ih =>
    rw [at?_cons] at found
    obtain ⟨v, first, deeper⟩ := Option.bind_eq_some_iff.mp found
    simp [putAt, first, at?_cons, ih deeper]

/-- What stands neither above nor below a path stays. -/
theorem at?_putAt_of_apart {path other : List String} (below : ¬ path <+: other)
    (above : ¬ other <+: path) (root new : Value) :
    (root.putAt path new).at? other = root.at? other := by
  induction path generalizing root other with
  | nil => exact absurd List.nil_prefix below
  | cons key path ih =>
    cases other with
    | nil => exact absurd List.nil_prefix above
    | cons key' other =>
      cases found : KeyTable.value? key root.entries with
      | none => simp [putAt, found]
      | some v =>
        simp only [putAt, found, at?_cons, entries_table]
        by_cases same : key' = key
        · subst same
          simp only [List.cons_prefix_cons, true_and] at below above
          simp [found, ih below above]
        · simp [same]

/-- The documents have the same paths, with values of the same kinds at them. -/
def SameKinds (root root' : Value) : Prop := ∀ path, root'.kindAt? path = root.kindAt? path

theorem sameKinds_putAt {path : List String} {root old new : Value}
    (found : root.at? path = some old) (leaf : old.kind ≠ .table) (same : new.kind = old.kind) :
    SameKinds root (root.putAt path new) := by
  induction path generalizing root with
  | nil =>
    cases found
    intro other
    cases other with
    | nil => simp [kindAt?, putAt, at?, same]
    | cons key other =>
      simp [kindAt?, putAt, at?_cons_of_ne_table leaf, at?_cons_of_ne_table (same ▸ leaf)]
  | cons key path ih =>
    rw [at?_cons] at found
    obtain ⟨v, first, deeper⟩ := Option.bind_eq_some_iff.mp found
    intro other
    simp only [kindAt?, putAt, first]
    cases other with
    | nil => simp [at?, kind_of_value? first, kind_table]
    | cons key' other =>
      rw [at?_cons, at?_cons, entries_table]
      by_cases here : key' = key
      · subst here
        simpa [kindAt?, first] using ih deeper other
      · simp [here]

/-- At paths that stand neither above nor below each other values can be put in any order. -/
theorem putAt_comm {path path' : List String} (below : ¬ path <+: path') (above : ¬ path' <+: path)
    (root new new' : Value) :
    (root.putAt path new).putAt path' new' = (root.putAt path' new').putAt path new := by
  induction path generalizing root path' with
  | nil => exact absurd List.nil_prefix below
  | cons key path ih =>
    cases path' with
    | nil => exact absurd List.nil_prefix above
    | cons key' path' =>
      by_cases same : key' = key
      · subst same
        simp only [List.cons_prefix_cons, true_and] at below above
        cases found : KeyTable.value? key' root.entries with
        | none => simp [putAt, found]
        | some v => simp [putAt, found, KeyTable.put_put, ih below above]
      · cases found : KeyTable.value? key root.entries <;>
          cases found' : KeyTable.value? key' root.entries <;>
            simp [putAt, found, found', same, Ne.symm same, KeyTable.put_comm same]

end SessionRelay.Toml.Value
