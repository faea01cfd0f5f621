import SessionRelay.Toml.Value

/-!
A document's tables while they are being filled. A table that exists only because a longer name
mentions it is implicit and may still get a header of its own; one that dotted keys made is dotted
and takes further dotted keys only. No name is given twice. Entries stand in the order in which they
were written, and a header puts an implicit table behind all others.
-/

namespace SessionRelay.Toml

/-- Named entries in the order in which they were written, one for each name. -/
abbrev Entries (α : Type) := List (String × α)

namespace Entries

variable {α : Type}

/-- The entries with one more at the end, for a name that has none. -/
def add (key : String) (value : α) (entries : Entries α) : Entries α := entries ++ [(key, value)]

def value? (key : String) (entries : Entries α) : Option α :=
  (entries.find? fun entry => entry.1 == key).map Prod.snd

/-- The entries with another value for a name, at the same place. -/
def set (key : String) (value : α) (entries : Entries α) : Entries α :=
  entries.map fun entry => if entry.1 = key then (key, value) else entry

/-- The entries with another value for a name, at the end. -/
def renew (key : String) (value : α) (entries : Entries α) : Entries α :=
  add key value (entries.filter fun entry => entry.1 != key)

end Entries

/-- A node: a value, a table, or an array of tables, newest first. -/
inductive Tree where
  | value (v : Value)
  | table (implicit dotted : Bool) (entries : List (String × Tree))
  | tables (items : List (List (String × Tree)))
  deriving Repr, Inhabited

/-- The entries of a table, and whether dotted keys made it. -/
structure Level where
  dotted : Bool
  entries : Entries Tree
  deriving Repr

namespace Tree

/-- The entries of a table after a change to the table at the end of a path. On the way missing
tables are made, and the last table of an array of tables is entered. Along dotted keys only tables
may be entered that are still implicit. -/
def change (dotted : Bool) (f : Level → Option (Entries Tree)) :
    List String → Level → Option (Entries Tree)
  | [], level => f level
  | key :: path, ⟨_, entries⟩ =>
    match Entries.value? key entries with
    | none =>
      (change dotted f path ⟨dotted, []⟩).map fun inner =>
        Entries.add key (.table true dotted inner) entries
    | some (.value _) => none
    | some (.table implicit own inner) =>
      if dotted && !implicit then none
      else
        (change dotted f path ⟨own, inner⟩).map fun inner =>
          Entries.set key (.table implicit own inner) entries
    | some (.tables []) => none
    | some (.tables (last :: earlier)) =>
      (change dotted f path ⟨false, last⟩).map fun inner =>
        Entries.set key (.tables (inner :: earlier)) entries

/-- Gives a key a value; what has a value or is a table already does not take another. A key with a
path goes into a dotted table, and only such a key does. -/
def assign (path : List String) (key : String) (v : Value) (level : Level) :
    Option (Entries Tree) :=
  change true (fun level =>
    if level.dotted == path.isEmpty then none
    else
      match Entries.value? key level.entries with
      | none => some (Entries.add key (.value v) level.entries)
      | some _ => none) path level

def openTable (path : List String) (key : String) (level : Level) : Option (Entries Tree) :=
  change false (fun level =>
    match Entries.value? key level.entries with
    | none => some (Entries.add key (.table false false []) level.entries)
    | some (.table true false inner) =>
      some (Entries.renew key (.table false false inner) level.entries)
    | some _ => none) path level

/-- Opens a further table of an array of tables at its header. -/
def openItem (path : List String) (key : String) (level : Level) : Option (Entries Tree) :=
  change false (fun level =>
    match Entries.value? key level.entries with
    | none => some (Entries.add key (.tables [[]]) level.entries)
    | some (.tables items) => some (Entries.set key (.tables ([] :: items)) level.entries)
    | some _ => none) path level

mutual

/-- The value of a node, with entries as they were written. -/
def toValue : Tree → Value
  | .value v => v
  | .table _ _ entries => .table (entriesToValue entries)
  | .tables items => .array (itemsToValue items [])

def entriesToValue : List (String × Tree) → List (String × Value)
  | [] => []
  | (key, t) :: rest => (key, t.toValue) :: entriesToValue rest

/-- Tables in the order of the document, from the newest to the oldest. -/
def itemsToValue : List (List (String × Tree)) → List Value → List Value
  | [], done => done
  | entries :: earlier, done => itemsToValue earlier (.table (entriesToValue entries) :: done)

end

end Tree

end SessionRelay.Toml
