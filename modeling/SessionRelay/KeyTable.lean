/-!
Tables from names to values, kept in ascending order of their names with one entry for each. The
order of names is that of their code points.
-/

namespace SessionRelay

/-- A table from names to values, sorted by name. -/
abbrev KeyTable (α : Type) := List (String × α)

namespace KeyTable

variable {α β : Type}

/-- Sets the value of a name; an earlier value is replaced. -/
def put (key : String) (value : α) : KeyTable α → KeyTable α
  | [] => [(key, value)]
  | (k, v) :: rest =>
    if key = k then (key, value) :: rest
    else if key < k then (key, value) :: (k, v) :: rest
    else (k, v) :: put key value rest

def value? (key : String) : KeyTable α → Option α
  | [] => none
  | (k, v) :: rest => if key = k then some v else value? key rest

def without (key : String) : KeyTable α → KeyTable α
  | [] => []
  | (k, v) :: rest => if key = k then without key rest else (k, v) :: without key rest

def has (key : String) (table : KeyTable α) : Bool := (value? key table).isSome

def names (table : KeyTable α) : List String := table.map Prod.fst

/-- Replaces the value of a name that is present. -/
def adjust (key : String) (f : α → α) : KeyTable α → KeyTable α
  | [] => []
  | (k, v) :: rest => if key = k then (k, f v) :: rest else (k, v) :: adjust key f rest

/-- A table from entries in any order; of two values for a name the later one stays. -/
def ofEntries (entries : List (String × α)) : KeyTable α :=
  entries.foldl (fun table entry => put entry.1 entry.2 table) []

@[simp] theorem value?_put_self (key : String) (value : α) (table : KeyTable α) :
    value? key (put key value table) = some value := by
  induction table with
  | nil => simp [put, value?]
  | cons entry rest ih =>
    obtain ⟨k, v⟩ := entry
    simp only [put]
    split
    · simp [value?]
    · next h =>
      split
      · simp [value?]
      · simp [value?, h, ih]

@[simp] theorem value?_put_ne {key other : String} (h : other ≠ key) (value : α)
    (table : KeyTable α) : value? other (put key value table) = value? other table := by
  induction table with
  | nil => simp [put, value?, h]
  | cons entry rest ih =>
    obtain ⟨k, v⟩ := entry
    simp only [put]
    split
    · next heq => subst heq; simp [value?, h]
    · split
      · simp [value?, h]
      · simp [value?, ih]

@[simp] theorem value?_without_self (key : String) (table : KeyTable α) :
    value? key (without key table) = none := by
  induction table with
  | nil => rfl
  | cons entry rest ih =>
    obtain ⟨k, v⟩ := entry
    simp only [without]
    split
    · exact ih
    · next h => simp [value?, h, ih]

end KeyTable

end SessionRelay
