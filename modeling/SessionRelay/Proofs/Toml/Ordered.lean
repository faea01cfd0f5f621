import SessionRelay.Proofs.Toml.Paths
import SessionRelay.Toml.Document

/-!
Documents whose tables have their names in ascending order, one entry for each. All that is read
from a text is such a document, and what stands at its paths says all about it.
-/

namespace SessionRelay.Toml

namespace Value

/-- The table has its names in ascending order, and so have all tables that it leads to. Tables
within arrays do not count. -/
inductive Ordered : Value → Prop where
  | plain {v : Value} (leaf : v.kind ≠ .table) : Ordered v
  | table {known : KeyTable Value} (ascending : KeyTable.Ascending known)
      (inside : ∀ entry ∈ known, Ordered entry.2) : Ordered (.table known)

namespace Ordered

variable {root v : Value} {known : KeyTable Value} {key : String}

theorem entries (ordered : root.Ordered) : (Value.table root.entries).Ordered := by
  cases root with
  | table => exact ordered
  | string | integer | float | boolean | datetime | array => exact .table .nil nofun

theorem ascending (ordered : root.Ordered) : KeyTable.Ascending root.entries := by
  cases ordered.entries with
  | plain leaf => exact absurd rfl leaf
  | table ascending => exact ascending

theorem inside (ordered : root.Ordered) : ∀ entry ∈ root.entries, entry.2.Ordered := by
  cases ordered.entries with
  | plain leaf => exact absurd rfl leaf
  | table ascending inside => exact inside

theorem value? (ordered : root.Ordered) (found : KeyTable.value? key root.entries = some v) :
    v.Ordered :=
  ordered.inside _ (KeyTable.mem_of_value? found)

theorem put (table : (Value.table known).Ordered) (ordered : v.Ordered) (key : String) :
    (Value.table (KeyTable.put key v known)).Ordered := by
  refine .table (table.ascending.put key v) ?_
  intro entry member
  rcases KeyTable.mem_put member with rfl | old
  · exact ordered
  · exact table.inside entry old

theorem putAt (ordered : root.Ordered) (ordered' : v.Ordered) (path : List String) :
    (root.putAt path v).Ordered := by
  induction path generalizing root with
  | nil => exact ordered'
  | cons key path ih =>
    simp only [Value.putAt]
    cases found : KeyTable.value? key root.entries with
    | none => exact ordered
    | some old => exact ordered.entries.put (ih (ordered.value? found)) key

/-- Documents are the same if at each path both have the same or both have a table. -/
theorem ext {root' : Value} (ordered : root.Ordered) (ordered' : root'.Ordered)
    (same : ∀ path, root.at? path = root'.at? path ∨
      root.kindAt? path = some .table ∧ root'.kindAt? path = some .table) : root = root' := by
  induction ordered generalizing root' with
  | plain leaf =>
    rcases same [] with whole | ⟨table, -⟩
    · exact Option.some.inj whole
    · exact absurd (Option.some.inj table) leaf
  | @table known ascending inside ih =>
    rcases same [] with whole | ⟨-, table⟩
    · exact Option.some.inj whole
    · cases root' with
      | string | integer | float | boolean | datetime | array => cases table
      | table known' =>
        have ascending' : KeyTable.Ascending known' := ordered'.ascending
        -- both are tables, and their values for a name are alike in the same way
        refine congrArg Value.table (ascending.ext ascending' ?_)
        intro key
        have below (path : List String) := same (key :: path)
        simp only [kindAt?, at?_cons, entries_table] at below
        cases found : KeyTable.value? key known with
        | none =>
          cases found' : KeyTable.value? key known' with
          | none => rfl
          | some v' => simpa [found, found', at?] using below []
        | some v =>
          cases found' : KeyTable.value? key known' with
          | none => simpa [found, found', at?] using below []
          | some v' =>
            simp only [found, found', Option.bind_some] at below
            have member := KeyTable.mem_of_value? found
            exact congrArg some (ih _ member (ordered'.value? found') below)

end Ordered

/-! ### What is read -/

theorem kind_of_datetime? {cs rest : List Char} {v : Value}
    (read : Scan.datetime? cs = some (v, rest)) : v.kind = .datetime := by
  unfold Scan.datetime? at read
  split at read
  · obtain ⟨_, -, time⟩ := Option.map_eq_some_iff.mp read
    cases time
    rfl
  · grind [kind]

theorem kind_of_spelledDatetime? {spelled v : Value} (read : spelledDatetime? spelled = some v) :
    v.kind = .datetime := by
  unfold spelledDatetime? at read
  split at read
  · split at read
    · next written =>
      cases read
      exact kind_of_datetime? written
    · cases read
  · cases read

mutual

theorem ordered_of_read? (v : Value) {w : Value} (read : v.read? = some w) : w.Ordered := by
  cases v with
  | table known =>
    rw [Value.read?] at read
    split at read
    · split at read
      · have datetime := kind_of_spelledDatetime? read
        exact .plain (by simp [datetime])
      · obtain ⟨known', inside, rfl⟩ := Option.map_eq_some_iff.mp read
        exact ordered_of_readEntries? known inside
    · cases read
      exact .table .nil nofun
  | array items =>
    rw [Value.read?] at read
    obtain ⟨items', -, rfl⟩ := Option.map_eq_some_iff.mp read
    exact .plain nofun
  | string | integer | float | boolean | datetime =>
    cases read
    exact .plain nofun

theorem ordered_of_readEntries? (entries : List (String × Value)) {known : KeyTable Value}
    (read : readEntries? entries = some known) : (Value.table known).Ordered := by
  cases entries with
  | nil =>
    cases read
    exact .table .nil nofun
  | cons first rest =>
    obtain ⟨key, v⟩ := first
    rw [readEntries?] at read
    split at read
    · next first later =>
      cases read
      exact (ordered_of_readEntries? rest later).put (ordered_of_read? v first) key
    · cases read

end

theorem ordered_of_ofDocument? {text : String} {document : Value}
    (read : ofDocument? text = some document) : document.Ordered := by
  simp only [ofDocument?] at read
  split at read
  · exact ordered_of_read? _ read
  · cases read

end Value

end SessionRelay.Toml
