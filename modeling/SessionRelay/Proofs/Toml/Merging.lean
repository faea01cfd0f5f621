import SessionRelay.Proofs.Toml.Ordered

/-!
A document merged into another one, path by path. A path of the incoming document wins, except that
two tables are joined; a path that it lacks stays, except below a value that is no table. This fixes
the whole document, so merging the same document once more changes nothing.
-/

namespace SessionRelay.Toml.Value

/-- A value that is no table stands in front of the end of the path, so that the path leads nowhere
in this document. -/
def Cuts (root : Value) (path : List String) : Prop :=
  ∃ front v, front <+: path ∧ front ≠ path ∧ root.at? front = some v ∧ v.kind ≠ .table

/-- What `whole` has to say at a path if it is `base` with `incoming` merged into it. -/
structure MergesAt (base incoming whole : Value) (path : List String) : Prop where
  /-- A value of the incoming document that is no table takes the place of what was there. -/
  replaced : ∀ v, incoming.at? path = some v → v.kind ≠ .table → whole.at? path = some v
  /-- Where no table was, what comes in stands as it is. -/
  added : ∀ v, incoming.at? path = some v → base.kindAt? path ≠ some .table →
    whole.at? path = some v
  /-- Two tables become one. -/
  joined : incoming.kindAt? path = some .table → whole.kindAt? path = some .table
  /-- What the incoming document says nothing about stays. -/
  kept : ∀ v, base.at? path = some v → incoming.at? path = none → ¬ incoming.Cuts path →
    whole.at? path = some v
  /-- All that is there has come in or has stayed. -/
  nothing_else : ∀ v, whole.at? path = some v → incoming.at? path = none →
    base.at? path = some v ∧ ¬ incoming.Cuts path

/-- A value merged into what stood in its place, if anything did. -/
def mergedOver : Option Value → Value → Value
  | none, v => v
  | some base, v => base.merged v

variable {base incoming root v : Value} {key : String} {path : List String}
  {known entries : KeyTable Value}

/-! ### Paths that lead nowhere -/

theorem not_cuts_nil : ¬ root.Cuts [] := by
  rintro ⟨front, v, before, shorter, -, -⟩
  exact shorter (List.prefix_nil.mp before)

theorem cuts_cons :
    root.Cuts (key :: path) ↔
      root.kind ≠ .table ∨ ∃ v, KeyTable.value? key root.entries = some v ∧ v.Cuts path := by
  constructor
  · rintro ⟨_ | ⟨key', front⟩, v, before, shorter, found, leaf⟩
    · cases found
      exact Or.inl leaf
    · obtain ⟨rfl, inside⟩ := List.cons_prefix_cons.mp before
      rw [at?_cons] at found
      obtain ⟨v', first, deeper⟩ := Option.bind_eq_some_iff.mp found
      exact Or.inr ⟨v', first, front, v, inside, fun same => shorter (same ▸ rfl), deeper, leaf⟩
  · rintro (leaf | ⟨v', first, front, v, before, shorter, deeper, leaf⟩)
    · exact ⟨[], root, List.nil_prefix, nofun, rfl, leaf⟩
    · refine ⟨key :: front, v, List.cons_prefix_cons.mpr ⟨rfl, before⟩, ?_, ?_, leaf⟩
      · exact fun same => shorter (List.cons.inj same).2
      · rw [at?_cons, first, Option.bind_some, deeper]

theorem Cuts.at?_eq_none (cut : root.Cuts path) : root.at? path = none := by
  obtain ⟨front, v, ⟨_ | ⟨key, rest⟩, rfl⟩, shorter, found, leaf⟩ := cut
  · exact absurd (List.append_nil front).symm shorter
  · rw [at?_append, found, Option.bind_some, at?_cons_of_ne_table leaf]

theorem not_cuts_of_at? (found : root.at? path = some v) : ¬ root.Cuts path := by
  intro cut
  rw [cut.at?_eq_none] at found
  cases found

/-! ### One table into another -/

theorem merged_of_leaf (leaf : incoming.kind ≠ .table) (base : Value) :
    base.merged incoming = incoming := by
  unfold merged
  split
  · exact absurd rfl leaf
  · rfl

theorem merged_of_base_leaf (leaf : base.kind ≠ .table) (incoming : Value) :
    base.merged incoming = incoming := by
  unfold merged
  split
  · split
    · exact absurd rfl leaf
    · rfl
  · rfl

theorem merged_tables (into : base.kind = .table) (table : incoming.kind = .table) :
    base.merged incoming = .table (mergedEntries base.entries incoming.entries) := by
  cases base <;> cases into
  cases incoming <;> cases table
  rw [merged]
  rfl

theorem mergedEntries_cons (known : KeyTable Value) (key : String) (v : Value)
    (rest : List (String × Value)) :
    mergedEntries known ((key, v) :: rest) =
      mergedEntries (KeyTable.put key (v.mergedOver (KeyTable.value? key known)) known) rest := by
  rw [mergedEntries]
  cases KeyTable.value? key known <;> rfl

theorem value?_mergedEntries_of_none (absent : KeyTable.value? key entries = none)
    (known : KeyTable Value) :
    KeyTable.value? key (mergedEntries known entries) = KeyTable.value? key known := by
  induction entries generalizing known with
  | nil => rw [mergedEntries]
  | cons first rest ih =>
    obtain ⟨key', v⟩ := first
    rw [KeyTable.value?] at absent
    split at absent
    · cases absent
    · next other => rw [mergedEntries_cons, ih absent, KeyTable.value?_put_ne other]

theorem value?_mergedEntries_of_some (ascending : KeyTable.Ascending entries)
    (found : KeyTable.value? key entries = some v) (known : KeyTable Value) :
    KeyTable.value? key (mergedEntries known entries) =
      some (mergedOver (KeyTable.value? key known) v) := by
  induction entries generalizing known with
  | nil => cases found
  | cons first rest ih =>
    obtain ⟨key', v'⟩ := first
    rw [mergedEntries_cons]
    by_cases same : key = key'
    · subst same
      rw [KeyTable.value?, if_pos rfl] at found
      cases found
      have once := KeyTable.value?_eq_none_iff.mpr ascending.head_not_mem
      rw [value?_mergedEntries_of_none once, KeyTable.value?_put_self]
    · rw [KeyTable.value?, if_neg same] at found
      rw [ih ascending.tail found, KeyTable.value?_put_ne same]

/-! ### Path by path

Each proof is by the path. At its first name the incoming table has nothing, or a value that goes to
a free place as it is, or one that is merged into another, which is the case for the rest of it. -/

theorem at?_merged_step (ordered : incoming.Ordered) (into : base.kind = .table)
    (first : KeyTable.value? key incoming.entries = some v) (path : List String) :
    (base.merged incoming).at? (key :: path) =
      (mergedOver (KeyTable.value? key base.entries) v).at? path := by
  rw [merged_tables into (kind_of_value? first), at?_cons, entries_table,
    value?_mergedEntries_of_some ordered.ascending first, Option.bind_some]

/-- What the incoming document has at a path is merged into what stands there. -/
theorem at?_merged_of_some (ordered : incoming.Ordered) (found : incoming.at? path = some v)
    (base : Value) : (base.merged incoming).at? path = some (mergedOver (base.at? path) v) := by
  induction path generalizing base incoming with
  | nil =>
    cases found
    rfl
  | cons key path ih =>
    by_cases into : base.kind = .table
    · rw [at?_cons] at found
      obtain ⟨v', first, deeper⟩ := Option.bind_eq_some_iff.mp found
      rw [at?_merged_step ordered into first, at?_cons]
      cases KeyTable.value? key base.entries with
      | none => exact deeper
      | some old => exact ih (ordered.value? first) deeper old
    · rw [merged_of_base_leaf into, found, at?_cons_of_ne_table into, mergedOver]

/-- What the incoming document says nothing about stays. -/
theorem at?_merged_of_none (ordered : incoming.Ordered) (absent : incoming.at? path = none)
    (uncut : ¬ incoming.Cuts path) (base : Value) :
    (base.merged incoming).at? path = base.at? path := by
  induction path generalizing base incoming with
  | nil => cases absent
  | cons key path ih =>
    rw [cuts_cons, not_or, ne_eq, Decidable.not_not] at uncut
    obtain ⟨table, below⟩ := uncut
    by_cases into : base.kind = .table
    · cases first : KeyTable.value? key incoming.entries with
      | none =>
        rw [merged_tables into table, at?_cons, at?_cons, entries_table,
          value?_mergedEntries_of_none first]
      | some v =>
        rw [at?_cons, first, Option.bind_some] at absent
        rw [at?_merged_step ordered into first, at?_cons]
        cases KeyTable.value? key base.entries with
        | none => exact absent
        | some old =>
          exact ih (ordered.value? first) absent (fun cut => below ⟨v, first, cut⟩) old
    · rw [merged_of_base_leaf into, absent, at?_cons_of_ne_table into]

/-- Below a value that is no table nothing is left. -/
theorem at?_merged_of_cuts (ordered : incoming.Ordered) (cut : incoming.Cuts path) (base : Value) :
    (base.merged incoming).at? path = none := by
  induction path generalizing base incoming with
  | nil => exact absurd cut not_cuts_nil
  | cons key path ih =>
    by_cases into : base.kind = .table
    · rcases cuts_cons.mp cut with leaf | ⟨v, first, below⟩
      · rw [merged_of_leaf leaf, cut.at?_eq_none]
      · rw [at?_merged_step ordered into first]
        cases KeyTable.value? key base.entries with
        | none => exact below.at?_eq_none
        | some old => exact ih (ordered.value? first) below old
    · rw [merged_of_base_leaf into, cut.at?_eq_none]

theorem mergesAt_merged (ordered : incoming.Ordered) (base : Value) (path : List String) :
    MergesAt base incoming (base.merged incoming) path where
  replaced v found leaf := by
    rw [at?_merged_of_some ordered found]
    cases base.at? path with
    | none => rfl
    | some old => rw [mergedOver, merged_of_leaf leaf]
  added v found free := by
    rw [at?_merged_of_some ordered found]
    cases there : base.at? path with
    | none => rfl
    | some old =>
      rw [kindAt?_of_at? there] at free
      rw [mergedOver, merged_of_base_leaf fun table => free (congrArg some table)]
  joined table := by
    obtain ⟨v, found, table⟩ := Option.map_eq_some_iff.mp table
    rw [kindAt?_of_at? (at?_merged_of_some ordered found base)]
    cases base.at? path with
    | none => rw [mergedOver, table]
    | some old =>
      rw [mergedOver]
      by_cases into : old.kind = .table
      · rw [merged_tables into table, kind_table]
      · rw [merged_of_base_leaf into, table]
  kept v there absent uncut := by
    rw [at?_merged_of_none ordered absent uncut, there]
  nothing_else v found absent := by
    by_cases cut : incoming.Cuts path
    · rw [at?_merged_of_cuts ordered cut] at found
      cases found
    · rw [at?_merged_of_none ordered absent cut] at found
      exact ⟨found, cut⟩

/-! ### The whole document -/

theorem Ordered.mergedEntries (table : (Value.table known).Ordered)
    (merged : ∀ entry ∈ entries, ∀ base : Value, base.Ordered → (base.merged entry.2).Ordered)
    (inside : ∀ entry ∈ entries, entry.2.Ordered) :
    (Value.table (mergedEntries known entries)).Ordered := by
  induction entries generalizing known with
  | nil => exact table
  | cons first rest ih =>
    obtain ⟨key, v⟩ := first
    obtain ⟨mergedFirst, mergedRest⟩ := List.forall_mem_cons.mp merged
    obtain ⟨insideFirst, insideRest⟩ := List.forall_mem_cons.mp inside
    rw [mergedEntries_cons]
    refine ih (table.put ?_ key) mergedRest insideRest
    cases there : KeyTable.value? key known with
    | none => exact insideFirst
    | some old => exact mergedFirst old (table.value? there)

theorem Ordered.merged (comes : incoming.Ordered) (stands : base.Ordered) :
    (base.merged incoming).Ordered := by
  induction comes generalizing base with
  | plain leaf =>
    rw [merged_of_leaf leaf]
    exact .plain leaf
  | table ascending inside ih =>
    by_cases into : base.kind = .table
    · rw [merged_tables into rfl]
      exact stands.entries.mergedEntries (fun entry member base => ih entry member) inside
    · rw [merged_of_base_leaf into]
      exact .table ascending inside

namespace MergesAt

variable {whole whole' : Value}

theorem alike (merges : MergesAt base incoming whole path)
    (merges' : MergesAt base incoming whole' path) :
    whole.at? path = whole'.at? path ∨
      whole.kindAt? path = some .table ∧ whole'.kindAt? path = some .table := by
  cases found : incoming.at? path with
  | some v =>
    by_cases table : v.kind = .table
    · have joins : incoming.kindAt? path = some .table := by rw [kindAt?_of_at? found, table]
      exact Or.inr ⟨merges.joined joins, merges'.joined joins⟩
    · exact Or.inl ((merges.replaced v found table).trans (merges'.replaced v found table).symm)
  | none =>
    refine Or.inl (Option.ext fun v => ?_)
    constructor
    · intro here
      obtain ⟨there, uncut⟩ := merges.nothing_else v here found
      exact merges'.kept v there found uncut
    · intro here
      obtain ⟨there, uncut⟩ := merges'.nothing_else v here found
      exact merges.kept v there found uncut

/-- What has come in can come in once more. -/
theorem again (merges : MergesAt base incoming whole path) :
    MergesAt whole incoming whole path where
  replaced := merges.replaced
  added v found free := by
    refine merges.replaced v found ?_
    intro table
    exact free (merges.joined (by rw [kindAt?_of_at? found, table]))
  joined := merges.joined
  kept v there _ _ := there
  nothing_else v here absent := ⟨here, (merges.nothing_else v here absent).2⟩

end MergesAt

/-- Only one document has at each path what it has to. -/
theorem eq_merged {whole : Value} (comes : incoming.Ordered) (stands : base.Ordered)
    (ordered : whole.Ordered) (merges : ∀ path, MergesAt base incoming whole path) :
    whole = base.merged incoming := by
  apply ordered.ext (comes.merged stands)
  intro path
  exact (merges path).alike (mergesAt_merged comes base path)

theorem merged_merged (comes : incoming.Ordered) (stands : base.Ordered) :
    (base.merged incoming).merged incoming = base.merged incoming := by
  have whole := comes.merged stands
  refine (eq_merged comes whole whole ?_).symm
  intro path
  exact (mergesAt_merged comes base path).again

end SessionRelay.Toml.Value
