import SessionRelay.KeyTable

/-!
Tables in ascending order of their names. Up to order, such a table is one of its entries and the
table without that name, so what is summed over a table changes by one entry at a time.
-/

namespace SessionRelay.KeyTable

variable {α : Type}

/-- Every name stands before all later ones, so there is one entry for each. -/
def Ascending (table : KeyTable α) : Prop := table.Pairwise fun a b => a.1 < b.1

theorem Ascending.nil : Ascending ([] : KeyTable α) := List.Pairwise.nil

theorem Ascending.tail {entry : String × α} {table : KeyTable α}
    (h : Ascending (entry :: table)) : Ascending table := h.of_cons

theorem Ascending.filter {table : KeyTable α} (h : Ascending table) (p : String × α → Bool) :
    Ascending (table.filter p) := List.Pairwise.filter p h

theorem mem_put {key : String} {value : α} {entry : String × α} {table : KeyTable α}
    (h : entry ∈ put key value table) : entry = (key, value) ∨ entry ∈ table := by
  induction table with
  | nil =>
    exact Or.inl (List.mem_singleton.mp h)
  | cons head rest ih =>
    obtain ⟨k, v⟩ := head
    simp only [put] at h
    split at h
    · rcases List.mem_cons.mp h with same | later
      · exact Or.inl same
      · exact Or.inr (List.mem_cons_of_mem _ later)
    · split at h
      · exact List.mem_cons.mp h
      · rcases List.mem_cons.mp h with same | later
        · exact Or.inr (same ▸ List.mem_cons_self)
        · exact (ih later).imp_right (List.mem_cons_of_mem _)

theorem mem_names_put {key name : String} {value : α} {table : KeyTable α} :
    name ∈ names (put key value table) ↔ name = key ∨ name ∈ names table := by
  induction table with
  | nil => exact List.mem_singleton.trans (or_iff_left List.not_mem_nil).symm
  | cons head rest ih =>
    obtain ⟨k, v⟩ := head
    simp only [put]
    split
    · next same =>
      subst same
      simp [names]
    · split
      · simp [names]
      · simp only [names, List.map_cons, List.mem_cons] at ih ⊢
        rw [ih, or_left_comm]

theorem mem_without {key : String} {entry : String × α} {table : KeyTable α} :
    entry ∈ without key table ↔ entry ∈ table ∧ entry.1 ≠ key := by
  induction table with
  | nil => simp [without]
  | cons head rest ih =>
    obtain ⟨k, v⟩ := head
    simp only [without]
    split
    · next same =>
      subst same
      rw [ih, List.mem_cons]
      constructor
      · rintro ⟨member, other⟩
        exact ⟨Or.inr member, other⟩
      · rintro ⟨rfl | member, other⟩
        · exact absurd rfl other
        · exact ⟨member, other⟩
    · next different =>
      rw [List.mem_cons, List.mem_cons, ih]
      constructor
      · rintro (rfl | ⟨member, other⟩)
        · exact ⟨Or.inl rfl, fun same => different same.symm⟩
        · exact ⟨Or.inr member, other⟩
      · rintro ⟨rfl | member, other⟩
        · exact Or.inl rfl
        · exact Or.inr ⟨member, other⟩

theorem without_eq_filter (key : String) (table : KeyTable α) :
    without key table = table.filter fun entry => entry.1 != key := by
  induction table with
  | nil => rfl
  | cons head rest ih =>
    obtain ⟨k, v⟩ := head
    simp only [without, List.filter_cons, ih]
    by_cases same : key = k
    · simp [same]
    · simp [same, Ne.symm same]

/-- A name that no entry has stays without a value. -/
theorem value?_eq_none_iff {key : String} {table : KeyTable α} :
    value? key table = none ↔ key ∉ names table := by
  induction table with
  | nil => simp [value?, names]
  | cons head rest ih =>
    obtain ⟨k, v⟩ := head
    simp only [value?, names, List.map_cons, List.mem_cons, not_or]
    split
    · next same => simp [same]
    · next different => exact ih.trans ⟨fun h => ⟨different, h⟩, fun h => h.2⟩

theorem mem_of_value? {key : String} {value : α} {table : KeyTable α}
    (h : value? key table = some value) : (key, value) ∈ table := by
  induction table with
  | nil => cases h
  | cons head rest ih =>
    obtain ⟨k, v⟩ := head
    simp only [value?] at h
    split at h
    · next same =>
      cases h
      exact same ▸ List.mem_cons_self
    · exact List.mem_cons_of_mem _ (ih h)

theorem without_eq_self {key : String} {table : KeyTable α} (h : key ∉ names table) :
    without key table = table := by
  rw [without_eq_filter, List.filter_eq_self]
  intro entry member
  have different : entry.1 ≠ key := fun same => h (same ▸ List.mem_map_of_mem member)
  simpa using different

@[simp] theorem value?_without_ne {key other : String} (h : other ≠ key) (table : KeyTable α) :
    value? other (without key table) = value? other table := by
  induction table with
  | nil => rfl
  | cons head rest ih =>
    obtain ⟨k, v⟩ := head
    simp only [without]
    split
    · next same => rw [ih, value?, if_neg (same ▸ h)]
    · simp only [value?, ih]

theorem Ascending.put {table : KeyTable α} (h : Ascending table) (key : String) (value : α) :
    Ascending (put key value table) := by
  induction table with
  | nil => exact List.pairwise_singleton _ _
  | cons head rest ih =>
    obtain ⟨k, v⟩ := head
    obtain ⟨before, later⟩ := List.pairwise_cons.mp h
    simp only [KeyTable.put]
    split
    · next same =>
      subst same
      exact List.pairwise_cons.mpr ⟨before, later⟩
    · next different =>
      split
      · next less =>
        refine List.pairwise_cons.mpr ⟨?_, h⟩
        intro entry member
        rcases List.mem_cons.mp member with rfl | deeper
        · exact less
        · exact String.lt_trans less (before entry deeper)
      · next notLess =>
        refine List.pairwise_cons.mpr ⟨?_, ih later⟩
        intro entry member
        rcases mem_put member with rfl | deeper
        · exact Std.lt_of_le_of_ne (String.not_lt.mp notLess) (Ne.symm different)
        · exact before entry deeper

/-- A name past all others goes to the end. -/
theorem put_of_lt {key : String} {table : KeyTable α} (value : α)
    (past : ∀ entry ∈ table, entry.1 < key) : put key value table = table ++ [(key, value)] := by
  induction table with
  | nil => rfl
  | cons head rest ih =>
    obtain ⟨k, v⟩ := head
    obtain ⟨less, later⟩ := List.forall_mem_cons.mp past
    have different : key ≠ k := fun same => String.lt_irrefl k (same ▸ less)
    have notLess : ¬ key < k := fun more => String.lt_irrefl k (String.lt_trans less more)
    rw [put, if_neg different, if_neg notLess, ih later, List.cons_append]

/-- Of two values that are put for one name the later one stays. -/
theorem put_put (key : String) (value earlier : α) (table : KeyTable α) :
    put key value (put key earlier table) = put key value table := by
  induction table with
  | nil => simp [put]
  | cons head rest ih =>
    obtain ⟨k, v⟩ := head
    by_cases same : key = k
    · simp [put, same]
    · by_cases less : key < k <;> simp [put, same, less, ih]

/-- Values of different names can be put in any order. -/
theorem put_comm {key other : String} (different : key ≠ other) (value value' : α)
    (table : KeyTable α) :
    put key value (put other value' table) = put other value' (put key value table) := by
  have order : key < other ↔ ¬ other < key :=
    ⟨fun less more => String.lt_irrefl _ (String.lt_trans less more),
      fun notMore => Std.lt_of_le_of_ne (String.not_lt.mp notMore) different⟩
  induction table with
  | nil => by_cases less : other < key <;> simp [put, order, less, different, Ne.symm different]
  | cons head rest ih =>
    -- each of the two names is the first one of the table, stands before it or goes past it
    obtain ⟨k, v⟩ := head
    grind [put, String.lt_trans]

theorem Ascending.without {table : KeyTable α} (h : Ascending table) (key : String) :
    Ascending (without key table) := by
  rw [without_eq_filter]
  exact h.filter _

theorem names_adjust (key : String) (f : α → α) (table : KeyTable α) :
    names (adjust key f table) = names table := by
  induction table with
  | nil => rfl
  | cons head rest ih =>
    obtain ⟨k, v⟩ := head
    simp only [adjust]
    split
    · rfl
    · exact congrArg (k :: ·) ih

theorem ascending_iff_names {table : KeyTable α} :
    Ascending table ↔ (names table).Pairwise (· < ·) := List.pairwise_map.symm

theorem Ascending.nodup_names {table : KeyTable α} (h : Ascending table) : (names table).Nodup := by
  refine (ascending_iff_names.mp h).imp ?_
  intro one other less same
  exact String.lt_irrefl _ (same ▸ less)

theorem Ascending.nodup {table : KeyTable α} (h : Ascending table) : table.Nodup := by
  refine List.Pairwise.imp ?_ h
  rintro entry _ less rfl
  exact String.lt_irrefl entry.1 less

theorem Ascending.adjust {table : KeyTable α} (h : Ascending table) (key : String) (f : α → α) :
    Ascending (adjust key f table) := by
  rw [ascending_iff_names, names_adjust]
  exact ascending_iff_names.mp h

/-- The name of the first entry stands for no other. -/
theorem Ascending.head_not_mem {entry : String × α} {table : KeyTable α}
    (h : Ascending (entry :: table)) : entry.1 ∉ names table := by
  intro member
  obtain ⟨other, later, same⟩ := List.mem_map.mp member
  have less := (List.pairwise_cons.mp h).1 other later
  exact String.lt_irrefl _ (same ▸ less)

theorem Ascending.value?_of_mem {table : KeyTable α} (h : Ascending table) {key : String}
    {value : α} (member : (key, value) ∈ table) : value? key table = some value := by
  induction table with
  | nil => cases member
  | cons head rest ih =>
    rcases List.mem_cons.mp member with rfl | later
    · rw [value?, if_pos rfl]
    · have named : key ∈ names rest := List.mem_map_of_mem (f := Prod.fst) later
      have different : key ≠ head.1 := fun same => h.head_not_mem (same ▸ named)
      rw [value?, if_neg different, ih h.tail later]

/-- A table is what its names have for values. -/
theorem Ascending.ext {table other : KeyTable α} (h : Ascending table) (h' : Ascending other)
    (same : ∀ key, value? key table = value? key other) : table = other := by
  have members (entry : String × α) : entry ∈ table ↔ entry ∈ other := by
    constructor
    · intro member
      exact mem_of_value? ((same entry.1).symm.trans (h.value?_of_mem member))
    · intro member
      exact mem_of_value? ((same entry.1).trans (h'.value?_of_mem member))
  have perm : table.Perm other := (List.perm_ext_iff_of_nodup h.nodup h'.nodup).mpr members
  refine perm.eq_of_pairwise ?_ h h'
  intro entry entry' _ _ less more
  exact absurd (String.lt_trans less more) (String.lt_irrefl entry.1)

theorem put_perm {table : KeyTable α} (h : Ascending table) (key : String) (value : α) :
    (put key value table).Perm ((key, value) :: without key table) := by
  induction table with
  | nil => exact List.Perm.refl _
  | cons head rest ih =>
    obtain ⟨k, v⟩ := head
    simp only [put, without]
    by_cases same : key = k
    · subst same
      rw [if_pos rfl, if_pos rfl, without_eq_self h.head_not_mem]
    · rw [if_neg same, if_neg same]
      split
      · next less =>
        have absent : key ∉ names rest := by
          intro member
          obtain ⟨other, later, found⟩ := List.mem_map.mp member
          have before : k < key := found ▸ (List.pairwise_cons.mp h).1 other later
          exact String.lt_irrefl _ (String.lt_trans less before)
        rw [without_eq_self absent]
      · exact ((ih h.tail).cons _).trans (List.Perm.swap _ _ _)

theorem perm_of_value? {table : KeyTable α} (h : Ascending table) {key : String} {value : α}
    (found : value? key table = some value) :
    table.Perm ((key, value) :: without key table) := by
  induction table with
  | nil => cases found
  | cons head rest ih =>
    obtain ⟨k, v⟩ := head
    simp only [value?] at found
    simp only [without]
    by_cases same : key = k
    · subst same
      rw [if_pos rfl] at found ⊢
      cases found
      rw [without_eq_self h.head_not_mem]
    · rw [if_neg same] at found ⊢
      exact ((ih h.tail found).cons _).trans (List.Perm.swap _ _ _)

theorem adjust_perm {table : KeyTable α} (h : Ascending table) {key : String} {value : α}
    (found : value? key table = some value) (f : α → α) :
    (adjust key f table).Perm ((key, f value) :: without key table) := by
  induction table with
  | nil => cases found
  | cons head rest ih =>
    obtain ⟨k, v⟩ := head
    simp only [value?] at found
    simp only [adjust, without]
    by_cases same : key = k
    · subst same
      rw [if_pos rfl] at found
      cases found
      rw [if_pos rfl, if_pos rfl, without_eq_self h.head_not_mem]
    · rw [if_neg same] at found
      rw [if_neg same, if_neg same]
      exact ((ih h.tail found).cons _).trans (List.Perm.swap _ _ _)

theorem mem_adjust {key : String} {f : α → α} {entry : String × α} {table : KeyTable α}
    (h : entry ∈ adjust key f table) :
    entry ∈ table ∨ ∃ value, value? key table = some value ∧ entry = (key, f value) := by
  induction table with
  | nil => exact Or.inl h
  | cons head rest ih =>
    obtain ⟨k, v⟩ := head
    simp only [adjust] at h
    by_cases same : key = k
    · subst same
      rw [if_pos rfl] at h
      rcases List.mem_cons.mp h with rfl | later
      · exact Or.inr ⟨v, by rw [value?, if_pos rfl], rfl⟩
      · exact Or.inl (List.mem_cons_of_mem _ later)
    · rw [if_neg same] at h
      rcases List.mem_cons.mp h with rfl | later
      · exact Or.inl List.mem_cons_self
      · rw [value?, if_neg same]
        exact (ih later).imp_left (List.mem_cons_of_mem _)

theorem adjust_eq_self {key : String} {table : KeyTable α} (h : key ∉ names table) (f : α → α) :
    adjust key f table = table := by
  induction table with
  | nil => rfl
  | cons head rest ih =>
    obtain ⟨k, v⟩ := head
    simp only [names, List.map_cons, List.mem_cons, not_or] at h
    rw [adjust, if_neg h.1, ih h.2]

/-- Nothing is left of a table without all its names. -/
theorem foldl_without_names (table : KeyTable α) :
    (names table).foldl (fun t key => without key t) table = [] := by
  have gone (keys : List String) (t : KeyTable α) :
      ∀ entry ∈ keys.foldl (fun t key => without key t) t, entry ∈ t ∧ entry.1 ∉ keys := by
    induction keys generalizing t with
    | nil =>
      intro entry member
      exact ⟨member, List.not_mem_nil⟩
    | cons key rest ih =>
      intro entry member
      obtain ⟨kept, other⟩ := ih (without key t) entry member
      obtain ⟨inside, different⟩ := mem_without.mp kept
      refine ⟨inside, ?_⟩
      intro found
      rcases List.mem_cons.mp found with same | later
      · exact different same
      · exact other later
  apply List.eq_nil_iff_forall_not_mem.mpr
  intro entry member
  obtain ⟨inside, other⟩ := gone (names table) table entry member
  exact other (List.mem_map_of_mem inside)

end SessionRelay.KeyTable
