import Mathlib.Data.List.DropRight
import SessionRelay.Text.Blank
import SessionRelay.Text.Split

/-!
Cutting as the inverse of joining. A cut at the first or the last occurrence of a separator is the
one whose first or last part is free of it, and the pieces between all occurrences are the only
parts free of it that join to the text. The value of a name is the one that the last of the parts
gives that give it any. Trimming twice is trimming once.
-/

namespace SessionRelay.Text

/-! ### Pieces -/

theorem pieces_eq_splitOn (sep : Char) (cs : List Char) : pieces sep cs = cs.splitOn sep := by
  induction cs with
  | nil => simp [pieces]
  | cons c cs ih =>
    rw [pieces, ih, List.splitOn_cons_eq_if_modifyHead]
    simp only [beq_iff_eq]
    split
    · rfl
    · cases split : cs.splitOn sep with
      | nil => exact absurd split (List.splitOn_ne_nil sep cs)
      | cons part parts => rfl

theorem pieces_of_not_mem {sep : Char} {cs : List Char} (h : sep ∉ cs) : pieces sep cs = [cs] := by
  rw [pieces_eq_splitOn]
  exact List.splitOn_eq_singleton h

theorem pieces_intercalate {sep : Char} {parts : List (List Char)} (some : parts ≠ [])
    (free : ∀ part ∈ parts, sep ∉ part) : pieces sep ([sep].intercalate parts) = parts := by
  rw [pieces_eq_splitOn]
  exact List.splitOn_intercalate sep free some

@[simp] theorem intercalate_pieces (sep : Char) (cs : List Char) :
    [sep].intercalate (pieces sep cs) = cs := by
  rw [pieces_eq_splitOn]
  exact List.intercalate_splitOn sep

/-! ### Cuts -/

theorem after?_eq_some {lead cs rest : List Char} :
    after? lead cs = some rest ↔ cs = lead ++ rest :=
  ⟨eq_append_of_after?, fun same => same ▸ after?_append lead rest⟩

theorem cut?_of_not_mem {sep cs : List Char} {c : Char} (inside : c ∈ sep) (h : c ∉ cs) :
    cut? sep cs = none := by
  induction cs with
  | nil => rfl
  | cons d cs ih =>
    have later : c ∉ cs := fun found => h (List.mem_cons_of_mem d found)
    rw [cut?, ih later]
    cases found : after? sep (d :: cs) with
    | none => rfl
    | some rest =>
      rw [eq_append_of_after? found] at h
      exact absurd (List.mem_append_left rest inside) h

/-- A cut at the first place where the separator's first character stands. -/
theorem cut?_append_of_head {first : Char} {cs : List Char} (h : first ∉ cs)
    (sep rest : List Char) :
    cut? (first :: sep) (cs ++ first :: (sep ++ rest)) = some (cs, rest) := by
  induction cs with
  | nil => simp [cut?, after?, after?_append]
  | cons c cs ih =>
    simp only [List.mem_cons, not_or] at h
    rw [List.cons_append, cut?, after?, if_neg h.1, ih h.2]
    rfl

theorem cut?_append {sep : Char} {cs : List Char} (h : sep ∉ cs) (rest : List Char) :
    cut? [sep] (cs ++ sep :: rest) = some (cs, rest) :=
  cut?_append_of_head h [] rest

theorem cut?_eq_none {sep : Char} {cs : List Char} : cut? [sep] cs = none ↔ sep ∉ cs := by
  constructor
  · intro uncut inside
    obtain ⟨before, rest, rfl, free⟩ := List.eq_append_cons_of_mem inside
    rw [cut?_append free] at uncut
    cases uncut
  · exact cut?_of_not_mem List.mem_cons_self

theorem cut?_eq_some {sep : Char} {cs before rest : List Char} :
    cut? [sep] cs = some (before, rest) ↔ cs = before ++ sep :: rest ∧ sep ∉ before := by
  constructor
  · intro cut
    have inside : sep ∈ cs := by
      by_contra absent
      rw [cut?_eq_none.mpr absent] at cut
      cases cut
    obtain ⟨before', rest', rfl, free⟩ := List.eq_append_cons_of_mem inside
    rw [cut?_append free] at cut
    cases cut
    exact ⟨rfl, free⟩
  · rintro ⟨rfl, free⟩
    exact cut?_append free rest

theorem cutLast?_eq_none {sep : Char} {cs : List Char} : cutLast? sep cs = none ↔ sep ∉ cs := by
  induction cs with
  | nil => simp [cutLast?]
  | cons c cs ih =>
    cases later : cutLast? sep cs with
    | some cut =>
      have inside : sep ∈ cs := by
        by_contra absent
        rw [ih.mpr absent] at later
        cases later
      simp [cutLast?, later, inside]
    | none => simp [cutLast?, later, ih.mp later, eq_comm]

theorem cutLast?_append {sep : Char} {rest : List Char} (h : sep ∉ rest) (before : List Char) :
    cutLast? sep (before ++ sep :: rest) = some (before, rest) := by
  induction before with
  | nil => simp [cutLast?, cutLast?_eq_none.mpr h]
  | cons c before ih => rw [List.cons_append, cutLast?, ih]

theorem cutLast?_eq_some {sep : Char} {cs before rest : List Char} :
    cutLast? sep cs = some (before, rest) ↔ cs = before ++ sep :: rest ∧ sep ∉ rest := by
  constructor
  · intro cut
    induction cs generalizing before with
    | nil => simp [cutLast?] at cut
    | cons c cs ih =>
      rw [cutLast?] at cut
      split at cut
      · next before' rest' later =>
        cases cut
        obtain ⟨rfl, free⟩ := ih later
        exact ⟨rfl, free⟩
      · next uncut =>
        split at cut
        · next same =>
          cases cut
          exact ⟨congrArg (· :: rest) same, cutLast?_eq_none.mp uncut⟩
        · cases cut
  · rintro ⟨rfl, free⟩
    exact cutLast?_append free before

/-! ### Values by name -/

/-- The part gives the name a value, and not an empty one. -/
def Gives (name value : String) (part : List Char) : Prop :=
  part = name.toList ++ '=' :: value.toList ∧ value ≠ ""

/-- The last of the parts that give the name a value gives it this one. -/
def LastGives (name value : String) (parts : List (List Char)) : Prop :=
  ∃ before part after, parts = before ++ part :: after ∧ Gives name value part ∧
    ∀ later ∈ after, ∀ other, ¬ Gives name other later

/-- One of the parts gives the name this value, and no other part gives it any. -/
def GivesOnce (name value : String) (parts : List (List Char)) : Prop :=
  ∃ before part after, parts = before ++ part :: after ∧ Gives name value part ∧
    ∀ other ∈ before ++ after, ∀ value', ¬ Gives name value' other

theorem GivesOnce.lastGives {name value : String} {parts : List (List Char)}
    (gives : GivesOnce name value parts) : LastGives name value parts := by
  obtain ⟨before, part, after, split, given, others⟩ := gives
  refine ⟨before, part, after, split, given, ?_⟩
  intro later member
  exact others later (List.mem_append_right before member)

theorem GivesOnce.perm {name value : String} {parts parts' : List (List Char)}
    (gives : GivesOnce name value parts) (same : parts'.Perm parts) :
    GivesOnce name value parts' := by
  obtain ⟨before, part, after, rfl, given, others⟩ := gives
  have member : part ∈ parts' := same.mem_iff.mpr (by simp)
  obtain ⟨before', after', rfl⟩ := List.append_of_mem member
  have rest : (before' ++ after').Perm (before ++ after) :=
    (List.perm_middle.symm.trans (same.trans List.perm_middle)).cons_inv
  refine ⟨before', part, after', rfl, given, ?_⟩
  intro other inside
  exact others other (rest.mem_iff.mp inside)

/-- The value that a part gives a name. -/
def given? (name : String) (part : List Char) : Option String :=
  match cut? ['='] part with
  | some (key, value) =>
    if String.ofList key = name ∧ value ≠ [] then some (String.ofList value) else none
  | none => none

theorem given?_eq_some {name value : String} (plain : '=' ∉ name.toList) {part : List Char} :
    given? name part = some value ↔ Gives name value part := by
  constructor
  · intro given
    unfold given? at given
    split at given
    · next key text cut =>
      split at given
      · next counts =>
        cases given
        obtain ⟨rfl, free⟩ := cut?_eq_some.mp cut
        obtain ⟨rfl, filled⟩ := counts
        simpa [Gives] using filled
      · cases given
    · cases given
  · rintro ⟨rfl, filled⟩
    have some : value.toList ≠ [] := by simpa using filled
    rw [given?, cut?_append plain]
    simp [some]

theorem given?_eq_none {name : String} (plain : '=' ∉ name.toList) {part : List Char} :
    given? name part = none ↔ ∀ value, ¬ Gives name value part := by
  rw [Option.eq_none_iff_forall_ne_some]
  exact forall_congr' fun value => not_congr (given?_eq_some plain)

/-- Parts are gone through from the first to the last, so what counts is found from the end. -/
theorem lastValue?_eq (name : String) (parts : List (List Char)) :
    lastValue? name parts = parts.reverse.findSome? (given? name) := by
  rw [lastValue?, List.foldl_eq_foldr_reverse]
  induction parts.reverse with
  | nil => rfl
  | cons part parts ih =>
    rw [List.foldr_cons, ih, List.findSome?_cons, given?]
    cases cut? ['='] part with
    | none => rfl
    | some cut =>
      by_cases counts : String.ofList cut.1 = name ∧ cut.2 ≠ []
      · simp only [if_pos counts]
      · simp only [if_neg counts]

theorem lastValue?_eq_some {name value : String} (plain : '=' ∉ name.toList)
    {parts : List (List Char)} :
    lastValue? name parts = some value ↔ LastGives name value parts := by
  rw [lastValue?_eq, List.findSome?_eq_some_iff]
  simp only [given?_eq_some plain, given?_eq_none plain]
  constructor
  · rintro ⟨after, part, before, split, gives, later⟩
    refine ⟨before.reverse, part, after.reverse, ?_, gives, ?_⟩
    · rw [← List.reverse_reverse parts, split]
      simp
    · simpa using later
  · rintro ⟨before, part, after, rfl, gives, later⟩
    refine ⟨after.reverse, part, before.reverse, ?_, gives, ?_⟩
    · simp
    · simpa using later

theorem lastValue?_eq_none {name : String} (plain : '=' ∉ name.toList)
    {parts : List (List Char)} :
    lastValue? name parts = none ↔ ∀ part ∈ parts, ∀ value, ¬ Gives name value part := by
  rw [lastValue?_eq, List.findSome?_eq_none_iff]
  simp only [List.mem_reverse, given?_eq_none plain]

/-! ### Trimming -/

theorem dropTrailing_eq_rdropWhile (drop : Char → Bool) (cs : List Char) :
    dropTrailing drop cs = cs.rdropWhile drop := rfl

theorem dropTrailing_append {drop : Char → Bool} {tail : List Char}
    (all : ∀ c ∈ tail, drop c = true) (cs : List Char) :
    dropTrailing drop (cs ++ tail) = dropTrailing drop cs := by
  have all' : ∀ c ∈ tail.reverse, drop c = true := by simpa using all
  rw [dropTrailing, List.reverse_append, List.dropWhile_append_of_pos all', dropTrailing]

theorem dropTrailing_beq_eq_self {c : Char} {cs : List Char} :
    dropTrailing (· == c) cs = cs ↔ cs.getLast? ≠ some c := by
  rw [dropTrailing_eq_rdropWhile, List.rdropWhile_eq_self_iff]
  by_cases empty : cs = []
  · simp [empty]
  · simp [empty, List.getLast?_eq_some_getLast empty]

theorem trimBlank_subset (cs : List Char) : trimBlank cs ⊆ cs := by
  rw [trimBlank, dropTrailing_eq_rdropWhile]
  exact List.Subset.trans (List.rdropWhile_prefix _ _).subset (List.dropWhile_subset _)

/-- What is left has no blank at its front, as it begins what was left when its end was not yet
trimmed. -/
theorem dropWhile_trimBlank (cs : List Char) :
    (trimBlank cs).dropWhile isBlank = trimBlank cs := by
  have front : trimBlank cs <+: cs.dropWhile isBlank := List.rdropWhile_prefix _ _
  apply List.dropWhile_eq_self_iff.mpr
  intro some
  rw [front.getElem some]
  exact List.dropWhile_get_zero_not isBlank cs (Nat.lt_of_lt_of_le some front.length_le)

@[simp] theorem trimBlank_trimBlank (cs : List Char) : trimBlank (trimBlank cs) = trimBlank cs := by
  conv => lhs; rw [trimBlank, dropWhile_trimBlank]
  rw [trimBlank, dropTrailing_eq_rdropWhile, dropTrailing_eq_rdropWhile]
  exact List.rdropWhile_idempotent isBlank _

end SessionRelay.Text
