import SessionRelay.Config.Load
import SessionRelay.Proofs.Text.Split
import SessionRelay.Proofs.Toml.Paths

/-!
Settings of a command line, put into a document. An override changes what stands at its path and
nothing else, and what it puts there is of the kind of what was there. So whether an override can be
read does not depend on those in front of it, and of the overrides of one setting the last one
counts, wherever those of other settings stand.
-/

namespace SessionRelay

namespace Toml.Value

/-- A text, read as a value of a kind. Values with parts and dates are not read. -/
def Kind.read? (raw : String) : Kind → Option Value
  | .string => some (.string raw)
  | .integer =>
    (Integer.readInt? raw.toList).bind fun n =>
      if Integer.minSigned ≤ n ∧ n ≤ Integer.maxSigned then some (.integer n) else none
  | .float => (Binary64.read? raw.toList).map .float
  | .boolean =>
    if raw = "true" then some (.boolean true)
    else if raw = "false" then some (.boolean false)
    else none
  | .datetime => none
  | .array => none
  | .table => none

theorem Kind.of_read? {raw : String} {kind : Kind} {v : Value} (read : kind.read? raw = some v) :
    kind ≠ .table ∧ v.kind = kind := by
  cases kind with
  | string =>
    cases read
    exact ⟨nofun, rfl⟩
  | integer =>
    obtain ⟨n, -, inside⟩ := Option.bind_eq_some_iff.mp read
    split at inside
    · cases inside
      exact ⟨nofun, rfl⟩
    · cases inside
  | float =>
    obtain ⟨x, -, rfl⟩ := Option.map_eq_some_iff.mp read
    exact ⟨nofun, rfl⟩
  | boolean =>
    simp only [read?] at read
    split at read
    · cases read
      exact ⟨nofun, rfl⟩
    · split at read <;> cases read
      exact ⟨nofun, rfl⟩
  | datetime | array | table => cases read

end Toml.Value

namespace Config

open Toml (Value)
open Toml.Value (SameKinds)

namespace Override

/-- The override can be read as what stands at its path, which is a value without parts, and gives
the value. -/
def Reads (o : Override) (root v : Value) : Prop :=
  "" ∉ o.path ∧ ∃ kind, root.kindAt? o.path = some kind ∧ kind.read? o.raw = some v

/-- The last of the overrides of its setting. -/
def IsLast (o : Override) (os : List Override) : Prop :=
  ∃ before after, os = before ++ o :: after ∧ ∀ o' ∈ after, o'.key ≠ o.key

/-- The overrides in another order, in which those of any one setting keep theirs. -/
def Rearranges (os' os : List Override) : Prop :=
  ∀ key, os'.filter (fun o => o.key = key) = os.filter fun o => o.key = key

/-- The arguments that give the overrides. -/
def commandLine (os : List Override) : List String :=
  os.flatMap fun o => ["--" ++ o.key, o.raw]

/-! ### One override -/

theorem path_injective {o o' : Override} (same : o.path = o'.path) : o.key = o'.key := by
  have pieces : Text.pieces '.' o.key.toList = Text.pieces '.' o'.key.toList :=
    List.map_injective_iff.mpr (fun _ _ => String.ofList_injective) same
  apply String.toList_inj.mp
  rw [← Text.intercalate_pieces '.' o.key.toList, pieces, Text.intercalate_pieces]

theorem valueLike_eq_ok {o : Override} {current v : Value} :
    o.valueLike current = .ok v ↔ current.kind.read? o.raw = some v := by
  cases current with
  | string | datetime | array | table => simp [valueLike, Value.kind, Value.Kind.read?]
  | integer | float | boolean =>
    simp only [valueLike, Value.kind, Value.Kind.read?]
    split
    · next read => simp [read]
    · next unread => simp [unread]

theorem replaceAt_cons (o : Override) (key : String) (path : List String) (root : Value) :
    o.replaceAt (key :: path) root =
      match KeyTable.value? key root.entries with
      | none => .error (.unknownPath o.key)
      | some v => (o.replaceAt path v).map fun v => .table (KeyTable.put key v root.entries) := by
  cases root <;> rfl

theorem replaceAt_eq_ok {o : Override} {path : List String} {root root' : Value} :
    o.replaceAt path root = .ok root' ↔
      ∃ v, (∃ kind, root.kindAt? path = some kind ∧ kind.read? o.raw = some v) ∧
        root' = root.putAt path v := by
  induction path generalizing root root' with
  | nil =>
    rw [replaceAt, valueLike_eq_ok]
    simp [Value.kindAt?, Value.at?, Value.putAt]
  | cons key path ih =>
    rw [replaceAt_cons, Value.kindAt?, Value.at?_cons]
    cases found : KeyTable.value? key root.entries with
    | none => simp
    | some v =>
      simp only [Value.putAt, found]
      constructor
      · intro replaced
        cases deeper : o.replaceAt path v with
        | error e => simp [deeper, Except.map] at replaced
        | ok v' =>
          obtain ⟨new, read, rfl⟩ := ih.mp deeper
          simp only [deeper, Except.map, Except.ok.injEq] at replaced
          exact ⟨new, read, replaced.symm⟩
      · rintro ⟨new, read, rfl⟩
        simp [ih.mpr ⟨new, read, rfl⟩, Except.map]

theorem apply_eq_ok {o : Override} {root root' : Value} :
    o.apply root = .ok root' ↔ ∃ v, o.Reads root v ∧ root' = root.putAt o.path v := by
  have named : o.path.any String.isEmpty = true ↔ "" ∈ o.path := by simp
  unfold apply
  by_cases empty : "" ∈ o.path
  · simp [named.mpr empty, Reads, empty]
  · rw [if_neg (mt named.mp empty), replaceAt_eq_ok]
    simp [Reads, empty]

theorem reads_iff {root root' : Value} (same : SameKinds root root') {o : Override} {v : Value} :
    o.Reads root' v ↔ o.Reads root v := by
  rw [Reads, Reads, same]

namespace Reads

variable {o o' : Override} {root v v' : Value}

/-- What can be overridden has no parts, and its like is of its kind. -/
theorem old (reads : o.Reads root v) :
    ∃ old, root.at? o.path = some old ∧ old.kind ≠ .table ∧ v.kind = old.kind := by
  obtain ⟨-, kind, found, read⟩ := reads
  obtain ⟨old, here, rfl⟩ := Option.map_eq_some_iff.mp found
  obtain ⟨leaf, same⟩ := Value.Kind.of_read? read
  exact ⟨old, here, leaf, same⟩

theorem sameKinds (reads : o.Reads root v) : SameKinds root (root.putAt o.path v) := by
  obtain ⟨old, found, leaf, same⟩ := reads.old
  exact Value.sameKinds_putAt found leaf same

theorem at?_self (reads : o.Reads root v) : (root.putAt o.path v).at? o.path = some v := by
  obtain ⟨old, found, -⟩ := reads.old
  exact Value.at?_putAt_self found v

/-- Nothing stands below what can be overridden. -/
theorem not_below (reads : o.Reads root v) {path : List String} (below : o.path <+: path)
    (longer : path ≠ o.path) : root.at? path = none := by
  obtain ⟨old, found, leaf, -⟩ := reads.old
  obtain ⟨_ | ⟨key, rest⟩, rfl⟩ := below
  · simp at longer
  · rw [Value.at?_append, found, Option.bind_some, Value.at?_cons_of_ne_table leaf]

theorem at?_of_not_above (reads : o.Reads root v) {path : List String}
    (above : ¬ path <+: o.path) : (root.putAt o.path v).at? path = root.at? path := by
  by_cases below : o.path <+: path
  · have longer : path ≠ o.path := by
      rintro rfl
      exact above List.prefix_rfl
    have none := reads.not_below below longer
    have none' : (root.putAt o.path v).kindAt? path = .none := by
      rw [reads.sameKinds, Value.kindAt?, none, Option.map_none]
    rw [none, Option.map_eq_none_iff.mp none']
  · exact Value.at?_putAt_of_apart below above root v

theorem not_prefix (reads : o.Reads root v) (reads' : o'.Reads root v') (other : o'.key ≠ o.key) :
    ¬ o.path <+: o'.path := by
  intro below
  obtain ⟨old, found, -⟩ := reads'.old
  have nothing := reads.not_below below fun same => other (path_injective same)
  rw [found] at nothing
  cases nothing

end Reads

/-! ### Overrides in a row -/

@[simp] theorem applyAll_nil (root : Value) : applyAll [] root = .ok root := rfl

/-- The first of the overrides can be read, and the others are put into what it leaves. -/
theorem exists_of_applyAll_cons {o : Override} {os : List Override} {root root' : Value}
    (applied : applyAll (o :: os) root = .ok root') :
    ∃ v, o.Reads root v ∧ applyAll os (root.putAt o.path v) = .ok root' := by
  unfold applyAll at applied
  split at applied
  · cases applied
  · next first =>
    rw [apply_eq_ok] at first
    obtain ⟨v, reads, rfl⟩ := first
    exact ⟨v, reads, applied⟩

theorem Reads.applyAll_eq {o : Override} {root v : Value} (reads : o.Reads root v)
    (os : List Override) : applyAll (o :: os) root = applyAll os (root.putAt o.path v) := by
  have first : o.apply root = .ok (root.putAt o.path v) := by
    rw [apply_eq_ok]
    exact ⟨v, reads, rfl⟩
  rw [applyAll, first]

theorem applyAll_cons {o : Override} {os : List Override} {root root' : Value} :
    applyAll (o :: os) root = .ok root' ↔
      ∃ v, o.Reads root v ∧ applyAll os (root.putAt o.path v) = .ok root' := by
  refine ⟨exists_of_applyAll_cons, ?_⟩
  rintro ⟨v, reads, rest⟩
  rw [reads.applyAll_eq, rest]

theorem applyAll_append {os os' : List Override} {root root' : Value} :
    applyAll (os ++ os') root = .ok root' ↔
      ∃ middle, applyAll os root = .ok middle ∧ applyAll os' middle = .ok root' := by
  induction os generalizing root with
  | nil => simp
  | cons o os ih =>
    simp only [List.cons_append, applyAll_cons, ih]
    constructor
    · rintro ⟨v, reads, middle, first, second⟩
      exact ⟨middle, ⟨v, reads, first⟩, second⟩
    · rintro ⟨middle, ⟨v, reads, first⟩, second⟩
      exact ⟨v, reads, middle, first, second⟩

theorem sameKinds_of_applyAll {os : List Override} {root root' : Value}
    (applied : applyAll os root = .ok root') : SameKinds root root' := by
  induction os generalizing root with
  | nil =>
    cases applied
    exact fun path => rfl
  | cons o os ih =>
    obtain ⟨v, reads, rest⟩ := exists_of_applyAll_cons applied
    intro path
    rw [ih rest, reads.sameKinds]

/-- Overrides can be put into a document just in case that each of them can be read as what stands
in it, whatever the others are. -/
theorem exists_applyAll {os : List Override} {root : Value} :
    (∃ root', applyAll os root = .ok root') ↔ ∀ o ∈ os, ∃ v, o.Reads root v := by
  induction os generalizing root with
  | nil => simp
  | cons o os ih =>
    rw [List.forall_mem_cons]
    constructor
    · rintro ⟨root', applied⟩
      obtain ⟨v, reads, rest⟩ := exists_of_applyAll_cons applied
      have later := ih.mp ⟨root', rest⟩
      simp only [reads_iff reads.sameKinds] at later
      exact ⟨⟨v, reads⟩, later⟩
    · rintro ⟨⟨v, reads⟩, later⟩
      simp only [← reads_iff reads.sameKinds] at later
      obtain ⟨root', rest⟩ := ih.mpr later
      exact ⟨root', (reads.applyAll_eq os).trans rest⟩

theorem at?_applyAll {os : List Override} {root root' : Value}
    (applied : applyAll os root = .ok root') {path : List String}
    (above : ∀ o ∈ os, ¬ path <+: o.path) : root'.at? path = root.at? path := by
  induction os generalizing root with
  | nil =>
    cases applied
    rfl
  | cons o os ih =>
    obtain ⟨v, reads, rest⟩ := exists_of_applyAll_cons applied
    obtain ⟨first, later⟩ := List.forall_mem_cons.mp above
    rw [ih rest later, reads.at?_of_not_above first]

theorem IsLast.at?_applyAll {o : Override} {os : List Override} (last : o.IsLast os)
    {root root' : Value} (applied : applyAll os root = .ok root') :
    ∃ v, o.Reads root v ∧ root'.at? o.path = some v := by
  obtain ⟨before, after, rfl, others⟩ := last
  obtain ⟨middle, early, late⟩ := applyAll_append.mp applied
  obtain ⟨v, reads, rest⟩ := exists_of_applyAll_cons late
  refine ⟨v, (reads_iff (sameKinds_of_applyAll early)).mp reads, ?_⟩
  rw [Override.at?_applyAll rest, reads.at?_self]
  intro o' member
  have reads' := exists_applyAll.mp ⟨root', rest⟩ o' member
  simp only [reads_iff reads.sameKinds] at reads'
  obtain ⟨v', reads'⟩ := reads'
  exact reads.not_prefix reads' (others o' member)

/-! ### Overrides in another order -/

theorem Rearranges.mem_iff {os os' : List Override} (same : Rearranges os' os) {o : Override} :
    o ∈ os' ↔ o ∈ os := by
  have here : o ∈ os'.filter (fun o' => o'.key = o.key) ↔
      o ∈ os.filter fun o' => o'.key = o.key := by
    rw [same]
  simpa using here

/-- Overrides of two settings can change places. -/
theorem applyAll_swap {o o' : Override} (other : o'.key ≠ o.key) {os : List Override}
    {root root' : Value} (applied : applyAll (o :: o' :: os) root = .ok root') :
    applyAll (o' :: o :: os) root = .ok root' := by
  obtain ⟨v, reads, later⟩ := exists_of_applyAll_cons applied
  obtain ⟨v', reads', rest⟩ := exists_of_applyAll_cons later
  rw [reads_iff reads.sameKinds] at reads'
  rw [Value.putAt_comm (reads.not_prefix reads' other) (reads'.not_prefix reads other.symm)] at rest
  rw [← reads_iff reads'.sameKinds] at reads
  rw [reads'.applyAll_eq, reads.applyAll_eq, rest]

/-- An override can be taken to the front, past those of other settings. -/
theorem applyAll_front {o : Override} {before : List Override}
    (others : ∀ o' ∈ before, o'.key ≠ o.key) {after : List Override} {root root' : Value} :
    applyAll (before ++ o :: after) root = .ok root' ↔
      applyAll (o :: (before ++ after)) root = .ok root' := by
  induction before generalizing root with
  | nil => rfl
  | cons first before ih =>
    obtain ⟨other, rest⟩ := List.forall_mem_cons.mp others
    have swap : applyAll (first :: o :: (before ++ after)) root = .ok root' ↔
        applyAll (o :: first :: (before ++ after)) root = .ok root' :=
      ⟨applyAll_swap other.symm, applyAll_swap other⟩
    rw [List.cons_append, List.cons_append, ← swap, applyAll_cons, applyAll_cons]
    simp only [ih rest]

theorem Rearranges.applyAll_iff {os os' : List Override} (same : Rearranges os' os)
    {root root' : Value} : applyAll os' root = .ok root' ↔ applyAll os root = .ok root' := by
  induction os generalizing os' root with
  | nil =>
    have none : os' = [] := List.eq_nil_iff_forall_not_mem.mpr fun o => by simp [same.mem_iff]
    rw [none]
  | cons o os ih =>
    have first := same o.key
    rw [List.filter_cons_of_pos (by simp)] at first
    obtain ⟨before, after, rfl, others, -, later⟩ := List.filter_eq_cons_iff.mp first
    have others' : ∀ o' ∈ before, o'.key ≠ o.key := by simpa using others
    have rest : Rearranges (before ++ after) os := by
      intro key
      have whole := same key
      by_cases here : o.key = key
      · subst here
        rw [List.filter_append, List.filter_eq_nil_iff.mpr others, List.nil_append, later]
      · simpa [List.filter_append, here] using whole
    rw [applyAll_front others', applyAll_cons, applyAll_cons]
    simp only [ih rest]

/-! ### The command line -/

theorem readAll_commandLine {os : List Override} (named : ∀ o ∈ os, o.key ≠ "") :
    readAll (commandLine os) = .ok os := by
  induction os with
  | nil => rfl
  | cons o os ih =>
    obtain ⟨some, rest⟩ := List.forall_mem_cons.mp named
    have key : Text.after? ['-', '-'] ("--" ++ o.key).toList = .some o.key.toList :=
      Text.after?_eq_some.mpr (by simp)
    have filled : o.key.toList ≠ [] := by simpa using some
    have line : commandLine (o :: os) = ("--" ++ o.key) :: o.raw :: commandLine os := rfl
    rw [line, readAll, key]
    cases chars : o.key.toList with
    | nil => exact absurd chars filled
    | cons c cs =>
      simp [ih rest, Except.map, ← chars]

theorem finish_commandLine {os : List Override} (named : ∀ o ∈ os, o.key ≠ "") {root : Value}
    {s : Settings} :
    Settings.finish root (commandLine os) = .ok s ↔
      ∃ root', applyAll os root = .ok root' ∧
        (Settings.ofToml root').bind Settings.checked = .ok s := by
  unfold Settings.finish
  rw [readAll_commandLine named]
  dsimp only
  cases applied : applyAll os root with
  | error e => simp
  | ok root' => cases decoded : Settings.ofToml root' <;> simp [decoded, Except.bind]

/-- Overrides can be put into a document just in case that each of them alone can be read as what
stands in it. Then the last value of each setting stands at its path, all that no override has to do
with is as it was, and there are the same paths to values of the same kinds. So it does not matter
in which order the overrides of different settings are given, for the document or the settings. -/
theorem overrides_compose :
    (∀ (root : Value) (os : List Override),
      (∃ root', applyAll os root = .ok root') ↔ ∀ o ∈ os, ∃ v, o.Reads root v) ∧
    (∀ (root root' : Value) (os : List Override), applyAll os root = .ok root' →
      (∀ o : Override, o.IsLast os → ∃ v, o.Reads root v ∧ root'.at? o.path = some v) ∧
      (∀ path, (∀ o ∈ os, ¬ path <+: o.path) → root'.at? path = root.at? path) ∧
      SameKinds root root') ∧
    (∀ os os' : List Override, Rearranges os' os → ∀ root root' : Value,
      applyAll os' root = .ok root' ↔ applyAll os root = .ok root') ∧
    ∀ os os' : List Override, (∀ o ∈ os, o.key ≠ "") → Rearranges os' os →
      ∀ (root : Value) (s : Settings),
        Settings.finish root (commandLine os') = .ok s ↔
          Settings.finish root (commandLine os) = .ok s := by
  refine ⟨?_, ?_, ?_, ?_⟩
  · intro root os
    exact exists_applyAll
  · intro root root' os applied
    refine ⟨?_, ?_, sameKinds_of_applyAll applied⟩
    · intro o last
      exact last.at?_applyAll applied
    · intro path above
      exact at?_applyAll applied above
  · intro os os' same root root'
    exact same.applyAll_iff
  · intro os os' named same root s
    have named' : ∀ o ∈ os', o.key ≠ "" := fun o member => named o (same.mem_iff.mp member)
    simp only [finish_commandLine named, finish_commandLine named', same.applyAll_iff]

/-- A setting is overridden, then another one, then the first one again. -/
def repeated : List Override :=
  [⟨"server.port", "7100"⟩, ⟨"logging.human_friendly", "true"⟩, ⟨"server.port", "+80"⟩]

theorem repeated_overrides_compose :
    (∃ root', applyAll repeated Settings.standard.toToml = .ok root' ∧
      root'.at? ["server", "port"] = some (.integer 80) ∧
      root'.at? ["server", "host"] = some (.string "127.0.0.1")) ∧
    Settings.finish Settings.standard.toToml
        ["--server.port", "7100", "--server.port", "+80", "--logging.human_friendly", "true"] =
      .ok { Settings.standard with
        logging := ⟨"info", true⟩
        server := ⟨"127.0.0.1", 80⟩ } := by
  constructor
  · have applied : ∃ root', applyAll repeated Settings.standard.toToml = .ok root' := ⟨_, by rfl⟩
    obtain ⟨root', applied⟩ := applied
    have composed := overrides_compose.2.1 _ _ _ applied
    refine ⟨root', applied, ?_, ?_⟩
    · have last : IsLast ⟨"server.port", "+80"⟩ repeated :=
        ⟨repeated.dropLast, [], rfl, nofun⟩
      obtain ⟨v, ⟨-, kind, found, read⟩, here⟩ := composed.1 _ last
      cases (show Value.Kind.integer = kind from Option.some.inj found)
      cases (show Value.integer 80 = v from Option.some.inj read)
      exact here
    · exact composed.2.1 ["server", "host"] (by decide)
  · have moved : Rearranges
        [⟨"server.port", "7100"⟩, ⟨"server.port", "+80"⟩, ⟨"logging.human_friendly", "true"⟩]
        repeated := by
      intro key
      by_cases port : "server.port" = key
      · simp [repeated, ← port]
      · by_cases human : "logging.human_friendly" = key <;> simp [repeated, port, human]
    exact (overrides_compose.2.2.2 _ _ (by decide) moved _ _).mpr (by rfl)

end Override

end Config

end SessionRelay
