import SessionRelay.Text.Utf8

/-!
Reading is strict: `decode?` gives a text for the bytes that `encode` writes for it, and for no
others.
-/

namespace SessionRelay.Utf8

theorem toNat_ofNat {n : Nat} (h : n < 256) : (UInt8.ofNat n).toNat = n := by
  rw [UInt8.toNat_ofNat']
  omega

theorem eq_ofNat {b : UInt8} {n : Nat} (h : b.toNat = n) : b = UInt8.ofNat n := by
  rw [← h]
  exact UInt8.ofNat_toNat.symm

section Leads

/-- What a byte begins, by its number. -/
theorem lead_eq (b : UInt8) :
    lead b =
      if b.toNat < 0x80 then .complete (Char.ofNat b.toNat)
      else if b.toNat < 0xC2 then .illFormed
      else if b.toNat < 0xE0 then .begun ⟨1, 0x80, 0xBF, b.toNat - 0xC0⟩
      else if b.toNat < 0xF0 then
        .begun ⟨2, if b.toNat = 0xE0 then 0xA0 else 0x80, if b.toNat = 0xED then 0x9F else 0xBF,
          b.toNat - 0xE0⟩
      else if b.toNat < 0xF5 then
        .begun ⟨3, if b.toNat = 0xF0 then 0x90 else 0x80, if b.toNat = 0xF4 then 0x8F else 0xBF,
          b.toNat - 0xF0⟩
      else .illFormed := by
  simp only [lead, UInt8.lt_iff_toNat_lt, ← UInt8.toNat_inj, UInt8.toNat_ofNat]

theorem lead_one {n : Nat} (h : n < 0x80) : lead (UInt8.ofNat n) = .complete (Char.ofNat n) := by
  rw [lead_eq, toNat_ofNat (by omega), if_pos h]

theorem lead_two {n : Nat} (low : 2 ≤ n) (high : n < 0x20) :
    lead (UInt8.ofNat (n + 0xC0)) = .begun ⟨1, 0x80, 0xBF, n⟩ := by
  rw [lead_eq, toNat_ofNat (by omega), if_neg (by omega), if_neg (by omega), if_pos (by omega),
    Nat.add_sub_cancel]

/-- The narrow ranges keep out overlong forms and surrogates. -/
theorem lead_three {n : Nat} (h : n < 0x10) :
    lead (UInt8.ofNat (n + 0xE0)) =
      .begun ⟨2, UInt8.ofNat (if n = 0 then 0xA0 else 0x80),
        UInt8.ofNat (if n = 0xD then 0x9F else 0xBF), n⟩ := by
  have first : n + 0xE0 = 0xE0 ↔ n = 0 := by omega
  have second : n + 0xE0 = 0xED ↔ n = 0xD := by omega
  rw [lead_eq, toNat_ofNat (by omega), if_neg (by omega), if_neg (by omega), if_neg (by omega),
    if_pos (by omega), Nat.add_sub_cancel]
  simp only [first, second, apply_ite UInt8.ofNat]
  rfl

/-- The narrow ranges keep out overlong forms and values past the last code point. -/
theorem lead_four {n : Nat} (h : n < 5) :
    lead (UInt8.ofNat (n + 0xF0)) =
      .begun ⟨3, UInt8.ofNat (if n = 0 then 0x90 else 0x80),
        UInt8.ofNat (if n = 4 then 0x8F else 0xBF), n⟩ := by
  have first : n + 0xF0 = 0xF0 ↔ n = 0 := by omega
  have second : n + 0xF0 = 0xF4 ↔ n = 4 := by omega
  rw [lead_eq, toNat_ofNat (by omega), if_neg (by omega), if_neg (by omega), if_neg (by omega),
    if_neg (by omega), if_pos (by omega), Nat.add_sub_cancel]
  simp only [first, second, apply_ite UInt8.ofNat]
  rfl

/-- A byte that may not begin a character, or one that begins a character of a known size. -/
theorem lead_cases (b : UInt8) :
    lead b = .illFormed ∨ (∃ n, n < 0x80 ∧ b = UInt8.ofNat n) ∨
      (∃ n, 2 ≤ n ∧ n < 0x20 ∧ b = UInt8.ofNat (n + 0xC0)) ∨
      (∃ n, n < 0x10 ∧ b = UInt8.ofNat (n + 0xE0)) ∨
      ∃ n, n < 5 ∧ b = UInt8.ofNat (n + 0xF0) := by
  by_cases one : b.toNat < 0x80
  · exact Or.inr (Or.inl ⟨b.toNat, one, eq_ofNat rfl⟩)
  by_cases ill : b.toNat < 0xC2
  · left
    rw [lead_eq, if_neg one, if_pos ill]
  by_cases two : b.toNat < 0xE0
  · right; right; left
    exact ⟨b.toNat - 0xC0, by omega, by omega, eq_ofNat (by omega)⟩
  by_cases three : b.toNat < 0xF0
  · right; right; right; left
    exact ⟨b.toNat - 0xE0, by omega, eq_ofNat (by omega)⟩
  by_cases four : b.toNat < 0xF5
  · right; right; right; right
    exact ⟨b.toNat - 0xF0, by omega, eq_ofNat (by omega)⟩
  · left
    rw [lead_eq, if_neg one, if_neg ill, if_neg two, if_neg three, if_neg four]

end Leads

section Characters

/-- The bytes of a character: one, or a leading byte and tails of six bits each. -/
inductive Spells : Char → Bytes → Prop where
  | one {n : Nat} : n < 0x80 → Spells (Char.ofNat n) [UInt8.ofNat n]
  | two {n t : Nat} : 2 ≤ n → n < 0x20 → t < 0x40 →
    Spells (Char.ofNat (n * 64 + t)) [UInt8.ofNat (n + 0xC0), UInt8.ofNat (t + 0x80)]
  | three {n t u : Nat} : n < 0x10 → t < 0x40 → u < 0x40 → (n = 0 → 0x20 ≤ t) →
    (n = 0xD → t < 0x20) →
    Spells (Char.ofNat ((n * 64 + t) * 64 + u))
      [UInt8.ofNat (n + 0xE0), UInt8.ofNat (t + 0x80), UInt8.ofNat (u + 0x80)]
  | four {n t u v : Nat} : n < 5 → t < 0x40 → u < 0x40 → v < 0x40 → (n = 0 → 0x10 ≤ t) →
    (n = 4 → t < 0x10) →
    Spells (Char.ofNat (((n * 64 + t) * 64 + u) * 64 + v))
      [UInt8.ofNat (n + 0xF0), UInt8.ofNat (t + 0x80), UInt8.ofNat (u + 0x80),
        UInt8.ofNat (v + 0x80)]

theorem utf8EncodeChar_eq (c : Char) :
    String.utf8EncodeChar c =
      if c.toNat ≤ 0x7F then [UInt8.ofNat c.toNat]
      else if c.toNat ≤ 0x7FF then
        [UInt8.ofNat (c.toNat / 64 % 32 + 0xC0), UInt8.ofNat (c.toNat % 64 + 0x80)]
      else if c.toNat ≤ 0xFFFF then
        [UInt8.ofNat (c.toNat / 4096 % 16 + 0xE0), UInt8.ofNat (c.toNat / 64 % 64 + 0x80),
          UInt8.ofNat (c.toNat % 64 + 0x80)]
      else
        [UInt8.ofNat (c.toNat / 262144 % 8 + 0xF0), UInt8.ofNat (c.toNat / 4096 % 64 + 0x80),
          UInt8.ofNat (c.toNat / 64 % 64 + 0x80), UInt8.ofNat (c.toNat % 64 + 0x80)] := rfl

theorem spells_utf8EncodeChar (c : Char) : Spells c (String.utf8EncodeChar c) := by
  have valid : c.toNat < 0xD800 ∨ 0xDFFF < c.toNat ∧ c.toNat < 0x110000 := c.valid
  have named {n : Nat} {bytes : Bytes} (h : Spells (Char.ofNat n) bytes) (same : n = c.toNat) :
      Spells c bytes := by
    rw [same, Char.ofNat_toNat] at h
    exact h
  rw [utf8EncodeChar_eq]
  by_cases one : c.toNat ≤ 0x7F
  · rw [if_pos one]
    exact named (.one (by omega)) rfl
  rw [if_neg one]
  by_cases two : c.toNat ≤ 0x7FF
  · rw [if_pos two]
    exact named (.two (by omega) (by omega) (by omega)) (by omega)
  rw [if_neg two]
  by_cases three : c.toNat ≤ 0xFFFF
  · rw [if_pos three]
    exact named (.three (by omega) (by omega) (by omega) (by omega) (by omega)) (by omega)
  · rw [if_neg three]
    exact named (.four (by omega) (by omega) (by omega) (by omega) (by omega) (by omega))
      (by omega)

theorem toNat_char_ofNat {n : Nat} (h : n < 0xD800 ∨ 0xDFFF < n ∧ n < 0x110000) :
    (Char.ofNat n).toNat = n := by
  rw [Char.ofNat, dif_pos h]
  rfl

theorem Spells.utf8EncodeChar {c : Char} {bytes : Bytes} (h : Spells c bytes) :
    String.utf8EncodeChar c = bytes := by
  rw [utf8EncodeChar_eq]
  cases h with
  | @one n h =>
    rw [toNat_char_ofNat (by omega), if_pos (by omega)]
  | @two n t low high ht =>
    rw [toNat_char_ofNat (by omega), if_neg (by omega), if_pos (by omega)]
    congr <;> omega
  | @three n t u h ht hu overlong surrogate =>
    rw [toNat_char_ofNat (by omega), if_neg (by omega), if_neg (by omega), if_pos (by omega)]
    congr <;> omega
  | @four n t u v h ht hu hv overlong last =>
    rw [toNat_char_ofNat (by omega), if_neg (by omega), if_neg (by omega), if_neg (by omega)]
    congr <;> omega

end Characters

section Units

theorem step_read (begun : Option Begun) (read : List (Option Char)) (b : UInt8) :
    Scan.step ⟨begun, read⟩ b =
      ⟨(Scan.step ⟨begun, []⟩ b).begun, (Scan.step ⟨begun, []⟩ b).read ++ read⟩ := by
  have first (more : List (Option Char)) : Scan.first (more ++ read) b =
      ⟨(Scan.first more b).begun, (Scan.first more b).read ++ read⟩ := by
    unfold Scan.first
    split <;> rfl
  cases begun with
  | none => exact first []
  | some p =>
    simp only [Scan.step]
    split
    · split <;> rfl
    · exact first [none]

/-- What is read later does not depend on what was read before. -/
theorem finish_foldl_read (bytes : Bytes) (begun : Option Begun) (read : List (Option Char)) :
    (bytes.foldl Scan.step ⟨begun, read⟩).finish =
      read.reverse ++ (bytes.foldl Scan.step ⟨begun, []⟩).finish := by
  induction bytes generalizing begun read with
  | nil => cases begun <;> simp [Scan.finish]
  | cons b rest ih =>
    rw [List.foldl_cons, List.foldl_cons, step_read]
    rw [ih, ih _ (Scan.step ⟨begun, []⟩ b).read]
    simp

/-- What a character under way and the bytes after it are read as. -/
def unitsFrom (begun : Option Begun) (bytes : Bytes) : List (Option Char) :=
  (bytes.foldl Scan.step ⟨begun, []⟩).finish

theorem unitsFrom_cons (begun : Option Begun) (b : UInt8) (rest : Bytes) :
    unitsFrom begun (b :: rest) =
      (Scan.step ⟨begun, []⟩ b).read.reverse ++
        unitsFrom (Scan.step ⟨begun, []⟩ b).begun rest :=
  finish_foldl_read rest _ _

theorem unitsFrom_complete {b : UInt8} {c : Char} (h : lead b = .complete c) (rest : Bytes) :
    unitsFrom none (b :: rest) = some c :: unitsFrom none rest := by
  rw [unitsFrom_cons, Scan.step, Scan.first, h]
  rfl

theorem unitsFrom_begun {b : UInt8} {p : Begun} (h : lead b = .begun p) (rest : Bytes) :
    unitsFrom none (b :: rest) = unitsFrom (some p) rest := by
  rw [unitsFrom_cons, Scan.step, Scan.first, h]
  rfl

theorem none_mem_of_illFormed {b : UInt8} (h : lead b = .illFormed) (rest : Bytes) :
    none ∈ unitsFrom none (b :: rest) := by
  rw [unitsFrom_cons, Scan.step, Scan.first, h]
  exact List.mem_cons_self

theorem between_iff {low high t : Nat} (hlow : low < 256) (hhigh : high < 256)
    (ht : t + 0x80 < 256) :
    (UInt8.ofNat low ≤ UInt8.ofNat (t + 0x80) ∧ UInt8.ofNat (t + 0x80) ≤ UInt8.ofNat high) ↔
      low ≤ t + 0x80 ∧ t + 0x80 ≤ high := by
  rw [UInt8.le_iff_toNat_le, UInt8.le_iff_toNat_le, toNat_ofNat hlow, toNat_ofNat hhigh,
    toNat_ofNat ht]

/-- A tail within its range, with more to come. -/
theorem unitsFrom_tail (low high : Nat) {owed value t : Nat} (hlow : low ≤ t + 0x80)
    (hhigh : t + 0x80 ≤ high) (byte : high < 256) (rest : Bytes) :
    unitsFrom (some ⟨owed + 2, UInt8.ofNat low, UInt8.ofNat high, value⟩)
        (UInt8.ofNat (t + 0x80) :: rest) =
      unitsFrom (some ⟨owed + 1, 0x80, 0xBF, value * 64 + t⟩) rest := by
  have inside := (between_iff (by omega) byte (by omega)).mpr ⟨hlow, hhigh⟩
  have more : ¬ owed + 2 ≤ 1 := by omega
  rw [unitsFrom_cons, Scan.step]
  simp only [inside, and_self, if_true, if_neg more, toNat_ofNat (by omega : t + 0x80 < 256),
    Nat.add_sub_cancel]
  rfl

/-- The last tail. -/
theorem unitsFrom_last (low high : Nat) {value t : Nat} (hlow : low ≤ t + 0x80)
    (hhigh : t + 0x80 ≤ high) (byte : high < 256) (rest : Bytes) :
    unitsFrom (some ⟨1, UInt8.ofNat low, UInt8.ofNat high, value⟩)
        (UInt8.ofNat (t + 0x80) :: rest) =
      some (Char.ofNat (value * 64 + t)) :: unitsFrom none rest := by
  have inside := (between_iff (by omega) byte (by omega)).mpr ⟨hlow, hhigh⟩
  rw [unitsFrom_cons, Scan.step]
  simp only [inside, and_self, if_true, Nat.le_refl, toNat_ofNat (by omega : t + 0x80 < 256),
    Nat.add_sub_cancel]
  rfl

/-- A character under way is ill-formed unless a tail within its range follows. -/
theorem exists_tail (low high : Nat) {owed value : Nat} (hlow : 0x80 ≤ low) (middle : low < high)
    (hhigh : high ≤ 0xBF) {bytes : Bytes}
    (whole : none ∉ unitsFrom (some ⟨owed, UInt8.ofNat low, UInt8.ofNat high, value⟩) bytes) :
    ∃ t rest, bytes = UInt8.ofNat (t + 0x80) :: rest ∧ low ≤ t + 0x80 ∧ t + 0x80 ≤ high := by
  cases bytes with
  | nil =>
    refine absurd ?_ whole
    simp [unitsFrom, Scan.finish]
  | cons b rest =>
    by_cases inside : UInt8.ofNat low ≤ b ∧ b ≤ UInt8.ofNat high
    · rw [UInt8.le_iff_toNat_le, UInt8.le_iff_toNat_le, toNat_ofNat (by omega),
        toNat_ofNat (by omega)] at inside
      refine ⟨b.toNat - 0x80, rest, ?_, by omega, by omega⟩
      rw [← eq_ofNat (by omega : b.toNat = b.toNat - 0x80 + 0x80)]
    · refine absurd ?_ whole
      rw [unitsFrom_cons, Scan.step]
      simp only [if_neg inside, List.mem_append]
      left
      unfold Scan.first
      split <;> simp

/-- The bytes of a character are read as it. -/
theorem Spells.unitsFrom_append {c : Char} {bytes : Bytes} (h : Spells c bytes) (rest : Bytes) :
    unitsFrom none (bytes ++ rest) = some c :: unitsFrom none rest := by
  cases h with
  | one h => exact unitsFrom_complete (lead_one h) rest
  | two low high ht =>
    refine (unitsFrom_begun (lead_two low high) _).trans ?_
    exact unitsFrom_last 0x80 0xBF (by omega) (by omega) (by decide) rest
  | three h ht hu overlong surrogate =>
    refine (unitsFrom_begun (lead_three h) _).trans ?_
    refine (unitsFrom_tail _ _ ?_ ?_ ?_ _).trans ?_
    · split <;> omega
    · split <;> omega
    · split <;> omega
    · exact unitsFrom_last 0x80 0xBF (by omega) (by omega) (by decide) rest
  | four h ht hu hv overlong last =>
    refine (unitsFrom_begun (lead_four h) _).trans ?_
    refine (unitsFrom_tail _ _ ?_ ?_ ?_ _).trans ?_
    · split <;> omega
    · split <;> omega
    · split <;> omega
    · refine (unitsFrom_tail 0x80 0xBF (by omega) (by omega) (by decide) _).trans ?_
      exact unitsFrom_last 0x80 0xBF (by omega) (by omega) (by decide) rest

/-- Bytes without an ill-formed stretch begin with those of a character. -/
theorem exists_spells {bytes : Bytes} (nonempty : bytes ≠ [])
    (whole : none ∉ unitsFrom none bytes) :
    ∃ c part rest, Spells c part ∧ part ≠ [] ∧ bytes = part ++ rest := by
  obtain ⟨b, rest, rfl⟩ := List.exists_cons_of_ne_nil nonempty
  rcases lead_cases b with ill | ⟨n, h, rfl⟩ | ⟨n, low, high, rfl⟩ | ⟨n, h, rfl⟩ | ⟨n, h, rfl⟩
  · exact absurd (none_mem_of_illFormed ill rest) whole
  · exact ⟨_, [_], rest, .one h, by simp, rfl⟩
  · rw [unitsFrom_begun (lead_two low high)] at whole
    obtain ⟨t, rest, rfl, h₁, h₂⟩ :=
      exists_tail 0x80 0xBF (by decide) (by decide) (by decide) whole
    exact ⟨_, [_, _], rest, .two low high (by omega), by simp, rfl⟩
  · rw [unitsFrom_begun (lead_three h)] at whole
    obtain ⟨t, rest, rfl, h₁, h₂⟩ :=
      exists_tail _ _ (by split <;> omega) (by split <;> split <;> omega) (by split <;> omega) whole
    rw [unitsFrom_tail _ _ h₁ h₂ (by split <;> omega)] at whole
    obtain ⟨u, rest, rfl, h₃, h₄⟩ :=
      exists_tail 0x80 0xBF (by decide) (by decide) (by decide) whole
    have overlong : n = 0 → 0x20 ≤ t := by
      intro first
      rw [if_pos first] at h₁
      omega
    have surrogate : n = 0xD → t < 0x20 := by
      intro first
      rw [if_pos first] at h₂
      omega
    have small : t + 0x80 ≤ 0xBF := Nat.le_trans h₂ (by split <;> omega)
    exact ⟨_, [_, _, _], rest, .three h (by omega) (by omega) overlong surrogate, by simp, rfl⟩
  · rw [unitsFrom_begun (lead_four h)] at whole
    obtain ⟨t, rest, rfl, h₁, h₂⟩ :=
      exists_tail _ _ (by split <;> omega) (by split <;> split <;> omega) (by split <;> omega) whole
    rw [unitsFrom_tail _ _ h₁ h₂ (by split <;> omega)] at whole
    obtain ⟨u, rest, rfl, h₃, h₄⟩ :=
      exists_tail 0x80 0xBF (by decide) (by decide) (by decide) whole
    have next := @unitsFrom_tail 0x80 0xBF 0 (n * 64 + t) u h₃ h₄ (by decide) rest
    obtain ⟨v, rest, rfl, h₅, h₆⟩ :=
      exists_tail 0x80 0xBF (by decide) (by decide) (by decide) (next ▸ whole)
    have overlong : n = 0 → 0x10 ≤ t := by
      intro first
      rw [if_pos first] at h₁
      omega
    have last : n = 4 → t < 0x10 := by
      intro first
      rw [if_pos first] at h₂
      omega
    have small : t + 0x80 ≤ 0xBF := Nat.le_trans h₂ (by split <;> omega)
    exact ⟨_, [_, _, _, _], rest, .four h (by omega) (by omega) (by omega) overlong last, by simp,
      rfl⟩

end Units

theorem units_encode (s : String) : units (encode s) = s.toList.map some := by
  have all (cs : List Char) : unitsFrom none (cs.flatMap String.utf8EncodeChar) = cs.map some := by
    induction cs with
    | nil => rfl
    | cons c rest ih =>
      rw [List.flatMap_cons, (spells_utf8EncodeChar c).unitsFrom_append, ih]
      rfl
  exact all s.toList

/-- The lenient reading changes nothing in what is well-formed. -/
theorem lossy_encode (s : String) : lossy (encode s) = s := by
  have same : ((fun u : Option Char => u.getD '\uFFFD') ∘ some) = id := rfl
  rw [lossy, units_encode, List.map_map, same, List.map_id, String.ofList_toList]

theorem exists_encode {bytes : Bytes} (whole : none ∉ unitsFrom none bytes) :
    ∃ cs : List Char, bytes = cs.flatMap String.utf8EncodeChar := by
  by_cases empty : bytes = []
  · exact ⟨[], empty⟩
  · obtain ⟨c, part, rest, spells, some_part, split⟩ := exists_spells empty whole
    have later : none ∉ unitsFrom none rest := by
      rw [split, spells.unitsFrom_append] at whole
      exact fun member => whole (List.mem_cons_of_mem _ member)
    have shorter : rest.length < bytes.length := by
      have pos := List.length_pos_iff.mpr some_part
      rw [split, List.length_append]
      omega
    obtain ⟨cs, same⟩ := exists_encode later
    refine ⟨c :: cs, ?_⟩
    rw [List.flatMap_cons, spells.utf8EncodeChar, split, same]
termination_by bytes.length

/-- Bytes are read as a text if and only if they are what is written for it. -/
theorem decode?_eq_some {bytes : Bytes} {s : String} :
    decode? bytes = some s ↔ bytes = encode s := by
  have back (s : String) : decode? (encode s) = some s := by
    rw [decode?, units_encode]
    simp
  constructor
  · intro read
    have whole : none ∉ unitsFrom none bytes := by
      intro member
      simp only [decode?] at read
      split at read
      · next all =>
        have := List.all_eq_true.mp all none member
        cases this
      · cases read
    obtain ⟨cs, rfl⟩ := exists_encode whole
    have same := back (String.ofList cs)
    rw [encode, String.toList_ofList, read] at same
    cases same
    rw [encode, String.toList_ofList]
  · rintro rfl
    exact back s

end SessionRelay.Utf8
