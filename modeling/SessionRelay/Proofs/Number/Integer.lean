import SessionRelay.Number.Integer

/-!
Whole numbers in decimal: the digits that are written for a number, and that they are read back.
-/

namespace SessionRelay.Integer

/-- The digits of a number in decimal, as numbers. -/
def decimals (n : Nat) : List Nat := (digits n).map fun c => c.toNat - 48

/-- Digits that write a number, with no zero in front. -/
structure Writes (ds : List Nat) (n : Nat) : Prop where
  chars : digits n = ds.map Nat.digitChar
  small : ∀ d ∈ ds, d < 10
  value : ofDigits ds = n
  lead : (n = 0 ∧ ds = [0]) ∨ ∃ d rest, ds = d :: rest ∧ 0 < d

theorem writes_of_lt {n : Nat} (h : n < 10) : Writes [n] n where
  chars := Nat.toDigits_of_lt_base h
  small := List.forall_mem_singleton.mpr h
  value := Nat.zero_add n
  lead := by
    rcases Nat.eq_zero_or_pos n with rfl | pos
    · exact Or.inl ⟨rfl, rfl⟩
    · exact Or.inr ⟨n, [], rfl, pos⟩

theorem Writes.push {ds : List Nat} {n : Nat} (writes : Writes ds (n / 10)) (h : 10 ≤ n) :
    Writes (ds ++ [n % 10]) n where
  chars := by
    rw [digits, Nat.toDigits_of_base_le (by decide) h, List.map_append]
    exact congrArg (· ++ [(n % 10).digitChar]) writes.chars
  small := by
    intro d member
    rcases List.mem_append.mp member with earlier | last
    · exact writes.small d earlier
    · rw [List.mem_singleton.mp last]
      omega
  value := by
    have before : ds.foldl (fun n d => n * 10 + d) 0 = n / 10 := writes.value
    rw [ofDigits, List.foldl_append, before]
    exact Nat.div_add_mod' n 10
  lead := by
    rcases writes.lead with ⟨zero, -⟩ | ⟨d, rest, rfl, pos⟩
    · omega
    · exact Or.inr ⟨d, rest ++ [n % 10], rfl, pos⟩

theorem exists_writes (n : Nat) : ∃ ds, Writes ds n := by
  induction n using Nat.strongRecOn with
  | _ n ih =>
    rcases Nat.lt_or_ge n 10 with small | large
    · exact ⟨[n], writes_of_lt small⟩
    · obtain ⟨ds, writes⟩ := ih (n / 10) (by omega)
      exact ⟨ds ++ [n % 10], writes.push large⟩

theorem writes_decimals (n : Nat) : Writes (decimals n) n := by
  obtain ⟨ds, writes⟩ := exists_writes n
  have back : ds.map ((fun c : Char => c.toNat - 48) ∘ Nat.digitChar) = ds := by
    conv => rhs; rw [← List.map_id ds]
    refine List.map_congr_left fun d member => ?_
    simp [Nat.toNat_digitChar_of_lt_ten (writes.small d member)]
  rw [decimals, writes.chars, List.map_map, back]
  exact writes

theorem digit?_digitChar : ∀ d < 10, digit? d.digitChar = some d := by decide

theorem digits?_map_digitChar {ds : List Nat} (some : ds ≠ []) (small : ∀ d ∈ ds, d < 10) :
    digits? (ds.map Nat.digitChar) = .some ds := by
  have read : (ds.map Nat.digitChar).map digit? = ds.map .some := by
    rw [List.map_map]
    exact List.map_congr_left fun d member => digit?_digitChar d (small d member)
  unfold digits?
  dsimp only
  rw [read]
  simp [some]

theorem Writes.ne_nil {ds : List Nat} {n : Nat} (writes : Writes ds n) : ds ≠ [] := by
  rcases writes.lead with ⟨-, rfl⟩ | ⟨d, rest, rfl, -⟩ <;> simp

@[simp] theorem readDigits?_digits (n : Nat) : readDigits? (digits n) = some n := by
  have writes := writes_decimals n
  rw [readDigits?, writes.chars, digits?_map_digitChar writes.ne_nil writes.small, Option.map_some,
    writes.value]

theorem isDigit_of_mem_digits {c : Char} {n : Nat} (member : c ∈ digits n) : c.isDigit :=
  Nat.isDigit_of_mem_toDigits (by decide) (by decide) member

theorem not_mem_digits {c : Char} (other : c.isDigit = false) (n : Nat) : c ∉ digits n := by
  intro member
  simp [isDigit_of_mem_digits member] at other

@[simp] theorem readNat?_digits (n : Nat) : readNat? (digits n) = some n := by
  unfold readNat?
  split
  · next rest plus =>
    have member : '+' ∈ digits n := plus ▸ List.mem_cons_self
    exact absurd member (not_mem_digits rfl n)
  · exact readDigits?_digits n

end SessionRelay.Integer
