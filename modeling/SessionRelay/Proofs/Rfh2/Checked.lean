import SessionRelay.Proofs.Rfh2.Grammar

/-!
Reading a framed message by offsets, with every sum and every access checked. Lengths come from
whoever wrote the message, so a sum of offsets might be too large for 32 bits, and an offset might
lie outside; here either ends the reading without a result. It never comes to that, and the result
is that of `Message.decode`.
-/

namespace SessionRelay.Rfh2

namespace Checked

/-- A number that fits 32 bits, the least width of an offset. -/
def IsOffset (n : Nat) : Prop := n < 0x100000000

instance (n : Nat) : Decidable (IsOffset n) := inferInstanceAs (Decidable (_ < _))

/-- The number at an offset, if its four bytes lie in the message. -/
def int32At? (bytes : Bytes) (offset : Nat) : Option Int :=
  if IsOffset (offset + 3) then
    match bytes[offset]?, bytes[offset + 1]?, bytes[offset + 2]?, bytes[offset + 3]? with
    | some a, some b, some c, some d => some (int32 a b c d)
    | _, _, _, _ => none
  else none

/-- The bytes from one offset to another, if they lie in the message. -/
def slice? (bytes : Bytes) (start stop : Nat) : Option Bytes :=
  if start ≤ stop ∧ stop ≤ bytes.length then some ((bytes.drop start).take (stop - start))
  else none

def isFramed? (bytes : Bytes) : Option Bool :=
  if bytes.length < 8 then some false
  else
    (slice? bytes 0 4).bind fun first =>
      if first ≠ marker then some false
      else (int32At? bytes 4).map fun number => number == version

def header? (bytes : Bytes) : Option Header := do
  let marker ← slice? bytes 0 4
  let version ← int32At? bytes 4
  let totalLength ← int32At? bytes 8
  let encoding ← int32At? bytes 12
  let charset ← int32At? bytes 16
  let format ← slice? bytes 20 28
  let flags ← int32At? bytes 28
  let nameCharset ← int32At? bytes 32
  return ⟨marker, version, totalLength, encoding, charset, format, flags, nameCharset⟩

/-- The folders from an offset on, up to another. Each round goes on at a greater offset. -/
def folders? (bytes : Bytes) (stop offset : Nat) : Option (Except Error (List Folder)) :=
  if offset < stop then
    if ¬ IsOffset (offset + 4) then none
    else if stop < offset + 4 then some (.error (.truncatedFolder offset))
    else
      match int32At? bytes offset with
      | none => none
      | some length =>
        if length < 0 then some (.error (.truncatedFolder offset))
        else if ¬ IsOffset (offset + 4 + length.toNat) then none
        else if stop < offset + 4 + length.toNat then some (.error (.truncatedFolder offset))
        else
          match slice? bytes (offset + 4) (offset + 4 + length.toNat) with
          | none => none
          | some block =>
            match Folder.ofBytes offset block with
            | .error e => some (.error e)
            | .ok folder =>
              (folders? bytes stop (offset + 4 + length.toNat)).map (·.map (folder :: ·))
  else some (.ok [])
termination_by stop - offset

def decode? (bytes : Bytes) : Option (Except Error Message) :=
  (isFramed? bytes).bind fun framed =>
    if !framed then some (.error .notFramed)
    else if bytes.length < headerLength then some (.error (.truncatedHeader bytes.length))
    else
      (header? bytes).bind fun header =>
        let length := header.totalLength
        if length < headerLength ∨ (bytes.length : Int) < length then
          some (.error (.invalidLength length bytes.length))
        else
          (folders? bytes length.toNat headerLength).bind fun
            | .error e => some (.error e)
            | .ok folders =>
              (slice? bytes length.toNat bytes.length).map fun body =>
                .ok ⟨header, folders, body⟩

theorem int32At?_append (before : Bytes) {n : Int} (fits : IsInt32 n) (rest : Bytes)
    (h : IsOffset (before.length + 3)) :
    int32At? (before ++ (int32Bytes n ++ rest)) before.length = some n := by
  have taken := takeInt32?_int32Bytes fits rest
  simp only [int32Bytes, List.cons_append, List.nil_append, takeInt32?, Option.some.injEq,
    Prod.mk.injEq, and_true] at taken
  rw [int32At?, if_pos h]
  simp [int32Bytes, taken]

theorem int32At?_of_takeInt32? {bytes rest : Bytes} {offset : Nat} {n : Int}
    (h : IsOffset (offset + 3)) (taken : takeInt32? (bytes.drop offset) = some (n, rest)) :
    int32At? bytes offset = some n ∧ rest = bytes.drop (offset + 4) := by
  obtain ⟨tail, fits⟩ := eq_of_takeInt32? taken
  have front : (bytes.take offset).length = offset := by
    have left : (bytes.drop offset).length ≠ 0 := by
      rw [tail]
      simp
    rw [List.length_drop] at left
    rw [List.length_take]
    omega
  have found := int32At?_append (bytes.take offset) fits rest (by rwa [front])
  rw [← tail, List.take_append_drop, front] at found
  refine ⟨found, ?_⟩
  rw [← List.drop_drop, tail]
  rfl

theorem slice?_append (before block rest : Bytes) :
    slice? (before ++ (block ++ rest)) before.length (before.length + block.length) =
      some block := by
  have inside : before.length ≤ before.length + block.length ∧
      before.length + block.length ≤ (before ++ (block ++ rest)).length := by
    simp only [List.length_append]
    omega
  rw [slice?, if_pos inside, List.drop_left, Nat.add_sub_cancel_left, List.take_left]

/-- Between `before` and `body` an area lies within the message, below the greatest number of 32
bits with a sign. The offset stays in it, so no sum gets too large and no access is outside. -/
theorem folders?_eq {count : Nat} (before area body : Bytes) (enough : area.length ≤ count)
    (small : before.length + area.length < 0x80000000) :
    folders? (before ++ (area ++ body)) (before.length + area.length) before.length =
      some (Folder.all count before.length area) := by
  induction count generalizing before area with
  | zero =>
    have empty : area = [] := List.length_eq_zero_iff.mp (by omega)
    subst empty
    rw [folders?, if_neg (by simp)]
    rfl
  | succ count ih =>
    by_cases empty : area = []
    · subst empty
      rw [folders?, if_neg (by simp)]
      rfl
    · have pos := List.length_pos_iff.mpr empty
      have start : IsOffset (before.length + 4) := by
        unfold IsOffset
        omega
      rw [folders?, if_pos (by omega), if_neg (not_not.mpr start)]
      by_cases short : area.length < 4
      · have none : Folder.takeBlock? area = none := by
          rw [Folder.takeBlock?, takeInt32?_eq_none.mpr short]
        rw [if_pos (by omega), Folder.all_of_truncated empty none]
      · obtain ⟨n, rest, taken, total⟩ := exists_takeInt32? area (by omega)
        obtain ⟨rfl, fits⟩ := eq_of_takeInt32? taken
        have number : int32At? (before ++ (int32Bytes n ++ rest ++ body)) before.length =
            some n := by
          rw [List.append_assoc]
          exact int32At?_append before fits _ (by unfold IsOffset; omega)
        rw [if_neg (by omega), number]
        dsimp only
        by_cases outside : n < 0 ∨ (rest.length : Int) < n
        · have none : Folder.takeBlock? (int32Bytes n ++ rest) = none := by
            rw [Folder.takeBlock?_int32Bytes fits, if_pos outside]
          rw [Folder.all_of_truncated empty none]
          by_cases negative : n < 0
          · rw [if_pos negative]
          · have fits_offset : IsOffset (before.length + 4 + n.toNat) := by
              have := fits.2
              unfold IsOffset
              omega
            rw [if_neg negative, if_neg (not_not.mpr fits_offset), if_pos]
            rw [List.length_append, int32Bytes_length]
            omega
        · obtain ⟨block, more, rfl, rfl⟩ : ∃ block more, rest = block ++ more ∧
              n = (block.length : Nat) := by
            refine ⟨rest.take n.toNat, rest.drop n.toNat, (List.take_append_drop ..).symm, ?_⟩
            rw [List.length_take]
            omega
          simp only [List.length_append, int32Bytes_length] at enough small outside
          have fits_offset : IsOffset (before.length + 4 + block.length) := by
            unfold IsOffset
            omega
          have cut := slice?_append (before ++ int32Bytes block.length) block (more ++ body)
          simp only [List.length_append, int32Bytes_length, List.append_assoc] at cut
          simp only [Int.toNat_natCast, List.append_assoc]
          rw [if_neg (by omega), if_neg (not_not.mpr fits_offset), if_neg, cut,
            Folder.all_block fits]
          · dsimp only
            cases Folder.ofBytes before.length block with
            | error e => rfl
            | ok folder =>
              have later := ih (before ++ int32Bytes block.length ++ block) more (by omega)
                (by simp only [List.length_append, int32Bytes_length]; omega)
              have stop : before.length + (int32Bytes block.length ++ (block ++ more)).length =
                  before.length + 4 + block.length + more.length := by
                simp only [List.length_append, int32Bytes_length]
                omega
              simp only [List.length_append, int32Bytes_length, List.append_assoc] at later
              dsimp only
              rw [stop, Nat.add_assoc before.length, later]
              rfl
          · simp only [List.length_append, int32Bytes_length]
            omega

theorem isFramed?_eq (bytes : Bytes) : isFramed? bytes = some (isFramed bytes) := by
  unfold isFramed?
  split
  · next short =>
    cases framed : isFramed bytes with
    | false => rfl
    | true =>
      have long := (isFramed_iff.mp framed).length_le
      simp [marker] at long
      omega
  · next long =>
    obtain ⟨n, rest, taken, -⟩ := exists_takeInt32? (bytes.drop 4) (by rw [List.length_drop]; omega)
    have number := (int32At?_of_takeInt32? (by decide) taken).1
    have first := slice?_append [] (bytes.take 4) (bytes.drop 4)
    have four : (bytes.take 4).length = 4 := by
      rw [List.length_take]
      omega
    rw [List.nil_append, List.take_append_drop, List.length_nil, Nat.zero_add, four] at first
    rw [first, number, isFramed, taken]
    by_cases marked : bytes.take 4 = marker
    · simp [marked]
    · simp [marked]

theorem header?_eq {bytes rest : Bytes} {h : Header} (taken : Header.take? bytes = some (h, rest)) :
    header? bytes = some h := by
  have long : 36 ≤ bytes.length := by
    obtain ⟨whole, fits⟩ := Header.eq_of_take? taken
    rw [whole, List.length_append, fits.bytes_length]
    exact Nat.le_add_right ..
  simp only [Header.take?, List.splitAt_eq, Option.bind_eq_some_iff, Option.map_eq_some_iff,
    Prod.exists] at taken
  obtain ⟨version, _, t₁, totalLength, _, t₂, encoding, _, t₃, charset, _, t₄, flags, _, t₅,
    nameCharset, _, t₆, made⟩ := taken
  cases made
  obtain ⟨v₁, rfl⟩ := int32At?_of_takeInt32? (by decide) t₁
  obtain ⟨v₂, rfl⟩ := int32At?_of_takeInt32? (by decide) t₂
  obtain ⟨v₃, rfl⟩ := int32At?_of_takeInt32? (by decide) t₃
  obtain ⟨v₄, rfl⟩ := int32At?_of_takeInt32? (by decide) t₄
  rw [List.drop_drop] at t₅
  obtain ⟨v₅, rfl⟩ := int32At?_of_takeInt32? (by decide) t₅
  obtain ⟨v₆, -⟩ := int32At?_of_takeInt32? (by decide) t₆
  have marked : slice? bytes 0 4 = some (bytes.take 4) := by
    rw [slice?, if_pos (by omega), List.drop_zero]
  have formatted : slice? bytes 20 28 = some ((bytes.drop 20).take 8) := by
    rw [slice?, if_pos (by omega)]
  simp only [header?, marked, v₁, v₂, v₃, v₄, formatted, v₅, v₆]
  rfl

theorem decode?_eq (bytes : Bytes) : decode? bytes = some (Message.decode bytes) := by
  unfold decode? Message.decode
  rw [isFramed?_eq]
  cases framed : isFramed bytes with
  | false => rfl
  | true =>
    simp only [Option.bind_some, Bool.not_true, Bool.false_eq_true, if_false]
    split
    · next short => rw [Header.take?_eq_none.mpr short]
    · next long =>
      obtain ⟨h, rest, taken⟩ := Header.exists_take? (Nat.not_lt.mp long)
      obtain ⟨rfl, fits⟩ := Header.eq_of_take? taken
      rw [header?_eq taken, taken]
      simp only [Option.bind_some]
      split
      · rfl
      · next inside =>
        have total := fits.totalLength.2
        rw [List.length_append, fits.bytes_length] at inside
        obtain ⟨area, body, rfl, size⟩ : ∃ area body, rest = area ++ body ∧
            h.totalLength.toNat = h.bytes.length + area.length := by
          refine ⟨rest.take (h.totalLength.toNat - headerLength), rest.drop _,
            (List.take_append_drop ..).symm, ?_⟩
          rw [List.length_take, fits.bytes_length]
          omega
        have read := folders?_eq h.bytes area body (Nat.le_refl _) (by omega)
        have left := slice?_append (h.bytes ++ area) body []
        rw [List.append_nil, List.append_assoc, List.length_append, ← size] at left
        have whole : (h.bytes ++ (area ++ body)).length = h.totalLength.toNat + body.length := by
          simp only [List.length_append, size]
          omega
        rw [whole, left, size, ← fits.bytes_length, read, List.take_length_add_append,
          List.drop_length_add_append]
        simp only [Option.bind_some, List.take_left, List.drop_left]
        cases Folder.all area.length h.bytes.length area <;> rfl

end Checked

/-- Whatever the bytes are, reading them by checked offsets comes to a result, which is that of
`Message.decode`. A message is accepted if and only if it is of the grammar, and then it is its
header, its folders in order and its body, byte for byte. One that is refused is refused for its
first defect, and at the offset of the first folder that has one. -/
theorem decode_exact (bytes : Bytes) :
    Checked.decode? bytes = some (Message.decode bytes) ∧
    (∀ m, Message.decode bytes = .ok m ↔ m.Spells bytes) ∧
    ∀ e, Message.decode bytes = .error e ↔ Message.Refused bytes e :=
  ⟨Checked.decode?_eq bytes, fun _ => Message.decode_eq_ok, fun _ => Message.decode_eq_error⟩

end SessionRelay.Rfh2
