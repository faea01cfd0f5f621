import SessionRelay.Rfh2.Header

/-!
Headers and their bytes. Numbers of 32 bits and whole headers are read back from the bytes that they
are written as, and what is read is written as the bytes that it was read from.
-/

namespace SessionRelay.Rfh2

/-- A number that four bytes can hold. -/
def IsInt32 (n : Int) : Prop := -0x80000000 ≤ n ∧ n < 0x80000000

instance (n : Int) : Decidable (IsInt32 n) := inferInstanceAs (Decidable (_ ∧ _))

@[simp] theorem int32Bytes_length (n : Int) : (int32Bytes n).length = 4 := rfl

theorem isInt32_int32 (a b c d : UInt8) : IsInt32 (int32 a b c d) := by
  have ha := a.toNat_lt
  have hb := b.toNat_lt
  have hc := c.toNat_lt
  have hd := d.toNat_lt
  unfold int32 IsInt32
  dsimp only
  split <;> omega

/-- Each of the four bytes holds eight bits of the number. -/
theorem int32_ofNat {word : Nat} (h : word < 0x100000000) :
    int32 (UInt8.ofNat word) (UInt8.ofNat (word / 0x100)) (UInt8.ofNat (word / 0x10000))
      (UInt8.ofNat (word / 0x1000000)) =
        if word < 0x80000000 then (word : Int) else (word : Int) - 0x100000000 := by
  unfold int32
  simp only [UInt8.toNat_ofNat']
  have whole : word % 2 ^ 8 + 256 * (word / 0x100 % 2 ^ 8 + 256 * (word / 0x10000 % 2 ^ 8 +
      256 * (word / 0x1000000 % 2 ^ 8))) = word := by
    omega
  rw [whole]

theorem takeInt32?_int32Bytes {n : Int} (h : IsInt32 n) (rest : Bytes) :
    takeInt32? (int32Bytes n ++ rest) = some (n, rest) := by
  obtain ⟨low, high⟩ := h
  have small : (n % 0x100000000).toNat < 0x100000000 := by omega
  have back := int32_ofNat small
  simp only [int32Bytes, List.cons_append, List.nil_append, takeInt32?, back]
  congr 2
  split <;> omega

theorem int32Bytes_int32 (a b c d : UInt8) : int32Bytes (int32 a b c d) = [a, b, c, d] := by
  have ha := a.toNat_lt
  have hb := b.toNat_lt
  have hc := c.toNat_lt
  have hd := d.toNat_lt
  have word : (int32 a b c d % 0x100000000).toNat =
      a.toNat + 256 * (b.toNat + 256 * (c.toNat + 256 * d.toNat)) := by
    unfold int32
    dsimp only
    split <;> omega
  unfold int32Bytes
  rw [word]
  simp only [List.cons.injEq, and_true, ← UInt8.toNat_inj, UInt8.toNat_ofNat']
  omega

theorem eq_of_takeInt32? {bytes rest : Bytes} {n : Int} (h : takeInt32? bytes = some (n, rest)) :
    bytes = int32Bytes n ++ rest ∧ IsInt32 n := by
  unfold takeInt32? at h
  split at h
  · next a b c d rest =>
    cases h
    rw [int32Bytes_int32]
    exact ⟨rfl, isInt32_int32 a b c d⟩
  · cases h

theorem exists_takeInt32? (bytes : Bytes) (h : 4 ≤ bytes.length) :
    ∃ n rest, takeInt32? bytes = some (n, rest) ∧ bytes.length = 4 + rest.length := by
  match bytes, h with
  | a :: b :: c :: d :: rest, _ =>
    refine ⟨int32 a b c d, rest, rfl, ?_⟩
    simp only [List.length_cons]
    omega

theorem takeInt32?_eq_none {bytes : Bytes} : takeInt32? bytes = none ↔ bytes.length < 4 := by
  constructor
  · intro none
    by_cases short : bytes.length < 4
    · exact short
    · obtain ⟨n, rest, taken, -⟩ := exists_takeInt32? bytes (by omega)
      rw [taken] at none
      cases none
  · intro short
    cases taken : takeInt32? bytes with
    | none => rfl
    | some found =>
      have whole := (eq_of_takeInt32? taken).1
      rw [whole, List.length_append, int32Bytes_length] at short
      omega

namespace Header

/-- A header that thirty-six bytes can hold. -/
structure Fits (h : Header) : Prop where
  marker : h.marker.length = 4
  version : IsInt32 h.version
  totalLength : IsInt32 h.totalLength
  encoding : IsInt32 h.encoding
  charset : IsInt32 h.charset
  format : h.format.length = 8
  flags : IsInt32 h.flags
  nameCharset : IsInt32 h.nameCharset

theorem Fits.bytes_length {h : Header} (fits : h.Fits) : h.bytes.length = headerLength := by
  simp [bytes, fits.marker, fits.format, headerLength]

theorem fits_standard {length : Int} (h : IsInt32 length) : (standard length).Fits where
  marker := rfl
  version := (by decide : IsInt32 Rfh2.version)
  totalLength := h
  encoding := (by decide : IsInt32 273)
  charset := (by decide : IsInt32 1208)
  format := rfl
  flags := (by decide : IsInt32 0)
  nameCharset := (by decide : IsInt32 1208)

theorem take?_bytes {h : Header} (fits : h.Fits) (rest : Bytes) :
    take? (h.bytes ++ rest) = some (h, rest) := by
  have first : (h.bytes ++ rest).splitAt 4 = (h.marker, int32Bytes h.version ++
      (int32Bytes h.totalLength ++ (int32Bytes h.encoding ++ (int32Bytes h.charset ++
        (h.format ++ (int32Bytes h.flags ++ (int32Bytes h.nameCharset ++ rest))))))) := by
    simp [bytes, List.splitAt_eq, ← fits.marker]
  have second (tail : Bytes) : (h.format ++ tail).splitAt 8 = (h.format, tail) := by
    simp [List.splitAt_eq, ← fits.format]
  unfold take?
  rw [first]
  simp only [takeInt32?_int32Bytes fits.version, takeInt32?_int32Bytes fits.totalLength,
    takeInt32?_int32Bytes fits.encoding, takeInt32?_int32Bytes fits.charset, second,
    takeInt32?_int32Bytes fits.flags, takeInt32?_int32Bytes fits.nameCharset, Option.bind_some,
    Option.map_some]

/-- What is read as a header stands at the front, byte for byte. -/
theorem eq_of_take? {message rest : Bytes} {h : Header} (taken : take? message = some (h, rest)) :
    message = h.bytes ++ rest ∧ h.Fits := by
  simp only [take?, List.splitAt_eq, Option.bind_eq_some_iff, Option.map_eq_some_iff,
    Prod.exists] at taken
  obtain ⟨version, r₁, t₁, totalLength, r₂, t₂, encoding, r₃, t₃, charset, r₄, t₄, flags, r₅, t₅,
    nameCharset, r₆, t₆, made⟩ := taken
  cases made
  obtain ⟨e₁, f₁⟩ := eq_of_takeInt32? t₁
  obtain ⟨e₂, f₂⟩ := eq_of_takeInt32? t₂
  obtain ⟨e₃, f₃⟩ := eq_of_takeInt32? t₃
  obtain ⟨e₄, f₄⟩ := eq_of_takeInt32? t₄
  obtain ⟨e₅, f₅⟩ := eq_of_takeInt32? t₅
  obtain ⟨e₆, f₆⟩ := eq_of_takeInt32? t₆
  have marked : (message.take 4).length = 4 := by
    have some_left : (message.drop 4).length ≠ 0 := by
      rw [e₁]
      simp
    rw [List.length_take]
    rw [List.length_drop] at some_left
    omega
  have formatted : (r₄.take 8).length = 8 := by
    have some_left : (r₄.drop 8).length ≠ 0 := by
      rw [e₅]
      simp
    rw [List.length_take]
    rw [List.length_drop] at some_left
    omega
  refine ⟨?_, ⟨marked, f₁, f₂, f₃, f₄, formatted, f₅, f₆⟩⟩
  simp only [bytes, List.append_assoc]
  rw [← e₆, ← e₅, List.take_append_drop, ← e₄, ← e₃, ← e₂, ← e₁, List.take_append_drop]

/-- Thirty-six bytes are enough for each part in turn. -/
theorem exists_take? {message : Bytes} (h : headerLength ≤ message.length) :
    ∃ header rest, take? message = some (header, rest) := by
  have long : 36 ≤ message.length := h
  have l₀ := @List.length_drop UInt8 4 message
  obtain ⟨version, r₁, t₁, l₁⟩ := exists_takeInt32? (message.drop 4) (by omega)
  obtain ⟨totalLength, r₂, t₂, l₂⟩ := exists_takeInt32? r₁ (by omega)
  obtain ⟨encoding, r₃, t₃, l₃⟩ := exists_takeInt32? r₂ (by omega)
  obtain ⟨charset, r₄, t₄, l₄⟩ := exists_takeInt32? r₃ (by omega)
  have l₅ := @List.length_drop UInt8 8 r₄
  obtain ⟨flags, r₅, t₅, l₆⟩ := exists_takeInt32? (r₄.drop 8) (by omega)
  obtain ⟨nameCharset, r₆, t₆, -⟩ := exists_takeInt32? r₅ (by omega)
  refine ⟨⟨message.take 4, version, totalLength, encoding, charset, r₄.take 8, flags,
    nameCharset⟩, r₆, ?_⟩
  simp only [take?, List.splitAt_eq, t₁, t₂, t₃, t₄, t₅, t₆, Option.bind_some, Option.map_some]

theorem take?_eq_none {message : Bytes} :
    take? message = none ↔ message.length < headerLength := by
  constructor
  · intro none
    by_cases short : message.length < headerLength
    · exact short
    · obtain ⟨header, rest, taken⟩ := exists_take? (Nat.not_lt.mp short)
      rw [taken] at none
      cases none
  · intro short
    cases taken : take? message with
    | none => rfl
    | some found =>
      obtain ⟨whole, fits⟩ := eq_of_take? taken
      rw [whole, List.length_append, fits.bytes_length] at short
      omega

end Header

/-- A framed message begins with the eight bytes of the marker and the version. -/
theorem isFramed_iff {message : Bytes} :
    isFramed message = true ↔ marker ++ int32Bytes version <+: message := by
  constructor
  · intro framed
    simp only [isFramed, Bool.and_eq_true, beq_iff_eq, Option.map_eq_some_iff, Prod.exists,
      exists_and_right, exists_eq_right] at framed
    obtain ⟨marked, rest, versioned⟩ := framed
    refine ⟨rest, ?_⟩
    rw [← marked, List.append_assoc, ← (eq_of_takeInt32? versioned).1, List.take_append_drop]
  · rintro ⟨rest, rfl⟩
    have versioned := takeInt32?_int32Bytes (by decide : IsInt32 version) rest
    have dropped : (marker ++ int32Bytes version ++ rest).drop 4 = int32Bytes version ++ rest := rfl
    rw [isFramed, dropped, versioned]
    rfl

end SessionRelay.Rfh2
