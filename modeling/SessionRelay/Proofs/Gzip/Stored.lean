import SessionRelay.Gzip.Member

/-!
Compressing is undone. What `compress` writes is never found broken: a content within the limit
comes out as it was, and of a longer one all that is said is that it is too large. When that is
noticed depends on where portions and windows end, so each step is shown to go on as it should or
to stop for that reason alone.
-/

namespace SessionRelay.Gzip

/-- A member holds a content: decompressing gives it if it is within the limit, and says that it is
too large if not. -/
def Holds (member content : Bytes) : Prop :=
  ∀ limit, decompress limit member =
    if content.length ≤ limit then .ok content else .error .tooLarge

/-- A step of reading a member with `total` bytes of content goes on as `expected` says, or stops
because of the limit, which is below the total. -/
def Reads {α : Type} (limit total : Nat) (expected : α → Prop) : Except Failure α → Prop
  | .ok a => expected a
  | .error e => e = .tooLarge ∧ limit < total

namespace Reads

variable {α β : Type} {limit total : Nat} {expected : α → Prop} {after : β → Prop}

theorem bind {step : Except Failure α} {next : α → Except Failure β}
    (first : Reads limit total expected step)
    (later : ∀ a, expected a → Reads limit total after (next a)) :
    Reads limit total after (step >>= next) := by
  cases step with
  | ok a => exact later a first
  | error e => exact first

end Reads

namespace Bits

/-- Whole bytes come next. -/
def Before (rest : Bytes) (bits : Bits) : Prop := bits.ahead = [] ∧ bits.rest = rest

variable {limit total : Nat} {output : Array UInt8} {rest : Bytes}

theorem reads_byte (inside : output.size ≤ total) {bits : Bits} {byte : UInt8}
    (h : bits.rest = byte :: rest) :
    Reads limit total (fun r => r.1 = byte ∧ r.2.Before rest)
      (bits.byte (isWithin limit output)) := by
  obtain ⟨ahead, atHand, left⟩ := bits
  cases h
  cases atHand with
  | succ n => exact ⟨rfl, rfl, rfl⟩
  | zero =>
    cases within : isWithin limit output with
    | true => exact ⟨rfl, rfl, rfl⟩
    | false =>
      have outside : ¬ output.size ≤ limit := of_decide_eq_false within
      refine ⟨rfl, ?_⟩
      omega

theorem reads_word (inside : output.size ≤ total) {bits : Bits} {n : Nat} (small : n < 65536)
    (h : bits.rest = UInt8.ofNat n :: UInt8.ofNat (n / 256) :: rest) :
    Reads limit total (fun r => r.1 = n ∧ r.2.Before rest)
      (bits.word (isWithin limit output)) := by
  apply (reads_byte inside h).bind
  rintro ⟨low, bits⟩ ⟨rfl, -, left⟩
  apply (reads_byte inside left).bind
  rintro ⟨high, bits⟩ ⟨rfl, before⟩
  refine ⟨?_, before⟩
  simp only [word16, UInt8.toNat_ofNat']
  omega

/-- The three bits that begin a stored block; what is left of their byte is of no use. -/
theorem reads_mark (inside : output.size ≤ total) {bits : Bits} {last : Bool}
    (h : bits.Before ((if last then 1 else 0) :: rest)) :
    Reads limit total (fun r => r.1 = last ∧
        ∃ left, r.2.number (isWithin limit output) 2 = .ok (0, left) ∧ left.rest = rest)
      (bits.next (isWithin limit output)) := by
  obtain ⟨ahead, atHand, all⟩ := bits
  obtain ⟨rfl, rfl⟩ := h
  apply (reads_byte inside rfl).bind
  rintro ⟨byte, bits⟩ ⟨rfl, -, left⟩
  cases last with
  | true => exact ⟨rfl, _, rfl, left⟩
  | false => exact ⟨rfl, _, rfl, left⟩

end Bits

variable {limit total : Nat} {output : Array UInt8} {bits : Bits} {bytes rest : Bytes}

theorem reads_put (inside : output.size ≤ total) (byte : UInt8) :
    Reads limit total (fun r => r.toList = output.toList ++ [byte]) (put limit byte output) := by
  unfold put
  split
  · next full =>
    refine ⟨rfl, ?_⟩
    omega
  · exact Array.toList_push

theorem storedBytes_succ (length : Nat) (output : Array UInt8) (bits : Bits) :
    storedBytes limit (length + 1) output bits = (do
      let (byte, bits) ← bits.byte (isWithin limit output)
      let output ← put limit byte output
      storedBytes limit length output bits) := by
  rw [storedBytes]
  cases bits.byte (isWithin limit output) with
  | error e => rfl
  | ok found =>
    obtain ⟨byte, bits⟩ := found
    dsimp only [bind, Except.bind]
    cases put limit byte output <;> rfl

theorem reads_storedBytes (inside : output.size + bytes.length ≤ total)
    (h : bits.Before (bytes ++ rest)) :
    Reads limit total (fun r => r.1.toList = output.toList ++ bytes ∧ r.2.Before rest)
      (storedBytes limit bytes.length output bits) := by
  induction bytes generalizing output bits with
  | nil => exact ⟨(List.append_nil _).symm, h⟩
  | cons byte bytes ih =>
    rw [List.length_cons] at inside
    have current : output.size ≤ total := by omega
    rw [List.length_cons, storedBytes_succ]
    apply (Bits.reads_byte current h.2).bind
    rintro ⟨byte, bits⟩ ⟨rfl, before⟩
    apply (reads_put current byte).bind
    intro longer written
    have size : longer.size = output.size + 1 := by
      simpa using congrArg List.length written
    have room : longer.size + bytes.length ≤ total := by omega
    have more := ih room before
    rw [written, List.append_assoc] at more
    exact more

theorem reads_storedBlock (inside : output.size + bytes.length ≤ total)
    (short : bytes.length ≤ maxStored)
    (h : bits.rest = UInt8.ofNat bytes.length :: UInt8.ofNat (bytes.length / 256) ::
      UInt8.ofNat (maxStored - bytes.length) :: UInt8.ofNat ((maxStored - bytes.length) / 256) ::
      (bytes ++ rest)) :
    Reads limit total (fun r => r.1.toList = output.toList ++ bytes ∧ r.2.Before rest)
      (storedBlock limit output bits) := by
  have current : output.size ≤ total := by omega
  simp only [maxStored] at short h
  apply (Bits.reads_word current (by omega) h).bind
  rintro ⟨length, bits⟩ ⟨rfl, -, left⟩
  apply (Bits.reads_word current (by omega) left).bind
  rintro ⟨complement, bits⟩ ⟨rfl, before⟩
  have agree : bytes.length + (65535 - bytes.length) = 65535 := by omega
  dsimp only
  rw [if_pos agree]
  exact reads_storedBytes inside before

theorem reads_block {last : Bool} (inside : output.size + bytes.length ≤ total)
    (short : bytes.length ≤ maxStored) (h : bits.Before (stored last bytes ++ rest)) :
    Reads limit total
      (fun r => r.1 = last ∧ r.2.1.toList = output.toList ++ bytes ∧ r.2.2.Before rest)
      (block limit output bits) := by
  have current : output.size ≤ total := by omega
  apply (Bits.reads_mark current h).bind
  rintro ⟨bit, bits⟩ ⟨rfl, left, kind, next⟩
  dsimp only at kind ⊢
  rw [kind]
  apply (reads_storedBlock inside short next).bind
  rintro ⟨longer, bits⟩ ⟨written, before⟩
  exact ⟨rfl, written, before⟩

theorem blocks_succ (count : Nat) (output : Array UInt8) (bits : Bits) :
    blocks limit (count + 1) output bits = (do
      let (last, output, bits) ← block limit output bits
      if last then return (output, bits.rest) else blocks limit count output bits) := by
  rw [blocks]
  cases block limit output bits with
  | error e => rfl
  | ok found =>
    obtain ⟨last, output, bits⟩ := found
    cases last <;> rfl

theorem reads_lastBlock (inside : output.size + bytes.length ≤ total)
    (short : bytes.length ≤ maxStored) (h : bits.Before (stored true bytes ++ rest))
    (fuel : Nat) :
    Reads limit total (fun r => r.1.toList = output.toList ++ bytes ∧ r.2 = rest)
      (blocks limit (fuel + 1) output bits) := by
  rw [blocks_succ]
  apply (reads_block inside short h).bind
  rintro ⟨last, longer, bits⟩ ⟨rfl, written, -, left⟩
  exact ⟨written, left⟩

/-- Blocks are read if there is fuel for the full ones and one more. -/
theorem reads_blocks {count : Nat} (inside : output.size + bytes.length ≤ total)
    (enough : bytes.length ≤ maxStored * (count + 1))
    (h : bits.Before (storedBlocks count bytes ++ rest)) (spare : Nat) :
    Reads limit total (fun r => r.1.toList = output.toList ++ bytes ∧ r.2 = rest)
      (blocks limit (count + spare + 1) output bits) := by
  induction count generalizing bytes output bits with
  | zero => exact reads_lastBlock inside (by omega) h _
  | succ count ih =>
    rw [storedBlocks] at h
    split at h
    · next short => exact reads_lastBlock inside short h _
    · next long =>
      have first : (bytes.take maxStored).length = maxStored := by
        rw [List.length_take]
        omega
      have later : (bytes.drop maxStored).length = bytes.length - maxStored := List.length_drop
      have fuel : count + 1 + spare + 1 = count + spare + 1 + 1 := by omega
      rw [List.append_assoc] at h
      rw [fuel, blocks_succ]
      apply (reads_block (by omega) (by omega) h).bind
      rintro ⟨last, longer, bits⟩ ⟨rfl, written, before⟩
      have size : longer.size = output.size + maxStored := by
        have lengths := congrArg List.length written
        rw [List.length_append, first] at lengths
        exact lengths
      have blocks : maxStored * (count + 1 + 1) = maxStored * (count + 1) + maxStored :=
        Nat.mul_succ _ _
      have room : longer.size + (bytes.drop maxStored).length ≤ total := by omega
      have fewer : (bytes.drop maxStored).length ≤ maxStored * (count + 1) := by omega
      have more := ih room fewer before
      rw [written, List.append_assoc, List.take_append_drop] at more
      exact more

theorem length_le_storedBlocks (count : Nat) (bytes : Bytes) :
    bytes.length ≤ (storedBlocks count bytes).length := by
  have whole (last : Bool) (bytes : Bytes) : bytes.length ≤ (stored last bytes).length := by
    rw [stored, List.length_append]
    omega
  induction count generalizing bytes with
  | zero => exact whole true bytes
  | succ count ih =>
    rw [storedBlocks]
    split
    · exact whole true bytes
    · have first := whole false (bytes.take maxStored)
      have later := ih (bytes.drop maxStored)
      rw [List.length_take] at first
      rw [List.length_drop] at later
      rw [List.length_append]
      omega

theorem reads_inflate (limit : Nat) (content rest : Bytes) (atHand : Nat) :
    Reads limit content.length (fun r => r.1.toList = content ∧ r.2 = rest)
      (inflate limit
        ⟨[], atHand, storedBlocks (content.length / maxStored) content ++ rest⟩) := by
  have room : (#[] : Array UInt8).size + content.length ≤ content.length :=
    Nat.le_of_eq (Nat.zero_add _)
  have full : content.length ≤ maxStored * (content.length / maxStored + 1) := by
    simp only [maxStored]
    omega
  have few : content.length / maxStored ≤ content.length := Nat.div_le_self _ _
  have long := length_le_storedBlocks (content.length / maxStored) content
  have start : Bits.Before (storedBlocks (content.length / maxStored) content ++ rest)
      ⟨[], atHand, storedBlocks (content.length / maxStored) content ++ rest⟩ := ⟨rfl, rfl⟩
  have fuel : content.length / maxStored ≤
      Bits.count ⟨[], atHand, storedBlocks (content.length / maxStored) content ++ rest⟩ := by
    simp only [Bits.count, List.length_append]
    omega
  obtain ⟨spare, enough⟩ := Nat.exists_eq_add_of_le fuel
  rw [inflate, enough]
  exact reads_blocks room full start spare

theorem afterHeader?_plain (data : Bytes) : afterHeader? (plainHeader ++ data) = some data := rfl

theorem take_trailer (content : Bytes) : (trailer content).take 8 = trailer content := rfl

/-- What is compressed is held by the result. -/
theorem holds_compress (content : Bytes) : Holds (compress content) content := by
  intro limit
  have header : afterHeader? (compress content) =
      some (storedBlocks (content.length / maxStored) content ++ trailer content) := by
    rw [compress, List.append_assoc]
    exact afterHeader?_plain _
  rw [decompress, header]
  dsimp only
  generalize portionSize - _ % portionSize = atHand
  have read := reads_inflate limit content (trailer content) atHand
  cases inflated : inflate limit
      ⟨[], atHand, storedBlocks (content.length / maxStored) content ++ trailer content⟩ with
  | error e =>
    rw [inflated] at read
    obtain ⟨rfl, outside⟩ := read
    exact (if_neg (Nat.not_le_of_lt outside)).symm
  | ok found =>
    rw [inflated] at read
    obtain ⟨output, rest⟩ := found
    obtain ⟨written, left⟩ := read
    dsimp only at written left ⊢
    rw [left, written, take_trailer, if_pos rfl, ← written, Array.length_toList]
    split
    · next outside => exact (if_neg (Nat.not_le_of_lt outside)).symm
    · next inside => exact (if_pos (Nat.le_of_not_lt inside)).symm

end SessionRelay.Gzip
