import SessionRelay.Proofs.Gzip.Stored

/-!
What a limit does to reading. A member that can be read with one limit holds what comes out: with
any other limit the same is read, or it is said to be too large. The limit matters to a step in two
ways, by whether a further portion of bytes is taken and by whether a further window is begun, and
neither changes what is read.
-/

namespace SessionRelay.Gzip

/-- A step that is told whether the content is within its limit. Past the limit, it does the same or
says that the content is too large. -/
def Heeds {α : Type} (step : Bool → Except Failure α) : Prop :=
  step false = step true ∨ step false = .error .tooLarge

namespace Heeds

variable {α β : Type} {step : Bool → Except Failure α}

theorem const (result : Except Failure α) : Heeds fun _ => result := Or.inl rfl

theorem bind {next : α → Bool → Except Failure β} (first : Heeds step)
    (later : ∀ a, Heeds (next a)) : Heeds fun within => step within >>= fun a => next a within := by
  unfold Heeds
  dsimp only
  rcases first with same | stopped
  · rw [same]
    cases step true with
    | error e => exact Or.inl rfl
    | ok a => exact later a
  · rw [stopped]
    exact Or.inr rfl

end Heeds

namespace Bits

theorem heeds_byte (bits : Bits) : Heeds bits.byte := by
  obtain ⟨ahead, atHand, rest⟩ := bits
  cases rest with
  | nil => exact Or.inr rfl
  | cons byte rest =>
    cases atHand with
    | zero => exact Or.inr rfl
    | succ n => exact Or.inl rfl

theorem heeds_next (bits : Bits) : Heeds bits.next := by
  obtain ⟨ahead, atHand, rest⟩ := bits
  cases ahead with
  | nil => exact (heeds_byte _).bind fun _ => .const _
  | cons bit ahead => exact .const _

theorem heeds_number (n : Nat) (bits : Bits) : Heeds fun within => bits.number within n := by
  induction n generalizing bits with
  | zero => exact .const _
  | succ n ih => exact (heeds_next bits).bind fun r => (ih r.2).bind fun _ => .const _

theorem heeds_word (bits : Bits) : Heeds bits.word :=
  (heeds_byte bits).bind fun r => (heeds_byte r.2).bind fun _ => .const _

end Bits

theorem readFrom_cons (within : Bool) (first word : Nat) (symbols : List Nat)
    (longer : List (List Nat)) (bits : Bits) :
    Code.readFrom within first word (symbols :: longer) bits = (do
      let (bit, bits) ← bits.next within
      match symbols[2 * word + bit.toNat - 2 * first]? with
      | some s => .ok (s, bits)
      | none =>
        Code.readFrom within (2 * first + symbols.length) (2 * word + bit.toNat) longer bits) := by
  rw [Code.readFrom]
  cases bits.next within <;> rfl

theorem heeds_readFrom (lengths : List (List Nat)) (first word : Nat) (bits : Bits) :
    Heeds fun within => Code.readFrom within first word lengths bits := by
  induction lengths generalizing first word bits with
  | nil => exact .const _
  | cons symbols longer ih =>
    simp only [readFrom_cons]
    refine (Bits.heeds_next bits).bind fun (bit, bits) => ?_
    dsimp only
    cases symbols[2 * word + bit.toNat - 2 * first]? with
    | none => exact ih _ _ _
    | some s => exact .const _

theorem heeds_read (code : Code) (bits : Bits) : Heeds fun within => code.read within bits :=
  heeds_readFrom code.byLength 0 0 bits

theorem heeds_tableNumber (table : List (Nat × Nat)) (symbol : Nat) (bits : Bits) :
    Heeds fun within => tableNumber within table symbol bits := by
  unfold tableNumber
  cases table[symbol]? with
  | none => exact .const _
  | some entry => exact (Bits.heeds_number entry.2 bits).bind fun _ => .const _

theorem heeds_copyOf (codes : Codes) (symbol : Nat) (bits : Bits) :
    Heeds fun within => copyOf within codes symbol bits :=
  (heeds_tableNumber copyLengths symbol bits).bind fun r =>
    (heeds_read codes.distances r.2).bind fun r =>
      (heeds_tableNumber copyDistances r.1 r.2).bind fun _ => .const _

theorem heeds_triples (n : Nat) (bits : Bits) : Heeds fun within => triples within n bits := by
  induction n generalizing bits with
  | zero => exact .const _
  | succ n ih => exact (Bits.heeds_number 3 bits).bind fun r => (ih r.2).bind fun _ => .const _

theorem heeds_lengthsOf (symbol : Nat) (read : List Nat) (bits : Bits) :
    Heeds fun within => lengthsOf within symbol read bits := by
  unfold lengthsOf
  dsimp only
  split
  · exact .const _
  · split
    · split
      · exact .const _
      · exact (Bits.heeds_number 2 bits).bind fun _ => .const _
    · split
      · exact (Bits.heeds_number 3 bits).bind fun _ => .const _
      · exact (Bits.heeds_number 7 bits).bind fun _ => .const _

theorem codeLengths_succ (within : Bool) (code : Code) (wanted count : Nat) (read : List Nat)
    (bits : Bits) :
    codeLengths within code wanted (count + 1) read bits =
      if read.length = wanted then .ok (read.reverse, bits)
      else if wanted < read.length then .error .broken
      else (do
        let (s, bits) ← code.read within bits
        let (lengths, bits) ← lengthsOf within s read bits
        codeLengths within code wanted count (lengths ++ read) bits) := by
  rw [codeLengths]
  cases code.read within bits with
  | error e => rfl
  | ok found =>
    obtain ⟨s, bits⟩ := found
    dsimp only [bind, Except.bind]
    cases lengthsOf within s read bits <;> rfl

theorem heeds_codeLengths (code : Code) (wanted count : Nat) (read : List Nat) (bits : Bits) :
    Heeds fun within => codeLengths within code wanted count read bits := by
  induction count generalizing read bits with
  | zero => exact .const _
  | succ count ih =>
    simp only [codeLengths_succ]
    split
    · exact .const _
    · split
      · exact .const _
      · exact (heeds_read code bits).bind fun (s, bits) =>
          (heeds_lengthsOf s read bits).bind fun (lengths, bits) => ih (lengths ++ read) bits

theorem heeds_ownCodes (bits : Bits) : Heeds fun within => ownCodes within bits := by
  refine (Bits.heeds_number 5 bits).bind fun (literals, bits) =>
    (Bits.heeds_number 5 bits).bind fun (distances, bits) =>
      (Bits.heeds_number 4 bits).bind fun (listed, bits) => ?_
  dsimp only
  split
  · exact .const _
  · refine (heeds_triples (listed + 4) bits).bind fun (lengths, bits) => ?_
    dsimp only
    split
    · exact .const _
    · exact (heeds_codeLengths _ _ _ _ _).bind fun _ => .const _

/-! ### Steps that write -/

/-- What a step gives with one limit it gives with every other one, unless that is too small for the
content; and there is not less content than at the start. `size` says how much there is. -/
def Settles {α : Type} (size : α → Nat) (start : Nat) (step : Nat → Except Failure α) : Prop :=
  ∀ limit limit' a, step limit = .ok a →
    start ≤ size a ∧ Reads limit' (size a) (· = a) (step limit')

namespace Settles

variable {α β : Type} {size : α → Nat} {start : Nat} {step : Nat → Except Failure α}

theorem of_ok {a : α} (grown : start ≤ size a) : Settles size start fun _ => .ok a := by
  rintro limit limit' _ ⟨⟩
  exact ⟨grown, rfl⟩

theorem of_error (e : Failure) : Settles size start fun _ => .error e := by
  rintro limit limit' a ⟨⟩

theorem bind {next : Nat → α → Except Failure β} {size' : β → Nat}
    (first : Settles size start step) (later : ∀ a, Settles size' (size a) fun n => next n a) :
    Settles size' start fun limit => step limit >>= next limit := by
  intro limit limit' b done
  dsimp only at done ⊢
  cases found : step limit with
  | error e =>
    rw [found] at done
    cases done
  | ok a =>
    rw [found] at done
    obtain ⟨grown, reads⟩ := first limit limit' a found
    obtain ⟨grown', reads'⟩ := later a limit limit' b done
    refine ⟨Nat.le_trans grown grown', ?_⟩
    cases again : step limit' with
    | error e =>
      rw [again] at reads
      exact ⟨reads.1, Nat.lt_of_lt_of_le reads.2 grown'⟩
    | ok a' =>
      rw [again] at reads
      cases reads
      exact reads'

end Settles

/-- A step that only asks whether the content is within its limit, and does not write. -/
theorem Heeds.settles {α : Type} {step : Bool → Except Failure α} (heeds : Heeds step)
    (output : Array UInt8) :
    Settles (fun _ => output.size) output.size fun limit => step (isWithin limit output) := by
  intro limit limit' a done
  refine ⟨Nat.le_refl _, ?_⟩
  dsimp only at done ⊢
  cases within : isWithin limit output with
  | false =>
    -- the step succeeds past the limit, so it does not ask
    rw [within] at done
    have same : step false = step true := by
      refine heeds.resolve_right fun stopped => ?_
      rw [stopped] at done
      cases done
    cases isWithin limit' output with
    | false => rw [done, Reads]
    | true => rw [← same, done, Reads]
  | true =>
    rw [within] at done
    cases within' : isWithin limit' output with
    | false =>
      rcases heeds with same | stopped
      · rw [same, done, Reads]
      · rw [stopped]
        exact ⟨rfl, Nat.lt_of_not_le (of_decide_eq_false within')⟩
    | true => rw [done, Reads]

theorem settles_put (byte : UInt8) (output : Array UInt8) :
    Settles Array.size output.size fun limit => put limit byte output := by
  intro limit limit' longer done
  have written : longer = output.push byte := by
    dsimp only [put] at done
    split at done <;> cases done
    rfl
  subst written
  have size : (output.push byte).size = output.size + 1 := Array.size_push byte
  refine ⟨by omega, ?_⟩
  dsimp only [put]
  split
  · exact ⟨rfl, by omega⟩
  · rfl

theorem copyBack_succ (limit distance length : Nat) (output : Array UInt8) :
    copyBack limit distance (length + 1) output = (do
      let output ← put limit
        (if distance ≤ output.size then output.getD (output.size - distance) 0 else 0) output
      copyBack limit distance length output) := by
  rw [copyBack]
  cases put limit _ output <;> rfl

theorem settles_copyBack (distance length : Nat) (output : Array UInt8) :
    Settles Array.size output.size fun limit => copyBack limit distance length output := by
  induction length generalizing output with
  | zero => exact .of_ok (Nat.le_refl _)
  | succ length ih =>
    simp only [copyBack_succ]
    exact (settles_put _ output).bind ih

theorem settles_storedBytes (length : Nat) (output : Array UInt8) (bits : Bits) :
    Settles (fun r => r.1.size) output.size fun limit => storedBytes limit length output bits := by
  induction length generalizing output bits with
  | zero => exact .of_ok (Nat.le_refl _)
  | succ length ih =>
    simp only [storedBytes_succ]
    exact ((Bits.heeds_byte bits).settles output).bind fun (byte, bits) =>
      (settles_put byte output).bind fun output => ih output bits

theorem settles_storedBlock (output : Array UInt8) (bits : Bits) :
    Settles (fun r => r.1.size) output.size fun limit => storedBlock limit output bits := by
  refine ((Bits.heeds_word bits).settles output).bind fun (length, bits) =>
    ((Bits.heeds_word bits).settles output).bind fun (complement, bits) => ?_
  dsimp only
  split
  · exact settles_storedBytes length output bits
  · exact .of_error _

-- the index of a length symbol is a difference, which must not be computed here
attribute [local irreducible] copyOf in
theorem symbols_eq (limit : Nat) (codes : Codes) (count : Nat) (output : Array UInt8)
    (bits : Bits) :
    symbols limit codes (count + 1) output bits =
      match codes.literals.read (isWithin limit output) bits with
      | .error e => .error e
      | .ok (s, bits) =>
        if s < 256 then
          match put limit (UInt8.ofNat s) output with
          | .error e => .error e
          | .ok output => symbols limit codes count output bits
        else if s = 256 then .ok (output, bits)
        else
          match copyOf (isWithin limit output) codes (s - 257) bits with
          | .error e => .error e
          | .ok (length, distance, bits) =>
            match copyBack limit distance length output with
            | .error e => .error e
            | .ok output => symbols limit codes count output bits := rfl

theorem symbols_succ (limit : Nat) (codes : Codes) (count : Nat) (output : Array UInt8)
    (bits : Bits) :
    symbols limit codes (count + 1) output bits = (do
      let (s, bits) ← codes.literals.read (isWithin limit output) bits
      if s < 256 then
        let output ← put limit (UInt8.ofNat s) output
        symbols limit codes count output bits
      else if s = 256 then .ok (output, bits)
      else
        let (length, distance, bits) ← copyOf (isWithin limit output) codes (s - 257) bits
        let output ← copyBack limit distance length output
        symbols limit codes count output bits) := by
  rw [symbols_eq]
  cases codes.literals.read (isWithin limit output) bits with
  | error e => rfl
  | ok found =>
    obtain ⟨s, bits⟩ := found
    dsimp only [bind, Except.bind]
    split
    · cases put limit (UInt8.ofNat s) output <;> rfl
    · split
      · rfl
      · cases copyOf (isWithin limit output) codes (s - 257) bits with
        | error e => rfl
        | ok copy =>
          obtain ⟨length, distance, bits⟩ := copy
          dsimp only
          cases copyBack limit distance length output <;> rfl

theorem settles_symbols (codes : Codes) (count : Nat) (output : Array UInt8) (bits : Bits) :
    Settles (fun r => r.1.size) output.size fun limit => symbols limit codes count output bits := by
  induction count generalizing output bits with
  | zero => exact .of_error _
  | succ count ih =>
    simp only [symbols_succ]
    refine ((heeds_read codes.literals bits).settles output).bind fun (s, bits) => ?_
    dsimp only
    split
    · exact (settles_put _ output).bind fun output => ih output bits
    · split
      · exact .of_ok (Nat.le_refl _)
      · exact ((heeds_copyOf codes (s - 257) bits).settles output).bind
          fun (length, distance, bits) =>
            (settles_copyBack distance length output).bind fun output => ih output bits

theorem settles_block (output : Array UInt8) (bits : Bits) :
    Settles (fun r => r.2.1.size) output.size fun limit => block limit output bits := by
  refine ((Bits.heeds_next bits).settles output).bind fun (last, bits) =>
    ((Bits.heeds_number 2 bits).settles output).bind fun (kind, bits) => ?_
  dsimp only
  rcases kind with _ | _ | _ | kind
  · exact (settles_storedBlock output bits).bind fun _ => .of_ok (Nat.le_refl _)
  · exact (settles_symbols .fixed _ output bits).bind fun _ => .of_ok (Nat.le_refl _)
  · exact ((heeds_ownCodes bits).settles output).bind fun (codes, bits) =>
      (settles_symbols codes _ output bits).bind fun _ => .of_ok (Nat.le_refl _)
  · exact .of_error _

theorem settles_blocks (count : Nat) (output : Array UInt8) (bits : Bits) :
    Settles (fun r => r.1.size) output.size fun limit => blocks limit count output bits := by
  induction count generalizing output bits with
  | zero => exact .of_error _
  | succ count ih =>
    simp only [blocks_succ]
    refine (settles_block output bits).bind fun (last, output, bits) => ?_
    cases last with
    | true => exact .of_ok (Nat.le_refl _)
    | false => exact ih output bits

theorem settles_inflate (bits : Bits) :
    Settles (fun r => r.1.size) 0 fun limit => inflate limit bits :=
  settles_blocks (bits.count + 1) #[] bits

/-- A member that can be read with some limit holds what comes out. -/
theorem holds_of_decompress {limit : Nat} {member content : Bytes}
    (read : decompress limit member = .ok content) : Holds member content := by
  intro limit'
  unfold decompress at read ⊢
  split at read
  · cases read
  · next data header =>
    dsimp only at read ⊢
    split at read
    · cases read
    · next output rest inflated =>
      split at read
      · cases read
      · split at read
        · next checked =>
          cases read
          have again := (settles_inflate _ limit limit' _ inflated).2
          dsimp only at again
          rw [Array.length_toList]
          generalize inflate limit' _ = result at again ⊢
          cases result with
          | error e =>
            obtain ⟨rfl, outside⟩ := again
            exact (if_neg (Nat.not_le_of_lt outside)).symm
          | ok found =>
            cases again
            dsimp only
            rw [if_pos checked]
            split
            · next outside => exact (if_neg (Nat.not_le_of_lt outside)).symm
            · next inside => exact (if_pos (Nat.le_of_not_lt inside)).symm
        · cases read

theorem decompress_eq_ok {limit : Nat} {member content : Bytes} :
    decompress limit member = .ok content ↔ Holds member content ∧ content.length ≤ limit := by
  constructor
  · intro read
    have holds := holds_of_decompress read
    refine ⟨holds, ?_⟩
    rw [holds limit] at read
    split at read
    · next inside => exact inside
    · cases read
  · rintro ⟨holds, inside⟩
    rw [holds limit, if_pos inside]

end SessionRelay.Gzip
