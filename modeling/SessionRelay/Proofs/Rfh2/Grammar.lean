import Mathlib.Data.List.Forall2
import SessionRelay.Proofs.Rfh2.Header
import SessionRelay.Proofs.Text.Utf8
import SessionRelay.Rfh2.Message

/-!
The grammar of framed messages: a header, folders one after the other, and a body. Reading accepts
the messages of the grammar and no others, no byte is lost, and a message that is refused is refused
for its first defect.
-/

namespace SessionRelay.Rfh2

namespace Folder

/-- The bytes of a folder: a length, and as many bytes, which are the UTF-8 of a text that is a
document once its padding is cut off. -/
def Spells (part : Bytes) (folder : Folder) : Prop :=
  ∃ text, part = int32Bytes (Utf8.encode text).length ++ Utf8.encode text ∧
    IsInt32 (Utf8.encode text).length ∧ read? text = some folder

/-- What is wrong with the bytes from some offset on: they are too few for a length, the length is
negative or more than there is, the block of that length is not UTF-8, or its text is no
document. -/
inductive Defect (offset : Nat) : Bytes → Error → Prop where
  | short {rest : Bytes} : rest ≠ [] → rest.length < 4 →
    Defect offset rest (.truncatedFolder offset)
  | length {n : Int} {rest : Bytes} : IsInt32 n → n < 0 ∨ (rest.length : Int) < n →
    Defect offset (int32Bytes n ++ rest) (.truncatedFolder offset)
  | encoding {block rest : Bytes} : IsInt32 block.length → (∀ text, block ≠ Utf8.encode text) →
    Defect offset (int32Bytes block.length ++ (block ++ rest)) (.folderNotUtf8 offset)
  | document {text : String} {rest : Bytes} : IsInt32 (Utf8.encode text).length →
    read? text = none →
    Defect offset (int32Bytes (Utf8.encode text).length ++ (Utf8.encode text ++ rest))
      (.invalidFolder offset "not well-formed")

theorem Spells.length_pos {part : Bytes} {folder : Folder} (h : Spells part folder) :
    0 < part.length := by
  obtain ⟨text, rfl, -⟩ := h
  rw [List.length_append, int32Bytes_length]
  omega

theorem takeBlock?_int32Bytes {n : Int} (h : IsInt32 n) (rest : Bytes) :
    takeBlock? (int32Bytes n ++ rest) =
      if n < 0 ∨ (rest.length : Int) < n then none
      else some (rest.take n.toNat, rest.drop n.toNat) := by
  rw [takeBlock?, takeInt32?_int32Bytes h]

theorem takeBlock?_block {block : Bytes} (h : IsInt32 block.length) (rest : Bytes) :
    takeBlock? (int32Bytes block.length ++ (block ++ rest)) = some (block, rest) := by
  rw [takeBlock?_int32Bytes h]
  have inside : ¬ ((block.length : Int) < 0 ∨ ((block ++ rest).length : Int) < block.length) := by
    rw [List.length_append]
    omega
  rw [if_neg inside]
  simp

theorem eq_of_takeBlock? {area block rest : Bytes} (h : takeBlock? area = some (block, rest)) :
    area = int32Bytes block.length ++ (block ++ rest) ∧ IsInt32 block.length := by
  unfold takeBlock? at h
  split at h
  · next n more taken =>
    obtain ⟨rfl, fits⟩ := eq_of_takeInt32? taken
    split at h
    · cases h
    · next inside =>
      cases h
      have length : ((more.take n.toNat).length : Int) = n := by
        rw [List.length_take]
        omega
      rw [length, List.take_append_drop]
      exact ⟨rfl, fits⟩
  · cases h

theorem defect_of_takeBlock? {area : Bytes} (h : takeBlock? area = none) (nonempty : area ≠ [])
    (offset : Nat) : Defect offset area (.truncatedFolder offset) := by
  cases taken : takeInt32? area with
  | none => exact .short nonempty (takeInt32?_eq_none.mp taken)
  | some found =>
    obtain ⟨n, rest⟩ := found
    obtain ⟨rfl, fits⟩ := eq_of_takeInt32? taken
    rw [takeBlock?_int32Bytes fits] at h
    split at h
    · next outside => exact .length fits outside
    · cases h

theorem all_of_truncated {area : Bytes} (nonempty : area ≠ []) (h : takeBlock? area = none)
    (count offset : Nat) : all (count + 1) offset area = .error (.truncatedFolder offset) := by
  cases area with
  | nil => exact absurd rfl nonempty
  | cons first more => rw [all, h]; exact nofun

/-- A block that is all there is read for itself, and what follows it after it. -/
theorem all_block {block : Bytes} (fits : IsInt32 block.length) (count offset : Nat)
    (rest : Bytes) :
    all (count + 1) offset (int32Bytes block.length ++ (block ++ rest)) =
      match ofBytes offset block with
      | .error e => .error e
      | .ok folder => (all count (offset + 4 + block.length) rest).map (folder :: ·) := by
  rw [all, takeBlock?_block fits]
  · dsimp only
    cases ofBytes offset block with
    | error e => rfl
    | ok folder =>
      dsimp only
      cases all count (offset + 4 + block.length) rest <;> rfl
  · intro empty
    simp [int32Bytes] at empty

theorem ofBytes_encode (offset : Nat) (text : String) :
    ofBytes offset (Utf8.encode text) =
      match read? text with
      | none => .error (.invalidFolder offset "not well-formed")
      | some folder => .ok folder := by
  have decoded : Utf8.decode? (Utf8.encode text) = some text := Utf8.decode?_eq_some.mpr rfl
  unfold ofBytes
  cases found : read? text with
  | none => simp only [decoded, found]
  | some folder => simp only [decoded, found]

/-- Bytes with a defect at their front are refused for it. -/
theorem all_of_defect {offset : Nat} {rest : Bytes} {e : Error} (h : Defect offset rest e)
    (count : Nat) : all (count + 1) offset rest = .error e := by
  cases h with
  | short nonempty short =>
    have none : takeBlock? rest = none := by
      rw [takeBlock?, takeInt32?_eq_none.mpr short]
    exact all_of_truncated nonempty none count offset
  | length fits outside =>
    apply all_of_truncated
    · simp [int32Bytes]
    · rw [takeBlock?_int32Bytes fits, if_pos outside]
  | @encoding block rest fits foreign =>
    have broken : Utf8.decode? block = none := by
      cases decoded : Utf8.decode? block with
      | none => rfl
      | some text => exact absurd (Utf8.decode?_eq_some.mp decoded) (foreign text)
    rw [all_block fits, ofBytes, broken]
  | document fits unread => rw [all_block fits, ofBytes_encode, unread]

/-- Folders are read one by one, and then what follows them. -/
theorem all_append {parts : List Bytes} {folders : List Folder}
    (spelled : List.Forall₂ Spells parts folders) (count offset : Nat) (rest : Bytes) :
    all (parts.length + count) offset (parts.flatten ++ rest) =
      (all count (offset + parts.flatten.length) rest).map (folders ++ ·) := by
  induction spelled generalizing offset with
  | nil =>
    simp only [List.length_nil, Nat.zero_add, List.flatten_nil, List.nil_append, Nat.add_zero]
    cases all count offset rest <;> rfl
  | @cons part folder parts folders first later ih =>
    obtain ⟨text, rfl, fits, found⟩ := first
    have step := all_block fits (parts.length + count) offset (parts.flatten ++ rest)
    rw [ofBytes_encode, found] at step
    generalize Utf8.encode text = block at *
    have place : offset + 4 + block.length + parts.flatten.length =
        offset + ((int32Bytes block.length ++ block) :: parts).flatten.length := by
      simp only [List.flatten_cons, List.length_append, int32Bytes_length]
      omega
    have area : ((int32Bytes block.length ++ block) :: parts).flatten ++ rest =
        int32Bytes block.length ++ (block ++ (parts.flatten ++ rest)) := by
      simp
    have counted : ((int32Bytes block.length ++ block) :: parts).length + count =
        parts.length + count + 1 := by
      simp only [List.length_cons]
      omega
    rw [area, counted, step, ih, place]
    cases all count _ rest <;> rfl

theorem length_le_flatten {parts : List Bytes} {folders : List Folder}
    (spelled : List.Forall₂ Spells parts folders) : parts.length ≤ parts.flatten.length := by
  induction spelled with
  | nil => simp
  | cons first later ih =>
    have pos := first.length_pos
    simp only [List.length_cons, List.flatten_cons, List.length_append]
    omega

theorem all_of_spells {parts : List Bytes} {folders : List Folder}
    (spelled : List.Forall₂ Spells parts folders) {count : Nat}
    (enough : parts.flatten.length ≤ count) (offset : Nat) :
    all count offset parts.flatten = .ok folders := by
  have fewer := length_le_flatten spelled
  obtain ⟨spare, rfl⟩ := Nat.exists_eq_add_of_le (Nat.le_trans fewer enough)
  have read := all_append spelled spare offset []
  have done : all spare (offset + parts.flatten.length) [] = .ok [] := by
    cases spare <;> rfl
  rw [List.append_nil, done] at read
  rw [read]
  exact congrArg _ (List.append_nil folders)

theorem Defect.length_pos {offset : Nat} {rest : Bytes} {e : Error} (h : Defect offset rest e) :
    0 < rest.length := by
  cases h with
  | short nonempty => exact List.length_pos_iff.mpr nonempty
  | _ => simp only [List.length_append, int32Bytes_length]; omega

theorem all_of_spells_of_defect {parts : List Bytes} {folders : List Folder}
    (spelled : List.Forall₂ Spells parts folders) {count offset : Nat} {rest : Bytes} {e : Error}
    (defect : Defect (offset + parts.flatten.length) rest e)
    (enough : (parts.flatten ++ rest).length ≤ count) :
    all count offset (parts.flatten ++ rest) = .error e := by
  have fewer := length_le_flatten spelled
  have pos := defect.length_pos
  rw [List.length_append] at enough
  obtain ⟨spare, rfl⟩ : ∃ spare, count = parts.length + (spare + 1) :=
    ⟨count - parts.length - 1, by omega⟩
  rw [all_append spelled, all_of_defect defect]
  rfl

/-- An area is folders to its end, or folders up to a defect. -/
theorem all_cases {count offset : Nat} {area : Bytes} (enough : area.length ≤ count) :
    (∃ parts folders, area = parts.flatten ∧ List.Forall₂ Spells parts folders ∧
      all count offset area = .ok folders) ∨
    ∃ parts folders rest e, area = parts.flatten ++ rest ∧ List.Forall₂ Spells parts folders ∧
      Defect (offset + parts.flatten.length) rest e ∧ all count offset area = .error e := by
  induction count generalizing offset area with
  | zero =>
    have empty : area = [] := List.length_eq_zero_iff.mp (by omega)
    subst empty
    exact Or.inl ⟨[], [], rfl, .nil, rfl⟩
  | succ count ih =>
    by_cases empty : area = []
    · subst empty
      exact Or.inl ⟨[], [], rfl, .nil, rfl⟩
    · -- a defect here is the first one
      have here {e : Error} (defect : Defect offset area e) :
          ∃ parts folders rest e, area = parts.flatten ++ rest ∧
            List.Forall₂ Spells parts folders ∧ Defect (offset + parts.flatten.length) rest e ∧
            all (count + 1) offset area = .error e :=
        ⟨[], [], area, e, rfl, .nil, defect, all_of_defect defect count⟩
      cases taken : takeBlock? area with
      | none => exact Or.inr (here (defect_of_takeBlock? taken empty offset))
      | some found =>
        obtain ⟨block, rest⟩ := found
        obtain ⟨rfl, fits⟩ := eq_of_takeBlock? taken
        by_cases foreign : ∀ text, block ≠ Utf8.encode text
        · exact Or.inr (here (.encoding fits foreign))
        · obtain ⟨text, rfl⟩ : ∃ text, block = Utf8.encode text := by
            simpa using foreign
          cases found : read? text with
          | none => exact Or.inr (here (.document fits found))
          | some folder =>
            have first : Spells (int32Bytes (Utf8.encode text).length ++ Utf8.encode text) folder :=
              ⟨text, rfl, fits, found⟩
            have step := all_block fits count offset rest
            rw [ofBytes_encode, found] at step
            have shorter : rest.length ≤ count := by
              simp only [List.length_append, int32Bytes_length] at enough
              omega
            rcases ih shorter with ⟨parts, folders, rfl, spelled, read⟩ |
                ⟨parts, folders, left, e, rfl, spelled, defect, read⟩
            · refine Or.inl ⟨_ :: parts, folder :: folders, ?_, .cons first spelled, ?_⟩
              · simp
              · rw [step, read]
                rfl
            · refine Or.inr
                ⟨_ :: parts, folder :: folders, left, e, ?_, .cons first spelled, ?_, ?_⟩
              · simp
              · simpa [Nat.add_assoc] using defect
              · rw [step, read]
                rfl

end Folder

/-- A message of the grammar. Its header is thirty-six bytes that begin with the marker and the
version and say how many bytes the header and the folders have together. -/
structure Message.Spells (bytes : Bytes) (m : Message) : Prop where
  marker : m.header.marker = Rfh2.marker
  version : m.header.version = Rfh2.version
  fits : m.header.Fits
  parts : ∃ parts, bytes = m.header.bytes ++ parts.flatten ++ m.body ∧
    m.header.totalLength = (headerLength + parts.flatten.length : Nat) ∧
    List.Forall₂ Folder.Spells parts m.folders

/-- Why a message is refused: it does not begin with the marker and the version; it is too short for
a header; its header's length leaves no room for the header or goes past the message; or some
folders are followed by bytes with a defect. -/
inductive Message.Refused : Bytes → Error → Prop where
  | notFramed {bytes : Bytes} : ¬ marker ++ int32Bytes version <+: bytes →
    Refused bytes .notFramed
  | truncatedHeader {bytes : Bytes} : marker ++ int32Bytes version <+: bytes →
    bytes.length < headerLength → Refused bytes (.truncatedHeader bytes.length)
  | invalidLength {h : Header} {rest : Bytes} :
    h.marker = marker → h.version = version → h.Fits →
    h.totalLength < headerLength ∨ ((h.bytes ++ rest).length : Int) < h.totalLength →
    Refused (h.bytes ++ rest) (.invalidLength h.totalLength (h.bytes ++ rest).length)
  | folder {h : Header} {parts : List Bytes} {folders : List Folder} {rest body : Bytes}
    {e : Error} :
    h.marker = marker → h.version = version → h.Fits →
    h.totalLength = (headerLength + (parts.flatten ++ rest).length : Nat) →
    List.Forall₂ Folder.Spells parts folders →
    Folder.Defect (headerLength + parts.flatten.length) rest e →
    Refused (h.bytes ++ (parts.flatten ++ rest) ++ body) e

namespace Header

theorem isFramed_bytes {h : Header} (marked : h.marker = Rfh2.marker)
    (versioned : h.version = Rfh2.version) (rest : Bytes) : isFramed (h.bytes ++ rest) = true := by
  rw [isFramed_iff, ← marked, ← versioned]
  exact ⟨_, by simp only [bytes, List.append_assoc]; rfl⟩

theorem marked_of_isFramed {h : Header} (fits : h.Fits) {rest : Bytes}
    (framed : isFramed (h.bytes ++ rest) = true) :
    h.marker = Rfh2.marker ∧ h.version = Rfh2.version := by
  obtain ⟨more, same⟩ := isFramed_iff.mp framed
  simp only [bytes, List.append_assoc] at same
  obtain ⟨marked, tail⟩ := List.append_inj same fits.marker.symm
  have versioned := takeInt32?_int32Bytes fits.version
  have known := takeInt32?_int32Bytes (by decide : IsInt32 Rfh2.version) more
  rw [tail, versioned] at known
  exact ⟨marked.symm, (Prod.mk.inj (Option.some.inj known)).1⟩

end Header

namespace Message

theorem decode_bytes {h : Header} (marked : h.marker = marker) (versioned : h.version = version)
    (fits : h.Fits) (rest : Bytes) :
    decode (h.bytes ++ rest) =
      if h.totalLength < headerLength ∨ ((h.bytes ++ rest).length : Int) < h.totalLength then
        .error (.invalidLength h.totalLength (h.bytes ++ rest).length)
      else
        let length := h.totalLength.toNat - headerLength
        match Folder.all (rest.take length).length headerLength (rest.take length) with
        | .error e => .error e
        | .ok folders => .ok ⟨h, folders, rest.drop length⟩ := by
  unfold decode
  rw [Header.isFramed_bytes marked versioned, Header.take?_bytes fits]
  simp only [Bool.not_true, Bool.false_eq_true, if_false]
  split
  · rfl
  · next inside =>
    obtain ⟨length, total⟩ : ∃ length : Nat, h.totalLength.toNat = h.bytes.length + length := by
      refine ⟨h.totalLength.toNat - headerLength, ?_⟩
      rw [fits.bytes_length]
      omega
    have past : h.totalLength.toNat - headerLength = length := by
      rw [total, fits.bytes_length, Nat.add_sub_cancel_left]
    have area : ((h.bytes ++ rest).take h.totalLength.toNat).drop headerLength =
        rest.take (h.totalLength.toNat - headerLength) := by
      rw [past, total, List.take_length_add_append, ← fits.bytes_length, List.drop_left]
    have body : (h.bytes ++ rest).drop h.totalLength.toNat =
        rest.drop (h.totalLength.toNat - headerLength) := by
      rw [past, total, List.drop_length_add_append]
    let result (area body : Bytes) : Except Error Message :=
      match Folder.all area.length headerLength area with
      | .error e => .error e
      | .ok folders => .ok ⟨h, folders, body⟩
    exact congrArg₂ result area body

theorem decode_of_spells {bytes : Bytes} {m : Message} (h : m.Spells bytes) :
    decode bytes = .ok m := by
  obtain ⟨parts, rfl, total, spelled⟩ := h.parts
  have length : m.header.totalLength.toNat - headerLength = parts.flatten.length := by
    rw [total]
    omega
  have inside : ¬ (m.header.totalLength < headerLength ∨
      ((m.header.bytes ++ (parts.flatten ++ m.body)).length : Int) < m.header.totalLength) := by
    rw [total, List.length_append, List.length_append, h.fits.bytes_length]
    omega
  rw [List.append_assoc, decode_bytes h.marker h.version h.fits, if_neg inside]
  simp only [length, List.take_left, List.drop_left,
    Folder.all_of_spells spelled (Nat.le_refl _)]

theorem decode_of_refused {bytes : Bytes} {e : Error} (h : Refused bytes e) :
    decode bytes = .error e := by
  cases h with
  | notFramed outside =>
    have unframed : isFramed bytes = false := by
      rw [Bool.eq_false_iff]
      exact fun framed => outside (isFramed_iff.mp framed)
    rw [decode, unframed]
    rfl
  | truncatedHeader framed short =>
    rw [decode, isFramed_iff.mpr framed, Header.take?_eq_none.mpr short]
    rfl
  | invalidLength marked versioned fits outside =>
    rw [decode_bytes marked versioned fits, if_pos outside]
  | @folder h parts folders rest body e marked versioned fits total spelled defect =>
    have length : h.totalLength.toNat - headerLength = (parts.flatten ++ rest).length := by
      rw [total]
      omega
    have inside : ¬ (h.totalLength < headerLength ∨
        ((h.bytes ++ (parts.flatten ++ rest ++ body)).length : Int) < h.totalLength) := by
      rw [total]
      simp only [List.length_append, fits.bytes_length]
      omega
    rw [List.append_assoc, decode_bytes marked versioned fits, if_neg inside]
    simp only [length, List.take_left,
      Folder.all_of_spells_of_defect spelled defect (Nat.le_refl _)]

/-- Every message is of the grammar, or there is a reason why not. -/
theorem decode_cases (bytes : Bytes) :
    (∃ m, m.Spells bytes ∧ decode bytes = .ok m) ∨
      ∃ e, Refused bytes e ∧ decode bytes = .error e := by
  have refuse {e : Error} (h : Refused bytes e) :
      ∃ e, Refused bytes e ∧ decode bytes = .error e := ⟨e, h, decode_of_refused h⟩
  cases framed : isFramed bytes with
  | false =>
    refine Or.inr (refuse (.notFramed fun starts => ?_))
    rw [isFramed_iff.mpr starts] at framed
    cases framed
  | true =>
    cases taken : Header.take? bytes with
    | none =>
      have short := Header.take?_eq_none.mp taken
      exact Or.inr (refuse (.truncatedHeader (isFramed_iff.mp framed) short))
    | some found =>
      obtain ⟨h, rest⟩ := found
      obtain ⟨rfl, fits⟩ := Header.eq_of_take? taken
      obtain ⟨marked, versioned⟩ := Header.marked_of_isFramed fits framed
      by_cases outside :
          h.totalLength < headerLength ∨ ((h.bytes ++ rest).length : Int) < h.totalLength
      · exact Or.inr (refuse (.invalidLength marked versioned fits outside))
      · rw [List.length_append, fits.bytes_length] at outside
        obtain ⟨length, total⟩ : ∃ length : Nat,
            h.totalLength = (headerLength + length : Nat) ∧ length ≤ rest.length :=
          ⟨(h.totalLength - headerLength).toNat, by omega, by omega⟩
        have whole := List.take_append_drop length rest
        have measured : (rest.take length).length = length := by
          rw [List.length_take]
          omega
        rcases Folder.all_cases (Nat.le_refl (rest.take length).length) with
          ⟨parts, folders, area, spelled, -⟩ | ⟨parts, folders, left, e, area, spelled, defect, -⟩
        · have spells : Spells (h.bytes ++ rest) ⟨h, folders, rest.drop length⟩ := by
            refine ⟨marked, versioned, fits, parts, ?_, ?_, spelled⟩
            · rw [← area, List.append_assoc, whole]
            · rw [← area, measured]
              exact total.1
          exact Or.inl ⟨_, spells, decode_of_spells spells⟩
        · have refused : Refused (h.bytes ++ (parts.flatten ++ left) ++ rest.drop length) e := by
            refine .folder marked versioned fits ?_ spelled defect
            rw [← area, measured]
            exact total.1
          rw [← area, List.append_assoc, whole] at refused
          exact Or.inr (refuse refused)

theorem decode_eq_ok {bytes : Bytes} {m : Message} : decode bytes = .ok m ↔ m.Spells bytes := by
  constructor
  · intro read
    rcases decode_cases bytes with ⟨m', spells, same⟩ | ⟨e, -, failed⟩
    · rw [read] at same
      cases same
      exact spells
    · rw [read] at failed
      cases failed
  · exact decode_of_spells

theorem decode_eq_error {bytes : Bytes} {e : Error} :
    decode bytes = .error e ↔ Refused bytes e := by
  constructor
  · intro failed
    rcases decode_cases bytes with ⟨m, -, read⟩ | ⟨e', refused, same⟩
    · rw [failed] at read
      cases read
    · rw [failed] at same
      cases same
      exact refused
  · exact decode_of_refused

end Message

end SessionRelay.Rfh2
