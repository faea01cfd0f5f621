import SessionRelay.Proofs.Gzip.Limits
import SessionRelay.Rfh2.Message

/-!
Which messages are compressed. The body is decompressed if the first `ContentEncoding` of the first
`usr` folder says so. Such a message has a folder that says it, but a message may also say it in a
later folder or element, where it is not looked for.
-/

namespace SessionRelay.Rfh2

theorem Folder.get?_eq_some {folder : Folder} {name value : String} :
    folder.get? name = some value ↔ ∃ above below,
      folder.elements = above ++ (name, value) :: below ∧ ∀ element ∈ above, element.1 ≠ name := by
  rw [get?, List.lookup_eq_some_iff]
  simp only [bne_iff_ne, ne_comm]

namespace Message

/-- Some `usr` folder gives the value as content encoding. -/
def Declares (m : Message) (value : String) : Prop :=
  ∃ folder ∈ m.folders, folder.name = "usr" ∧ ("ContentEncoding", value) ∈ folder.elements

/-- The first `usr` folder gives the value, and gives no other before it. -/
def Leads (m : Message) (value : String) : Prop :=
  ∃ before folder after, m.folders = before ++ folder :: after ∧
    (∀ earlier ∈ before, earlier.name ≠ "usr") ∧ folder.name = "usr" ∧
    ∃ above below, folder.elements = above ++ ("ContentEncoding", value) :: below ∧
      ∀ element ∈ above, element.1 ≠ "ContentEncoding"

/-- All `usr` folders are one folder over again, and their content encodings are one value. -/
structure Unambiguous (m : Message) : Prop where
  folders : ∀ folder ∈ m.folders, ∀ other ∈ m.folders, folder.name = "usr" → other.name = "usr" →
    folder = other
  values : ∀ folder ∈ m.folders, folder.name = "usr" → ∀ value value',
    ("ContentEncoding", value) ∈ folder.elements → ("ContentEncoding", value') ∈ folder.elements →
      value = value'

/-- What the body is as gzip data, whatever the folders say. -/
def gunzipped (m : Message) (limit : Nat) : Except Error Bytes :=
  match Gzip.decompress limit m.body with
  | .ok content => .ok content
  | .error .broken => .error (.decompress "invalid gzip data")
  | .error .tooLarge => .error (.bodyTooLarge limit)

variable {m : Message}

theorem payload_eq (m : Message) (limit : Nat) :
    m.payload limit =
      if m.contentEncoding? = some gzipEncoding then m.gunzipped limit else .ok m.body := rfl

theorem folder?_eq_some {name : String} {folder : Folder} :
    m.folder? name = some folder ↔ folder.name = name ∧ ∃ before after,
      m.folders = before ++ folder :: after ∧ ∀ earlier ∈ before, earlier.name ≠ name := by
  rw [folder?, List.find?_eq_some_iff_append]
  simp only [beq_iff_eq, Bool.not_eq_true', beq_eq_false_iff_ne]

theorem contentEncoding?_eq_some {value : String} :
    m.contentEncoding? = some value ↔ m.Leads value := by
  rw [contentEncoding?, Option.bind_eq_some_iff]
  constructor
  · rintro ⟨folder, found, first⟩
    obtain ⟨named, before, after, split, earlier⟩ := folder?_eq_some.mp found
    exact ⟨before, folder, after, split, earlier, named, Folder.get?_eq_some.mp first⟩
  · rintro ⟨before, folder, after, split, earlier, named, first⟩
    exact ⟨folder, folder?_eq_some.mpr ⟨named, before, after, split, earlier⟩,
      Folder.get?_eq_some.mpr first⟩

theorem Leads.declares {value : String} (leads : m.Leads value) : m.Declares value := by
  obtain ⟨before, folder, after, split, -, named, above, below, elements, -⟩ := leads
  refine ⟨folder, ?_, named, ?_⟩
  · rw [split]
    exact List.mem_append_right _ List.mem_cons_self
  · rw [elements]
    exact List.mem_append_right _ List.mem_cons_self

/-- What is said in one place is said first. -/
theorem Declares.leads {value : String} (declares : m.Declares value)
    (unambiguous : m.Unambiguous) : m.Leads value := by
  obtain ⟨folder, member, named, said⟩ := declares
  have some : (m.folder? "usr").isSome = true :=
    List.find?_isSome.mpr ⟨folder, member, beq_iff_eq.mpr named⟩
  obtain ⟨first, found⟩ := Option.isSome_iff_exists.mp some
  have same : first = folder := unambiguous.folders first (List.mem_of_find?_eq_some found) folder
    member (folder?_eq_some.mp found).1 named
  subst same
  have given : (first.get? "ContentEncoding").isSome = true :=
    List.lookup_isSome_iff.mpr ⟨_, said, beq_self_eq_true _⟩
  obtain ⟨value', told⟩ := Option.isSome_iff_exists.mp given
  obtain ⟨above, below, elements, -⟩ := Folder.get?_eq_some.mp told
  have also : ("ContentEncoding", value') ∈ first.elements := by
    rw [elements]
    exact List.mem_append_right _ List.mem_cons_self
  cases unambiguous.values first member named value value' said also
  exact contentEncoding?_eq_some.mp (Option.bind_eq_some_iff.mpr ⟨first, found, told⟩)

theorem gunzipped_eq_ok {limit : Nat} {content : Bytes} :
    m.gunzipped limit = .ok content ↔ Gzip.decompress limit m.body = .ok content := by
  unfold gunzipped
  split
  · next read => rw [read, Except.ok.injEq, Except.ok.injEq]
  · next broken => simp [broken]
  · next tooLarge => simp [tooLarge]

/-- Gzip data are never their own content within every limit. -/
theorem exists_gunzipped_ne (m : Message) : ∃ limit, m.gunzipped limit ≠ .ok m.body := by
  refine ⟨0, fun same => ?_⟩
  have read := gunzipped_eq_ok.mp same
  have empty := List.eq_nil_of_length_eq_zero (Nat.le_zero.mp (Gzip.decompress_eq_ok.mp read).2)
  rw [empty] at read
  cases read

end Message

/-- When the body of a message is decompressed: just in case that its folders lead with gzip. They
declare it then, and if they declare it without contradicting themselves they lead with it. -/
structure Encoding (m : Message) : Prop where
  compressed : (∀ limit, m.payload limit = m.gunzipped limit) ↔ m.Leads "gzip"
  raw : (∀ limit, m.payload limit = .ok m.body) ↔ ¬ m.Leads "gzip"
  said : m.Leads "gzip" → m.Declares "gzip"
  led : m.Declares "gzip" → m.Unambiguous → m.Leads "gzip"

/-- Whatever its folders are, a message's body is decompressed if the first content encoding of the
first `usr` folder is gzip, and given as it is if not, also if a later one is gzip. -/
theorem first_encoding_counts (m : Message) : Encoding m := by
  have leads : m.contentEncoding? = some gzipEncoding ↔ m.Leads "gzip" :=
    Message.contentEncoding?_eq_some
  obtain ⟨limit, differ⟩ := m.exists_gunzipped_ne
  constructor
  case said => exact Message.Leads.declares
  case led => exact Message.Declares.leads
  case compressed =>
    rw [← leads]
    constructor
    · intro gunzips
      have read := gunzips limit
      rw [Message.payload_eq] at read
      split at read
      · next led => exact led
      · exact absurd read.symm differ
    · intro led limit
      rw [Message.payload_eq, if_pos led]
  case raw =>
    rw [← leads]
    constructor
    · intro plain led
      have read := plain limit
      rw [Message.payload_eq, if_pos led] at read
      exact differ read
    · intro other limit
      rw [Message.payload_eq, if_neg other]

/-- A message with two `usr` folders, of which the second says that the body is compressed. -/
def twofold : Message where
  header := .standard 104
  folders := [⟨"usr", []⟩, ⟨"usr", [("ContentEncoding", "gzip")]⟩]
  body := Gzip.compress [0x61]

def twofoldBytes : Bytes :=
  twofold.header.bytes ++ Folder.framed "<usr/>" ++
    Folder.framed "<usr><ContentEncoding>gzip</ContentEncoding></usr>" ++ twofold.body

theorem decode_twofoldBytes : Message.decode twofoldBytes = .ok twofold := by
  have read : (Message.decode twofoldBytes).toOption = some twofold := by decide +kernel
  cases decoded : Message.decode twofoldBytes with
  | ok m =>
    rw [decoded] at read
    exact congrArg Except.ok (Option.some.inj read)
  | error e =>
    rw [decoded] at read
    cases read

/-- The body of that message holds one byte, and is given as it is. -/
theorem later_encoding_missed :
    Message.decode twofoldBytes = .ok twofold ∧ twofold.Declares "gzip" ∧
    (∀ limit, 1 ≤ limit → twofold.gunzipped limit = .ok [0x61]) ∧
    ∀ limit, twofold.payload limit = .ok (Gzip.compress [0x61]) := by
  refine ⟨decode_twofoldBytes, ?_, ?_, fun _ => rfl⟩
  · exact ⟨_, List.mem_cons_of_mem _ List.mem_cons_self, rfl, List.mem_cons_self⟩
  · intro limit inside
    rw [Message.gunzipped_eq_ok, Gzip.decompress_eq_ok]
    exact ⟨Gzip.holds_compress [0x61], inside⟩

end SessionRelay.Rfh2
