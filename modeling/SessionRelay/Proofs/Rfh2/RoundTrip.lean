import SessionRelay.Proofs.Gzip.Stored
import SessionRelay.Proofs.Number.Integer
import SessionRelay.Proofs.Rfh2.Grammar
import SessionRelay.Proofs.Xml.Written
import SessionRelay.Rfh2.Encoder

/-!
What is written is read back: the folders, with the name of the queue as it was unless it has a
carriage return, and the payload within its limit.
-/

namespace SessionRelay.Rfh2

/-- Is it a character of XML 1.0, except for the carriage return? -/
def isPlain (c : Char) : Bool :=
  c == '\t' || c == '\n' || (0x20 ≤ c.toNat && c.toNat ≤ 0xD7FF) ||
    (0xE000 ≤ c.toNat && c.toNat ≤ 0xFFFD) || 0x10000 ≤ c.toNat

theorem ne_of_isPlain {c : Char} (h : isPlain c) : c ≠ '\r' := by
  rintro rfl
  cases h

theorem isChar_of_isPlain {c : Char} (h : isPlain c) : Xml.isChar c := by
  simp only [isPlain, Bool.or_eq_true, Bool.and_eq_true, beq_iff_eq, decide_eq_true_eq] at h
  have control : c = '\t' ∨ c = '\n' ∨ (0x20 ≤ c.toNat ∧ c.toNat ≤ 0xD7FF) ∨
      (0xE000 ≤ c.toNat ∧ c.toNat ≤ 0xFFFD) ∨ 0x10000 ≤ c.toNat := by
    simpa only [or_assoc] using h
  rcases control with rfl | rfl | visible
  · rfl
  · rfl
  · have large : ¬ c.toNat < 0x20 := by omega
    rw [Xml.isChar, if_neg large, Bool.and_eq_true, bne_iff_ne, bne_iff_ne]
    omega

/-! ### Texts -/

/-- Is a character written as a reference? -/
def isEscaped (c : Char) : Bool := c == '&' || c == '<' || c == '>'

theorem resolve?_escapeChar (c : Char) (rest : List Char) :
    Xml.resolve? none (escapeChar c ++ rest) =
      (Xml.resolve? none rest).map (⟨c, isEscaped c⟩ :: ·) := by
  by_cases ampersand : c = '&'
  · subst ampersand
    rfl
  · by_cases less : c = '<'
    · subst less
      rfl
    · by_cases greater : c = '>'
      · subst greater
        rfl
      · have unescaped : isEscaped c = false := by simp [isEscaped, ampersand, less, greater]
        rw [escapeChar, if_neg ampersand, if_neg less, if_neg greater, unescaped,
          List.singleton_append, Xml.resolve?, if_neg ampersand]

theorem resolve?_escape (cs : List Char) :
    Xml.resolve? none (cs.flatMap escapeChar) = some (cs.map fun c => ⟨c, isEscaped c⟩) := by
  induction cs with
  | nil => rfl
  | cons c cs ih =>
    rw [List.flatMap_cons, resolve?_escapeChar, ih]
    rfl

/-- May a character stand in a text between tags as it is? -/
def isData (c : Char) : Bool := Xml.isChar c && c != '<' && c != '>'

theorem isData_escapeChar {c : Char} (h : Xml.isChar c) : (escapeChar c).all isData := by
  unfold escapeChar
  split
  · rfl
  · split
    · rfl
    · split
      · rfl
      · next less greater => simp [isData, h, less, greater]

theorem all_isChar_of_isPlain {text : String} (plain : text.toList.all isPlain) :
    text.toList.all Xml.isChar :=
  List.all_eq_true.mpr fun c inside => isChar_of_isPlain (List.all_eq_true.mp plain c inside)

/-- What a text is read as: the ends of its lines become line feeds. -/
def readBack (text : String) : String :=
  String.ofList (Xml.lineEnds [] false (text.toList.map fun c => ⟨c, isEscaped c⟩))

theorem readBack_of_isPlain {text : String} (plain : text.toList.all isPlain) :
    readBack text = text := by
  have ends : ∀ m ∈ text.toList.map fun c => (⟨c, isEscaped c⟩ : Xml.Mark), m.char ≠ '\r' := by
    intro m inside
    obtain ⟨c, found, rfl⟩ := List.mem_map.mp inside
    exact ne_of_isPlain (List.all_eq_true.mp plain c found)
  have same : ((fun m : Xml.Mark => m.char) ∘ fun c => (⟨c, isEscaped c⟩ : Xml.Mark)) = id := rfl
  rw [readBack, Xml.lineEnds_of_plain ends (by simp), List.map_map, same, List.map_id]
  exact String.ofList_toList

/-- A text is written as characters that stand for it. -/
theorem writes_escape {text : String} (chars : text.toList.all Xml.isChar) :
    Xml.Writes (escape text).toList (readBack text) := by
  have chars := List.all_eq_true.mp chars
  have allowed (d : Char) (inside : d ∈ text.toList.flatMap escapeChar) :
      Xml.isChar d ∧ d ≠ '<' ∧ d ≠ '>' := by
    obtain ⟨c, found, written⟩ := List.mem_flatMap.mp inside
    have data := List.all_eq_true.mp (isData_escapeChar (chars c found)) d written
    simpa [isData, and_assoc] using data
  rw [escape, String.toList_ofList]
  constructor
  case meaning =>
    rw [Xml.textOf?, resolve?_escape, Option.map_some, readBack, String.toList_ofList]
  case chars => exact List.all_eq_true.mpr fun d inside => (allowed d inside).1
  case noOpening => exact fun inside => (allowed _ inside).2.1 rfl
  case noClosing => exact fun inside => (allowed _ inside).2.2 rfl

/-- An element of a folder, written with references for the marks of tags. -/
def element (tag : Xml.Tag) (text : String) (chars : text.toList.all Xml.isChar) : Xml.Leaf :=
  { tag with
    raw := (escape text).toList
    text := readBack text
    writes := writes_escape chars }

/-! ### Numbers -/

theorem isPlain_of_isDigit {c : Char} (h : c.isDigit) : isPlain c := by
  simp only [Char.isDigit, Bool.and_eq_true, decide_eq_true_eq, ge_iff_le,
    UInt32.le_iff_toNat_le] at h
  have least : 48 ≤ c.toNat := h.1
  have greatest : c.toNat ≤ 57 := h.2
  simp only [isPlain, Bool.or_eq_true, Bool.and_eq_true, decide_eq_true_eq]
  omega

theorem escapeChar_of_isDigit {c : Char} (h : c.isDigit) : escapeChar c = [c] := by
  have ampersand : c ≠ '&' := by
    rintro rfl
    cases h
  have less : c ≠ '<' := by
    rintro rfl
    cases h
  have greater : c ≠ '>' := by
    rintro rfl
    cases h
  rw [escapeChar, if_neg ampersand, if_neg less, if_neg greater]

theorem mem_text {n : Int} {c : Char} (inside : c ∈ (Integer.text n).toList) :
    c = '-' ∨ c.isDigit := by
  rw [Integer.text] at inside
  split at inside
  · rw [String.toList_ofList, List.mem_cons] at inside
    exact inside.imp id Integer.isDigit_of_mem_digits
  · rw [Integer.natText, String.toList_ofList] at inside
    exact Or.inr (Integer.isDigit_of_mem_digits inside)

theorem isPlain_text (n : Int) : (Integer.text n).toList.all isPlain := by
  apply List.all_eq_true.mpr
  intro c inside
  rcases mem_text inside with rfl | digit
  · rfl
  · exact isPlain_of_isDigit digit

theorem isChar_text (n : Int) : (Integer.text n).toList.all Xml.isChar :=
  all_isChar_of_isPlain (isPlain_text n)

/-- Characters that are not written as references. -/
theorem flatMap_escapeChar {cs : List Char} (h : ∀ c ∈ cs, escapeChar c = [c]) :
    cs.flatMap escapeChar = cs := by
  induction cs with
  | nil => rfl
  | cons c cs ih =>
    rw [List.flatMap_cons, h c List.mem_cons_self,
      ih fun d inside => h d (List.mem_cons_of_mem c inside)]
    rfl

theorem escape_text (n : Int) : escape (Integer.text n) = Integer.text n := by
  have unescaped : ∀ c ∈ (Integer.text n).toList, escapeChar c = [c] := by
    intro c inside
    rcases mem_text inside with rfl | digit
    · rfl
    · exact escapeChar_of_isDigit digit
  rw [escape, flatMap_escapeChar unescaped, String.ofList_toList]

theorem text_natCast (n : Nat) : Integer.text n = Integer.natText n := by
  have notNegative : ¬ (n : Int) < 0 := by omega
  rw [Integer.text, if_neg notNegative, Int.natAbs_natCast]

theorem text_eq_toString (n : Int) : Integer.text n = toString n := by
  cases n with
  | ofNat n => rfl
  | negSucc n =>
    apply String.toList_inj.mp
    simp [Integer.text, Integer.digits, toString, Int.repr, Nat.repr, Int.negSucc_lt_zero]

theorem escape_append (first later : String) :
    escape (first ++ later) = escape first ++ escape later := by
  simp [escape]

/-! ### Folders -/

namespace Folder

theorem leadingText_leaf (leaf : Xml.Leaf) :
    Xml.Node.leadingText (if leaf.raw = [] then [] else [.text leaf.text]) = leaf.text := by
  split
  · next empty =>
    have meaning := leaf.writes.meaning
    rw [empty] at meaning
    exact String.toList_inj.mp (Option.some.inj meaning)
  · rfl

theorem elementsOf_leaves (leaves : List Xml.Leaf) :
    elementsOf (leaves.map Xml.Leaf.node) = leaves.map fun leaf => (leaf.name, leaf.text) := by
  induction leaves with
  | nil => rfl
  | cons leaf leaves ih =>
    have first : elementsOf (leaf.node :: leaves.map Xml.Leaf.node) =
        (leaf.name, Xml.Node.leadingText (if leaf.raw = [] then [] else [.text leaf.text])) ::
          elementsOf (leaves.map Xml.Leaf.node) := rfl
    rw [List.map_cons, first, leadingText_leaf, ih]
    rfl

theorem dropTrailing_spaces (cs : List Char) (padding : Nat) :
    Text.dropTrailing (fun c => c == ' ' || c == '\x00')
      (cs ++ ['>'] ++ List.replicate padding ' ') = cs ++ ['>'] := by
  have spaces : ∀ c ∈ List.replicate padding ' ', (c == ' ' || c == '\x00') = true := by
    intro c inside
    rw [List.eq_of_mem_replicate inside]
    rfl
  have mark : ('>' == ' ' || '>' == '\x00') = false := by decide
  rw [Text.dropTrailing_append spaces]
  exact Text.dropTrailing_append_of_not _ cs '>' mark

theorem written_eq_append (root : String) (leaves : List Xml.Leaf) :
    ∃ cs, Xml.written root leaves = cs ++ ['>'] :=
  ⟨'<' :: (root.toList ++ '>' :: (leaves.flatMap Xml.Leaf.written ++ '<' :: '/' :: root.toList)),
    by simp [Xml.written, Xml.closing]⟩

/-- A written document is read as the folder it writes; padding does not matter. -/
theorem read?_written {root : String} (plain : Xml.isPlainName root) (leaves : List Xml.Leaf)
    (padding : Nat) :
    read? (String.ofList (Xml.written root leaves ++ List.replicate padding ' ')) =
      some ⟨root, leaves.map fun leaf => (leaf.name, leaf.text)⟩ := by
  have unpadded : Text.dropTrailing (fun c => c == ' ' || c == '\x00')
      (Xml.written root leaves ++ List.replicate padding ' ') = Xml.written root leaves := by
    obtain ⟨cs, ends⟩ := written_eq_append root leaves
    rw [ends]
    exact dropTrailing_spaces cs padding
  unfold read?
  rw [String.toList_ofList, unpadded]
  dsimp only
  rw [Xml.rootOf?_written plain]
  dsimp only
  rw [elementsOf_leaves]

theorem encode_spaces (cs : List Char) (padding : Nat) :
    Utf8.encode (String.ofList (cs ++ List.replicate padding ' ')) =
      Utf8.encode (String.ofList cs) ++ List.replicate padding 0x20 := by
  have spaces : (List.replicate padding ' ').flatMap String.utf8EncodeChar =
      List.replicate padding 0x20 := by
    induction padding with
    | zero => rfl
    | succ padding ih =>
      rw [List.replicate_succ, List.flatMap_cons, ih]
      rfl
  simp only [Utf8.encode, String.toList_ofList, List.flatMap_append, spaces]

/-- The spaces that fill a text up. -/
def padding (text : String) : Nat := (4 - (Utf8.encode text).length % 4) % 4

theorem padded_eq (text : String) :
    padded text = Utf8.encode text ++ List.replicate (padding text) 0x20 := rfl

theorem padding_lt (text : String) : padding text < 4 := Nat.mod_lt _ (by decide)

theorem padded_whole (text : String) : 4 ∣ (padded text).length := by
  rw [padded_eq, List.length_append, List.length_replicate, padding]
  omega

/-- The bytes of some folders, each with the number in front of it. -/
def total (texts : List String) : Nat :=
  texts.foldr (fun text n => 4 + (padded text).length + n) 0

theorem framed_length (text : String) : (framed text).length = 4 + (padded text).length := by
  rw [framed, List.length_append, int32Bytes_length]

theorem length_flatMap_framed (texts : List String) :
    (texts.flatMap framed).length = total texts := by
  induction texts with
  | nil => rfl
  | cons text texts ih =>
    rw [List.flatMap_cons, List.length_append, framed_length, ih]
    rfl

/-- A document: the name of its outermost element, and the elements in it. -/
abbrev Document := String × List Xml.Leaf

def Document.text (document : Document) : String :=
  String.ofList (Xml.written document.1 document.2)

/-- The folder that a document writes. -/
def Document.folder (document : Document) : Folder :=
  ⟨document.1, document.2.map fun leaf => (leaf.name, leaf.text)⟩

theorem spells_framed {document : Document} (plain : Xml.isPlainName document.1)
    (fits : IsInt32 (padded document.text).length) :
    Spells (framed document.text) document.folder := by
  have spaces := encode_spaces (Xml.written document.1 document.2) (padding document.text)
  have padded : padded document.text = _ := spaces.symm
  rw [padded] at fits
  refine ⟨_, ?_, fits, read?_written plain document.2 _⟩
  rw [framed, padded]

/-- Documents that fit are folders in their order. -/
theorem spells_documents {documents : List Document}
    (plain : ∀ document ∈ documents, Xml.isPlainName document.1)
    (fits : (documents.flatMap fun document => framed document.text).length < 0x80000000) :
    List.Forall₂ Spells (documents.map fun document => framed document.text)
      (documents.map Document.folder) := by
  induction documents with
  | nil => exact .nil
  | cons document documents ih =>
    rw [List.flatMap_cons, List.length_append, framed_length] at fits
    have small : IsInt32 (padded document.text).length := by
      unfold IsInt32
      omega
    have first := spells_framed (plain document List.mem_cons_self) small
    have later := ih (fun other inside => plain other (List.mem_cons_of_mem document inside))
      (by omega)
    exact .cons first later

end Folder

/-! ### Drafts -/

namespace Draft

variable (d : Draft)

/-- The draft names the only encoding, and its queue by characters that may stand in a document. -/
structure Legible : Prop where
  queue : d.queue.toList.all Xml.isChar
  encoding : d.encoding = gzipEncoding

/-- The draft names the only encoding, and its queue by characters that are read back as they are. -/
structure Plain : Prop where
  queue : d.queue.toList.all isPlain
  encoding : d.encoding = gzipEncoding

variable {d}

theorem Plain.legible (plain : d.Plain) : d.Legible :=
  ⟨all_isChar_of_isPlain plain.queue, plain.encoding⟩

theorem Legible.address (legible : d.Legible) :
    ("queue:///" ++ d.queue).toList.all Xml.isChar := by
  rw [String.toList_append, List.all_append, legible.queue]
  rfl

/-- The documents of a draft's folders. -/
def documents (legible : d.Legible) : List Folder.Document := [
  ("mcd", [element (.ofName "Msd" rfl) "jms_bytes" rfl]),
  ("jms", [
    element (.ofName "Dst" rfl) ("queue:///" ++ d.queue) legible.address,
    element (.ofName "Tms" rfl) (Integer.text d.timestamp) (isChar_text _),
    element (.ofName "Dlv" rfl) "2" rfl]),
  ("usr", [
    element (.ofName "ContentEncoding" rfl) gzipEncoding rfl,
    element ⟨"ContentLength", [("dt", "i8")], rfl, rfl, by decide⟩ (Integer.text d.body.length)
      (isChar_text _)])]

theorem folderTexts_eq (legible : d.Legible) :
    d.folderTexts = (documents legible).map Folder.Document.text := by
  have scheme : escape "queue:///" = "queue:///" := by decide
  have mode : escape "2" = "2" := by decide
  have kind : escape "jms_bytes" = "jms_bytes" := by decide
  have encoding : escape gzipEncoding = gzipEncoding := by decide
  have length : Integer.natText d.body.length = Integer.text d.body.length :=
    (text_natCast _).symm
  simp only [folderTexts, documents, legible.encoding, List.map_cons, List.map_nil, List.cons.injEq]
  refine ⟨?_, ?_, ?_, trivial⟩
  all_goals
    apply String.toList_inj.mp
    simp [Folder.Document.text, Xml.written, Xml.Leaf.written, Xml.writtenAttribute, Xml.closing,
      Xml.Tag.ofName, element, escape_append, escape_text, scheme, mode, kind, encoding, length,
      toString]

/-- The folders that a draft means. -/
def folderList (queue : String) (timestamp : Int) (length : Nat) : List Folder := [
  ⟨"mcd", [("Msd", "jms_bytes")]⟩,
  ⟨"jms", [("Dst", readBack ("queue:///" ++ queue)), ("Tms", toString timestamp), ("Dlv", "2")]⟩,
  ⟨"usr", [("ContentEncoding", gzipEncoding), ("ContentLength", toString length)]⟩]

theorem spells_folderList (legible : d.Legible)
    (fits : headerLength + d.folders.length < 0x80000000) :
    List.Forall₂ Folder.Spells (d.folderTexts.map Folder.framed)
      (folderList d.queue d.timestamp d.body.length) := by
  have names : ∀ document ∈ documents legible, Xml.isPlainName document.1 := by
    intro document inside
    simp only [documents, List.mem_cons, List.not_mem_nil, or_false] at inside
    rcases inside with rfl | rfl | rfl
    · exact (by decide : Xml.isPlainName "mcd")
    · exact (by decide : Xml.isPlainName "jms")
    · exact (by decide : Xml.isPlainName "usr")
  rw [folders, folderTexts_eq legible, List.flatMap_map] at fits
  have spelled := Folder.spells_documents names (by omega)
  have meant : (documents legible).map Folder.Document.folder =
      folderList d.queue d.timestamp d.body.length := by
    have kind : readBack "jms_bytes" = "jms_bytes" := readBack_of_isPlain rfl
    have mode : readBack "2" = "2" := readBack_of_isPlain rfl
    have encoding : readBack gzipEncoding = gzipEncoding := readBack_of_isPlain rfl
    have number (n : Int) : readBack (toString n) = toString n := by
      rw [← text_eq_toString, readBack_of_isPlain (isPlain_text n)]
    simp only [documents, folderList, Folder.Document.folder, Xml.Tag.ofName, element, kind,
      mode, encoding, number, text_eq_toString, List.map_cons, List.map_nil]
    rfl
  rw [meant] at spelled
  rw [folderTexts_eq legible, List.map_map]
  exact spelled

/-- The message of a draft, as it is read. -/
def message (d : Draft) : Message where
  header := .standard (headerLength + d.folders.length : Nat)
  folders := folderList d.queue d.timestamp d.body.length
  body := d.body

theorem decode_bytes (legible : d.Legible) (fits : headerLength + d.folders.length < 0x80000000) :
    Message.decode d.bytes = .ok d.message := by
  apply Message.decode_of_spells
  have small : IsInt32 (headerLength + d.folders.length : Nat) := by
    unfold IsInt32
    omega
  exact {
    marker := rfl
    version := rfl
    fits := Header.fits_standard small
    parts := ⟨d.folderTexts.map Folder.framed, rfl, rfl, spells_folderList legible fits⟩ }

theorem payload_message {payload : Bytes} (held : Gzip.Holds d.body payload) (limit : Nat) :
    d.message.payload limit =
      if payload.length ≤ limit then .ok payload else .error (.bodyTooLarge limit) := by
  have compressed : d.message.contentEncoding? = some gzipEncoding := rfl
  have content : Gzip.decompress limit d.message.body = _ := held limit
  rw [Message.payload, if_pos compressed, content]
  by_cases inside : payload.length ≤ limit
  · rw [if_pos inside, if_pos inside]
  · rw [if_neg inside, if_neg inside]

end Draft

/-- A draft's message is a header, three folders in whole words, and the compressed payload, and
all of it is read back: the name of the queue and the time as they were, the length of the body, and
the payload within any limit that has room for it. -/
structure RoundTrip (payload : Bytes) (queue : String) (timestamp : Int) (d : Draft) : Prop where
  framed : isFramed d.bytes
  threeFolders : d.folderTexts.length = 3
  whole : ∀ text ∈ d.folderTexts, 4 ∣ (Folder.padded text).length
  padded : ∀ text ∈ d.folderTexts, ∃ spaces < 4,
    Folder.padded text = Utf8.encode text ++ List.replicate spaces 0x20
  layout : d.bytes =
    (Header.standard (36 + Folder.total d.folderTexts : Nat)).bytes ++
      d.folderTexts.flatMap
        (fun text => int32Bytes (Folder.padded text).length ++ Folder.padded text) ++ d.body
  decoded : ∃ m, Message.decode d.bytes = .ok m ∧
    m.header = .standard (36 + Folder.total d.folderTexts : Nat) ∧
    m.folders = [
      ⟨"mcd", [("Msd", "jms_bytes")]⟩,
      ⟨"jms", [("Dst", "queue:///" ++ queue), ("Tms", toString timestamp), ("Dlv", "2")]⟩,
      ⟨"usr", [("ContentEncoding", "gzip"), ("ContentLength", toString d.body.length)]⟩] ∧
    m.body = d.body ∧
    ∀ limit, m.payload limit =
      if payload.length ≤ limit then .ok payload else .error (.bodyTooLarge limit)

theorem roundTrip_of_holds {payload : Bytes} {d : Draft} (plain : d.Plain)
    (held : Gzip.Holds d.body payload)
    (fits : headerLength + d.folders.length < 0x80000000) :
    RoundTrip payload d.queue d.timestamp d := by
  have address : ("queue:///" ++ d.queue).toList.all isPlain := by
    rw [String.toList_append, List.all_append, plain.queue]
    rfl
  have total : 36 + Folder.total d.folderTexts = headerLength + d.folders.length := by
    rw [Draft.folders, Folder.length_flatMap_framed]
    rfl
  constructor
  case framed =>
    rw [Draft.bytes, List.append_assoc]
    exact Header.isFramed_bytes rfl rfl _
  case threeFolders => rfl
  case whole => exact fun text _ => Folder.padded_whole text
  case padded => exact fun text _ => ⟨_, Folder.padding_lt text, Folder.padded_eq text⟩
  case layout =>
    rw [total]
    rfl
  case decoded =>
    rw [total, ← readBack_of_isPlain address]
    exact ⟨d.message, d.decode_bytes plain.legible fits, rfl, rfl, rfl, d.payload_message held⟩

/-- Whatever the payload, the time and the queue, a draft is made and its message is read back if
its header's length fits. That does not depend on how the payload is compressed: it holds of any
body that gives the payload back. -/
theorem draft_reads_back (payload : Bytes) (queue : String) (timestamp : Int)
    (plain : queue.toList.all isPlain) :
    ∃ draft, Draft.new payload queue "gzip" timestamp = .ok draft ∧
      (headerLength + draft.folders.length < 0x80000000 →
        RoundTrip payload queue timestamp draft) ∧
      ∀ body, Gzip.Holds body payload →
        headerLength + { draft with body := body }.folders.length < 0x80000000 →
        RoundTrip payload queue timestamp { draft with body := body } := by
  refine ⟨⟨Gzip.compress payload, queue, gzipEncoding, timestamp⟩, rfl, ?_, ?_⟩
  · exact roundTrip_of_holds ⟨plain, rfl⟩ (Gzip.holds_compress payload)
  · intro body held fits
    exact roundTrip_of_holds (d := ⟨body, queue, gzipEncoding, timestamp⟩) ⟨plain, rfl⟩ held fits

/-- A queue's name may hold marks of tags and what looks like a reference. -/
theorem marked_queue_reads_back :
    ∃ draft, Draft.new [0x68, 0x69] "A<B>&amp;" "gzip" 1700000000000 = .ok draft ∧
      RoundTrip [0x68, 0x69] "A<B>&amp;" 1700000000000 draft := by
  obtain ⟨draft, made, whole, -⟩ :=
    draft_reads_back [0x68, 0x69] "A<B>&amp;" 1700000000000 rfl
  cases made
  exact ⟨_, rfl, whole (by decide +kernel)⟩

end SessionRelay.Rfh2
