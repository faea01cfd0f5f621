import SessionRelay.Proofs.Text.Split
import SessionRelay.Xml.Document

/-!
Small documents that are written down are read back: an outermost element with elements of plain
text in it. What stands for a text is left open here, as long as it holds no tags and means the
text.
-/

namespace SessionRelay.Xml

/-- A name without qualifier. -/
def isPlainName (name : String) : Bool :=
  name.toList.head?.any isNameStart && name.toList.all isNameChar

/-- The value of an attribute that stands for itself between double quotes. -/
def isPlainValue (value : String) : Bool :=
  value.toList.all fun c => isChar c && c != '<' && c != '&' && c != '\x22' &&
    (c == ' ' || !isSpace c)

/-- Characters without tags that stand for a text. -/
structure Writes (raw : List Char) (text : String) : Prop where
  meaning : textOf? raw = some text.toList
  chars : raw.all isChar
  noOpening : '<' ∉ raw
  noClosing : '>' ∉ raw

/-- The tag of an element: its name and attributes, which declare no qualifier. -/
structure Tag where
  name : String
  attributes : List (String × String)
  plainName : isPlainName name
  plainAttributes : attributes.all fun a => isPlainName a.1 && a.1 != "xmlns" && isPlainValue a.2
  attributesDiffer : (attributes.map Prod.fst).Nodup

/-- A tag without attributes. -/
def Tag.ofName (name : String) (plain : isPlainName name) : Tag :=
  ⟨name, [], plain, rfl, List.nodup_nil⟩

/-- An element with text only: its tag, the characters in it and what they stand for. -/
structure Leaf extends Tag where
  raw : List Char
  text : String
  writes : Writes raw text

def writtenAttribute (a : String × String) : List Char :=
  ' ' :: (a.1.toList ++ '=' :: '\x22' :: (a.2.toList ++ ['\x22']))

/-- An end tag. -/
def closing (name : String) : List Char := '<' :: '/' :: (name.toList ++ ['>'])

namespace Leaf

/-- The element as it stands in a document. -/
def written (leaf : Leaf) : List Char :=
  '<' :: (leaf.name.toList ++ (leaf.attributes.flatMap writtenAttribute ++
    '>' :: (leaf.raw ++ closing leaf.name)))

/-- The element as it is read. -/
def node (leaf : Leaf) : Node :=
  .element leaf.name (if leaf.raw = [] then [] else [.text leaf.text])

end Leaf

/-- A document of an outermost element and such elements in it. -/
def written (root : String) (leaves : List Leaf) : List Char :=
  '<' :: (root.toList ++ '>' :: (leaves.flatMap Leaf.written ++ closing root))

/-! ### Texts -/

/-- Without a carriage return there is no line end to read in another way. -/
theorem lineEnds_of_plain {marks : List Mark} (h : ∀ m ∈ marks, m.char ≠ '\r') {read : List Char}
    (before : read.head? ≠ some '\r') (asIs : Bool) :
    lineEnds read asIs marks = read.reverse ++ marks.map Mark.char := by
  induction marks generalizing read asIs with
  | nil => simp [lineEnds]
  | cons m marks ih =>
    have plain := h m List.mem_cons_self
    have before' : (m.char :: read).head? ≠ some '\r' := by simpa using plain
    have later := ih (fun n inside => h n (List.mem_cons_of_mem m inside)) before'
    have notLast : (marks.isEmpty && m.char == '\r') = false := by simp [plain]
    have result : (m.char :: read).reverse ++ marks.map Mark.char =
        read.reverse ++ (m :: marks).map Mark.char := by
      simp
    rw [lineEnds, ← result]
    split
    · exact later true
    · split
      · exact later false
      · split
        · exact absurd rfl before
        · rw [notLast]
          exact later false

/-! ### Tags and texts as parts -/

theorem exists_of_isPlainName {name : String} (h : isPlainName name) :
    ∃ first rest, name.toList = first :: rest ∧ isNameStart first ∧
      ∀ c ∈ first :: rest, isNameChar c := by
  rw [isPlainName, Bool.and_eq_true] at h
  cases chars : name.toList with
  | nil => simp [chars] at h
  | cons first rest =>
    rw [chars] at h
    exact ⟨first, rest, rfl, h.1, List.all_eq_true.mp h.2⟩

namespace Markup

/-- A plain name is read up to a character that cannot belong to a name. -/
theorem name?_append {name : String} (h : isPlainName name) {c : Char} (colon : c ≠ ':')
    (foreign : isNameChar c = false) (rest : List Char) :
    name? (name.toList ++ c :: rest) = some (⟨"", name⟩, c :: rest) := by
  obtain ⟨first, more, chars, start, all⟩ := exists_of_isPlainName h
  have belongs (d : Char) (inside : d ∈ name.toList) : (d == ':' || isNameChar d) = true := by
    rw [chars] at inside
    rw [all d inside, Bool.or_true]
  have ends : (c == ':' || isNameChar c) = false := by simp [colon, foreign]
  have noColon : ':' ∉ name.toList := by
    intro inside
    rw [chars] at inside
    have isName := all ':' inside
    revert isName
    decide
  have plain : nameOf? name.toList = some ⟨"", name⟩ := by
    rw [nameOf?, Text.pieces_of_not_mem noColon]
    dsimp only
    rw [chars, List.head?_cons, Option.any_some, if_pos start, ← chars, String.ofList_toList]
  rw [name?, List.takeWhile_append_of_pos belongs, List.dropWhile_append_of_pos belongs,
    List.takeWhile_cons_of_neg (by simp [ends]), List.dropWhile_cons_of_neg (by simp [ends]),
    List.append_nil, plain]
  rfl

theorem ne_of_isNameStart {c d : Char} (h : isNameStart c) (foreign : isNameStart d = false) :
    c ≠ d := by
  rintro rfl
  rw [foreign] at h
  cases h

theorem exists_of_head? {cs : List Char} (h : cs.head?.any isNameStart) :
    ∃ first rest, cs = first :: rest ∧ isNameStart first := by
  cases cs with
  | nil => cases h
  | cons first rest => exact ⟨first, rest, rfl, h⟩

theorem head?_append {name : String} (h : isPlainName name) (rest : List Char) :
    (name.toList ++ rest).head?.any isNameStart := by
  obtain ⟨first, more, chars, start, -⟩ := exists_of_isPlainName h
  rw [chars]
  exact start

theorem skipSpace_of_not {c : Char} (h : isSpace c = false) (rest : List Char) :
    skipSpace (c :: rest) = c :: rest := by
  rw [skipSpace, List.dropWhile_cons_of_neg (by simp [h])]

theorem isSpace_of_isNameStart {c : Char} (h : isNameStart c) : isSpace c = false := by
  have space := ne_of_isNameStart h (d := ' ') (by decide)
  have tab := ne_of_isNameStart h (d := '\t') (by decide)
  have lineFeed := ne_of_isNameStart h (d := '\n') (by decide)
  have carriageReturn := ne_of_isNameStart h (d := '\r') (by decide)
  simp [isSpace, space, tab, lineFeed, carriageReturn]

theorem attribute?_of_name? {cs rest : List Char} {name : Name}
    (found : name? cs = some (name, '=' :: rest)) :
    attribute? cs = (quoted? (skipSpace rest)).map fun (raw, rest) => (name, raw, rest) := by
  rw [attribute?, found]
  dsimp only
  rw [skipSpace_of_not (by decide)]
  rfl

theorem attribute?_append {name value : String} (plain : isPlainName name)
    (plainValue : isPlainValue value) (rest : List Char) :
    attribute? (name.toList ++ '=' :: '\x22' :: (value.toList ++ '\x22' :: rest)) =
      some (⟨"", name⟩, value.toList, rest) := by
  have chars := List.all_eq_true.mp plainValue
  have noQuote : '\x22' ∉ value.toList := by
    intro inside
    have allowed := chars _ inside
    revert allowed
    decide
  have readable : (value.toList.all fun c => isChar c && c != '<') = true := by
    apply List.all_eq_true.mpr
    intro c inside
    have allowed := chars c inside
    simp only [Bool.and_eq_true] at allowed ⊢
    exact allowed.1.1.1
  rw [attribute?_of_name? (name?_append plain (by decide) (by decide) _),
    skipSpace_of_not (by decide), quoted?, if_pos (Or.inl rfl), Text.cut?_append noQuote]
  dsimp only
  rw [if_pos readable]
  rfl

theorem resolve?_of_not_mem {cs : List Char} (h : '&' ∉ cs) :
    resolve? none cs = some (cs.map fun c => ⟨c, false⟩) := by
  induction cs with
  | nil => rfl
  | cons c cs ih =>
    rw [List.mem_cons, not_or] at h
    rw [resolve?, if_neg (Ne.symm h.1), ih h.2]
    rfl

theorem spaced_of_plain {cs : List Char} (h : ∀ c ∈ cs, c = ' ' ∨ isSpace c = false) :
    spaced (cs.map fun c => ⟨c, false⟩) = cs := by
  induction cs with
  | nil => rfl
  | cons c cs ih =>
    have later := ih fun d inside => h d (List.mem_cons_of_mem c inside)
    rw [List.map_cons, spaced, later]
    rcases h c List.mem_cons_self with rfl | plain
    · simp [isSpace]
    · have carriageReturn : c ≠ '\r' := by
        rintro rfl
        cases plain
      simp [plain, carriageReturn]

theorem attributeText?_of_plain {value : String} (h : isPlainValue value) :
    attributeText? value.toList = some value.toList := by
  have chars := List.all_eq_true.mp h
  have noReference : '&' ∉ value.toList := by
    intro inside
    have allowed := chars _ inside
    revert allowed
    decide
  have spaces (c : Char) (inside : c ∈ value.toList) : c = ' ' ∨ isSpace c = false := by
    have allowed := chars c inside
    simp only [Bool.and_eq_true, Bool.or_eq_true, beq_iff_eq, Bool.not_eq_true'] at allowed
    exact allowed.2
  rw [attributeText?, resolve?_of_not_mem noReference, Option.map_some, spaced_of_plain spaces]

def attributeOf (a : String × String) : Attribute := ⟨⟨"", a.1⟩, a.2⟩

/-- After a space, what begins with a name is an attribute. -/
theorem attributes?_space (count : Nat) {cs rest : List Char} (start : cs.head?.any isNameStart)
    {name : Name} {raw value : List Char} (found : attribute? cs = some (name, raw, rest))
    (meaning : attributeText? raw = some value) :
    attributes? (count + 1) (' ' :: cs) =
      (attributes? count rest).map fun (later, empty, rest) =>
        (⟨name, String.ofList value⟩ :: later, empty, rest) := by
  obtain ⟨first, more, rfl, startsName⟩ := exists_of_head? start
  have inside : skipSpace (' ' :: first :: more) = first :: more := by
    rw [skipSpace, List.dropWhile_cons_of_pos rfl]
    exact skipSpace_of_not (isSpace_of_isNameStart startsName) more
  have space : Option.any isSpace (' ' :: first :: more).head? = true := rfl
  rw [attributes?, inside]
  split
  · next same =>
    cases same
    exact absurd rfl (ne_of_isNameStart startsName (d := '/') (by decide))
  · next same =>
    cases same
    exact absurd rfl (ne_of_isNameStart startsName (d := '>') (by decide))
  · rw [if_pos space, found]
    dsimp only
    rw [meaning]
    cases attributes? count rest <;> rfl

theorem attributes?_append {attributes : List (String × String)}
    (plain : ∀ a ∈ attributes, isPlainName a.1 ∧ isPlainValue a.2) (rest : List Char)
    {count : Nat} (enough : attributes.length < count) :
    attributes? count (attributes.flatMap writtenAttribute ++ '>' :: rest) =
      some (attributes.map attributeOf, false, rest) := by
  induction attributes generalizing count with
  | nil =>
    obtain ⟨count, rfl⟩ := Nat.exists_eq_add_of_lt enough
    rfl
  | cons a attributes ih =>
    obtain ⟨count, rfl⟩ : ∃ more, count = more + 1 := ⟨count - 1, by omega⟩
    obtain ⟨plainName, plainValue⟩ := plain a List.mem_cons_self
    have enough' : attributes.length < count := by
      rw [List.length_cons] at enough
      omega
    have later := ih (fun b inside => plain b (List.mem_cons_of_mem a inside)) enough'
    generalize left : attributes.flatMap writtenAttribute ++ '>' :: rest = remaining at later
    have shape : (a :: attributes).flatMap writtenAttribute ++ '>' :: rest =
        ' ' :: (a.1.toList ++ '=' :: '\x22' :: (a.2.toList ++ '\x22' :: remaining)) := by
      simp [writtenAttribute, ← left]
    rw [shape, attributes?_space count (head?_append plainName _)
      (attribute?_append plainName plainValue remaining) (attributeText?_of_plain plainValue),
      later, String.ofList_toList]
    rfl

/-- What begins with a name after its bracket is a start tag. -/
theorem next?_of_name {cs : List Char} (start : cs.head?.any isNameStart) :
    next? ('<' :: cs) = (name? cs).bind fun (name, rest) =>
      (attributes? (rest.length + 1) rest).map fun (attributes, empty, rest) =>
        (.start name attributes empty, rest) := by
  obtain ⟨first, more, rfl, startsName⟩ := exists_of_head? start
  unfold next?
  split
  case h_6 rest _ _ _ _ _ same =>
    cases same
    cases name? (first :: more) <;> rfl
  case h_7 other => exact absurd rfl (other (first :: more))
  all_goals
    next same =>
      cases same
      exact absurd startsName (by decide)

theorem length_le_flatMap (attributes : List (String × String)) :
    attributes.length ≤ (attributes.flatMap writtenAttribute).length := by
  induction attributes with
  | nil => exact Nat.le_refl 0
  | cons a attributes ih =>
    rw [List.flatMap_cons, List.length_append, List.length_cons, writtenAttribute,
      List.length_cons]
    omega

theorem next?_opening {name : String} (plain : isPlainName name)
    {attributes : List (String × String)}
    (plainAttributes : ∀ a ∈ attributes, isPlainName a.1 ∧ isPlainValue a.2) (rest : List Char) :
    next? ('<' :: (name.toList ++ (attributes.flatMap writtenAttribute ++ '>' :: rest))) =
      some (.start ⟨"", name⟩ (attributes.map attributeOf) false, rest) := by
  have short : attributes.length <
      (attributes.flatMap writtenAttribute ++ '>' :: rest).length + 1 := by
    have each := length_le_flatMap attributes
    rw [List.length_append]
    omega
  have named : name? (name.toList ++ (attributes.flatMap writtenAttribute ++ '>' :: rest)) =
      some (⟨"", name⟩, attributes.flatMap writtenAttribute ++ '>' :: rest) := by
    cases attributes with
    | nil => exact name?_append plain (by decide) (by decide) rest
    | cons a attributes => exact name?_append plain (by decide) (by decide) _
  rw [next?_of_name (head?_append plain _), named, Option.bind_some]
  dsimp only
  rw [attributes?_append plainAttributes rest short]
  rfl

theorem next?_closing {name : String} (plain : isPlainName name) (rest : List Char) :
    next? (closing name ++ rest) = some (.finish ⟨"", name⟩, rest) := by
  rw [closing, List.cons_append, List.cons_append, List.append_assoc, next?]
  rw [List.singleton_append, name?_append plain (by decide) (by decide)]
  dsimp only
  rw [skipSpace_of_not (by decide)]
  rfl

/-- What does not begin with a bracket is a text up to the next one. -/
theorem next?_of_text {cs : List Char} (h : cs.head? ≠ some '<') :
    next? cs =
      let raw := cs.takeWhile (· != '<')
      if raw.all isChar && (Text.cut? [']', ']', '>'] raw).isNone then
        (textOf? raw).map fun text => (.text raw text, cs.dropWhile (· != '<'))
      else none := by
  unfold next?
  split
  case h_7 => rfl
  all_goals exact absurd rfl h

theorem next?_text {raw : List Char} {text : String} (h : Writes raw text) (nonempty : raw ≠ [])
    (rest : List Char) :
    next? (raw ++ '<' :: rest) = some (.text raw text.toList, '<' :: rest) := by
  have plain (c : Char) (inside : c ∈ raw) : (c != '<') = true := by
    apply bne_iff_ne.mpr
    rintro rfl
    exact h.noOpening inside
  have head : (raw ++ '<' :: rest).head? ≠ some '<' := by
    cases raw with
    | nil => exact absurd rfl nonempty
    | cons c raw =>
      rintro same
      cases same
      exact h.noOpening List.mem_cons_self
  have taken : (raw ++ '<' :: rest).takeWhile (· != '<') = raw := by
    rw [List.takeWhile_append_of_pos plain, List.takeWhile_cons_of_neg (by simp), List.append_nil]
  have left : (raw ++ '<' :: rest).dropWhile (· != '<') = '<' :: rest := by
    rw [List.dropWhile_append_of_pos plain, List.dropWhile_cons_of_neg (by simp)]
  have noEnd : Text.cut? [']', ']', '>'] raw = none :=
    Text.cut?_of_not_mem (by simp) h.noClosing
  rw [next?_of_text head, taken, left]
  dsimp only
  rw [noEnd, h.chars, h.meaning]
  rfl

theorem all?_cons (count : Nat) (c : Char) (cs : List Char) :
    all? (count + 1) (c :: cs) =
      match next? (c :: cs) with
      | none => none
      | some (part, rest) => (all? count rest).map (part :: ·) := rfl

theorem all?_mono {count more : Nat} {cs : List Char} {parts : List Markup}
    (h : all? count cs = some parts) (le : count ≤ more) : all? more cs = some parts := by
  induction count generalizing more cs parts with
  | zero =>
    cases cs with
    | nil => cases more <;> exact h
    | cons c cs => cases h
  | succ count ih =>
    obtain ⟨more, rfl⟩ : ∃ m, more = m + 1 := ⟨more - 1, by omega⟩
    cases cs with
    | nil => exact h
    | cons c cs =>
      rw [all?_cons] at h ⊢
      cases found : next? (c :: cs) with
      | none =>
        rw [found] at h
        cases h
      | some next =>
        rw [found] at h
        obtain ⟨later, read, rfl⟩ := Option.map_eq_some_iff.mp h
        dsimp only
        rw [ih read (by omega)]
        rfl

/-- One part, and then those of what follows. -/
theorem all?_of_next? {cs rest : List Char} {part : Markup} {parts : List Markup}
    (found : next? cs = some (part, rest)) (shorter : rest.length < cs.length)
    (later : all? rest.length rest = some parts) : all? cs.length cs = some (part :: parts) := by
  cases cs with
  | nil => cases shorter
  | cons c cs =>
    rw [List.length_cons, all?_cons, found]
    dsimp only
    rw [all?_mono later (by rw [List.length_cons] at shorter; omega)]
    rfl

theorem all?_opening {name : String} (plain : isPlainName name)
    {attributes : List (String × String)}
    (plainAttributes : ∀ a ∈ attributes, isPlainName a.1 ∧ isPlainValue a.2) {rest : List Char}
    {parts : List Markup} (later : all? rest.length rest = some parts) :
    let cs := '<' :: (name.toList ++ (attributes.flatMap writtenAttribute ++ '>' :: rest))
    all? cs.length cs =
      some (.start ⟨"", name⟩ (attributes.map attributeOf) false :: parts) := by
  refine all?_of_next? (next?_opening plain plainAttributes rest) ?_ later
  simp only [List.length_append, List.length_cons]
  omega

theorem all?_closing {name : String} (plain : isPlainName name) {rest : List Char}
    {parts : List Markup} (later : all? rest.length rest = some parts) :
    all? (closing name ++ rest).length (closing name ++ rest) =
      some (.finish ⟨"", name⟩ :: parts) := by
  refine all?_of_next? (next?_closing plain rest) ?_ later
  simp only [List.length_append, closing, List.length_cons]
  omega

/-- A document that begins with a bracket and not with a declaration is read as a whole. -/
theorem ofDocument?_of_bracket {text : String} {cs : List Char} (chars : text.toList = '<' :: cs)
    (noDeclaration : Text.after? ('<' :: '?' :: declarationMark) ('<' :: cs) = none) :
    ofDocument? text = all? ('<' :: cs).length ('<' :: cs) := by
  simp [ofDocument?, chars, noDeclaration]

end Markup

/-! ### Elements -/

namespace Tag

theorem plain (tag : Tag) : ∀ a ∈ tag.attributes, isPlainName a.1 ∧ isPlainValue a.2 := by
  intro a inside
  have allowed := List.all_eq_true.mp tag.plainAttributes a inside
  simp only [Bool.and_eq_true] at allowed
  exact ⟨allowed.1.1, allowed.2⟩

theorem noDeclaration (tag : Tag) : ∀ a ∈ tag.attributes, a.1 ≠ "xmlns" := by
  intro a inside
  have allowed := List.all_eq_true.mp tag.plainAttributes a inside
  simp only [Bool.and_eq_true] at allowed
  exact bne_iff_ne.mp allowed.1.2

end Tag

namespace Leaf

/-- The parts of an element. -/
def parts (leaf : Leaf) : List Markup :=
  .start ⟨"", leaf.name⟩ (leaf.attributes.map Markup.attributeOf) false ::
    ((if leaf.raw = [] then [] else [.text leaf.raw leaf.text.toList]) ++
      [.finish ⟨"", leaf.name⟩])

/-- The text of an element and what follows it. -/
theorem all?_inside (leaf : Leaf) {rest : List Char} {parts : List Markup}
    (later : Markup.all? rest.length rest = some parts) :
    Markup.all? (leaf.raw ++ (closing leaf.name ++ rest)).length
        (leaf.raw ++ (closing leaf.name ++ rest)) =
      some ((if leaf.raw = [] then [] else [.text leaf.raw leaf.text.toList]) ++
        .finish ⟨"", leaf.name⟩ :: parts) := by
  have finish := Markup.all?_closing leaf.plainName later
  split
  · next empty =>
    rw [empty]
    exact finish
  · next nonempty =>
    refine Markup.all?_of_next? (Markup.next?_text leaf.writes nonempty _) ?_ finish
    have pos := List.length_pos_iff.mpr nonempty
    change (closing leaf.name ++ rest).length < _
    simp only [List.length_append]
    omega

/-- An element is read as its parts, before whatever follows it. -/
theorem all?_append (leaf : Leaf) {rest : List Char} {parts : List Markup}
    (later : Markup.all? rest.length rest = some parts) :
    Markup.all? (leaf.written ++ rest).length (leaf.written ++ rest) =
      some (leaf.parts ++ parts) := by
  have shape : leaf.written ++ rest = '<' :: (leaf.name.toList ++
      (leaf.attributes.flatMap writtenAttribute ++
        '>' :: (leaf.raw ++ (closing leaf.name ++ rest)))) := by
    simp [written]
  have result : leaf.parts ++ parts =
      .start ⟨"", leaf.name⟩ (leaf.attributes.map Markup.attributeOf) false ::
        ((if leaf.raw = [] then [] else [.text leaf.raw leaf.text.toList]) ++
          .finish ⟨"", leaf.name⟩ :: parts) := by
    simp [Leaf.parts]
  rw [shape, result]
  exact Markup.all?_opening leaf.plainName leaf.plain (leaf.all?_inside later)

end Leaf

/-- The parts of a document. -/
def parts (root : String) (leaves : List Leaf) : List Markup :=
  .start ⟨"", root⟩ [] false :: (leaves.flatMap Leaf.parts ++ [.finish ⟨"", root⟩])

theorem all?_leaves (leaves : List Leaf) {rest : List Char} {parts : List Markup}
    (later : Markup.all? rest.length rest = some parts) :
    Markup.all? (leaves.flatMap Leaf.written ++ rest).length
        (leaves.flatMap Leaf.written ++ rest) = some (leaves.flatMap Leaf.parts ++ parts) := by
  induction leaves with
  | nil => exact later
  | cons leaf leaves ih =>
    rw [List.flatMap_cons, List.flatMap_cons, List.append_assoc, List.append_assoc]
    exact leaf.all?_append ih

theorem ofDocument?_written {root : String} (plain : isPlainName root) (leaves : List Leaf) :
    Markup.ofDocument? (String.ofList (written root leaves)) = some (parts root leaves) := by
  have nothing : Markup.all? ([] : List Char).length [] = some [] := rfl
  have noAttributes : ∀ a ∈ ([] : List (String × String)),
      isPlainName a.1 ∧ isPlainValue a.2 := by
    simp
  have finish := Markup.all?_closing plain nothing
  rw [List.append_nil] at finish
  have read := Markup.all?_opening plain noAttributes (all?_leaves leaves finish)
  obtain ⟨first, more, chars, start, -⟩ := exists_of_isPlainName plain
  have noDeclaration : Text.after? ('<' :: '?' :: Markup.declarationMark) (written root leaves) =
      none := by
    have different : '?' ≠ first := (Markup.ne_of_isNameStart start (by decide)).symm
    rw [written, chars]
    simp [Text.after?, different]
  exact (Markup.ofDocument?_of_bracket (String.toList_ofList) noDeclaration).trans read

namespace Building

theorem all?_append (b : Building) (first later : List Markup) :
    b.all? (first ++ later) = (b.all? first).bind fun b => b.all? later := by
  induction first generalizing b with
  | nil => rfl
  | cons part first ih =>
    rw [List.cons_append, all?, all?]
    cases b.step? part with
    | none => rfl
    | some b => exact ih b

theorem declarations?_plain {attributes : List (String × String)}
    (plain : ∀ a ∈ attributes, a.1 ≠ "xmlns") :
    declarations? (attributes.map Markup.attributeOf) = some [] := by
  induction attributes with
  | nil => rfl
  | cons a attributes ih =>
    have later := ih fun b inside => plain b (List.mem_cons_of_mem a inside)
    have noQualifier : ¬ (Markup.attributeOf a).name.qualifier = "xmlns" := by
      simp [Markup.attributeOf]
    have noDeclaration : ¬ (Markup.attributeOf a).name.base = "xmlns" :=
      plain a List.mem_cons_self
    rw [List.map_cons, declarations?, later]
    dsimp only
    rw [if_neg noQualifier, if_neg noDeclaration]

theorem attributesAgree_plain {attributes : List (String × String)}
    (differ : (attributes.map Prod.fst).Nodup) (bindings : Bindings) :
    attributesAgree bindings (attributes.map Markup.attributeOf) := by
  have fullName (a : String × String) :
      fullName? bindings (Markup.attributeOf a).name = some (none, a.1) := by
    simp [fullName?, Markup.attributeOf]
  have apart : attributes.Pairwise fun a b => a.1 ≠ b.1 := List.pairwise_map.mp differ
  rw [attributesAgree, List.filter_map, List.map_map, Bool.and_eq_true]
  constructor
  · simp [fullName]
  · apply decide_eq_true
    apply List.pairwise_map.mpr
    apply (apart.filter _).imp
    intro a b different same
    simp only [Function.comp_apply, fullName, Option.some.injEq, Prod.mk.injEq, true_and] at same
    exact different same

theorem start?_plain (name : String) {attributes : List (String × String)}
    (plain : ∀ a ∈ attributes, a.1 ≠ "xmlns") (differ : (attributes.map Prod.fst).Nodup)
    (b : Building) (unbound : ((b.stack.head?.map Open.bindings).getD []) = [])
    (room : (b.stack.isEmpty && b.root.isSome) = false) :
    b.start? ⟨"", name⟩ (attributes.map Markup.attributeOf) false =
      some { b with stack := ⟨⟨"", name⟩, [], []⟩ :: b.stack } := by
  rw [start?, declarations?_plain plain, unbound]
  dsimp only
  rw [List.append_nil, attributesAgree_plain differ]
  simp [room]

/-- An element with text becomes the newest child of the element around it. -/
theorem all?_leaf (leaf : Leaf) (o : Open) (stack : List Open) (root : Option Node)
    (unbound : o.bindings = []) :
    all? ⟨o :: stack, root⟩ leaf.parts =
      some ⟨{ o with children := leaf.node :: o.children } :: stack, root⟩ := by
  have started := start?_plain leaf.name leaf.noDeclaration leaf.attributesDiffer
    ⟨o :: stack, root⟩ unbound rfl
  rw [Leaf.parts, all?, step?, started]
  dsimp only
  rw [Leaf.node]
  split
  · simp [all?, step?, addElement?]
  · simp [all?, step?, addElement?, addText]

theorem all?_leaves (leaves : List Leaf) (o : Open) (stack : List Open) (root : Option Node)
    (unbound : o.bindings = []) :
    all? ⟨o :: stack, root⟩ (leaves.flatMap Leaf.parts) =
      some ⟨{ o with children := (leaves.map Leaf.node).reverse ++ o.children } :: stack,
        root⟩ := by
  induction leaves generalizing o with
  | nil => rfl
  | cons leaf leaves ih =>
    rw [List.flatMap_cons, all?_append, all?_leaf leaf o stack root unbound, Option.bind_some,
      ih { o with children := leaf.node :: o.children } unbound]
    simp

end Building

/-- A document that is written is read back. -/
theorem rootOf?_written {root : String} (plain : isPlainName root) (leaves : List Leaf) :
    rootOf? (String.ofList (written root leaves)) =
      some (.element root (leaves.map Leaf.node)) := by
  have noAttributes : ∀ a ∈ ([] : List (String × String)), a.1 ≠ "xmlns" := by simp
  have started := Building.start?_plain root noAttributes List.nodup_nil Building.empty rfl rfl
  have filled := Building.all?_leaves leaves ⟨⟨"", root⟩, [], []⟩ [] none rfl
  rw [rootOf?, ofDocument?_written plain, Option.bind_some, parts, Building.all?, Building.step?]
  rw [List.map_nil] at started
  rw [started]
  dsimp only [Building.empty]
  rw [Building.all?_append, filled]
  simp [Building.all?, Building.step?, Building.addElement?]

end SessionRelay.Xml
