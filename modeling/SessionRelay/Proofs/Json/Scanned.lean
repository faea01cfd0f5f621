import SessionRelay.Json.Reader
import SessionRelay.Json.Writer
import SessionRelay.Proofs.Number.Integer
import SessionRelay.Proofs.Text.Utf8

/-!
The scanner on written text. A value whose numbers are whole is written as text that scans to the
tokens of the value, one after the other, whatever has been scanned before.
-/

namespace SessionRelay

namespace Json

/-! ### Tokens of values -/

/-- Is a number whole and within 64 bits, with a sign or without? -/
def Number.IsWhole : Number → Prop
  | .integer n => Integer.minSigned ≤ n ∧ n ≤ Integer.maxUnsigned
  | .double _ => False

/-- A number as it is written; one that is not whole is left out. -/
def Number.numeral : Number → Numeral
  | .integer n => ⟨decide (n < 0), Integer.decimals n.natAbs, [], none⟩
  | .double _ => ⟨false, [], [], none⟩

/-- The control characters that have an escape of their own. -/
def shortEscapes : List Char := ['\x08', '\x0c', '\n', '\r', '\t']

/-- A character within a string, as it is scanned: by its bytes, unless it is escaped by number. -/
def charPieces (c : Char) : List Piece :=
  if c.toNat < 0x20 ∧ c ∉ shortEscapes then [.unit c.toNat]
  else (String.utf8EncodeChar c).map .byte

def stringPieces (s : String) : List Piece := s.toList.flatMap charPieces

namespace Value

variable (P : Value → Prop)

mutual

/-- The tokens of a value, as it is written. -/
def tokens : Value → List Token
  | .null => [.null]
  | .bool b => [.bool b]
  | .number n => [.number n.numeral]
  | .string s => [.string (stringPieces s)]
  | .array [] => [.openArray, .closeArray]
  | .array (v :: rest) => .openArray :: (v.tokens ++ itemsTokens rest)
  | .object [] => [.openObject, .closeObject]
  | .object ((key, v) :: rest) =>
    .openObject :: .string (stringPieces key) :: .colon :: (v.tokens ++ membersTokens rest)

/-- The tokens of the items after the first, and of the closing bracket. -/
def itemsTokens : List Value → List Token
  | [] => [.closeArray]
  | v :: rest => .comma :: (v.tokens ++ itemsTokens rest)

/-- The tokens of the members after the first, and of the closing brace. -/
def membersTokens : List (String × Value) → List Token
  | [] => [.closeObject]
  | (key, v) :: rest =>
    .comma :: .string (stringPieces key) :: .colon :: (v.tokens ++ membersTokens rest)

end

mutual

/-- Does a property hold of a value and of all values within it? -/
def Throughout : Value → Prop
  | .array items => P (.array items) ∧ ThroughoutItems items
  | .object members => P (.object members) ∧ ThroughoutMembers members
  | v => P v

def ThroughoutItems : List Value → Prop
  | [] => True
  | v :: rest => v.Throughout ∧ ThroughoutItems rest

def ThroughoutMembers : List (String × Value) → Prop
  | [] => True
  | (_, v) :: rest => v.Throughout ∧ ThroughoutMembers rest

end

/-- A number is whole. -/
def wholeHere : Value → Prop
  | .number n => n.IsWhole
  | _ => True

/-- All numbers in a value are whole. -/
def Whole (v : Value) : Prop := v.Throughout wholeHere

end Value

namespace Scanner

/-! ### Text -/

/-- The scanner after a text. -/
def read (s : Scanner) (cs : List Char) : Scanner :=
  (cs.flatMap String.utf8EncodeChar).foldl step s

theorem read_append (s : Scanner) (cs more : List Char) :
    s.read (cs ++ more) = (s.read cs).read more := by
  simp [read]

theorem read_cons (s : Scanner) (c : Char) (cs : List Char) :
    s.read (c :: cs) = (s.read [c]).read cs := s.read_append [c] cs

variable {s : Scanner} {tokens : List Token}

/-! ### Strings -/

/-- Bytes that stand for themselves within a string. -/
theorem foldl_plain {bytes : Bytes} (plain : ∀ b ∈ bytes, 0x20 ≤ b.toNat ∧ b ≠ 0x22 ∧ b ≠ 0x5C)
    (before : List Piece) :
    bytes.foldl step ⟨.string before, tokens⟩ =
      ⟨.string ((bytes.map .byte).reverse ++ before), tokens⟩ := by
  induction bytes generalizing before with
  | nil => rfl
  | cons b rest ih =>
    obtain ⟨⟨printable, notQuote, notSlash⟩, later⟩ := List.forall_mem_cons.mp plain
    have above : ¬ b < 0x20 := by
      rw [UInt8.lt_iff_toNat_lt]
      exact Nat.not_lt.mpr printable
    have first : step ⟨.string before, tokens⟩ b = ⟨.string (.byte b :: before), tokens⟩ := by
      simp only [step, if_neg notQuote, if_neg notSlash, if_neg above]
    rw [List.foldl_cons, first, ih later]
    simp

/-- A byte of a character is the character itself, or none of the first half of all bytes. -/
theorem mem_utf8EncodeChar {c : Char} {b : UInt8} (member : b ∈ String.utf8EncodeChar c) :
    (c.toNat < 0x80 ∧ b.toNat = c.toNat) ∨ 0x80 ≤ b.toNat := by
  rw [Utf8.utf8EncodeChar_eq] at member
  split at member
  · next ascii =>
    rw [List.mem_singleton.mp member, Utf8.toNat_ofNat (by omega)]
    exact Or.inl ⟨by omega, rfl⟩
  · right
    split at member
    · simp only [List.mem_cons, List.not_mem_nil, or_false] at member
      rcases member with rfl | rfl
      all_goals
        rw [Utf8.toNat_ofNat (by omega)]
        omega
    · split at member
      · simp only [List.mem_cons, List.not_mem_nil, or_false] at member
        rcases member with rfl | rfl | rfl
        all_goals
          rw [Utf8.toNat_ofNat (by omega)]
          omega
      · simp only [List.mem_cons, List.not_mem_nil, or_false] at member
        rcases member with rfl | rfl | rfl | rfl
        all_goals
          rw [Utf8.toNat_ofNat (by omega)]
          omega

/-- A digit of a numeric escape. -/
theorem step_unit (before : List Piece) (owed value : Nat) {d : Nat} (h : d < 16) :
    (⟨.unit before owed value, tokens⟩ : Scanner).read [Hex.digit d] =
      if owed ≤ 1 then ⟨.string (.unit (value * 16 + d) :: before), tokens⟩
      else ⟨.unit before (owed - 1) (value * 16 + d), tokens⟩ := by
  have written : ∀ d < 16,
      String.utf8EncodeChar (Hex.digit d) = [UInt8.ofNat (Hex.digit d).toNat] ∧
        Hex.value? (Char.ofNat (UInt8.ofNat (Hex.digit d).toNat).toNat) = some d := by decide
  obtain ⟨one, means⟩ := written d h
  simp only [read, List.flatMap_cons, List.flatMap_nil, one, List.append_nil, List.foldl_cons,
    List.foldl_nil, step, means]

/-- A control character that is escaped by number. -/
theorem read_control {n : Nat} (h : n < 0x20) (before : List Piece) :
    (⟨.string before, tokens⟩ : Scanner).read ('\\' :: 'u' :: Hex.fixed 4 n) =
      ⟨.string (.unit n :: before), tokens⟩ := by
  have digits : Hex.fixed 4 n =
      [Hex.digit 0, Hex.digit 0, Hex.digit (n / 16), Hex.digit (n % 16)] := by
    have first : n / 16 / 16 = 0 := by omega
    have second : n / 16 % 16 = n / 16 := by omega
    simp [Hex.fixed, first, second]
  have opened : (⟨.string before, tokens⟩ : Scanner).read ['\\', 'u'] =
      ⟨.unit before 4 0, tokens⟩ := rfl
  have value : ((0 * 16 + 0) * 16 + 0) * 16 + n / 16 = n / 16 := by omega
  have split (cs : List Char) : '\\' :: 'u' :: cs = ['\\', 'u'] ++ cs := rfl
  rw [digits, split, read_append, opened, read_cons, step_unit before 4 0 (by decide),
    if_neg (by decide), read_cons, step_unit before 3 _ (by decide), if_neg (by decide), read_cons,
    step_unit before 2 _ (by omega), if_neg (by decide), step_unit before 1 _ (by omega),
    if_pos (by decide)]
  have whole : (((0 * 16 + 0) * 16 + 0) * 16 + n / 16) * 16 + n % 16 = n := by omega
  rw [whole]

/-- A character as it is written within a string. -/
theorem read_escapeChar (c : Char) (before : List Piece) :
    (⟨.string before, tokens⟩ : Scanner).read (escapeChar c) =
      ⟨.string ((charPieces c).reverse ++ before), tokens⟩ := by
  unfold escapeChar
  split
  · next same =>
    subst same
    rfl
  split
  · next same =>
    subst same
    rfl
  split
  · next same =>
    subst same
    rfl
  split
  · next same =>
    subst same
    rfl
  split
  · next same =>
    subst same
    rfl
  split
  · next same =>
    subst same
    rfl
  split
  · next same =>
    subst same
    rfl
  next notQuote notSlash notBack notFeed notLine notReturn notTab =>
    have long : c ∉ shortEscapes := by
      simp [shortEscapes, notBack, notFeed, notLine, notReturn, notTab]
    split
    · next control =>
      rw [charPieces, if_pos ⟨control, long⟩]
      exact read_control control before
    · next printable =>
      rw [charPieces, if_neg fun both => printable both.1]
      have plain : ∀ b ∈ String.utf8EncodeChar c, 0x20 ≤ b.toNat ∧ b ≠ 0x22 ∧ b ≠ 0x5C := by
        intro b member
        rcases mem_utf8EncodeChar member with ⟨ascii, same⟩ | high
        · refine ⟨by omega, ?_, ?_⟩
          · rintro rfl
            exact notQuote (Char.toNat_inj.mp same.symm)
          · rintro rfl
            exact notSlash (Char.toNat_inj.mp same.symm)
        · refine ⟨by omega, ?_, ?_⟩
          all_goals
            rintro rfl
            exact absurd high (by decide)
      rw [read, List.flatMap_singleton]
      exact foldl_plain plain before

theorem read_escaped (cs : List Char) (before : List Piece) :
    (⟨.string before, tokens⟩ : Scanner).read (cs.flatMap escapeChar) =
      ⟨.string ((cs.flatMap charPieces).reverse ++ before), tokens⟩ := by
  induction cs generalizing before with
  | nil => rfl
  | cons c cs ih =>
    rw [List.flatMap_cons, read_append, read_escapeChar, ih, List.flatMap_cons,
      List.reverse_append, List.append_assoc]

theorem read_string (string : String) (tokens : List Token) :
    (⟨.between, tokens⟩ : Scanner).read (stringChars string) =
      ⟨.between, .string (stringPieces string) :: tokens⟩ := by
  have opened : (⟨.between, tokens⟩ : Scanner).read ['\x22'] = ⟨.string [], tokens⟩ := rfl
  have closed (pieces : List Piece) : (⟨.string pieces, tokens⟩ : Scanner).read ['\x22'] =
      ⟨.between, .string pieces.reverse :: tokens⟩ := rfl
  rw [stringChars, List.cons_append, read_cons, opened, read_append, read_escaped, closed,
    List.append_nil, List.reverse_reverse, stringPieces]

/-! ### Numbers -/

/-- The scanner has read the tokens, of which the last may be a number that has not ended. -/
def Stands (s : Scanner) (tokens : List Token) : Prop :=
  s = ⟨.between, tokens⟩ ∨ ∃ n stage before,
    s = ⟨.number n stage, before⟩ ∧ mayEnd stage = true ∧ tokens = Scanner.closed n :: before

/-- Digits after the first. -/
theorem read_digits (n : Numeral) {ds : List Nat} (small : ∀ d ∈ ds, d < 10) :
    (⟨.number n .whole, tokens⟩ : Scanner).read (ds.map Nat.digitChar) =
      ⟨.number { n with whole := ds.reverse ++ n.whole } .whole, tokens⟩ := by
  have written : ∀ d < 10,
      String.utf8EncodeChar d.digitChar = [UInt8.ofNat d.digitChar.toNat] ∧
        digit? (UInt8.ofNat d.digitChar.toNat) = some d := by decide
  induction ds generalizing n with
  | nil => rfl
  | cons d rest ih =>
    obtain ⟨first, later⟩ := List.forall_mem_cons.mp small
    obtain ⟨one, means⟩ := written d first
    have begun : (⟨.number n .whole, tokens⟩ : Scanner).read [d.digitChar] =
        ⟨.number { n with whole := d :: n.whole } .whole, tokens⟩ := by
      simp only [read, List.flatMap_cons, List.flatMap_nil, one, List.append_nil, List.foldl_cons,
        List.foldl_nil, step, numeral, means, digit]
    rw [List.map_cons, read_cons, begun, ih _ later]
    simp

/-- The first digit of a number that is not zero, with or without a sign before it. -/
theorem read_lead {d : Nat} (small : d < 10) (pos : 0 < d) (tokens : List Token) :
    (⟨.between, tokens⟩ : Scanner).read [d.digitChar] =
        ⟨.number ⟨false, [d], [], none⟩ .whole, tokens⟩ ∧
      (⟨.number ⟨true, [], [], none⟩ .sign, tokens⟩ : Scanner).read [d.digitChar] =
        ⟨.number ⟨true, [d], [], none⟩ .whole, tokens⟩ := by
  obtain rfl | rfl | rfl | rfl | rfl | rfl | rfl | rfl | rfl :
      d = 1 ∨ d = 2 ∨ d = 3 ∨ d = 4 ∨ d = 5 ∨ d = 6 ∨ d = 7 ∨ d = 8 ∨ d = 9 := by omega
  all_goals exact ⟨rfl, rfl⟩

/-- Digits that follow the first one, up to where the number may end. -/
theorem stands_digits (negative : Bool) {d : Nat} {rest : List Nat} (small : ∀ e ∈ rest, e < 10)
    (tokens : List Token) :
    ((⟨.number ⟨negative, [d], [], none⟩ .whole, tokens⟩ : Scanner).read
      (rest.map Nat.digitChar)).Stands (.number ⟨negative, d :: rest, [], none⟩ :: tokens) := by
  rw [read_digits _ small]
  refine Or.inr ⟨_, .whole, tokens, rfl, rfl, ?_⟩
  simp [Scanner.closed]

theorem stands_text (n : Int) (tokens : List Token) :
    ((⟨.between, tokens⟩ : Scanner).read (Integer.text n).toList).Stands
      (.number (Number.integer n).numeral :: tokens) := by
  have writes := Integer.writes_decimals n.natAbs
  rcases writes.lead with ⟨zero, ds⟩ | ⟨d, rest, ds, pos⟩
  · cases Int.natAbs_eq_zero.mp zero
    exact Or.inr ⟨_, .zero, tokens, rfl, rfl, rfl⟩
  · have chars := writes.chars
    have small := writes.small
    rw [ds] at chars small
    obtain ⟨first, later⟩ := List.forall_mem_cons.mp small
    obtain ⟨unsigned, signed⟩ := read_lead first pos tokens
    rw [Number.numeral, ds, Integer.text]
    split
    · next negative =>
      have sign : (⟨.between, tokens⟩ : Scanner).read ['-'] =
          ⟨.number ⟨true, [], [], none⟩ .sign, tokens⟩ := rfl
      rw [String.toList_ofList, chars, List.map_cons, read_cons, sign, read_cons, signed,
        decide_eq_true negative]
      exact stands_digits true later tokens
    · next natural =>
      rw [Integer.natText, String.toList_ofList, chars, List.map_cons, read_cons, unsigned,
        decide_eq_false natural]
      exact stands_digits false later tokens

/-! ### Values -/

/-- A mark that ends a number if one is under way. -/
theorem Stands.read {c : Char} {token : Token} (stands : s.Stands tokens)
    (mark : c = ',' ∧ token = .comma ∨ c = ']' ∧ token = .closeArray ∨
      c = '\x7d' ∧ token = .closeObject) : s.read [c] = ⟨.between, token :: tokens⟩ := by
  rcases stands with rfl | ⟨n, stage, before, rfl, ends, rfl⟩
  · rcases mark with ⟨rfl, rfl⟩ | ⟨rfl, rfl⟩ | ⟨rfl, rfl⟩ <;> rfl
  · cases stage <;> cases ends <;>
      rcases mark with ⟨rfl, rfl⟩ | ⟨rfl, rfl⟩ | ⟨rfl, rfl⟩ <;> rfl

/-- The name of a member and the colon after it. -/
theorem read_name (key : String) (tokens : List Token) (more : List Char) :
    (⟨.between, tokens⟩ : Scanner).read (stringChars key ++ ':' :: more) =
      (⟨.between, .colon :: .string (stringPieces key) :: tokens⟩ : Scanner).read more := by
  have colon (tokens : List Token) : (⟨.between, tokens⟩ : Scanner).read [':'] =
      ⟨.between, .colon :: tokens⟩ := rfl
  rw [read_append, read_string, read_cons, colon]

theorem Stands.finish (stands : s.Stands tokens) : s.finish = tokens.reverse := by
  rcases stands with rfl | ⟨n, stage, before, rfl, ends, rfl⟩
  · rfl
  · simp only [Scanner.finish, ends, if_true]

open Value

mutual

theorem stands_value (v : Value) (whole : v.Whole) (tokens : List Token) :
    ((⟨.between, tokens⟩ : Scanner).read v.chars).Stands (v.tokens.reverse ++ tokens) := by
  cases v with
  | null => exact Or.inl rfl
  | bool b => cases b <;> exact Or.inl rfl
  | number n =>
    cases n with
    | integer n => exact stands_text n tokens
    | double x => exact whole.elim
  | string string => exact Or.inl (read_string string tokens)
  | array items =>
    cases items with
    | nil => exact Or.inl rfl
    | cons first rest =>
      have bracket : (⟨.between, tokens⟩ : Scanner).read ['['] =
          ⟨.between, .openArray :: tokens⟩ := rfl
      have standsFirst := stands_value first whole.2.1 (.openArray :: tokens)
      left
      rw [Value.chars, List.cons_append, read_cons, bracket, read_append,
        read_items rest whole.2.2 standsFirst]
      simp [Value.tokens]
  | object members =>
    cases members with
    | nil => exact Or.inl rfl
    | cons first rest =>
      obtain ⟨key, v⟩ := first
      have brace : (⟨.between, tokens⟩ : Scanner).read ['\x7b'] =
          ⟨.between, .openObject :: tokens⟩ := rfl
      left
      rw [Value.chars, List.append_assoc, List.cons_append, read_cons, brace, List.cons_append,
        read_name, read_append,
        read_members rest whole.2.2 (stands_value v whole.2.1 _)]
      simp [Value.tokens]

theorem read_items (items : List Value) (whole : ThroughoutItems wholeHere items) {s : Scanner}
    {tokens : List Token} (stands : s.Stands tokens) :
    s.read (itemsChars items) = ⟨.between, (itemsTokens items).reverse ++ tokens⟩ := by
  cases items with
  | nil => exact stands.read (Or.inr (Or.inl ⟨rfl, rfl⟩))
  | cons v rest =>
    have comma := stands.read (c := ',') (Or.inl ⟨rfl, rfl⟩)
    rw [itemsChars, List.cons_append, read_cons, comma, read_append,
      read_items rest whole.2 (stands_value v whole.1 _)]
    simp [itemsTokens]

theorem read_members (members : List (String × Value))
    (whole : ThroughoutMembers wholeHere members) {s : Scanner} {tokens : List Token}
    (stands : s.Stands tokens) :
    s.read (membersChars members) = ⟨.between, (membersTokens members).reverse ++ tokens⟩ := by
  cases members with
  | nil => exact stands.read (Or.inr (Or.inr ⟨rfl, rfl⟩))
  | cons first rest =>
    obtain ⟨key, v⟩ := first
    have comma := stands.read (c := ',') (Or.inl ⟨rfl, rfl⟩)
    rw [membersChars, List.append_assoc, List.cons_append, read_cons, comma, List.cons_append,
      read_name, read_append, read_members rest whole.2 (stands_value v whole.1 _)]
    simp [membersTokens]

end

end Scanner

/-- The bytes of a value, without the text that is made of it in between. Closed runs are evaluated
with this, since the kernel takes long to read such a text back. -/
theorem Value.bytes_eq (v : Value) : v.bytes = v.chars.flatMap String.utf8EncodeChar := by
  rw [Value.bytes, Value.text, Utf8.encode, String.toList_ofList]

/-- A value that is written as text is scanned as its tokens. -/
theorem scan_bytes {v : Value} (whole : v.Whole) : Token.scan v.bytes = v.tokens := by
  have stands := Scanner.stands_value v whole []
  rw [Token.scan, v.bytes_eq]
  exact stands.finish.trans (by simp)

end Json

end SessionRelay
