import SessionRelay.Proofs.Json.ReadBack

/-!
The leading members of an object. Whatever comes after them in the text, a record takes them first,
and no later member of the same name is accepted: what they set stays as it is.
-/

namespace SessionRelay.Json

namespace Scanner

/-! ### Tokens that have been read -/

theorem tokens_outside (tokens : List Token) (b : UInt8) :
    tokens <:+ (outside tokens b).tokens := by
  unfold outside
  split
  case h_17 =>
    split
    · exact List.suffix_rfl
    · exact List.suffix_cons _ _
  all_goals first | exact List.suffix_rfl | exact List.suffix_cons _ _

theorem tokens_digit (tokens : List Token) (n : Numeral) (stage : Numeral.Stage) (d : Nat) :
    tokens <:+ (digit tokens n stage d).tokens := by
  cases stage with
  | zero => exact List.suffix_cons _ _
  | _ => exact List.suffix_rfl

theorem tokens_numeral (tokens : List Token) (n : Numeral) (stage : Numeral.Stage) (b : UInt8) :
    tokens <:+ (numeral tokens n stage b).tokens := by
  unfold numeral
  split
  · exact tokens_digit tokens n stage _
  · dsimp only
    split
    · exact List.suffix_rfl
    · split
      · exact List.suffix_rfl
      · split
        · exact List.suffix_rfl
        · split
          · exact (List.suffix_cons _ _).trans (tokens_outside _ b)
          · exact List.suffix_cons _ _

/-- No byte takes back a token that has been read. -/
theorem tokens_step (s : Scanner) (b : UInt8) : s.tokens <:+ (s.step b).tokens := by
  have failed : s.tokens <:+ (fail s.tokens).tokens := List.suffix_cons _ _
  unfold step
  split
  next => exact tokens_outside s.tokens b
  next token _ => exact (List.suffix_cons _ _).trans (tokens_outside _ b)
  next =>
    split
    · exact List.suffix_cons _ _
    · exact failed
  next =>
    split
    · exact List.suffix_rfl
    · exact failed
  next =>
    split
    · exact List.suffix_cons _ _
    · split
      · exact List.suffix_rfl
      · split
        · exact failed
        · exact List.suffix_rfl
  next =>
    split
    · exact List.suffix_rfl
    · split
      · exact List.suffix_rfl
      · exact failed
  next =>
    split
    · exact failed
    · dsimp only
      split <;> exact List.suffix_rfl
  next n stage _ => exact tokens_numeral s.tokens n stage b
  next => exact List.suffix_rfl

theorem tokens_foldl (bytes : Bytes) (s : Scanner) : s.tokens <:+ (bytes.foldl step s).tokens := by
  induction bytes generalizing s with
  | nil => exact List.suffix_rfl
  | cons b rest ih => exact (s.tokens_step b).trans (ih (s.step b))

theorem tokens_finish (s : Scanner) : s.tokens.reverse <+: s.finish := by
  have more (token : Token) : s.tokens.reverse <+: (token :: s.tokens).reverse := by
    rw [List.reverse_cons]
    exact List.prefix_append _ _
  unfold finish
  split
  · exact List.prefix_rfl
  · exact List.prefix_rfl
  · split
    · exact more _
    · exact more _
  · exact more _

end Scanner

/-- The characters of an object after its opening brace. -/
def Value.innerChars (first : String × Value) (rest : List (String × Value)) : List Char :=
  stringChars first.1 ++ ':' :: (first.2.chars ++ Value.membersChars rest)

/-- The tokens of members, each with the comma after it. -/
def Value.leadingTokens : List (String × Value) → List Token
  | [] => []
  | (key, v) :: rest =>
    .string (stringPieces key) :: .colon :: (v.tokens ++ .comma :: leadingTokens rest)

theorem Value.length_le_leadingTokens (leading : List (String × Value)) :
    leading.length ≤ (leadingTokens leading).length := by
  induction leading with
  | nil => exact Nat.le_refl _
  | cons member leading ih =>
    simp only [leadingTokens, List.length_cons, List.length_append]
    omega

/-- The members of an object but the last ones are scanned one after the other. -/
theorem Scanner.read_leading {leading : List (String × Value)}
    (whole : ∀ member ∈ leading, member.2.Whole) (second : String × Value)
    (members : List (String × Value)) (tokens : List Token) :
    ∃ first rest more, leading ++ second :: members = first :: rest ∧
      (⟨.between, tokens⟩ : Scanner).read (Value.innerChars first rest) =
        (⟨.between, (Value.leadingTokens leading).reverse ++ tokens⟩ : Scanner).read more := by
  induction leading generalizing tokens with
  | nil => exact ⟨second, members, _, rfl, rfl⟩
  | cons member leading ih =>
    obtain ⟨key, v⟩ := member
    obtain ⟨here, others⟩ := List.forall_mem_cons.mp whole
    have stands := Scanner.stands_value v here (.colon :: .string (stringPieces key) :: tokens)
    obtain ⟨first, rest, more, same, read⟩ := ih others
      (.comma :: (v.tokens.reverse ++ .colon :: .string (stringPieces key) :: tokens))
    have comma : Value.membersChars (first :: rest) = ',' :: Value.innerChars first rest := by
      simp [Value.membersChars, Value.innerChars]
    refine ⟨(key, v), first :: rest, more, by rw [List.cons_append, same], ?_⟩
    rw [Value.innerChars, Scanner.read_name, Scanner.read_append, comma, Scanner.read_cons,
      stands.read (Or.inl ⟨rfl, rfl⟩), read]
    simp [Value.leadingTokens]

/-- An object is scanned as its leading members and then something. -/
theorem scan_leading {leading : List (String × Value)}
    (whole : ∀ member ∈ leading, member.2.Whole) (second : String × Value)
    (members : List (String × Value)) : ∃ rest,
    Token.scan (Value.object (leading ++ second :: members)).bytes =
      .openObject :: (Value.leadingTokens leading ++ rest) := by
  obtain ⟨first, others, more, same, read⟩ :=
    Scanner.read_leading whole second members [.openObject]
  have bytes : (Value.object (leading ++ second :: members)).bytes =
      ('\x7b' :: Value.innerChars first others).flatMap String.utf8EncodeChar := by
    rw [Value.bytes_eq, same]
    obtain ⟨key, v⟩ := first
    simp [Value.chars, Value.innerChars]
  have brace : Scanner.start.read ['\x7b'] = ⟨.between, [.openObject]⟩ := rfl
  have scanned : Token.scan (Value.object (leading ++ second :: members)).bytes =
      ((⟨.between, (Value.leadingTokens leading).reverse ++ [.openObject]⟩ : Scanner).read
        more).finish := by
    rw [← read, ← brace, ← Scanner.read_cons, bytes]
    rfl
  obtain ⟨before, grown⟩ := Scanner.tokens_foldl (more.flatMap String.utf8EncodeChar)
    ⟨.between, (Value.leadingTokens leading).reverse ++ [.openObject]⟩
  obtain ⟨after, finished⟩ := Scanner.tokens_finish (Scanner.read
    ⟨.between, (Value.leadingTokens leading).reverse ++ [.openObject]⟩ more)
  refine ⟨before.reverse ++ after, ?_⟩
  rw [scanned, ← finished, Scanner.read, ← grown]
  simp

variable {ρ : Type} {P : ρ → Prop}

/-- What holds of a record still holds when the field is read into it. -/
def Field.Keeps (P : ρ → Prop) (f : Field ρ) : Prop :=
  ∀ value tokens next rest, P value → f.take value tokens = .ok (next, rest) → P next

theorem Field.ofTaking_keeps {α : Type} {name : String} {required : Bool} {take : Taking α}
    {set : ρ → α → ρ} (keeps : ∀ r a, P r → P (set r a)) :
    (Field.ofTaking name required take set).Keeps P := by
  intro value tokens next rest holds taken
  simp only [Field.ofTaking] at taken
  cases took : take tokens with
  | error fault =>
    rw [took] at taken
    cases taken
  | ok result =>
    rw [took] at taken
    cases taken
    exact keeps value result.1 holds

namespace Record

variable {r : Record ρ} {known : String}
  (others : ∀ f ∈ r.fields, f.name ≠ known → f.Keeps P)

include others in
/-- The value of a member that comes later is that of another field, or passed over. -/
theorem memberValue_keeps {value next : ρ} {seen names : List String} {name : String}
    {tokens rest : List Token}
    (holds : P value) (once : known ∈ seen)
    (taken : r.memberValue value seen name tokens = .ok (next, names, rest)) :
    P next ∧ known ∈ names := by
  unfold memberValue at taken
  split at taken
  · next f found =>
    have named : f.name = name := by simpa using List.find?_some found
    split at taken
    · cases taken
    · next fresh =>
      have other : f.name ≠ known := by
        intro same
        rw [List.contains_iff_mem, ← named, same] at fresh
        exact fresh once
      split at taken
      · split at taken
        · next _ _ took =>
          cases taken
          exact ⟨others f (List.mem_of_find?_eq_some found) other _ _ _ _ holds took,
            List.mem_cons_of_mem _ once⟩
        · cases taken
      · cases taken
  · split at taken
    · split at taken
      · cases taken
        exact ⟨holds, once⟩
      · cases taken
    · cases taken

include others in
/-- What holds once a field has been seen, and what no other field changes, holds in the end. -/
theorem members_keeps {count : Nat} {value final : ρ} {seen : List String}
    {tokens rest : List Token}
    (holds : P value) (once : known ∈ seen)
    (taken : r.members count value seen tokens = .ok (final, rest)) : P final := by
  induction count generalizing value seen tokens with
  | zero => cases taken
  | succ count ih =>
    unfold members at taken
    split at taken
    · split at taken
      · cases taken
      · split at taken
        · cases taken
        · next _ _ member =>
          obtain ⟨kept, seen⟩ := memberValue_keeps others holds once member
          exact ih kept seen taken
        · next _ _ member =>
          obtain ⟨kept, -⟩ := memberValue_keeps others holds once member
          unfold close at taken
          split at taken
          · cases taken
          · cases taken
            exact kept
        · cases taken
    · cases taken

/-- Leading members that fill fields of a record are read into it. -/
theorem members_leading {value next : ρ} {seen names : List String}
    {leading : List (String × Value)} (fills : r.Fills value seen leading next names)
    {count : Nat} (enough : leading.length ≤ count) (rest : List Token) :
    r.members count value seen (Value.leadingTokens leading ++ rest) =
      r.members (count - leading.length) next names rest := by
  induction leading generalizing value seen count with
  | nil =>
    obtain ⟨rfl, rfl⟩ := fills
    rfl
  | cons member leading ih =>
    obtain ⟨name, v⟩ := member
    obtain ⟨f, filled, found, fresh, takes, later⟩ := fills
    cases count with
    | zero => cases enough
    | succ count =>
      rw [Value.leadingTokens, List.cons_append, List.cons_append, List.append_assoc,
        Record.members, text?_stringPieces]
      dsimp only
      rw [memberValue_eq found fresh takes, List.cons_append]
      dsimp only
      rw [ih later (Nat.le_of_succ_le_succ enough), List.length_cons, Nat.add_sub_add_right]

include others in
/-- What leading members of an object set stays as it is, whatever the other members are. -/
theorem whole_leading {leading : List (String × Value)} {next final : ρ} {names : List String}
    {second : String × Value} {members : List (String × Value)}
    (fills : r.Fills r.blank [] leading next names) (once : known ∈ names)
    (whole : ∀ member ∈ leading, member.2.Whole) (holds : P next)
    (taken : Taking.whole r.take (Value.object (leading ++ second :: members)).bytes =
      .ok final) : P final := by
  obtain ⟨rest, scanned⟩ := scan_leading whole second members
  rw [Taking.whole, scanned] at taken
  split at taken
  · next _ took =>
    cases taken
    cases leading with
    | nil =>
      obtain ⟨-, rfl⟩ := fills
      cases once
    | cons member leading =>
      rw [Record.take] at took
      · have enough := Value.length_le_leadingTokens (member :: leading)
        rw [members_leading fills (by rw [List.length_append]; omega) rest] at took
        exact members_keeps others holds once took
      · rintro rest ⟨⟩
  · cases taken
  · cases taken

end Record

end SessionRelay.Json
