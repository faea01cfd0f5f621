import SessionRelay.Json.Decode
import SessionRelay.Proofs.Json.Scanned
import SessionRelay.Proofs.KeyTable

/-!
Values from the tokens that write them. A value of whole numbers whose objects are in order is read
back from its tokens, whatever follows them, if it is not too deep; so is a record from its members.
-/

namespace SessionRelay.Json

/-! ### Strings and numbers -/

theorem bytes?_map_byte (bytes : Bytes) (rest : List Piece) :
    Piece.bytes? (bytes.map .byte ++ rest) = (Piece.bytes? rest).map (bytes ++ ·) := by
  induction bytes with
  | nil => simp
  | cons b bytes ih =>
    rw [List.map_cons, List.cons_append, Piece.bytes?, ih, Option.map_map]
    rfl

theorem bytes?_charPieces (c : Char) (rest : List Piece) :
    Piece.bytes? (charPieces c ++ rest) =
      (Piece.bytes? rest).map (String.utf8EncodeChar c ++ ·) := by
  unfold charPieces
  split
  · next control =>
    have low : c.toNat < 0xD800 := by omega
    rw [List.cons_append, List.nil_append, Piece.bytes?.eq_def]
    simp [low, Char.ofNat_toNat]
  · exact bytes?_map_byte _ rest

theorem bytes?_stringPieces (s : String) :
    Piece.bytes? (stringPieces s) = some (Utf8.encode s) := by
  have chars (cs : List Char) :
      Piece.bytes? (cs.flatMap charPieces) = some (cs.flatMap String.utf8EncodeChar) := by
    induction cs with
    | nil => rfl
    | cons c cs ih =>
      rw [List.flatMap_cons, bytes?_charPieces, ih, List.flatMap_cons, Option.map_some]
  exact chars s.toList

theorem text?_stringPieces (s : String) : Piece.text? (stringPieces s) = some s := by
  rw [Piece.text?, bytes?_stringPieces, Option.bind_some, Utf8.decode?_eq_some]

theorem value?_numeral {n : Number} (whole : n.IsWhole) : n.numeral.value? = some n := by
  cases n with
  | double x => exact whole.elim
  | integer n =>
    obtain ⟨least, greatest⟩ := whole
    have size : Integer.ofDigits (Integer.decimals n.natAbs) = n.natAbs :=
      (Integer.writes_decimals n.natAbs).value
    simp only [Integer.minSigned, Integer.maxUnsigned] at least greatest
    have fits : n.natAbs ≤ Integer.maxUnsigned := by
      simp only [Integer.maxUnsigned]
      omega
    rw [Number.numeral, Numeral.value?]
    dsimp only
    rw [size, if_pos ⟨rfl, rfl, fits⟩]
    by_cases negative : n < 0
    · have inRange : ¬ (n.natAbs = 0 ∨ 1 <<< 63 < n.natAbs) := by omega
      have same : -(n.natAbs : Int) = n := by omega
      rw [decide_eq_true negative, if_neg (by decide), if_neg inRange, same]
    · have same : (n.natAbs : Int) = n := by omega
      rw [decide_eq_false negative, if_pos (by decide), same]

/-! ### Values -/

namespace Value

mutual

/-- How many arrays and objects stand within one another. -/
def depth : Value → Nat
  | .array items => itemsDepth items + 1
  | .object members => membersDepth members + 1
  | _ => 0

def itemsDepth : List Value → Nat
  | [] => 0
  | v :: rest => max v.depth (itemsDepth rest)

def membersDepth : List (String × Value) → Nat
  | [] => 0
  | (_, v) :: rest => max v.depth (membersDepth rest)

end

/-- The members of an object are in the order of their names. -/
def orderedHere : Value → Prop
  | .object members => KeyTable.Ascending members
  | _ => True

/-- All objects in a value are in order. -/
def Ordered (v : Value) : Prop := v.Throughout orderedHere

/-- What the first token of a value is not. -/
theorem exists_tokens (v : Value) :
    ∃ token rest, v.tokens = token :: rest ∧ token ≠ .closeArray ∧
      (v ≠ .null → token ≠ .null) := by
  cases v with
  | null => exact ⟨.null, [], rfl, nofun, fun other => absurd rfl other⟩
  | bool b => exact ⟨_, _, rfl, nofun, nofun⟩
  | number n => exact ⟨_, _, rfl, nofun, nofun⟩
  | string s => exact ⟨_, _, rfl, nofun, nofun⟩
  | array items => cases items <;> exact ⟨_, _, rfl, nofun, nofun⟩
  | object members => cases members <;> exact ⟨_, _, rfl, nofun, nofun⟩

end Value

namespace Reading

variable {care : Care} {room : Nat}

/-- Goes on from a state: a value that is complete ends the walk. -/
def go? (care : Care) : Reading → List Token → Option (Value × List Token)
  | .complete v, rest => some (v, rest)
  | .under stack place, rest => walk? care stack place rest

theorem walk?_of_step {stack : List Frame} {place : Place} {token : Token} {reading : Reading}
    (step : step? care stack place token = some reading) (rest : List Token) :
    walk? care stack place (token :: rest) = go? care reading rest := by
  rw [walk?, step]
  cases reading <;> rfl

/-- The first item of an array is a value like any other. -/
theorem walk?_firstItem (v : Value) (stack : List Frame) (rest : List Token) :
    walk? care stack .firstItem (v.tokens ++ rest) =
      walk? care stack .value (v.tokens ++ rest) := by
  obtain ⟨token, more, tokens, notClose, -⟩ := v.exists_tokens
  rw [tokens, List.cons_append, walk?, walk?, step?, step?, if_neg notClose]

/-- The name of a member and the colon after it. -/
theorem walk?_name (key : String) {place : Place} (start : place = .key ∨ place = .firstKey)
    (members : KeyTable Value) (before : String) (stack : List Frame) (rest : List Token) :
    walk? (.keep room) (.members members before :: stack) place
        (.string (stringPieces key) :: .colon :: rest) =
      walk? (.keep room) (.members members key :: stack) .value rest := by
  have name : step? (.keep room) (.members members before :: stack) place
      (.string (stringPieces key)) = some (.under (.members members key :: stack) .colon) := by
    rcases start with rfl | rfl <;>
      simp [step?, name?, Care.keep, text?_stringPieces]
  have colon : step? (.keep room) (.members members key :: stack) .colon .colon =
      some (.under (.members members key :: stack) .value) := rfl
  rw [walk?_of_step name, go?, walk?_of_step colon, go?]

open Value

mutual

/-- A value is read from its tokens and goes where the place within the open frames says. -/
theorem walk?_value (v : Value) (whole : v.Whole) (ordered : v.Ordered) (stack : List Frame)
    (fits : stack.length + v.depth ≤ room) (rest : List Token) :
    walk? (.keep room) stack .value (v.tokens ++ rest) =
      go? (.keep room) (deliver v stack) rest := by
  cases v with
  | null => exact walk?_of_step rfl rest
  | bool b => exact walk?_of_step rfl rest
  | number n =>
    refine walk?_of_step ?_ rest
    simp [step?, begin?, Care.keep, value?_numeral whole]
  | string s =>
    refine walk?_of_step ?_ rest
    simp [step?, begin?, Care.keep, text?_stringPieces]
  | array items =>
    have opens : step? (.keep room) stack .value .openArray =
        some (.under (.items [] :: stack) .firstItem) := by
      simp only [depth] at fits
      have below : stack.length < (Care.keep room).room := by
        simp only [Care.keep]
        omega
      simp [step?, begin?, below]
    cases items with
    | nil =>
      rw [Value.tokens, List.cons_append, walk?_of_step opens, go?, List.cons_append]
      exact walk?_of_step rfl rest
    | cons first others =>
      simp only [depth, itemsDepth] at fits
      rw [Value.tokens, List.cons_append, walk?_of_step opens, go?, List.append_assoc,
        walk?_firstItem, walk?_value first whole.2.1 ordered.2.1 (.items [] :: stack)
          (by simp only [List.length_cons]; omega), deliver, go?]
      exact walk?_items others whole.2.2 ordered.2.2 [first] stack (by omega) rest
  | object members =>
    have opens : step? (.keep room) stack .value .openObject =
        some (.under (.members [] "" :: stack) .firstKey) := by
      simp only [depth] at fits
      have below : stack.length < (Care.keep room).room := by
        simp only [Care.keep]
        omega
      simp [step?, begin?, below]
    cases members with
    | nil =>
      rw [Value.tokens, List.cons_append, walk?_of_step opens, go?, List.cons_append]
      exact walk?_of_step rfl rest
    | cons first others =>
      obtain ⟨key, v⟩ := first
      simp only [depth, membersDepth] at fits
      rw [Value.tokens, List.cons_append, walk?_of_step opens, go?, List.cons_append,
        List.cons_append, List.append_assoc, walk?_name key (Or.inr rfl),
        walk?_value v whole.2.1 ordered.2.1 (.members [] key :: stack)
          (by simp only [List.length_cons]; omega), deliver, go?]
      exact walk?_members others whole.2.2 ordered.2.2 [(key, v)] key ordered.1 stack (by omega) rest

theorem walk?_items (items : List Value) (whole : ThroughoutItems wholeHere items)
    (ordered : ThroughoutItems orderedHere items) (before : List Value) (stack : List Frame)
    (fits : stack.length + (itemsDepth items + 1) ≤ room) (rest : List Token) :
    walk? (.keep room) (.items before :: stack) .afterValue (itemsTokens items ++ rest) =
      go? (.keep room) (deliver (.array (before.reverse ++ items)) stack) rest := by
  cases items with
  | nil =>
    rw [List.append_nil]
    exact walk?_of_step rfl rest
  | cons v others =>
    simp only [itemsDepth] at fits
    rw [itemsTokens, List.cons_append, walk?_of_step rfl, go?, List.append_assoc,
      walk?_value v whole.1 ordered.1 (.items before :: stack)
        (by simp only [List.length_cons]; omega), deliver, go?,
      walk?_items others whole.2 ordered.2 (v :: before) stack (by omega) rest,
      List.reverse_cons, List.append_assoc, List.singleton_append]

theorem walk?_members (members : List (String × Value))
    (whole : ThroughoutMembers wholeHere members) (ordered : ThroughoutMembers orderedHere members)
    (before : KeyTable Value) (last : String) (ascending : (before ++ members).Ascending)
    (stack : List Frame) (fits : stack.length + (membersDepth members + 1) ≤ room)
    (rest : List Token) :
    walk? (.keep room) (.members before last :: stack) .afterValue
        (membersTokens members ++ rest) =
      go? (.keep room) (deliver (.object (before ++ members)) stack) rest := by
  cases members with
  | nil =>
    rw [List.append_nil]
    exact walk?_of_step rfl rest
  | cons first others =>
    obtain ⟨key, v⟩ := first
    simp only [membersDepth] at fits
    have past : ∀ entry ∈ before, entry.1 < key := fun entry member =>
      (List.pairwise_append.mp ascending).2.2 entry member (key, v) List.mem_cons_self
    rw [List.append_cons] at ascending
    rw [membersTokens, List.cons_append, walk?_of_step rfl, go?, List.cons_append,
      List.cons_append, List.append_assoc, walk?_name key (Or.inl rfl),
      walk?_value v whole.1 ordered.1 (.members before key :: stack)
        (by simp only [List.length_cons]; omega), deliver, go?, KeyTable.put_of_lt v past,
      walk?_members others whole.2 ordered.2 (before ++ [(key, v)]) key ascending stack (by omega)
        rest, List.append_assoc, List.singleton_append]

end

end Reading

/-- A value is read from its tokens, whatever follows them. -/
theorem take?_tokens {v : Value} (whole : v.Whole) (ordered : v.Ordered) {room : Nat}
    (fits : v.depth ≤ room) (rest : List Token) :
    Value.take? (.keep room) (v.tokens ++ rest) = some (v, rest) :=
  Reading.walk?_value v whole ordered [] (by simpa using fits) rest

/-! ### Values of known form -/

/-- From the tokens of a value something is taken, and the rest is left. -/
def Takes {α : Type} (take : Taking α) (v : Value) (a : α) : Prop :=
  ∀ rest, take (v.tokens ++ rest) = .ok (a, rest)

theorem takes_text (s : String) : Takes Taking.text (.string s) s := by
  intro rest
  simp [Value.tokens, Taking.text, text?_stringPieces]

theorem takes_bool (b : Bool) : Takes Taking.bool (.bool b) b := fun _ => rfl

theorem takes_unsigned {n : Nat} (fits : n ≤ Integer.maxUnsigned) :
    Takes Taking.unsigned (.nat n) n := by
  intro rest
  have whole : (Number.integer n).IsWhole := by
    refine ⟨?_, by exact_mod_cast fits⟩
    simp only [Integer.minSigned]
    omega
  simp [Value.nat, Value.tokens, Taking.unsigned, value?_numeral whole]

theorem takes_value {v : Value} (whole : v.Whole) (ordered : v.Ordered) {room : Nat}
    (fits : v.depth ≤ room) : Takes (Taking.value room) v v := by
  intro rest
  rw [Taking.value, take?_tokens whole ordered fits]

theorem takes_map {members : KeyTable Value} (whole : (Value.object members).Whole)
    (ordered : (Value.object members).Ordered) {room : Nat}
    (fits : (Value.object members).depth ≤ room) :
    Takes (Taking.map room) (.object members) members := by
  intro rest
  have taken := take?_tokens whole ordered fits rest
  have opens : ∃ more, (Value.object members).tokens = .openObject :: more := by
    cases members <;> exact ⟨_, rfl⟩
  obtain ⟨more, tokens⟩ := opens
  rw [tokens, List.cons_append] at taken ⊢
  rw [Taking.map, taken]

section Optional

variable {α : Type} {take : Taking α}

theorem takes_null : Takes (Taking.optional take) .null none := fun _ => rfl

theorem Takes.optional {v : Value} {a : α} (takes : Takes take v a) (value : v ≠ .null) :
    Takes (Taking.optional take) v (some a) := by
  intro rest
  obtain ⟨token, more, tokens, -, notNull⟩ := v.exists_tokens
  have taken := takes rest
  rw [tokens, List.cons_append] at taken ⊢
  unfold Taking.optional
  split
  · next null => exact absurd (List.cons.inj null).1 (notNull value)
  · rw [taken]

/-- Something that is left null if it is not there. -/
theorem takes_ofOption {write : α → Value} (o : Option α)
    (takes : ∀ a, o = some a → Takes take (write a) a ∧ write a ≠ .null) :
    Takes (Taking.optional take) (.ofOption (o.map write)) o := by
  cases o with
  | none => exact takes_null
  | some a => exact (takes a rfl).1.optional (takes a rfl).2

end Optional

/-! ### Records -/

namespace Record

variable {ρ : Type} {r : Record ρ}

/-- Members that fill a record, one field after the other: what it is in the end, and the names that
have been seen then. -/
def Fills (r : Record ρ) (value : ρ) (seen : List String) :
    List (String × Value) → ρ → List String → Prop
  | [], final, names => final = value ∧ names = seen
  | (name, v) :: rest, final, names =>
    ∃ f next, r.fields.find? (fun f => f.name == name) = some f ∧ seen.contains name = false ∧
      Takes (f.take value) v next ∧ r.Fills next (name :: seen) rest final names

theorem memberValue_eq {value next : ρ} {seen : List String} {name : String} {f : Field ρ}
    {v : Value} (found : r.fields.find? (fun f => f.name == name) = some f)
    (fresh : seen.contains name = false) (takes : Takes (f.take value) v next)
    (rest : List Token) :
    r.memberValue value seen name (.colon :: (v.tokens ++ rest)) =
      .ok (next, name :: seen, rest) := by
  simp only [memberValue, found, fresh, takes rest]
  rfl

/-- The members of an object that fill a record are read as the record. -/
theorem members_eq {value final : ρ} {seen names : List String} {name : String} {v : Value}
    {members : List (String × Value)}
    (fills : r.Fills value seen ((name, v) :: members) final names) {count : Nat} (enough : members.length < count) (rest : List Token) :
    r.members count value seen
        (.string (stringPieces name) :: .colon ::
          (v.tokens ++ Value.membersTokens members ++ rest)) =
      r.close final names rest := by
  induction members generalizing value seen name v count with
  | nil =>
    obtain ⟨f, next, found, fresh, takes, rfl, rfl⟩ := fills
    cases count with
    | zero => cases enough
    | succ count =>
      rw [List.append_assoc, Record.members, text?_stringPieces]
      dsimp only
      rw [memberValue_eq found fresh takes]
      rfl
  | cons member others ih =>
    obtain ⟨f, next, found, fresh, takes, later⟩ := fills
    obtain ⟨name', v'⟩ := member
    cases count with
    | zero => cases enough
    | succ count =>
      rw [List.append_assoc, Record.members, text?_stringPieces]
      dsimp only
      rw [memberValue_eq found fresh takes, Value.membersTokens]
      exact ih later (Nat.lt_of_succ_lt_succ enough)

/-- A record is read from the object of its members. -/
theorem takes_of_fills {final : ρ} {names : List String} {members : List (String × Value)}
    (fills : r.Fills r.blank [] members final names) (some : members ≠ [])
    (complete : r.fields.find? (fun f => f.required && !names.contains f.name) = none) :
    Takes r.take (.object members) final := by
  intro rest
  cases members with
  | nil => exact absurd rfl some
  | cons member others =>
    obtain ⟨name, v⟩ := member
    have enough (others : List (String × Value)) :
        others.length < (Value.membersTokens others).length := by
      induction others with
      | nil => decide
      | cons member others ih =>
        obtain ⟨name, v⟩ := member
        simp only [Value.membersTokens, List.length_cons, List.length_append]
        omega
    rw [Value.tokens, List.cons_append, List.cons_append, List.cons_append, Record.take]
    · rw [members_eq fills ?_ rest]
      · simp only [Record.close, complete]
      · have := enough others
        simp only [List.length_cons, List.length_append]
        omega
    · nofun

end Record

/-- The whole text of a value is read as what is taken from its tokens. -/
theorem whole_bytes {α : Type} {take : Taking α} {v : Value} {a : α} (whole : v.Whole)
    (takes : Takes take v a) : take.whole v.bytes = .ok a := by
  have taken := takes []
  rw [List.append_nil] at taken
  rw [Taking.whole, scan_bytes whole, taken]

end SessionRelay.Json
