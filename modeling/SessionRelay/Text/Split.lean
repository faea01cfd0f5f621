/-!
Cutting a text at a separator: at its first occurrence, at its last, or at all of them. No piece
holds the separator. Pieces of the form `name=value` are looked up by name.
-/

namespace SessionRelay.Text

/-- The rest of a text that begins with `lead`. -/
def after? (lead : List Char) (cs : List Char) : Option (List Char) :=
  match lead, cs with
  | [], cs => some cs
  | _ :: _, [] => none
  | l :: ls, c :: cs => if l = c then after? ls cs else none

/-- The parts before and after the first occurrence of `sep`, which is not empty. -/
def cut? (sep : List Char) : List Char → Option (List Char × List Char)
  | [] => none
  | c :: cs =>
    match after? sep (c :: cs) with
    | some rest => some ([], rest)
    | none => (cut? sep cs).map fun (before, rest) => (c :: before, rest)

def cutLast? (sep : Char) : List Char → Option (List Char × List Char)
  | [] => none
  | c :: cs =>
    match cutLast? sep cs with
    | some (before, rest) => some (c :: before, rest)
    | none => if c = sep then some ([], cs) else none

/-- The parts between all occurrences of `sep`: always at least one. -/
def pieces (sep : Char) : List Char → List (List Char)
  | [] => [[]]
  | c :: cs =>
    if c = sep then [] :: pieces sep cs
    else
      match pieces sep cs with
      | [] => [[c]]
      | part :: parts => (c :: part) :: parts

/-- The last value of a name among parts `name=value`, where an empty value does not count. -/
def lastValue? (name : String) (parts : List (List Char)) : Option String :=
  parts.foldl (fun found part =>
    match cut? ['='] part with
    | some (key, value) =>
      if String.ofList key = name ∧ value ≠ [] then some (String.ofList value) else found
    | none => found) none

theorem after?_append (lead rest : List Char) : after? lead (lead ++ rest) = some rest := by
  induction lead with
  | nil => rfl
  | cons c cs ih => simp [after?, ih]

theorem eq_append_of_after? {lead cs rest : List Char} (h : after? lead cs = some rest) :
    cs = lead ++ rest := by
  induction lead generalizing cs with
  | nil => simpa [after?] using h
  | cons l ls ih =>
    cases cs with
    | nil => simp [after?] at h
    | cons c cs =>
      simp only [after?] at h
      split at h
      · next heq => simp [heq, ih h]
      · simp at h

theorem pieces_ne_nil (sep : Char) (cs : List Char) : pieces sep cs ≠ [] := by
  cases cs with
  | nil => simp [pieces]
  | cons c cs =>
    simp only [pieces]
    split
    · simp
    · split <;> simp

/-- No part holds the separator. -/
theorem not_mem_of_mem_pieces {sep : Char} {cs part : List Char} (h : part ∈ pieces sep cs) :
    sep ∉ part := by
  induction cs generalizing part with
  | nil => simp_all [pieces]
  | cons c cs ih =>
    simp only [pieces] at h
    split at h
    · rcases List.mem_cons.1 h with rfl | h
      · simp
      · exact ih h
    · next hc =>
      split at h
      · next hnil => exact absurd hnil (pieces_ne_nil sep cs)
      · next part' parts heq =>
        rcases List.mem_cons.1 h with rfl | h
        · have := @ih part' (by simp [heq])
          simp [this, Ne.symm hc]
        · exact ih (by simp [heq, h])

end SessionRelay.Text
