/-!
White space in the sense of the Unicode property `White_Space`, and trimming by it.
-/

namespace SessionRelay.Text

/-- The characters with the property `White_Space`. -/
def isBlank (c : Char) : Bool :=
  let n := c.toNat
  (9 ≤ n && n ≤ 13) || n == 0x20 || n == 0x85 || n == 0xA0 || n == 0x1680 ||
    (0x2000 ≤ n && n ≤ 0x200A) || n == 0x2028 || n == 0x2029 || n == 0x202F || n == 0x205F ||
    n == 0x3000

/-- Drops the characters at the end for which `drop` holds. -/
def dropTrailing (drop : Char → Bool) (cs : List Char) : List Char :=
  (cs.reverse.dropWhile drop).reverse

def trimBlank (cs : List Char) : List Char :=
  dropTrailing isBlank (cs.dropWhile isBlank)

def trim (s : String) : String :=
  String.ofList (trimBlank s.toList)

theorem dropTrailing_append_of_not (drop : Char → Bool) (cs : List Char) (c : Char)
    (h : drop c = false) : dropTrailing drop (cs ++ [c]) = cs ++ [c] := by
  simp [dropTrailing, h]

theorem trimBlank_nil : trimBlank [] = [] := rfl

end SessionRelay.Text
