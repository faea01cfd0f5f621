import SessionRelay.Text.Hex

/-!
Identities in the form of random UUIDs: version 4, with 122 bits to choose.
-/

namespace SessionRelay.Uuid

/-- The identity that a number chooses. Different numbers below `2 ^ 122` choose different ones. -/
def text (n : Nat) : String :=
  let low := n % (1 <<< 62)
  let variant := 1 <<< 63 + low
  String.ofList <|
    Hex.fixed 8 (n >>> 90) ++ '-' :: Hex.fixed 4 (n >>> 74) ++ '-' :: '4' ::
      Hex.fixed 3 (n >>> 62) ++ '-' :: Hex.fixed 4 (variant >>> 48) ++ '-' ::
      Hex.fixed 12 variant

end SessionRelay.Uuid
