import SessionRelay.KeyTable
import SessionRelay.Number.Decimal
import SessionRelay.Text.Quoted

/-!
TOML values. A date-time is kept as its text.
-/

namespace SessionRelay.Toml

inductive Value where
  | string (s : String)
  | integer (n : Int)
  | float (x : Binary64)
  | boolean (b : Bool)
  | datetime (text : String)
  | array (items : List Value)
  | table (entries : List (String × Value))
  deriving Repr, BEq, Inhabited

/-- A float as messages show it: with a point, if it is finite. -/
def floatText (x : Binary64) : String :=
  let text := x.text
  if x.isFinite && !text.toList.contains '.' then s!"{text}.0" else text

/-- A value as messages about its kind show it. -/
def Value.described : Value → String
  | .string s => s!"string {Text.quoted s}"
  | .integer n => s!"integer `{Integer.text n}`"
  | .float x => s!"floating point `{floatText x}`"
  | .boolean true => "boolean `true`"
  | .boolean false => "boolean `false`"
  | .datetime text => s!"string {Text.quoted text}"
  | .array _ => "sequence"
  | .table _ => "map"

end SessionRelay.Toml
