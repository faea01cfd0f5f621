import SessionRelay.Json.Writer
import SessionRelay.Number.Decimal
import SessionRelay.Text.Blank
import SessionRelay.Text.Split

/-!
The context of a request: free-form settings by name, of which `url` tells where the request goes.
-/

namespace SessionRelay.Wire

/-- The settings of a request. -/
structure Context where
  settings : KeyTable Json.Value
  deriving Repr, BEq, Inhabited

namespace Context

def empty : Context := ⟨[]⟩

def get? (c : Context) (key : String) : Option Json.Value :=
  KeyTable.value? key c.settings

def text? (c : Context) (key : String) : Option String :=
  match c.get? key with
  | some (.string s) => if s.isEmpty then none else some s
  | _ => none

def url? (c : Context) : Option String := c.text? "url"

/-- A setting as a number. Contexts are often made from templates, so a text that writes a number
will do. -/
def number? (c : Context) (key : String) : Option Binary64 :=
  match c.get? key with
  | some (.number n) => some n.toDouble
  | some (.string s) => Binary64.read? (Text.trimBlank s.toList)
  | _ => none

def toValue (c : Context) : Json.Value := .object c.settings

end Context

/-- The part of an address before `://`, empty if there is none. -/
def scheme (url : String) : String :=
  match Text.cut? [':', '/', '/'] url.toList with
  | some (before, _) => String.ofList before
  | none => ""

end SessionRelay.Wire
