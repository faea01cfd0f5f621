import SessionRelay.Integration.Error
import SessionRelay.Text.Blank
import SessionRelay.Text.Split

/-!
The address of a service bus: `sb://namespace/;SharedAccessKeyName=...;SharedAccessKey=...`.
-/

namespace SessionRelay.ServiceBus

open Integration

/-- An address: the name of the namespace, and the key that opens it. -/
structure Url where
  space : String
  keyName : String
  key : String
  deriving DecidableEq, Repr

def schemes : List String := ["sb"]

namespace Url

/-- What is wrong with an address. -/
def check (url : List Char) : Except String Url :=
  match Text.after? ['s', 'b', ':', '/', '/'] url with
  | none => .error "scheme must be sb"
  | some rest =>
    let parts := Text.pieces ';' rest
    let space := Text.dropTrailing (· == '/') (parts.headD [])
    if space.isEmpty then .error "no namespace"
    else
      match Text.lastValue? "SharedAccessKeyName" parts.tail,
        Text.lastValue? "SharedAccessKey" parts.tail with
      | none, _ => .error "SharedAccessKeyName must be in the url"
      | _, none => .error "SharedAccessKey must be in the url"
      | some keyName, some key => .ok ⟨String.ofList space, keyName, key⟩

def parse (url : String) : Except Error Url :=
  match check url.toList with
  | .ok u => .ok u
  | .error reason => .error (.invalidUrl url reason)

end Url

end SessionRelay.ServiceBus
