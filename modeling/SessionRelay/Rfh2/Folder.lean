import SessionRelay.Rfh2.Header
import SessionRelay.Text.Blank
import SessionRelay.Xml.Document

/-!
The name/value folders of a framed message. Each is a small XML document with its length in front,
padded to whole words.
-/

namespace SessionRelay.Rfh2

/-- A folder: its name, and the names and texts of its elements in order. -/
structure Folder where
  name : String
  elements : List (String × String)
  deriving DecidableEq, Repr

namespace Folder

/-- The text of the first element of a name. -/
def get? (f : Folder) (name : String) : Option String := f.elements.lookup name

def elementsOf (children : List Xml.Node) : List (String × String) :=
  children.filterMap fun
    | .element name inner => some (name, Xml.Node.leadingText inner)
    | _ => none

/-- Reads a folder's document; spaces and zero characters at its end are padding. -/
def read? (text : String) : Option Folder :=
  let content := Text.dropTrailing (fun c => c == ' ' || c == '\x00') text.toList
  match Xml.rootOf? (String.ofList content) with
  | some (.element name children) => some ⟨name, elementsOf children⟩
  | _ => none

/-- The folder in some bytes, which begin at `offset` of the message with their length. -/
def ofBytes (offset : Nat) (bytes : Bytes) : Except Error Folder :=
  match Utf8.decode? bytes with
  | none => .error (.folderNotUtf8 offset)
  | some text =>
    match read? text with
    | none => .error (.invalidFolder offset "not well-formed")
    | some folder => .ok folder

/-- The bytes at the front of an area that begins with their length, and what follows them. -/
def takeBlock? (area : Bytes) : Option (Bytes × Bytes) :=
  match takeInt32? area with
  | some (length, rest) =>
    if length < 0 ∨ (rest.length : Int) < length then none
    else some (rest.take length.toNat, rest.drop length.toNat)
  | none => none

/-- The folders in `area`, which begins at `offset` of the message; at most `count`. -/
def all : Nat → Nat → Bytes → Except Error (List Folder)
  | _, _, [] => .ok []
  | 0, offset, _ => .error (.truncatedFolder offset)
  | count + 1, offset, area =>
    match takeBlock? area with
    | none => .error (.truncatedFolder offset)
    | some (block, rest) =>
      match ofBytes offset block with
      | .error e => .error e
      | .ok folder =>
        match all count (offset + 4 + block.length) rest with
        | .error e => .error e
        | .ok folders => .ok (folder :: folders)

/-- A folder's text filled up with spaces to whole words. -/
def padded (text : String) : Bytes :=
  let bytes := Utf8.encode text
  bytes ++ List.replicate ((4 - bytes.length % 4) % 4) 0x20

/-- A folder as it stands in a message. -/
def framed (text : String) : Bytes :=
  let bytes := padded text
  int32Bytes bytes.length ++ bytes

end Folder

end SessionRelay.Rfh2
