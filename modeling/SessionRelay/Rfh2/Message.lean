import SessionRelay.Gzip.Member
import SessionRelay.Rfh2.Folder

/-!
Framed messages: a header, folders that describe the body, and the body. The body of a message is
compressed if its `usr` folder says so.
-/

namespace SessionRelay.Rfh2

structure Message where
  header : Header
  folders : List Folder
  body : Bytes
  deriving DecidableEq, Repr

/-- The name of the only content encoding. -/
def gzipEncoding : String := "gzip"

namespace Message

/-- Reads a message. Its header's length covers the folders, and the body is what follows. -/
def decode (message : Bytes) : Except Error Message :=
  if !isFramed message then .error .notFramed
  else
    match Header.take? message with
    | none => .error (.truncatedHeader message.length)
    | some (header, _) =>
      let length := header.totalLength
      if length < headerLength ∨ (message.length : Int) < length then
        .error (.invalidLength length message.length)
      else
        let area := (message.take length.toNat).drop headerLength
        match Folder.all area.length headerLength area with
        | .error e => .error e
        | .ok folders => .ok ⟨header, folders, message.drop length.toNat⟩

/-- The first folder of a name. -/
def folder? (m : Message) (name : String) : Option Folder :=
  m.folders.find? fun f => f.name == name

def contentEncoding? (m : Message) : Option String :=
  (m.folder? "usr").bind fun f => f.get? "ContentEncoding"

/-- The body without compression. A compressed body may hold at most `limit` bytes. -/
def payload (m : Message) (limit : Nat) : Except Error Bytes :=
  if m.contentEncoding? = some gzipEncoding then
    match Gzip.decompress limit m.body with
    | .ok content => .ok content
    | .error .broken => .error (.decompress "invalid gzip data")
    | .error .tooLarge => .error (.bodyTooLarge limit)
  else .ok m.body

end Message

end SessionRelay.Rfh2
