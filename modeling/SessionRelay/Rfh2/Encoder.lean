import SessionRelay.Number.Integer
import SessionRelay.Rfh2.Message

/-!
Writing framed messages: a compressed body behind folders that say where it goes, when it was
written and how long it is.
-/

namespace SessionRelay.Rfh2

def escapeChar (c : Char) : List Char :=
  if c = '&' then ['&', 'a', 'm', 'p', ';']
  else if c = '<' then ['&', 'l', 't', ';']
  else if c = '>' then ['&', 'g', 't', ';']
  else [c]

/-- A text as it stands in a folder. -/
def escape (s : String) : String := String.ofList (s.toList.flatMap escapeChar)

/-- A message to be written: the compressed body, the queue it goes to, and the time in
milliseconds. -/
structure Draft where
  body : Bytes
  queue : String
  encoding : String
  timestamp : Int
  deriving DecidableEq, Repr

namespace Draft

/-- Compresses a payload; gzip is the only encoding. -/
def new (payload : Bytes) (queue encoding : String) (timestamp : Int) : Except Error Draft :=
  if encoding = gzipEncoding then .ok ⟨Gzip.compress payload, queue, encoding, timestamp⟩
  else .error (.unsupportedEncoding encoding)

/-- The texts of the three folders, in order. -/
def folderTexts (d : Draft) : List String :=
  let bodyLength := Integer.natText d.body.length
  ["<mcd><Msd>jms_bytes</Msd></mcd>",
    s!"<jms><Dst>queue:///{escape d.queue}</Dst><Tms>{Integer.text d.timestamp}</Tms>" ++
      "<Dlv>2</Dlv></jms>",
    s!"<usr><ContentEncoding>{d.encoding}</ContentEncoding>" ++
      s!"<ContentLength dt=\"i8\">{bodyLength}</ContentLength></usr>"]

def folders (d : Draft) : Bytes := d.folderTexts.flatMap Folder.framed

def bytes (d : Draft) : Bytes :=
  let folders := d.folders
  (Header.standard (headerLength + folders.length)).bytes ++ folders ++ d.body

end Draft

end SessionRelay.Rfh2
