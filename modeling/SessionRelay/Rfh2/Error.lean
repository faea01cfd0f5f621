/-!
Why a framed message cannot be written or read.
-/

namespace SessionRelay.Rfh2

/-- The bytes of the fixed part of a header. -/
def headerLength : Nat := 36

inductive Error where
  | notFramed
  | truncatedHeader (length : Nat)
  | invalidLength (declared : Int) (messageLength : Nat)
  | truncatedFolder (offset : Nat)
  | folderNotUtf8 (offset : Nat)
  | invalidFolder (offset : Nat) (reason : String)
  | unsupportedEncoding (encoding : String)
  | compress (reason : String)
  | decompress (reason : String)
  | bodyTooLarge (limit : Nat)
  deriving DecidableEq, Repr

def Error.message : Error → String
  | .notFramed => "message does not start with an RFH2 header"
  | .truncatedHeader length => s!"RFH2 header needs {headerLength} bytes, message has {length}"
  | .invalidLength declared messageLength =>
    s!"RFH2 struc_length {declared} is invalid for a {messageLength} byte message"
  | .truncatedFolder offset => s!"RFH2 name/value folder at offset {offset} is truncated"
  | .folderNotUtf8 offset => s!"RFH2 name/value folder at offset {offset} is not UTF-8"
  | .invalidFolder offset reason =>
    s!"RFH2 name/value folder at offset {offset} is not valid XML: {reason}"
  | .unsupportedEncoding encoding => s!"encoding {encoding} is not implemented"
  | .compress reason => s!"failed to gzip RFH2 body: {reason}"
  | .decompress reason => s!"failed to gunzip RFH2 body: {reason}"
  | .bodyTooLarge limit => s!"gunzipped RFH2 body exceeds {limit} bytes"

end SessionRelay.Rfh2
