import SessionRelay.Xml.Text

/-!
A document as a row of tags, texts and asides. How they nest is not looked at here.
-/

namespace SessionRelay.Xml

/-- A name with its qualifier, empty if it has none. -/
structure Name where
  qualifier : String
  base : String
  deriving DecidableEq, Repr

structure Attribute where
  name : Name
  value : String
  deriving DecidableEq, Repr

/-- A part of a document. A text keeps the characters as written beside what they mean; an aside is
a comment or an instruction. -/
inductive Markup where
  | start (name : Name) (attributes : List Attribute) (empty : Bool)
  | finish (name : Name)
  | text (raw : List Char) (text : List Char)
  | cdata (text : List Char)
  | aside
  deriving DecidableEq, Repr

namespace Markup

def skipSpace (cs : List Char) : List Char := cs.dropWhile isSpace

/-- Splits a name at its colon, of which it has at most one. -/
def nameOf? (cs : List Char) : Option Name :=
  match Text.pieces ':' cs with
  | [base] =>
    if base.head?.any isNameStart then some ⟨"", String.ofList base⟩ else none
  | [qualifier, base] =>
    if qualifier.head?.all isNameStart && base.head?.any isNameStart then
      some ⟨String.ofList qualifier, String.ofList base⟩
    else none
  | _ => none

def name? (cs : List Char) : Option (Name × List Char) :=
  let belongs (c : Char) := c == ':' || isNameChar c
  (nameOf? (cs.takeWhile belongs)).map fun n => (n, cs.dropWhile belongs)

/-- A value in quotes of either kind; neither its own quote nor an opening bracket may stand in
it. -/
def quoted? (cs : List Char) : Option (List Char × List Char) :=
  match cs with
  | quote :: rest =>
    if quote = '\x22' ∨ quote = '\x27' then
      match Text.cut? [quote] rest with
      | some (raw, rest) => if raw.all fun c => isChar c && c != '<' then some (raw, rest) else none
      | none => none
    else none
  | [] => none

/-- An attribute as written: its name, the text between its quotes, the rest. -/
def attribute? (cs : List Char) : Option (Name × List Char × List Char) :=
  match name? cs with
  | none => none
  | some (name, rest) =>
    match skipSpace rest with
    | '=' :: rest => (quoted? (skipSpace rest)).map fun (raw, rest) => (name, raw, rest)
    | _ => none

/-- Attributes up to the end of a start tag, at most `count`; space stands before each. Also tells
whether the element is empty. -/
def attributes? : Nat → List Char → Option (List Attribute × Bool × List Char)
  | 0, _ => none
  | count + 1, cs =>
    match skipSpace cs with
    | '/' :: '>' :: rest => some ([], true, rest)
    | '>' :: rest => some ([], false, rest)
    | inside =>
      if cs.head?.any isSpace then
        match attribute? inside with
        | none => none
        | some (name, raw, rest) =>
          match attributeText? raw, attributes? count rest with
          | some value, some (more, empty, rest) =>
            some (⟨name, String.ofList value⟩ :: more, empty, rest)
          | _, _ => none
      else none

/-- The text before a mark, of characters that may stand in a document, and what follows the
mark. -/
def upTo? (mark : List Char) (cs : List Char) : Option (List Char × List Char) :=
  match Text.cut? mark cs with
  | some (raw, rest) => if raw.all isChar then some (raw, rest) else none
  | none => none

/-- A comment after its opening; two hyphens may not stand in it, nor one at its end. -/
def comment? (cs : List Char) : Option (Markup × List Char) :=
  match upTo? ['-', '-', '>'] cs with
  | some (raw, rest) =>
    if (Text.cut? ['-', '-'] raw).isSome || raw.getLast? == some '-' then none
    else some (.aside, rest)
  | none => none

def declarationMark : List Char := ['x', 'm', 'l', ' ']

/-- An instruction after its opening. A declaration is not one. -/
def instruction? (cs : List Char) : Option (Markup × List Char) :=
  if (Text.after? declarationMark cs).isSome then none
  else if cs.head?.any fun c => c == ':' || isNameStart c then
    (upTo? ['?', '>'] (cs.dropWhile fun c => c == ':' || isNameChar c)).map
      fun (_, rest) => (.aside, rest)
  else none

/-- The part at the front of a text that is not empty. -/
def next? (cs : List Char) : Option (Markup × List Char) :=
  match cs with
  | '<' :: '!' :: '-' :: '-' :: rest => comment? rest
  | '<' :: '!' :: '[' :: 'C' :: 'D' :: 'A' :: 'T' :: 'A' :: '[' :: rest =>
    (upTo? [']', ']', '>'] rest).map fun (raw, rest) => (.cdata (sectionText raw), rest)
  | '<' :: '!' :: _ => none
  | '<' :: '?' :: rest => instruction? rest
  | '<' :: '/' :: rest =>
    match name? rest with
    | some (name, rest) =>
      match skipSpace rest with
      | '>' :: rest => some (.finish name, rest)
      | _ => none
    | none => none
  | '<' :: rest =>
    match name? rest with
    | some (name, rest) =>
      (attributes? (rest.length + 1) rest).map fun (attributes, empty, rest) =>
        (.start name attributes empty, rest)
    | none => none
  | cs =>
    let raw := cs.takeWhile (· != '<')
    if raw.all isChar && (Text.cut? [']', ']', '>'] raw).isNone then
      (textOf? raw).map fun text => (.text raw text, cs.dropWhile (· != '<'))
    else none

/-- All parts of a text, at most `count`. -/
def all? : Nat → List Char → Option (List Markup)
  | _, [] => some []
  | 0, _ :: _ => none
  | count + 1, cs =>
    match next? cs with
    | none => none
    | some (part, rest) => (all? count rest).map (part :: ·)

/-- An attribute of the declaration; space or the declaration's end follows it. -/
def declared? (name : String) (cs : List Char) : Option (List Char) :=
  if (Text.after? name.toList cs).isSome then
    match attribute? cs with
    | some (_, _, rest) =>
      if rest.head?.any isSpace || (Text.after? ['?', '>'] rest).isSome then some (skipSpace rest)
      else none
    | none => none
  else none

/-- The text after a declaration whose opening has been read: a version, and maybe an encoding and a
word on standing alone. -/
def afterDeclaration? (cs : List Char) : Option (List Char) :=
  match declared? "version" (skipSpace cs) with
  | none => none
  | some rest =>
    let encoded? :=
      if (Text.after? "encoding".toList rest).isSome then declared? "encoding" rest else some rest
    match encoded? with
    | none => none
    | some rest =>
      let alone? :=
        if (Text.after? "standalone".toList rest).isSome then
          (attribute? rest).map fun (_, _, rest) => skipSpace rest
        else some rest
      alone?.bind (Text.after? ['?', '>'])

/-- The parts of a document, which may begin with a byte order mark and a declaration. -/
def ofDocument? (text : String) : Option (List Markup) :=
  let cs :=
    match text.toList with
    | '\uFEFF' :: rest => rest
    | cs => cs
  let body? :=
    match Text.after? ('<' :: '?' :: declarationMark) cs with
    | some rest => afterDeclaration? rest
    | none => some cs
  body?.bind fun body => all? body.length body

end Markup

end SessionRelay.Xml
