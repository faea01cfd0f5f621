import SessionRelay.Xml.Markup

/-!
Elements from the parts of a document. Tags must match, there is exactly one outermost element,
every qualifier is declared where it is used, and no element has an attribute twice.
-/

namespace SessionRelay.Xml

/-- A node of a document, as far as its readers look: elements by the name without qualifier. -/
inductive Node where
  | element (name : String) (children : List Node)
  | text (s : String)
  | aside
  deriving Repr, Inhabited

namespace Node

/-- The text that an element begins with, empty if it begins with anything else. -/
def leadingText : List Node → String
  | .text s :: _ => s
  | _ => ""

end Node

/-- What qualifiers stand for, innermost first. -/
abbrev Bindings := List (String × String)

def xmlAddress : String := "http://www.w3.org/XML/1998/namespace"

def xmlnsAddress : String := "http://www.w3.org/2000/xmlns/"

/-- The bindings that the attributes of an element declare; none if one may not be declared. -/
def declarations? : List Attribute → Option Bindings
  | [] => some []
  | a :: rest =>
    match declarations? rest with
    | none => none
    | some later =>
      if a.name.qualifier = "xmlns" then
        if a.value = xmlnsAddress then none
        else if a.name.base = "xml" then if a.value = xmlAddress then some later else none
        else if a.value = xmlAddress then none
        else if (later.lookup a.name.base).isSome then none
        else some ((a.name.base, a.value) :: later)
      else if a.name.base = "xmlns" then
        if a.value = xmlAddress ∨ a.value = xmlnsAddress then none else some later
      else some later

/-- The full name of an attribute: what its qualifier stands for, and its name. -/
def fullName? (bindings : Bindings) (n : Name) : Option (Option String × String) :=
  if n.qualifier.isEmpty then some (none, n.base)
  else if n.qualifier = "xml" then some (some xmlAddress, n.base)
  else (bindings.lookup n.qualifier).map fun address => (some address, n.base)

/-- Do the attributes that declare nothing have known qualifiers and different full names? -/
def attributesAgree (bindings : Bindings) (attributes : List Attribute) : Bool :=
  let plain := attributes.filter fun a => a.name.qualifier != "xmlns" && a.name.base != "xmlns"
  let names := plain.map fun a => fullName? bindings a.name
  names.all Option.isSome && names.Nodup

/-- An element that is open: its name, the bindings within it, its children so far, newest first. -/
structure Open where
  name : Name
  bindings : Bindings
  children : List Node
  deriving Repr

/-- A document under construction: the open elements, innermost first, and the outermost element
once it is complete. -/
structure Building where
  stack : List Open
  root : Option Node
  deriving Repr

namespace Building

def empty : Building := ⟨[], none⟩

/-- A text goes to the text before it, if there is one. -/
def addText (text : List Char) : List Node → List Node
  | .text before :: rest => .text (before ++ String.ofList text) :: rest
  | children => .text (String.ofList text) :: children

def addElement? (b : Building) (node : Node) : Option Building :=
  match b.stack with
  | o :: stack => some { b with stack := { o with children := node :: o.children } :: stack }
  | [] => if b.root.isNone then some { b with root := some node } else none

def start? (b : Building) (name : Name) (attributes : List Attribute) (isEmpty : Bool) :
    Option Building :=
  match declarations? attributes with
  | none => none
  | some declared =>
    let outer := (b.stack.head?.map Open.bindings).getD []
    let bindings := declared ++ outer
    let known := name.qualifier.isEmpty || (bindings.lookup name.qualifier).isSome
    if name.qualifier = "xmlns" ∨ !known ∨ !attributesAgree bindings attributes then none
    else if isEmpty then b.addElement? (.element name.base [])
    else if b.stack.isEmpty && b.root.isSome then none
    else some { b with stack := ⟨name, bindings, []⟩ :: b.stack }

def step? (b : Building) (part : Markup) : Option Building :=
  match part, b.stack with
  | .start name attributes isEmpty, _ => b.start? name attributes isEmpty
  | .finish name, o :: stack =>
    if name = o.name then
      addElement? { b with stack := stack } (.element name.base o.children.reverse)
    else none
  | .finish _, [] => none
  | .text _ text, o :: stack =>
    some { b with stack := { o with children := addText text o.children } :: stack }
  | .text raw _, [] => if raw.all isSpace then some b else none
  | .cdata text, o :: stack =>
    some { b with stack := { o with children := addText text o.children } :: stack }
  | .cdata _, [] => none
  | .aside, o :: stack =>
    some { b with stack := { o with children := .aside :: o.children } :: stack }
  | .aside, [] => some b

def all? : Building → List Markup → Option Building
  | b, [] => some b
  | b, part :: rest =>
    match b.step? part with
    | some b => b.all? rest
    | none => none

end Building

def rootOf? (text : String) : Option Node :=
  match (Markup.ofDocument? text).bind Building.empty.all? with
  | some b => if b.stack.isEmpty then b.root else none
  | none => none

end SessionRelay.Xml
