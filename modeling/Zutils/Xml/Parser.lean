import Zutils.Base.CString

/-!
# Parsing XML (`base2/xml/tinyxml_parser.cc`)

TinyXML makes a tree of a document, and `TinyXMLDocument` goes through it and calls an `XMLHandler`. The tree is a
parameter; its strings are delivered as C strings. Nodes that are neither elements nor text, such as comments, are
`other`.

A handler has a state. What `ProcessElement` returns for a child is not looked at.
-/

namespace Zutils.Xml

/-- `std::map<StringPiece, StringPiece>`. -/
abbrev XMLAttributes := CString → Option CString

/-- `XMLAttributes::Add`. -/
def XMLAttributes.add (attrs : XMLAttributes) (name val : CString) : XMLAttributes := fun x =>
  if x = name then some val else attrs x

/-- The attributes of an element, added one by one. -/
def XMLAttributes.ofList (attributes : List (CString × CString)) : XMLAttributes :=
  attributes.foldl (fun attrs a => attrs.add a.1 a.2) fun _ => none

/-- `TiXmlNode`. -/
inductive XmlNode where
  | element (value : CString) (attributes : List (CString × CString)) (children : List XmlNode)
  | text (value : CString)
  | other

/-- What a callback may do besides return: use an iterator or a reference to an element that is not there. -/
inductive HandlerFault where
  | noSuchElement
  deriving DecidableEq, Repr

/-- `class XMLHandler`. -/
structure XMLHandler (σ : Type) where
  elementStart : List UInt8 → XMLAttributes → σ → Except HandlerFault (Bool × σ)
  elementEnd : List UInt8 → σ → Except HandlerFault (Bool × σ)
  text : List UInt8 → σ → Except HandlerFault (Bool × σ)

variable {σ : Type}

mutual
/-- `ProcessElement` for an element, and the callback for a text. -/
def processNode (h : XMLHandler σ) : XmlNode → σ → Except HandlerFault (Bool × σ)
  | .element value attributes children, s => do
    let (started, s) ← h.elementStart value.bytes (.ofList attributes) s
    if started then do
      let s ← processChildren h children s
      h.elementEnd value.bytes s
    else return (false, s)
  | .text value, s => h.text value.bytes s
  | .other, s => .ok (true, s)

/-- The loop over the children. -/
def processChildren (h : XMLHandler σ) : List XmlNode → σ → Except HandlerFault σ
  | [], s => .ok s
  | childNode :: siblings, s => do
    let (_, s) ← processNode h childNode s
    processChildren h siblings s
end

/-- `TinyXMLDocument::ParseXMLData`, with what TinyXML makes of the text: nothing, or a document that may have a root
element. -/
def parseXMLData (h : XMLHandler σ) (doc : Option (Option XmlNode)) (s : σ) : Except HandlerFault (Bool × σ) :=
  match doc with
  | none => .ok (false, s)
  | some none => .ok (true, s)
  | some (some rootElement) => processNode h rootElement s

namespace XmlNode

/-- An element or a text. -/
def isContent : XmlNode → Bool
  | element _ _ _ | text _ => true
  | other => false

end XmlNode

lemma processChildren_content (h : XMLHandler σ) (children : List XmlNode) (s : σ) :
    processChildren h children s = processChildren h (children.filter XmlNode.isContent) s := by
  induction children generalizing s with
  | nil => rfl
  | cons c cs ih =>
    cases hc : c.isContent with
    | true =>
      rw [List.filter_cons_of_pos hc, processChildren, processChildren]
      exact congrArg _ (funext fun r => ih r.2)
    | false =>
      rw [List.filter_cons_of_neg (by rw [hc]; simp), ← ih]
      cases c with
      | other => rw [processChildren, processNode]; rfl
      | element => cases hc
      | text => cases hc

end Zutils.Xml
