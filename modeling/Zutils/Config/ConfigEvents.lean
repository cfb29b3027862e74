import Zutils.Config.ConfigFileSpec
import Zutils.Xml.HandlerResults
import Zutils.Lib.Since

/-!
# What the handler of configurations is told

The handler does not look at the tree. It is told of elements that start and of texts, in the order of the document,
and the end of an element changes nothing. An element that it does not accept is told of, but not its children.

`visited` is what it is told of a document, and `processNode_events` says that going through the document is to tell it
one after the other.
-/

namespace Zutils.Config

open Zutils.Xml Zutils.Lib

/-- What the handler is told. -/
inductive ConfigEvent where
  | ini
  | sect (name : CString)
  | item (key : CString)
  /-- A `Section` or an `Item` without a name, or another element. -/
  | rejected (element : CString)
  | text (value : CString)
  deriving DecidableEq

namespace ConfigEvent

/-- An element that the handler accepts, so that its children are gone through. -/
def entered : ConfigEvent → Bool
  | ini | sect _ | item _ => true
  | rejected _ | text _ => false

/-- The start of an element. -/
def start (value : CString) (attributes : List (CString × CString)) : ConfigEvent :=
  if value.bytes = kConfigXMLIniElement then ini
  else if value.bytes = kConfigSectionElement then
    ((XMLAttributes.ofList attributes kConfigNameAttribute).map sect).getD (rejected value)
  else if value.bytes = kConfigItemElement then
    ((XMLAttributes.ofList attributes kConfigNameAttribute).map item).getD (rejected value)
  else rejected value

/-- What it changes. -/
def run (h : ConfigFileXmlHandler) : ConfigEvent → Except HandlerFault ConfigFileXmlHandler
  | ini => .ok ⟨fun _ => none, h.currentIt, kConfigXMLIniElement⟩
  | sect name => .ok ⟨h.configMap.set name.bytes ((h.configMap name.bytes).getD []), some name.bytes,
      kConfigSectionElement⟩
  | item key => ConfigFileXmlHandler.modify (fun list => .ok (list ++ [(key.bytes, [])]))
      { h with currentElement := kConfigItemElement }
  | rejected element => .ok { h with currentElement := element.bytes }
  | text value =>
    if h.currentElement = kConfigItemElement then
      h.modify (ConfigFileXmlHandler.setLast (trimWhitespaceASCII value.bytes))
    else .ok h

end ConfigEvent

mutual
/-- What the handler is told of a node. -/
def visited : XmlNode → List ConfigEvent
  | .element value attributes children =>
    if (ConfigEvent.start value attributes).entered then .start value attributes :: visitedChildren children
    else [.start value attributes]
  | .text value => [.text value]
  | .other => []

def visitedChildren : List XmlNode → List ConfigEvent
  | [] => []
  | childNode :: siblings => visited childNode ++ visitedChildren siblings
end

/-! ### Going through a document -/

section Events

variable {value : CString} {attributes : List (CString × CString)} {h : ConfigFileXmlHandler}

lemma elementStart_event : ConfigFileXmlHandler.elementStart value.bytes (.ofList attributes) h =
    (ConfigEvent.run h (.start value attributes)).map fun h => ((ConfigEvent.start value attributes).entered, h) := by
  rw [ConfigFileXmlHandler.elementStart, ConfigEvent.start]
  by_cases hini : value.bytes = kConfigXMLIniElement
  · rw [if_pos hini, if_pos hini, hini]
    rfl
  · rw [if_neg hini, if_neg hini]
    by_cases hsect : value.bytes = kConfigSectionElement
    · rw [if_pos hsect, if_pos hsect]
      cases XMLAttributes.ofList attributes kConfigNameAttribute with
      | none => rfl
      | some name =>
        rw [hsect]
        rfl
    · rw [if_neg hsect, if_neg hsect]
      by_cases hitem : value.bytes = kConfigItemElement
      · rw [if_pos hitem, if_pos hitem]
        cases XMLAttributes.ofList attributes kConfigNameAttribute with
        | none => rfl
        | some key =>
          dsimp only
          rw [hitem]
          show _ = Except.map _ (ConfigEvent.run h (.item key))
          rw [ConfigEvent.run]
          cases ConfigFileXmlHandler.modify _ _ <;> rfl
      · rw [if_neg hitem, if_neg hitem]
        rfl

lemma elementEnd_entered (hentered : (ConfigEvent.start value attributes).entered = true) :
    ConfigFileXmlHandler.elementEnd value.bytes h = .ok (true, h) := by
  apply elementEnd_eq
  by_contra hno
  simp only [List.mem_cons, List.not_mem_nil, or_false, not_or] at hno
  rw [ConfigEvent.start, if_neg hno.1, if_neg hno.2.1, if_neg hno.2.2] at hentered
  cases hentered

lemma text_event : (ConfigFileXmlHandler.text value.bytes h).map Prod.snd = ConfigEvent.run h (.text value) := by
  rw [ConfigFileXmlHandler.text, ConfigEvent.run]
  by_cases hitem : h.currentElement = kConfigItemElement
  · rw [if_pos hitem, if_pos hitem]
    cases ConfigFileXmlHandler.modify _ h <;> rfl
  · rw [if_neg hitem, if_neg hitem]
    rfl

/-- The handler is told of a node what is visited. -/
def NodeVisits (node : XmlNode) : Prop :=
  ∀ h, (processNode configHandler node h).map Prod.snd = (visited node).foldlM ConfigEvent.run h

lemma processChildren_events {children : List XmlNode} (hnodes : ∀ c ∈ children, NodeVisits c)
    (h : ConfigFileXmlHandler) :
    processChildren configHandler children h = (visitedChildren children).foldlM ConfigEvent.run h := by
  induction children generalizing h with
  | nil => rfl
  | cons c cs ih =>
    have hc := hnodes c List.mem_cons_self h
    rw [processChildren, visitedChildren, List.foldlM_append, ← hc]
    cases processNode configHandler c h with
    | error e => rfl
    | ok r => exact ih (fun c' hc' => hnodes c' (List.mem_cons_of_mem c hc')) r.2

lemma processNode_events (node : XmlNode) : NodeVisits node := by
  induction node using XmlNode.induction with
  | element value attributes children ih =>
    intro h
    rw [processNode, configHandler_elementStart, configHandler_elementEnd, elementStart_event, visited]
    cases hentered : (ConfigEvent.start value attributes).entered with
    | false =>
      rw [if_neg Bool.false_ne_true]
      show _ = (ConfigEvent.run h (.start value attributes)) >>= _
      cases ConfigEvent.run h (.start value attributes) <;> rfl
    | true =>
      rw [if_pos rfl, List.foldlM_cons]
      cases ConfigEvent.run h (.start value attributes) with
      | error e => rfl
      | ok h₁ =>
        simp only [Except.map, ok_bind, if_true]
        rw [← processChildren_events ih h₁]
        cases processChildren configHandler children h₁ with
        | error e => rfl
        | ok h₂ =>
          rw [ok_bind, elementEnd_entered hentered]
  | text value =>
    intro h
    rw [processNode, visited, List.foldlM_cons, ← text_event, configHandler_text]
    cases ConfigFileXmlHandler.text value.bytes h <;> rfl
  | other => exact fun h => rfl

end Events

end Zutils.Config
