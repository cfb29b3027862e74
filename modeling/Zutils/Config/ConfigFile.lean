import Zutils.Base.StringUtil
import Zutils.Xml.Parser

/-!
# Configuration files (`base2/config_file.cc`, `base2/config_file_xml_handler.cc`)

A configuration is a map from the names of sections to lists of keys and values, in which a key may occur more than
once. `ConfigFileXmlHandler` builds it while the document is gone through. Its iterator `current_it_` is the name of
the entry it points to, and it points to nothing when there is no such entry.

`Load` gets what TinyXML makes of the file.
-/

namespace Zutils.Config

open Zutils.Xml

/-- `std::vector<std::pair<std::string, std::string>>`. -/
abbrev KeyValuePairList := List (List UInt8 × List UInt8)

/-- `std::map<std::string, KeyValuePairList>`. -/
abbrev SectionMap := List UInt8 → Option KeyValuePairList

/-- The map with another list in an entry. -/
def SectionMap.set (m : SectionMap) (name : List UInt8) (list : KeyValuePairList) : SectionMap := fun x =>
  if x = name then some list else m x

def kConfigXMLIniElement : List UInt8 := ascii ['X', 'M', 'L', 'I', 'n', 'i']

def kConfigSectionElement : List UInt8 := ascii ['S', 'e', 'c', 't', 'i', 'o', 'n']

def kConfigItemElement : List UInt8 := ascii ['I', 't', 'e', 'm']

def kConfigNameAttribute : CString := ⟨ascii ['n', 'a', 'm', 'e'], by decide⟩

/-- `class ConfigFileXmlHandler`, with the map that `config_map_` refers to. -/
structure ConfigFileXmlHandler where
  configMap : SectionMap
  currentIt : Option (List UInt8)
  currentElement : List UInt8

namespace ConfigFileXmlHandler

/-- The constructor does not set `current_it_`. -/
def new (configMap : SectionMap) : ConfigFileXmlHandler := ⟨configMap, none, []⟩

/-- `current_it_->second = f(current_it_->second)`. -/
def modify (f : KeyValuePairList → Except HandlerFault KeyValuePairList) (h : ConfigFileXmlHandler) :
    Except HandlerFault ConfigFileXmlHandler :=
  match h.currentIt with
  | none => .error .noSuchElement
  | some it =>
    match h.configMap it with
    | none => .error .noSuchElement
    | some list => do
      let list ← f list
      return { h with configMap := h.configMap.set it list }

def elementStart (element : List UInt8) (attributes : XMLAttributes) (h : ConfigFileXmlHandler) :
    Except HandlerFault (Bool × ConfigFileXmlHandler) :=
  let h := { h with currentElement := element }
  if element = kConfigXMLIniElement then .ok (true, { h with configMap := fun _ => none })
  else if element = kConfigSectionElement then
    match attributes kConfigNameAttribute with
    | none => .ok (false, h)
    | some attrVal =>
      -- `insert` leaves an entry that is there alone
      let configMap := h.configMap.set attrVal.bytes ((h.configMap attrVal.bytes).getD [])
      .ok (true, { h with configMap, currentIt := some attrVal.bytes })
  else if element = kConfigItemElement then
    match attributes kConfigNameAttribute with
    | none => .ok (false, h)
    | some attrVal => do
      let h ← h.modify fun list => .ok (list ++ [(attrVal.bytes, [])])
      return (true, h)
  else .ok (false, h)

def elementEnd (element : List UInt8) (h : ConfigFileXmlHandler) : Except HandlerFault (Bool × ConfigFileXmlHandler) :=
  if element = kConfigXMLIniElement then .ok (true, h)
  else if element = kConfigSectionElement then .ok (true, h)
  else if element = kConfigItemElement then .ok (true, h)
  else .ok (false, h)

/-- `rbegin()->second = value`. -/
def setLast (value : List UInt8) (list : KeyValuePairList) : Except HandlerFault KeyValuePairList :=
  match list.getLast? with
  | none => .error .noSuchElement
  | some last => .ok (list.dropLast ++ [(last.1, value)])

def text (text : List UInt8) (h : ConfigFileXmlHandler) : Except HandlerFault (Bool × ConfigFileXmlHandler) :=
  if h.currentElement = kConfigItemElement then do
    let h ← h.modify (setLast (trimWhitespaceASCII text))
    return (true, h)
  else .ok (false, h)

end ConfigFileXmlHandler

/-- The callbacks. -/
def configHandler : XMLHandler ConfigFileXmlHandler where
  elementStart := ConfigFileXmlHandler.elementStart
  elementEnd := ConfigFileXmlHandler.elementEnd
  text := ConfigFileXmlHandler.text

/-- `class ConfigFile`. -/
structure ConfigFile where
  configMap : SectionMap

/-- `GetValueByKey`. -/
def getValueByKey (keyValues : KeyValuePairList) (key : CString) (defaultVal : Option CString) : Option CString :=
  keyValues.foldl (fun val kv => if kv.1 = key.bytes then some (.ofString kv.2) else val) defaultVal

/-- `GetValueListByKey` for `std::vector<const char*>`. -/
def getValueListByKey (keyValues : KeyValuePairList) (key : CString) : List CString :=
  keyValues.foldl (fun values kv => if kv.1 = key.bytes then values ++ [.ofString kv.2] else values) []

namespace ConfigFile

/-- `Destroy`. -/
def destroy (_ : ConfigFile) : ConfigFile := ⟨fun _ => none⟩

/-- `Load`, with what TinyXML makes of the file. -/
def load (f : ConfigFile) (doc : Option (Option XmlNode)) : Except HandlerFault (Bool × ConfigFile) := do
  let (result, h) ← parseXMLData configHandler doc (.new f.configMap)
  if result then return (true, ⟨h.configMap⟩)
  else return (false, ConfigFile.destroy ⟨h.configMap⟩)

variable (f : ConfigFile)

def getString (sect key : CString) (defaultVal : Option CString) : Option CString :=
  match f.configMap sect.bytes with
  | none => defaultVal
  | some list => getValueByKey list key defaultVal

def getCStringList (sect key : CString) : List CString :=
  match f.configMap sect.bytes with
  | none => []
  | some list => getValueListByKey list key

/-- The strings are made of `second.c_str()`. -/
def getStringList (sect key : CString) : List (List UInt8) :=
  match f.configMap sect.bytes with
  | none => []
  | some list => (getValueListByKey list key).map CString.bytes

def getSectionKey (sect : CString) : List (List UInt8) :=
  match f.configMap sect.bytes with
  | none => []
  | some list => list.map Prod.fst

def checkBySection (sect : CString) : Bool := (f.configMap sect.bytes).isSome

def checkBySectionAndKey (sect key : CString) : Bool :=
  match f.configMap sect.bytes with
  | none => false
  | some list => list.any fun kv => kv.1 = key.bytes

def checkByValue (sect key val : CString) : Bool :=
  match f.configMap sect.bytes with
  | none => false
  | some list => list.any fun kv => kv.1 = key.bytes ∧ kv.2 = val.bytes

end ConfigFile

end Zutils.Config
