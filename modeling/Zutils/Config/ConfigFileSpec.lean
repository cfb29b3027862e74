import Zutils.Config.ConfigFile

/-!
# What a configuration file says

A document is a list of sections, and a section a list of items with a text each, which may be missing. Sections and
items may have the same name as others. Loading adds the items of each section to the entry of its name
(`processNode_ini`), so that all queries answer as the document does (`config_lookup`).
-/

namespace Zutils.Config

open Zutils.Xml

/-- The name and the text of an item. -/
abbrev IniItem := CString × Option CString

/-- The name and the items of a section. -/
abbrev IniSection := CString × List IniItem

/-- An `Item` element with a name and at most one text. -/
inductive IsItem : XmlNode → IniItem → Prop
  | mk {value name : CString} {attributes : List (CString × CString)} {children : List XmlNode} {text : Option CString} :
      value.bytes = kConfigItemElement → XMLAttributes.ofList attributes kConfigNameAttribute = some name →
      children.filter XmlNode.isContent = (text.map XmlNode.text).toList →
      IsItem (.element value attributes children) (name, text)

/-- A `Section` element with a name and items. -/
inductive IsSection : XmlNode → IniSection → Prop
  | mk {value name : CString} {attributes : List (CString × CString)} {children : List XmlNode} {items : List IniItem} :
      value.bytes = kConfigSectionElement → XMLAttributes.ofList attributes kConfigNameAttribute = some name →
      List.Forall₂ IsItem (children.filter XmlNode.isContent) items →
      IsSection (.element value attributes children) (name, items)

/-- An `XMLIni` element with sections. -/
inductive IsIni : XmlNode → List IniSection → Prop
  | mk {value : CString} {attributes : List (CString × CString)} {children : List XmlNode}
      {sections : List IniSection} : value.bytes = kConfigXMLIniElement →
      List.Forall₂ IsSection (children.filter XmlNode.isContent) sections →
      IsIni (.element value attributes children) sections

/-- The trimmed text of an item. -/
def valueOf (item : IniItem) : List UInt8 := asciiTrimmed ((item.2.map CString.bytes).getD [])

/-- The items of all sections with a name, in the order of the document. -/
def itemsOf (sections : List IniSection) (name : CString) : List IniItem :=
  (sections.filter fun sect => sect.1 = name).flatMap Prod.snd

/-- The values of the items with a name. -/
def valuesOf (sections : List IniSection) (name key : CString) : List (List UInt8) :=
  ((itemsOf sections name).filter fun item => item.1 = key).map valueOf

/-! ### Loading -/

/-- What an item is in the map. -/
def keyValue (item : IniItem) : List UInt8 × List UInt8 := (item.1.bytes, valueOf item)

/-- The map with the items of one more section. -/
def addSection (m : SectionMap) (sect : IniSection) : SectionMap :=
  m.set sect.1.bytes ((m sect.1.bytes).getD [] ++ sect.2.map keyValue)

@[simp] lemma SectionMap.set_self (m : SectionMap) (name : List UInt8) (list : KeyValuePairList) :
    m.set name list name = some list := if_pos rfl

@[simp] lemma SectionMap.set_set (m : SectionMap) (name : List UInt8) (list list' : KeyValuePairList) :
    (m.set name list).set name list' = m.set name list' := by
  funext x
  by_cases h : x = name
  · rw [h, set_self, set_self]
  · rw [SectionMap.set, SectionMap.set, SectionMap.set, if_neg h, if_neg h, if_neg h]

section Process

variable {m : SectionMap} {it element : List UInt8} {list : KeyValuePairList} {attrs : XMLAttributes} {name : CString}

lemma configHandler_elementStart : configHandler.elementStart = ConfigFileXmlHandler.elementStart := rfl

lemma configHandler_elementEnd : configHandler.elementEnd = ConfigFileXmlHandler.elementEnd := rfl

lemma configHandler_text : configHandler.text = ConfigFileXmlHandler.text := rfl

lemma modify_eq {f : KeyValuePairList → Except HandlerFault KeyValuePairList} {list' : KeyValuePairList}
    (hf : f list = .ok list') (hit : m it = some list) :
    ConfigFileXmlHandler.modify f ⟨m, some it, element⟩ = .ok ⟨m.set it list', some it, element⟩ := by
  simp only [ConfigFileXmlHandler.modify, hit, hf, ok_bind]
  rfl

lemma elementStart_ini (h : ConfigFileXmlHandler) : ConfigFileXmlHandler.elementStart kConfigXMLIniElement attrs h =
    .ok (true, ⟨fun _ => none, h.currentIt, kConfigXMLIniElement⟩) := by
  rw [ConfigFileXmlHandler.elementStart, if_pos rfl]

lemma elementStart_section (hname : attrs kConfigNameAttribute = some name) (h : ConfigFileXmlHandler) :
    ConfigFileXmlHandler.elementStart kConfigSectionElement attrs h =
      .ok (true, ⟨h.configMap.set name.bytes ((h.configMap name.bytes).getD []), some name.bytes,
        kConfigSectionElement⟩) := by
  rw [ConfigFileXmlHandler.elementStart, if_neg (by decide), if_pos rfl, hname]

lemma elementStart_item (hname : attrs kConfigNameAttribute = some name) (hit : m it = some list) :
    ConfigFileXmlHandler.elementStart kConfigItemElement attrs ⟨m, some it, element⟩ =
      .ok (true, ⟨m.set it (list ++ [(name.bytes, [])]), some it, kConfigItemElement⟩) := by
  have hmodify : ConfigFileXmlHandler.modify (fun list => .ok (list ++ [(name.bytes, [])]))
      ⟨m, some it, kConfigItemElement⟩ = .ok ⟨m.set it (list ++ [(name.bytes, [])]), some it, kConfigItemElement⟩ :=
    modify_eq rfl hit
  rw [ConfigFileXmlHandler.elementStart, if_neg (by decide), if_neg (by decide), if_pos rfl, hname]
  dsimp only
  rw [hmodify]
  rfl

lemma elementEnd_eq (helement : element ∈ [kConfigXMLIniElement, kConfigSectionElement, kConfigItemElement])
    (h : ConfigFileXmlHandler) : ConfigFileXmlHandler.elementEnd element h = .ok (true, h) := by
  simp only [List.mem_cons, List.not_mem_nil, or_false] at helement
  simp only [ConfigFileXmlHandler.elementEnd]
  rcases helement with h | h | h
  · rw [if_pos h]
  · rw [h, if_neg (by decide), if_pos rfl]
  · rw [h, if_neg (by decide), if_neg (by decide), if_pos rfl]

/-- The text is for the item that was added last. -/
lemma text_eq {key value : List UInt8} (hit : m it = some (list ++ [(key, value)])) (text : CString) :
    ConfigFileXmlHandler.text text.bytes ⟨m, some it, kConfigItemElement⟩ =
      .ok (true, ⟨m.set it (list ++ [(key, asciiTrimmed text.bytes)]), some it, kConfigItemElement⟩) := by
  have hset : ConfigFileXmlHandler.setLast (trimWhitespaceASCII text.bytes) (list ++ [(key, value)]) =
      .ok (list ++ [(key, asciiTrimmed text.bytes)]) := by
    rw [ConfigFileXmlHandler.setLast, List.getLast?_concat, List.dropLast_concat, trimWhitespaceASCII_eq]
  rw [ConfigFileXmlHandler.text, if_pos rfl, modify_eq hset hit]
  rfl

lemma processNode_item {node : XmlNode} {item : IniItem} (h : IsItem node item) (hit : m it = some list) :
    processNode configHandler node ⟨m, some it, element⟩ =
      .ok (true, ⟨m.set it (list ++ [keyValue item]), some it, kConfigItemElement⟩) := by
  obtain ⟨hvalue, hname, hchildren⟩ := h
  rename_i value name attributes children text
  rw [processNode, configHandler_elementStart, configHandler_elementEnd, hvalue, elementStart_item hname hit, ok_bind]
  dsimp only
  rw [if_pos rfl, processChildren_content, hchildren]
  cases text with
  | none =>
    rw [Option.map_none, Option.toList_none, processChildren, ok_bind, elementEnd_eq (by simp)]
    rfl
  | some text =>
    rw [Option.map_some, Option.toList_some, processChildren, processNode, configHandler_text,
      text_eq (m.set_self _ _), ok_bind]
    dsimp only
    rw [processChildren, ok_bind, elementEnd_eq (by simp), SectionMap.set_set]
    rfl

lemma processChildren_items {nodes : List XmlNode} {items : List IniItem} (h : List.Forall₂ IsItem nodes items)
    (hit : m it = some list) : ∃ element', processChildren configHandler nodes ⟨m, some it, element⟩ =
      .ok ⟨m.set it (list ++ items.map keyValue), some it, element'⟩ := by
  induction h generalizing m list element with
  | nil =>
    have hsame : m.set it list = m := by
      funext x
      by_cases hx : x = it
      · rw [hx, SectionMap.set_self, hit]
      · exact if_neg hx
    refine ⟨element, ?_⟩
    rw [processChildren, List.map_nil, List.append_nil, hsame]
  | cons hnode _ ih =>
    obtain ⟨element', ih⟩ := ih (m.set_self it (list ++ [keyValue _]))
    refine ⟨element', ?_⟩
    rw [processChildren, processNode_item hnode hit, ok_bind]
    dsimp only
    rw [ih, SectionMap.set_set, List.append_assoc, List.map_cons]
    rfl

lemma processNode_section {node : XmlNode} {sect : IniSection} (hsect : IsSection node sect)
    (h : ConfigFileXmlHandler) : ∃ h', processNode configHandler node h = .ok (true, h') ∧
      h'.configMap = addSection h.configMap sect := by
  obtain ⟨hvalue, hname, hitems⟩ := hsect
  rename_i value name attributes children items
  obtain ⟨element', hchildren⟩ := processChildren_items hitems (h.configMap.set_self name.bytes _)
  refine ⟨⟨addSection h.configMap (name, items), some name.bytes, element'⟩, ?_, rfl⟩
  rw [processNode, configHandler_elementStart, configHandler_elementEnd, hvalue, elementStart_section hname, ok_bind]
  dsimp only
  rw [if_pos rfl, processChildren_content, hchildren, ok_bind, elementEnd_eq (by simp), SectionMap.set_set]
  rfl

lemma processChildren_sections {nodes : List XmlNode} {sections : List IniSection}
    (hsections : List.Forall₂ IsSection nodes sections) (h : ConfigFileXmlHandler) :
    ∃ h', processChildren configHandler nodes h = .ok h' ∧ h'.configMap = sections.foldl addSection h.configMap := by
  induction hsections generalizing h with
  | nil => exact ⟨h, rfl, rfl⟩
  | cons hnode _ ih =>
    obtain ⟨h₁, hprocess, hmap⟩ := processNode_section hnode h
    obtain ⟨h₂, hrest, hmap'⟩ := ih h₁
    refine ⟨h₂, ?_, by rw [hmap', hmap]; rfl⟩
    rw [processChildren, hprocess, ok_bind]
    exact hrest

/-- **The map of a document** has its sections, whatever was in it before. -/
lemma processNode_ini {root : XmlNode} {sections : List IniSection} (hroot : IsIni root sections)
    (h : ConfigFileXmlHandler) : ∃ h', processNode configHandler root h = .ok (true, h') ∧
      h'.configMap = sections.foldl addSection fun _ => none := by
  obtain ⟨hvalue, hsections⟩ := hroot
  rename_i value attributes children
  obtain ⟨h', hchildren, hmap⟩ := processChildren_sections hsections ⟨fun _ => none, h.currentIt, kConfigXMLIniElement⟩
  refine ⟨h', ?_, hmap⟩
  rw [processNode, configHandler_elementStart, configHandler_elementEnd, hvalue, elementStart_ini, ok_bind]
  dsimp only
  rw [if_pos rfl, processChildren_content, hchildren, ok_bind, elementEnd_eq (by simp)]

end Process

/-! ### Queries -/

section Queries

variable {m : SectionMap} {sections : List IniSection}

lemma itemsOf_cons (sect : IniSection) (name : CString) :
    itemsOf (sect :: sections) name = (if sect.1 = name then sect.2 else []) ++ itemsOf sections name := by
  rw [itemsOf, List.filter_cons]
  by_cases h : sect.1 = name
  · rw [if_pos (decide_eq_true h), if_pos h]
    rfl
  · rw [if_neg (by simp [h]), if_neg h]
    rfl

lemma itemsOf_eq_nil {name : CString} (h : ¬ ∃ sect ∈ sections, sect.1 = name) : itemsOf sections name = [] := by
  have hnone : (sections.filter fun sect => sect.1 = name) = [] :=
    List.filter_eq_nil_iff.2 fun sect hsect hname => h ⟨sect, hsect, of_decide_eq_true hname⟩
  rw [itemsOf, hnone]
  rfl

lemma foldl_addSection (m : SectionMap) (name : CString) : (sections.foldl addSection m) name.bytes =
    if ∃ sect ∈ sections, sect.1 = name then
      some ((m name.bytes).getD [] ++ (itemsOf sections name).map keyValue) else m name.bytes := by
  induction sections generalizing m with
  | nil => simp
  | cons sect sections ih =>
    rw [List.foldl_cons, ih, itemsOf_cons]
    by_cases h : sect.1 = name
    · have hentry : addSection m sect name.bytes = some ((m name.bytes).getD [] ++ sect.2.map keyValue) := by
        rw [addSection, h, SectionMap.set_self]
      rw [hentry, if_pos h, if_pos (show ∃ s ∈ sect :: sections, s.1 = name from ⟨sect, List.mem_cons_self, h⟩)]
      split
      · simp
      · rename_i hnone
        rw [itemsOf_eq_nil hnone, List.append_nil]
    · have hne : name.bytes ≠ sect.1.bytes := fun hb => h (CString.ext hb.symm)
      have hentry : addSection m sect name.bytes = m name.bytes := if_neg hne
      have hiff : (∃ s ∈ sect :: sections, s.1 = name) ↔ ∃ s ∈ sections, s.1 = name := by simp [h]
      rw [hentry, if_neg h, List.nil_append]
      simp only [hiff]

lemma getValueListByKey_eq (list : KeyValuePairList) (key : CString) :
    getValueListByKey list key = (list.filter fun kv => kv.1 = key.bytes).map fun kv => .ofString kv.2 := by
  have hfold : ∀ values : List CString, list.foldl
      (fun values kv => if kv.1 = key.bytes then values ++ [.ofString kv.2] else values) values =
        values ++ (list.filter fun kv => kv.1 = key.bytes).map fun kv => .ofString kv.2 := by
    induction list with
    | nil => simp
    | cons kv list ih =>
      intro values
      rw [List.foldl_cons, ih, List.filter_cons]
      by_cases h : kv.1 = key.bytes <;> simp [h]
  exact (hfold []).trans (List.nil_append _)

/-- The last value wins. -/
lemma getValueByKey_eq (list : KeyValuePairList) (key : CString) (defaultVal : Option CString) :
    getValueByKey list key defaultVal = (getValueListByKey list key).getLast?.or defaultVal := by
  rw [getValueListByKey_eq]
  induction list generalizing defaultVal with
  | nil => rfl
  | cons kv list ih =>
    rw [getValueByKey, List.foldl_cons, ← getValueByKey, ih, List.filter_cons]
    by_cases h : kv.1 = key.bytes
    · rw [if_pos h, if_pos (decide_eq_true h), List.map_cons, List.getLast?_cons]
      cases ((list.filter fun kv => kv.1 = key.bytes).map fun kv => CString.ofString kv.2).getLast? <;> rfl
    · rw [if_neg h, if_neg (by simp [h])]

lemma valueOf_nul_free (item : IniItem) : 0 ∉ valueOf item := by
  have htrim : ∀ l, 0 ∈ asciiTrimmed l → 0 ∈ l := fun l h =>
    (List.dropWhile_suffix _).mem ((List.rdropWhile_prefix _ _).mem h)
  intro h
  have h0 := htrim _ h
  obtain ⟨name, _ | text⟩ := item
  · cases h0
  · exact text.nul_free h0

lemma filter_keyValue (items : List IniItem) (key : CString) :
    ((items.map keyValue).filter fun kv => kv.1 = key.bytes) = (items.filter fun item => item.1 = key).map keyValue := by
  rw [List.filter_map]
  congr 2
  funext item
  exact decide_eq_decide.2 ⟨CString.ext, fun h => congrArg CString.bytes h⟩

lemma getValueListByKey_keyValue (items : List IniItem) (key : CString) :
    (getValueListByKey (items.map keyValue) key).map CString.bytes =
      (items.filter fun item => item.1 = key).map valueOf := by
  rw [getValueListByKey_eq, filter_keyValue, List.map_map, List.map_map]
  refine List.map_congr_left fun item _ => ?_
  exact CString.ofString_bytes (valueOf_nul_free item)

variable (f : ConfigFile) (name key : CString)

lemma getString_eq (d : Option CString) :
    f.getString name key d = getValueByKey ((f.configMap name.bytes).getD []) key d := by
  rw [ConfigFile.getString]
  cases f.configMap name.bytes <;> rfl

lemma getCStringList_eq : f.getCStringList name key = getValueListByKey ((f.configMap name.bytes).getD []) key := by
  rw [ConfigFile.getCStringList]
  cases f.configMap name.bytes <;> rfl

lemma getStringList_eq : f.getStringList name key = (f.getCStringList name key).map CString.bytes := by
  rw [ConfigFile.getStringList, ConfigFile.getCStringList]
  cases f.configMap name.bytes <;> rfl

lemma getSectionKey_eq : f.getSectionKey name = ((f.configMap name.bytes).getD []).map Prod.fst := by
  rw [ConfigFile.getSectionKey]
  cases f.configMap name.bytes <;> rfl

lemma checkBySectionAndKey_eq : f.checkBySectionAndKey name key =
    ((f.configMap name.bytes).getD []).any fun kv => kv.1 = key.bytes := by
  rw [ConfigFile.checkBySectionAndKey]
  cases f.configMap name.bytes <;> rfl

lemma checkByValue_eq (val : CString) : f.checkByValue name key val =
    ((f.configMap name.bytes).getD []).any fun kv => kv.1 = key.bytes ∧ kv.2 = val.bytes := by
  rw [ConfigFile.checkByValue]
  cases f.configMap name.bytes <;> rfl

end Queries

/-- **The queries answer as the document does**, whatever the map was before. -/
theorem config_lookup {root : XmlNode} {sections : List IniSection} (hroot : IsIni root sections) (f : ConfigFile) :
    ∃ f', f.load (some (some root)) = .ok (true, f') ∧ ∀ name key : CString,
      f'.getStringList name key = valuesOf sections name key ∧
      (f'.getCStringList name key).map CString.bytes = valuesOf sections name key ∧
      (∀ d, (f'.getString name key d).map CString.bytes =
        (valuesOf sections name key).getLast?.or (d.map CString.bytes)) ∧
      f'.getSectionKey name = (itemsOf sections name).map (fun item => item.1.bytes) ∧
      (f'.checkBySection name = true ↔ ∃ sect ∈ sections, sect.1 = name) ∧
      (f'.checkBySectionAndKey name key = true ↔ ∃ item ∈ itemsOf sections name, item.1 = key) ∧
      ∀ val : CString, f'.checkByValue name key val = true ↔ val.bytes ∈ valuesOf sections name key := by
  obtain ⟨h, hload, hmap⟩ := processNode_ini hroot (.new f.configMap)
  refine ⟨⟨h.configMap⟩, ?_, fun name key => ?_⟩
  · rw [ConfigFile.load, parseXMLData, hload]
    rfl
  · have hentry : h.configMap name.bytes =
        if ∃ sect ∈ sections, sect.1 = name then some ((itemsOf sections name).map keyValue) else none := by
      rw [hmap]
      exact foldl_addSection _ name
    have hlist : (h.configMap name.bytes).getD [] = (itemsOf sections name).map keyValue := by
      rw [hentry]
      split
      · rfl
      · rename_i hnone
        rw [itemsOf_eq_nil hnone]
        rfl
    have hvalues : (getValueListByKey ((itemsOf sections name).map keyValue) key).map CString.bytes =
        valuesOf sections name key := getValueListByKey_keyValue _ key
    refine ⟨?_, ?_, fun d => ?_, ?_, ?_, ?_, fun val => ?_⟩
    · rw [getStringList_eq, getCStringList_eq, hlist, hvalues]
    · rw [getCStringList_eq, hlist, hvalues]
    · rw [getString_eq, getValueByKey_eq, hlist, ← hvalues, List.getLast?_map, Option.map_or]
    · rw [getSectionKey_eq, hlist, List.map_map]
      rfl
    · show (h.configMap name.bytes).isSome = true ↔ _
      rw [hentry]
      split
      · rename_i hsome
        exact iff_of_true rfl hsome
      · rename_i hnone
        exact iff_of_false Bool.false_ne_true hnone
    · rw [checkBySectionAndKey_eq, hlist, List.any_eq_true]
      simp only [List.mem_map, decide_eq_true_eq]
      constructor
      · rintro ⟨_, ⟨item, hitem, rfl⟩, hkey⟩
        exact ⟨item, hitem, CString.ext hkey⟩
      · rintro ⟨item, hitem, rfl⟩
        exact ⟨keyValue item, ⟨item, hitem, rfl⟩, rfl⟩
    · rw [checkByValue_eq, hlist, List.any_eq_true, valuesOf]
      simp only [List.mem_map, List.mem_filter, decide_eq_true_eq]
      constructor
      · rintro ⟨_, ⟨item, hitem, rfl⟩, hkey, hval⟩
        exact ⟨item, ⟨hitem, CString.ext hkey⟩, hval⟩
      · rintro ⟨item, ⟨hitem, rfl⟩, hval⟩
        exact ⟨keyValue item, ⟨item, hitem, rfl⟩, rfl, hval⟩

lemma kConfigXMLIniElement_nul_free : 0 ∉ kConfigXMLIniElement := by decide

lemma kConfigSectionElement_nul_free : 0 ∉ kConfigSectionElement := by decide

lemma kConfigItemElement_nul_free : 0 ∉ kConfigItemElement := by decide

def kDb : CString := ⟨ascii ['d', 'b'], by decide⟩

def kHost : CString := ⟨ascii ['h', 'o', 's', 't'], by decide⟩

/-- An item of the section `db` with the key `host`. -/
def hostItem (text : CString) : XmlNode :=
  .element ⟨kConfigItemElement, kConfigItemElement_nul_free⟩ [(kConfigNameAttribute, kHost)] [.text text]

def dbSection (items : List XmlNode) : XmlNode :=
  .element ⟨kConfigSectionElement, kConfigSectionElement_nul_free⟩ [(kConfigNameAttribute, kDb)] items

lemma hostItem_isItem (text : CString) : IsItem (hostItem text) (kHost, some text) := .mk rfl rfl rfl

lemma dbSection_isSection (text : CString) : IsSection (dbSection [.other, hostItem text]) (kDb, [(kHost, some text)]) :=
  .mk rfl rfl (.cons (hostItem_isItem text) .nil)

/-- A section that is opened again, with values in white space. -/
def reopened : XmlNode :=
  .element ⟨kConfigXMLIniElement, kConfigXMLIniElement_nul_free⟩ []
    [dbSection [.other, hostItem ⟨[0x20, 0x61], by decide⟩], dbSection [.other, hostItem ⟨[0x62, 0x0A], by decide⟩]]

lemma reopened_isIni : IsIni reopened
    [(kDb, [(kHost, some ⟨[0x20, 0x61], by decide⟩)]), (kDb, [(kHost, some ⟨[0x62, 0x0A], by decide⟩)])] :=
  .mk rfl (.cons (dbSection_isSection _) (.cons (dbSection_isSection _) .nil))

/-- Both values are found. -/
theorem config_lookup_reopened : ∃ f' : ConfigFile,
    ConfigFile.load ⟨fun _ => none⟩ (some (some reopened)) = .ok (true, f') ∧
      f'.getStringList kDb kHost = [[0x61], [0x62]] := by
  obtain ⟨f', hload, hlookup⟩ := config_lookup reopened_isIni ⟨fun _ => none⟩
  exact ⟨f', hload, (hlookup kDb kHost).1.trans (by decide)⟩

end Zutils.Config
