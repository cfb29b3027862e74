import Zutils.Config.ConfigEvents

/-!
# Documents with text anywhere

Texts and comments may stand between the elements of a document, and an item may have several texts. `Text` gives each
text to the element that has started last, open or not, and replaces the text before. So the value of an item is the
last text in front of the next element (`load_mixed`). It comes from inside the item if and only if no text behind the
item says anything else, and where there is none, if no text but the last one says anything (`values_inside_iff`).
-/

namespace Zutils.Config

open Zutils.Xml Zutils.Lib

/-- The name and the texts of an item. -/
abbrev MixedItem := CString × List CString

/-- The name of a section, with its texts and items. -/
abbrev MixedSection := CString × List (CString ⊕ MixedItem)

/-- An `Item` element with a name and texts. -/
inductive IsMixedItem : XmlNode → MixedItem → Prop
  | mk {value name : CString} {attributes : List (CString × CString)} {children : List XmlNode} {texts : List CString} :
      value.bytes = kConfigItemElement → XMLAttributes.ofList attributes kConfigNameAttribute = some name →
      children.filter XmlNode.isContent = texts.map XmlNode.text →
      IsMixedItem (.element value attributes children) (name, texts)

/-- A text, or a node of another kind. -/
inductive IsTextOr {β : Type} (Is : XmlNode → β → Prop) : XmlNode → CString ⊕ β → Prop
  | text (value : CString) : IsTextOr Is (.text value) (.inl value)
  | node {n : XmlNode} {b : β} : Is n b → IsTextOr Is n (.inr b)

/-- A `Section` element with a name, texts and items. -/
inductive IsMixedSection : XmlNode → MixedSection → Prop
  | mk {value name : CString} {attributes : List (CString × CString)} {children : List XmlNode}
      {content : List (CString ⊕ MixedItem)} :
      value.bytes = kConfigSectionElement → XMLAttributes.ofList attributes kConfigNameAttribute = some name →
      List.Forall₂ (IsTextOr IsMixedItem) (children.filter XmlNode.isContent) content →
      IsMixedSection (.element value attributes children) (name, content)

/-- An `XMLIni` element with texts and sections. -/
inductive IsMixedIni : XmlNode → List (CString ⊕ MixedSection) → Prop
  | mk {value : CString} {attributes : List (CString × CString)} {children : List XmlNode}
      {content : List (CString ⊕ MixedSection)} : value.bytes = kConfigXMLIniElement →
      List.Forall₂ (IsTextOr IsMixedSection) (children.filter XmlNode.isContent) content →
      IsMixedIni (.element value attributes children) content

/-! ### Values from inside -/

/-- The sections with their items, without the texts elsewhere. -/
def sectionsOf (content : List (CString ⊕ MixedSection)) : List (CString × List MixedItem) :=
  (content.filterMap Sum.getRight?).map fun sect => (sect.1, sect.2.filterMap Sum.getRight?)

/-- The trimmed concatenation of the texts of an item. -/
def insideValue (texts : List CString) : List UInt8 := asciiTrimmed (texts.flatMap CString.bytes)

/-- An entry with the values from inside the items of all sections with the name. -/
def insideEntry (sections : List (CString × List MixedItem)) (name : CString) : Option KeyValuePairList :=
  if ∃ sect ∈ sections, sect.1 = name then
    some (((sections.filter fun sect => sect.1 = name).flatMap Prod.snd).map fun item =>
      (item.1.bytes, insideValue item.2))
  else none

/-- **Values come from inside the items**: after loading, each entry has the items of its sections with the trimmed
concatenation of their own texts. -/
def ValuesInside (f : ConfigFile) (root : XmlNode) (content : List (CString ⊕ MixedSection)) : Prop :=
  ∃ f', f.load (some (some root)) = .ok (true, f') ∧
    ∀ name : CString, f'.configMap name.bytes = insideEntry (sectionsOf content) name

/-! ### Values as they are heard -/

/-- The texts in front of the next element, where `after` comes behind the end. -/
def heard {β : Type} (after : List CString) : List (CString ⊕ β) → List CString
  | [] => after
  | .inl value :: rest => value :: heard after rest
  | .inr _ :: _ => []

/-- The elements with the texts behind each in front of the next. -/
def placed {β : Type} (after : List CString) : List (CString ⊕ β) → List (β × List CString)
  | [] => []
  | .inl _ :: rest => placed after rest
  | .inr b :: rest => (b, heard after rest) :: placed after rest

/-- An item with the texts behind it. -/
abbrev PlacedItem := MixedItem × List CString

/-- The sections with their items. The texts behind a section are also behind its last item. -/
def placedSections (content : List (CString ⊕ MixedSection)) : List (CString × List PlacedItem) :=
  (placed [] content).map fun sect => (sect.1.1, placed sect.2 sect.1.2)

/-- The item with the last text in front of the next element. -/
def PlacedItem.heardItem (item : PlacedItem) : IniItem := (item.1.1, (item.1.2 ++ item.2).getLast?)

/-- A text of white space. -/
def IsBlank (text : CString) : Prop := ∀ c ∈ text.bytes, c ∈ kWhitespaceASCII

/-- The text of an item is kept: the last text behind it, if there is one, is the same up to white space at its ends,
and else all its own texts but the last are blank. -/
structure PlacedItem.TextKept (item : PlacedItem) : Prop where
  repeated : ∀ text ∈ item.2.getLast?, asciiTrimmed text.bytes = insideValue item.1.2
  blank : item.2 = [] → ∀ text ∈ item.1.2.dropLast, IsBlank text

lemma PlacedItem.textKept_iff (item : PlacedItem) :
    valueOf item.heardItem = insideValue item.1.2 ↔ item.TextKept := by
  obtain ⟨⟨name, own⟩, behind⟩ := item
  rcases List.eq_nil_or_concat behind with rfl | ⟨front, last, rfl⟩
  · rcases List.eq_nil_or_concat own with rfl | ⟨front, last, rfl⟩
    · exact ⟨fun _ => ⟨by simp, by simp⟩, fun _ => rfl⟩
    · have hblank : insideValue (front ++ [last]) = asciiTrimmed last.bytes ↔ ∀ text ∈ front, IsBlank text := by
        rw [insideValue, List.flatMap_append, List.flatMap_singleton, asciiTrimmed_append_eq_iff]
        simp only [List.mem_flatMap, IsBlank]
        grind
      rw [List.concat_eq_append, heardItem, valueOf, List.append_nil, List.getLast?_concat, eq_comm]
      exact hblank.trans ⟨fun h => ⟨by simp, by simpa using h⟩, fun h => by simpa using h.blank rfl⟩
  · rw [List.concat_eq_append, heardItem, valueOf]
    dsimp only
    rw [← List.append_assoc, List.getLast?_concat]
    exact ⟨fun h => ⟨by simpa using h, by simp⟩, fun h => h.repeated last (by simp)⟩

/-- The texts of all items are kept. -/
def TextsKept (content : List (CString ⊕ MixedSection)) : Prop :=
  ∀ sect ∈ placedSections content, ∀ item ∈ sect.2, PlacedItem.TextKept item

/-! ### What is visited -/

section Visited

/-- A text, or what is visited of something else. -/
def contentEvents {β : Type} (events : β → List ConfigEvent) : CString ⊕ β → List ConfigEvent
  | .inl value => [.text value]
  | .inr b => events b

def itemEvents (item : MixedItem) : List ConfigEvent := .item item.1 :: item.2.map .text

def sectionEvents (sect : MixedSection) : List ConfigEvent :=
  .sect sect.1 :: sect.2.flatMap (contentEvents itemEvents)

lemma visitedChildren_content (children : List XmlNode) :
    visitedChildren children = visitedChildren (children.filter XmlNode.isContent) := by
  induction children with
  | nil => rfl
  | cons c cs ih =>
    cases c with
    | other => exact ih
    | element value attributes children => exact congrArg (visited _ ++ ·) ih
    | text value => exact congrArg (visited _ ++ ·) ih

lemma visitedChildren_texts (texts : List CString) :
    visitedChildren (texts.map XmlNode.text) = texts.map ConfigEvent.text := by
  induction texts with
  | nil => rfl
  | cons value texts ih => exact congrArg (ConfigEvent.text value :: ·) ih

lemma visitedChildren_mixed {β : Type} {Is : XmlNode → β → Prop} {events : β → List ConfigEvent}
    {children : List XmlNode} {content : List (CString ⊕ β)} (h : List.Forall₂ (IsTextOr Is) children content)
    (hvisited : ∀ n b, Is n b → visited n = events b) :
    visitedChildren children = content.flatMap (contentEvents events) := by
  induction h with
  | nil => rfl
  | cons hnode _ ih =>
    rw [visitedChildren, List.flatMap_cons, ih]
    cases hnode with
    | text value => rfl
    | node hn =>
      rw [hvisited _ _ hn]
      rfl

lemma visited_element {value : CString} {attributes : List (CString × CString)} {children : List XmlNode}
    {e : ConfigEvent} (hstart : ConfigEvent.start value attributes = e) (hentered : e.entered = true) :
    visited (.element value attributes children) = e :: visitedChildren (children.filter XmlNode.isContent) := by
  rw [visited, hstart, if_pos hentered, visitedChildren_content]

lemma visited_item {node : XmlNode} {item : MixedItem} (h : IsMixedItem node item) :
    visited node = itemEvents item := by
  obtain ⟨hvalue, hname, hchildren⟩ := h
  rename_i value name attributes children texts
  have hstart : ConfigEvent.start value attributes = .item name := by
    rw [ConfigEvent.start, hvalue, if_neg (by decide), if_neg (by decide), if_pos rfl, hname]
    rfl
  rw [visited_element hstart rfl, hchildren, visitedChildren_texts]
  rfl

lemma visited_section {node : XmlNode} {sect : MixedSection} (h : IsMixedSection node sect) :
    visited node = sectionEvents sect := by
  obtain ⟨hvalue, hname, hchildren⟩ := h
  rename_i value name attributes children content
  have hstart : ConfigEvent.start value attributes = .sect name := by
    rw [ConfigEvent.start, hvalue, if_neg (by decide), if_pos rfl, hname]
    rfl
  rw [visited_element hstart rfl, visitedChildren_mixed hchildren fun _ _ => visited_item]
  rfl

/-- What is visited is told element by element, each with the texts behind it. -/
lemma flatMap_contentEvents {β : Type} (events : β → List ConfigEvent) (after : List CString)
    (content : List (CString ⊕ β)) :
    content.flatMap (contentEvents events) ++ after.map .text = (heard after content).map .text ++
      (placed after content).flatMap fun b => events b.1 ++ b.2.map .text := by
  induction content with
  | nil => simp [heard, placed]
  | cons c rest ih =>
    rw [List.flatMap_cons, List.append_assoc, ih]
    cases c <;> simp [heard, placed, contentEvents]

lemma map_fst_placed {β : Type} (after : List CString) (content : List (CString ⊕ β)) :
    (placed after content).map Prod.fst = content.filterMap Sum.getRight? := by
  induction content with
  | nil => rfl
  | cons c rest ih => cases c <;> simp [placed, ih, List.filterMap_cons]

end Visited

/-! ### Loading -/

section Load

variable {m : SectionMap} {it element key v : List UInt8} {list : KeyValuePairList} {h : ConfigFileXmlHandler}

lemma run_texts_ignored (helement : h.currentElement ≠ kConfigItemElement) (texts : List CString) :
    (texts.map ConfigEvent.text).foldlM ConfigEvent.run h = .ok h := by
  induction texts with
  | nil => rfl
  | cons value texts ih =>
    rw [List.map_cons, List.foldlM_cons, ConfigEvent.run, if_neg helement]
    exact ih

lemma set_of_eq (hit : m it = some list) : m.set it list = m := by
  funext x
  by_cases hx : x = it
  · rw [hx, SectionMap.set_self, hit]
  · exact if_neg hx

lemma run_texts (hit : m it = some (list ++ [(key, v)])) (texts : List CString) :
    (texts.map ConfigEvent.text).foldlM ConfigEvent.run ⟨m, some it, kConfigItemElement⟩ =
      .ok ⟨m.set it (list ++ [(key, (texts.getLast?.map fun value => asciiTrimmed value.bytes).getD v)]), some it,
        kConfigItemElement⟩ := by
  induction texts generalizing m v with
  | nil =>
    rw [List.getLast?_nil, Option.map_none, Option.getD_none, set_of_eq hit]
    rfl
  | cons value texts ih =>
    rw [List.map_cons, List.foldlM_cons, ← text_event, text_eq hit]
    show List.foldlM ConfigEvent.run ⟨_, _, _⟩ _ = _
    rw [ih (m.set_self _ _), SectionMap.set_set, List.getLast?_cons]
    cases texts.getLast? <;> rfl

lemma run_placed (hit : m it = some list) (item : PlacedItem) :
    (itemEvents item.1 ++ item.2.map ConfigEvent.text).foldlM ConfigEvent.run ⟨m, some it, element⟩ =
      .ok ⟨m.set it (list ++ [keyValue item.heardItem]), some it, kConfigItemElement⟩ := by
  have hitem : ConfigEvent.run ⟨m, some it, element⟩ (.item item.1.1) =
      .ok ⟨m.set it (list ++ [(item.1.1.bytes, [])]), some it, kConfigItemElement⟩ := modify_eq rfl hit
  rw [itemEvents, List.cons_append, ← List.map_append, List.foldlM_cons, hitem, ok_bind, run_texts (m.set_self _ _),
    SectionMap.set_set, keyValue, valueOf, PlacedItem.heardItem]
  cases (item.1.2 ++ item.2).getLast? <;> rfl

lemma run_placedItems (hit : m it = some list) (items : List PlacedItem) (element : List UInt8) :
    ∃ element', (items.flatMap fun item => itemEvents item.1 ++ item.2.map ConfigEvent.text).foldlM ConfigEvent.run
      ⟨m, some it, element⟩ =
        .ok ⟨m.set it (list ++ (items.map PlacedItem.heardItem).map keyValue), some it, element'⟩ := by
  induction items generalizing m list element with
  | nil =>
    refine ⟨element, ?_⟩
    rw [List.map_nil, List.map_nil, List.append_nil, set_of_eq hit]
    rfl
  | cons item items ih =>
    obtain ⟨element', ih⟩ := ih (m.set_self it (list ++ [keyValue item.heardItem])) kConfigItemElement
    refine ⟨element', ?_⟩
    rw [List.flatMap_cons, List.foldlM_append, run_placed hit, ok_bind, ih, SectionMap.set_set, List.append_assoc]
    rfl

lemma run_section (h : ConfigFileXmlHandler) (sect : MixedSection) (after : List CString) :
    ∃ h', (sectionEvents sect ++ after.map ConfigEvent.text).foldlM ConfigEvent.run h = .ok h' ∧
      h'.configMap = addSection h.configMap (sect.1, (placed after sect.2).map PlacedItem.heardItem) := by
  obtain ⟨element, hitems⟩ := run_placedItems (h.configMap.set_self sect.1.bytes ((h.configMap sect.1.bytes).getD []))
    (placed after sect.2) kConfigSectionElement
  have hne : kConfigSectionElement ≠ kConfigItemElement := by decide
  refine ⟨⟨addSection h.configMap (sect.1, (placed after sect.2).map PlacedItem.heardItem), some sect.1.bytes, element⟩,
    ?_, rfl⟩
  rw [sectionEvents, List.cons_append, List.foldlM_cons, ConfigEvent.run, ok_bind, flatMap_contentEvents,
    List.foldlM_append, run_texts_ignored hne, ok_bind, hitems, SectionMap.set_set]
  rfl

lemma run_sections (h : ConfigFileXmlHandler) (sections : List (MixedSection × List CString)) :
    ∃ h', (sections.flatMap fun sect => sectionEvents sect.1 ++ sect.2.map ConfigEvent.text).foldlM ConfigEvent.run h =
        .ok h' ∧
      h'.configMap = (sections.map fun sect => (sect.1.1, (placed sect.2 sect.1.2).map PlacedItem.heardItem)).foldl
        addSection h.configMap := by
  induction sections generalizing h with
  | nil => exact ⟨h, rfl, rfl⟩
  | cons sect sections ih =>
    obtain ⟨h₁, hsect, hmap⟩ := run_section h sect.1 sect.2
    obtain ⟨h₂, hrest, hmap'⟩ := ih h₁
    refine ⟨h₂, ?_, by rw [hmap', hmap]; rfl⟩
    rw [List.flatMap_cons, List.foldlM_append, hsect, ok_bind, hrest]

/-- The sections with the items as they are heard. -/
def heardSections (content : List (CString ⊕ MixedSection)) : List IniSection :=
  (placedSections content).map fun sect => (sect.1, sect.2.map PlacedItem.heardItem)

/-- **Loading gives each item the last text in front of the next element.** -/
lemma load_mixed {root : XmlNode} {content : List (CString ⊕ MixedSection)} (hroot : IsMixedIni root content)
    (f : ConfigFile) : ∃ f', f.load (some (some root)) = .ok (true, f') ∧
      f'.configMap = (heardSections content).foldl addSection fun _ => none := by
  obtain ⟨hvalue, hchildren⟩ := hroot
  rename_i value attributes children
  have hevents : visitedChildren children = (heard [] content).map .text ++
      (placed [] content).flatMap fun sect => sectionEvents sect.1 ++ sect.2.map .text := by
    rw [visitedChildren_content, visitedChildren_mixed hchildren fun _ _ => visited_section,
      ← flatMap_contentEvents, List.map_nil, List.append_nil]
  obtain ⟨h', hrun, hmap⟩ := run_sections ⟨fun _ => none, none, kConfigXMLIniElement⟩ (placed [] content)
  refine ⟨⟨h'.configMap⟩, ?_, ?_⟩
  · have hprocess : processNode configHandler (.element value attributes children) (.new f.configMap) =
        .ok (true, h') := by
      have hne : kConfigXMLIniElement ≠ kConfigItemElement := by decide
      rw [processNode, configHandler_elementStart, configHandler_elementEnd, hvalue, elementStart_ini, ok_bind]
      dsimp only
      rw [if_pos rfl, processChildren_events (fun c _ => processNode_events c), hevents, List.foldlM_append,
        run_texts_ignored hne, ok_bind]
      show (List.foldlM ConfigEvent.run ⟨fun _ => none, none, kConfigXMLIniElement⟩ _ >>= _) = _
      rw [hrun, ok_bind, elementEnd_eq (by simp)]
    rw [ConfigFile.load, parseXMLData, hprocess]
    rfl
  · rw [hmap, heardSections, placedSections, List.map_map]
    rfl

end Load

/-! ### The values -/

section Values

variable {content : List (CString ⊕ MixedSection)}

lemma sectionsOf_placed : sectionsOf content = (placedSections content).map fun sect => (sect.1, sect.2.map Prod.fst) := by
  rw [sectionsOf, placedSections, ← map_fst_placed [] content, List.map_map, List.map_map]
  exact List.map_congr_left fun sect _ => congrArg (Prod.mk sect.1.1) (map_fst_placed sect.2 sect.1.2).symm

lemma flatMap_filter_map {β γ : Type} (g : β → γ) (sections : List (CString × List β)) (name : CString) :
    ((sections.map fun sect => (sect.1, sect.2.map g)).filter fun sect => sect.1 = name).flatMap Prod.snd =
      ((sections.filter fun sect => sect.1 = name).flatMap Prod.snd).map g := by
  rw [List.filter_map, List.flatMap_map, List.map_flatMap]
  rfl

lemma exists_map_iff {β γ : Type} (g : β → γ) (sections : List (CString × List β)) (name : CString) :
    (∃ sect ∈ sections.map fun sect => (sect.1, sect.2.map g), sect.1 = name) ↔ ∃ sect ∈ sections, sect.1 = name := by
  simp

/-- **Values come from inside the items if and only if the text of each item is kept**: the last text behind it, in
front of the next element, repeats it, or there is none, and of its own texts only the last is not blank. -/
theorem values_inside_iff {root : XmlNode} (hroot : IsMixedIni root content) (f : ConfigFile) :
    ValuesInside f root content ↔ TextsKept content := by
  obtain ⟨f', hload, hmap⟩ := load_mixed hroot f
  have hheard : ∀ name : CString, f'.configMap name.bytes = if ∃ sect ∈ placedSections content, sect.1 = name then
      some ((((placedSections content).filter fun sect => sect.1 = name).flatMap Prod.snd).map fun item =>
        keyValue (PlacedItem.heardItem item)) else none := fun name => by
    rw [hmap, foldl_addSection]
    simp only [heardSections, exists_map_iff, itemsOf, flatMap_filter_map, List.map_map, Option.getD_none,
      List.nil_append]
    rfl
  have hinside : ∀ name : CString, insideEntry (sectionsOf content) name =
      if ∃ sect ∈ placedSections content, sect.1 = name then
        some ((((placedSections content).filter fun sect => sect.1 = name).flatMap Prod.snd).map fun item =>
          (item.1.1.bytes, insideValue item.1.2)) else none := fun name => by
    rw [insideEntry, sectionsOf_placed]
    simp only [exists_map_iff, flatMap_filter_map, List.map_map]
    rfl
  constructor
  · rintro ⟨f'', hload', hvalues⟩ sect hsect item hitem
    rw [hload, Except.ok.injEq, Prod.mk.injEq] at hload'
    obtain ⟨-, rfl⟩ := hload'
    have hentry := hvalues sect.1
    have hex : ∃ s ∈ placedSections content, s.1 = sect.1 := ⟨sect, hsect, rfl⟩
    rw [hheard, hinside, if_pos hex, if_pos hex, Option.some.injEq, List.map_inj_left] at hentry
    have hmem : item ∈ ((placedSections content).filter fun s => s.1 = sect.1).flatMap Prod.snd :=
      List.mem_flatMap.2 ⟨sect, List.mem_filter.2 ⟨hsect, decide_eq_true rfl⟩, hitem⟩
    exact item.textKept_iff.1 (Prod.mk.inj (hentry item hmem)).2
  · intro hkept
    refine ⟨f', hload, fun name => ?_⟩
    rw [hheard, hinside]
    split
    · refine congrArg some (List.map_congr_left fun item hitem => ?_)
      obtain ⟨sect, hsect, hitem⟩ := List.mem_flatMap.1 hitem
      exact congrArg (Prod.mk _) (item.textKept_iff.2 (hkept sect (List.mem_filter.1 hsect).1 item hitem))
    · rfl

def textA : CString := ⟨[0x61], by decide⟩

def textB : CString := ⟨[0x62], by decide⟩

/-- An `XMLIni` with one section. -/
def iniOf (children : List XmlNode) : XmlNode :=
  .element ⟨kConfigXMLIniElement, kConfigXMLIniElement_nul_free⟩ [] [dbSection children]

lemma iniOf_isMixedIni {children : List XmlNode} {content : List (CString ⊕ MixedItem)}
    (h : List.Forall₂ (IsTextOr IsMixedItem) (children.filter XmlNode.isContent) content) :
    IsMixedIni (iniOf children) [.inr (kDb, content)] :=
  .mk rfl (.cons (.node (.mk rfl rfl h)) .nil)

lemma hostItem_isMixedItem (text : CString) : IsMixedItem (hostItem text) (kHost, [text]) := .mk rfl rfl rfl

/-- A text in front of the item does no harm. -/
theorem values_inside_leading :
    ValuesInside ⟨fun _ => none⟩ (iniOf [.text textB, .other, hostItem textA])
      [.inr (kDb, [.inl textB, .inr (kHost, [textA])])] := by
  refine (values_inside_iff (iniOf_isMixedIni (.cons (.text _) (.cons (.node (hostItem_isMixedItem _)) .nil))) _).2 ?_
  intro sect hsect item hitem
  rw [List.mem_singleton.1 hsect] at hitem
  rw [List.mem_singleton.1 hitem]
  exact ⟨by simp [heard], by simp⟩

/-- The text `b` behind the item in `<Item name="host">a</Item>b` is its value. -/
theorem values_inside_trailing :
    ¬ ∀ f root content, IsMixedIni root content → ValuesInside f root content := by
  intro hall
  have hroot : IsMixedIni (iniOf [hostItem textA, .text textB]) [.inr (kDb, [.inr (kHost, [textA]), .inl textB])] :=
    iniOf_isMixedIni (.cons (.node (hostItem_isMixedItem _)) (.cons (.text _) .nil))
  obtain ⟨f', hload, hmap⟩ := load_mixed hroot ⟨fun _ => none⟩
  obtain ⟨f'', hload', hinside⟩ := hall ⟨fun _ => none⟩ _ _ hroot
  rw [hload, Except.ok.injEq, Prod.mk.injEq] at hload'
  have hentry := hinside kDb
  rw [← hload'.2, hmap] at hentry
  revert hentry
  decide

end Values

end Zutils.Config
