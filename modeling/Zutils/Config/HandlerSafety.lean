import Zutils.Config.ConfigEvents

/-!
# When the handler of configurations is safe

`current_it_` and `current_element_` are never reset. An item that is not in a section, also because the root has
started again, and a text behind an `Item` without a name, use an entry that may not be there. `SafeAt` says from what
the handler was told before which events are safe, and `handler_safe_iff` that a document goes through if and only if
all of its events are.
-/

namespace Zutils.Config

open Zutils.Xml Zutils.Lib

namespace ConfigEvent

/-- What ends the section before. -/
def leavesSection : ConfigEvent → Bool
  | ini | sect _ => true
  | item _ | rejected _ | text _ => false

/-- An `Item` without a name. -/
def bareItem : ConfigEvent := rejected ⟨kConfigItemElement, kConfigItemElement_nul_free⟩

/-- The start of an element, accepted or not. -/
def startsElement : ConfigEvent → Bool
  | ini | sect _ | item _ | rejected _ => true
  | text _ => false

end ConfigEvent

/-- The section with the name has started, and neither another section nor the root since then. -/
def InSection (name : CString) : List ConfigEvent → Prop :=
  Since (fun _ e => e = .sect name) fun e => e.leavesSection = false

/-- The entry of the name has items: of the map before, or since the root has started. -/
def HasItem (m : SectionMap) (name : CString) (before : List ConfigEvent) : Prop :=
  ((∃ kv list, m name.bytes = some (kv :: list)) ∧ .ini ∉ before) ∨
    Since (fun a e => (∃ key, e = .item key) ∧ InSection name a) (fun e => e ≠ .ini) before

/-- The element that has started last. -/
def LastElement (e : ConfigEvent) : List ConfigEvent → Prop :=
  Since (fun _ x => x = e) fun x => x.startsElement = false

/-- **Safe events**: an item is in a section, and a text behind an item without a name is in one with items. -/
def SafeAt (m : SectionMap) (before : List ConfigEvent) : ConfigEvent → Prop
  | .item _ => ∃ name, InSection name before
  | .text _ => LastElement .bareItem before → ∃ name, InSection name before ∧ HasItem m name before
  | .ini | .sect _ | .rejected _ => True

/-! ### The state behind some events -/

section Follows

variable {m : SectionMap} {before : List ConfigEvent} {h h' : ConfigFileXmlHandler} {e : ConfigEvent} {name : CString}

lemma inSection_concat : InSection name (before ++ [e]) ↔
    e = .sect name ∨ InSection name before ∧ e.leavesSection = false := since_concat

lemma hasItem_concat : HasItem m name (before ++ [e]) ↔
    e ≠ .ini ∧ (HasItem m name before ∨ (∃ key, e = .item key) ∧ InSection name before) := by
  rw [HasItem, HasItem, since_concat]
  by_cases hin : InSection name before <;> cases e <;> simp [hin]

lemma lastElement_concat {x : ConfigEvent} : LastElement x (before ++ [e]) ↔
    e = x ∨ LastElement x before ∧ e.startsElement = false := since_concat

/-- The state of the handler says what it was told: the section it is in, the sections with items, and whether the last
element was an item. -/
structure Follows (m : SectionMap) (before : List ConfigEvent) (h : ConfigFileXmlHandler) : Prop where
  current : ∀ it, h.currentIt = some it ∧ (h.configMap it).isSome ↔ ∃ name, it = name.bytes ∧ InSection name before
  items : ∀ name : CString, (∃ kv list, h.configMap name.bytes = some (kv :: list)) ↔ HasItem m name before
  element : h.currentElement = kConfigItemElement ↔
    LastElement .bareItem before ∨ ∃ key, LastElement (.item key) before
  inItem : ∀ key, LastElement (.item key) before → ∃ name, InSection name before ∧ HasItem m name before

lemma follows_new (m : SectionMap) : Follows m [] (.new m) where
  current it := by simp [ConfigFileXmlHandler.new, InSection]
  items name := by simp [ConfigFileXmlHandler.new, HasItem]
  element := by
    have hne : ([] : List UInt8) ≠ kConfigItemElement := by decide
    simpa [ConfigFileXmlHandler.new, LastElement] using hne
  inItem key hkey := (since_nil hkey).elim

lemma Follows.unique (hf : Follows m before h) {name' : CString} (hname : InSection name before)
    (hname' : InSection name' before) : name = name' := by
  have h₁ := ((hf.current name.bytes).2 ⟨name, rfl, hname⟩).1
  have h₂ := ((hf.current name'.bytes).2 ⟨name', rfl, hname'⟩).1
  exact CString.ext (Option.some.inj (h₁.symm.trans h₂))

/-- `current_it_` may be used when a section is open. -/
lemma Follows.list_of_inSection (hf : Follows m before h) (hname : InSection name before) :
    ∃ list, h.currentIt = some name.bytes ∧ h.configMap name.bytes = some list := by
  obtain ⟨hit, hsome⟩ := (hf.current name.bytes).2 ⟨name, rfl, hname⟩
  obtain ⟨list, hlist⟩ := Option.isSome_iff_exists.1 hsome
  exact ⟨list, hit, hlist⟩

lemma modify_eq_ok {f : KeyValuePairList → Except HandlerFault KeyValuePairList} :
    h.modify f = .ok h' ↔ ∃ it list list', h.currentIt = some it ∧ h.configMap it = some list ∧ f list = .ok list' ∧
      h' = { h with configMap := h.configMap.set it list' } := by
  rw [ConfigFileXmlHandler.modify]
  cases hit : h.currentIt with
  | none => simp
  | some it =>
    cases hlist : h.configMap it with
    | none => simp [hlist]
    | some list =>
      simp only [bind_eq_ok, Option.some.injEq, exists_and_left, exists_eq_left', hlist]
      constructor
      · rintro ⟨list', hf, hh⟩
        exact ⟨list', hf, by cases hh; rfl⟩
      · rintro ⟨list', hf, rfl⟩
        exact ⟨list', hf, rfl⟩

lemma setLast_eq_ok {value : List UInt8} {list : KeyValuePairList} :
    (∃ list', ConfigFileXmlHandler.setLast value list = .ok list') ↔ ∃ kv rest, list = kv :: rest := by
  rw [ConfigFileXmlHandler.setLast]
  cases list with
  | nil => simp
  | cons kv rest => simp [List.getLast?_cons]

lemma setLast_ne_nil {value : List UInt8} {list list' : KeyValuePairList}
    (hset : ConfigFileXmlHandler.setLast value list = .ok list') : list' ≠ [] := by
  obtain ⟨kv, rest, rfl⟩ := setLast_eq_ok.1 ⟨list', hset⟩
  rw [ConfigFileXmlHandler.setLast, List.getLast?_cons, Except.ok.injEq] at hset
  rw [← hset]
  exact List.append_ne_nil_of_right_ne_nil _ (List.cons_ne_nil _ _)

/-- An event is safe if and only if the handler does not use what is not there. -/
lemma Follows.safeAt_iff (hf : Follows m before h) (e : ConfigEvent) :
    SafeAt m before e ↔ ∃ h', ConfigEvent.run h e = .ok h' := by
  cases e with
  | ini | sect name | rejected element => exact iff_of_true trivial ⟨_, rfl⟩
  | item key =>
    simp only [SafeAt, ConfigEvent.run, modify_eq_ok]
    constructor
    · rintro ⟨name, hname⟩
      obtain ⟨list, hit, hlist⟩ := hf.list_of_inSection hname
      exact ⟨_, name.bytes, list, _, hit, hlist, rfl, rfl⟩
    · rintro ⟨h', it, list, list', hit, hlist, -⟩
      obtain ⟨name, -, hname⟩ := (hf.current it).1 ⟨hit, by rw [hlist]; rfl⟩
      exact ⟨name, hname⟩
  | text value =>
    -- a text behind an item with a name is safe because the item was
    have hopen : (∃ name, InSection name before ∧ HasItem m name before) ↔
        ∃ h', h.modify (ConfigFileXmlHandler.setLast (trimWhitespaceASCII value.bytes)) = .ok h' := by
      simp only [modify_eq_ok]
      constructor
      · rintro ⟨name, hname, hitem⟩
        obtain ⟨list, hit, hlist⟩ := hf.list_of_inSection hname
        obtain ⟨kv, rest, hcons⟩ := (hf.items name).2 hitem
        obtain ⟨list', hset⟩ := setLast_eq_ok.2 ⟨kv, rest, Option.some.inj (hlist.symm.trans hcons)⟩
        exact ⟨_, name.bytes, list, list', hit, hlist, hset, rfl⟩
      · rintro ⟨h', it, list, list', hit, hlist, hset, -⟩
        obtain ⟨name, rfl, hname⟩ := (hf.current it).1 ⟨hit, by rw [hlist]; rfl⟩
        obtain ⟨kv, rest, rfl⟩ := setLast_eq_ok.1 ⟨list', hset⟩
        exact ⟨name, hname, (hf.items name).1 ⟨kv, rest, hlist⟩⟩
    simp only [SafeAt, ConfigEvent.run]
    by_cases hitem : h.currentElement = kConfigItemElement
    · rw [if_pos hitem, ← hopen]
      rcases hf.element.1 hitem with hbare | ⟨key, hkey⟩
      · simp [hbare]
      · exact iff_of_true (fun _ => hf.inItem key hkey) (hf.inItem key hkey)
    · rw [if_neg hitem]
      exact iff_of_true (fun hbare => (hitem (hf.element.2 (.inl hbare))).elim) ⟨h, rfl⟩

lemma filled_set (m : SectionMap) (it : List UInt8) (list : KeyValuePairList) (name : List UInt8) :
    (∃ kv rest, m.set it list name = some (kv :: rest)) ↔
      if name = it then list ≠ [] else ∃ kv rest, m name = some (kv :: rest) := by
  by_cases hname : name = it
  · rw [hname, SectionMap.set_self, if_pos rfl]
    cases list <;> simp
  · rw [SectionMap.set, if_neg hname, if_neg hname]

lemma isSome_set (m : SectionMap) (it : List UInt8) (list : KeyValuePairList) (name : List UInt8) :
    (m.set it list name).isSome ↔ name = it ∨ (m name).isSome := by
  by_cases hname : name = it
  · rw [hname, SectionMap.set_self]
    simp
  · rw [SectionMap.set, if_neg hname]
    simp [hname]

lemma Follows.rejected (hf : Follows m before h) (element : CString) :
    Follows m (before ++ [.rejected element]) { h with currentElement := element.bytes } where
  current it := by simpa [inSection_concat, ConfigEvent.leavesSection] using hf.current it
  items name := by simpa [hasItem_concat] using hf.items name
  element := by simp [lastElement_concat, ConfigEvent.startsElement, ConfigEvent.bareItem, CString.ext_iff]
  inItem key hkey := by simp [lastElement_concat, ConfigEvent.startsElement] at hkey

lemma Follows.ini (h : ConfigFileXmlHandler) :
    Follows m (before ++ [.ini]) ⟨fun _ => none, h.currentIt, kConfigXMLIniElement⟩ where
  current it := by simp [inSection_concat, ConfigEvent.leavesSection]
  items name := by simp [hasItem_concat]
  element := by
    have hne : kConfigXMLIniElement ≠ kConfigItemElement := by decide
    simp [lastElement_concat, ConfigEvent.startsElement, ConfigEvent.bareItem, hne]
  inItem key hkey := by simp [lastElement_concat, ConfigEvent.startsElement] at hkey

lemma Follows.sect (hf : Follows m before h) (name : CString) :
    Follows m (before ++ [.sect name]) ⟨h.configMap.set name.bytes ((h.configMap name.bytes).getD []), some name.bytes,
      kConfigSectionElement⟩ where
  current it := by
    simp only [Option.some.injEq, isSome_set, inSection_concat, ConfigEvent.sect.injEq, ConfigEvent.leavesSection,
      Bool.true_eq_false, and_false, or_false]
    constructor
    · rintro ⟨rfl, -⟩
      exact ⟨name, rfl, rfl⟩
    · rintro ⟨name', rfl, rfl⟩
      exact ⟨rfl, .inl rfl⟩
  items name' := by
    have hlist : (∃ kv list, h.configMap.set name.bytes ((h.configMap name.bytes).getD []) name'.bytes =
        some (kv :: list)) ↔ ∃ kv list, h.configMap name'.bytes = some (kv :: list) := by
      rw [filled_set]
      split
      · rename_i heq
        rw [heq]
        cases h.configMap name.bytes with
        | none => simp
        | some list => cases list <;> simp
      · rfl
    simpa [hlist, hasItem_concat] using hf.items name'
  element := by
    have hne : kConfigSectionElement ≠ kConfigItemElement := by decide
    simp [lastElement_concat, ConfigEvent.startsElement, ConfigEvent.bareItem, hne]
  inItem key hkey := by simp [lastElement_concat, ConfigEvent.startsElement] at hkey

/-- The entry of the section that is open gets another list with items. -/
lemma Follows.set_current (hf : Follows m before h) {it : List UInt8} {list list' : KeyValuePairList}
    (hit : h.currentIt = some it) (hlist : h.configMap it = some list) (hne : list' ≠ []) :
    ∃ name, it = name.bytes ∧ InSection name before ∧
      (∀ x, h.currentIt = some x ∧ (h.configMap.set it list' x).isSome ↔ ∃ name, x = name.bytes ∧ InSection name before) ∧
      ∀ name : CString, (∃ kv rest, h.configMap.set it list' name.bytes = some (kv :: rest)) ↔
        HasItem m name before ∨ InSection name before := by
  obtain ⟨name, rfl, hname⟩ := (hf.current it).1 ⟨hit, by rw [hlist]; rfl⟩
  refine ⟨name, rfl, hname, fun x => ?_, fun name' => ?_⟩
  · rw [← hf.current x, isSome_set, hit]
    refine and_congr_right fun hx => ?_
    obtain rfl := Option.some.inj hx
    simp [hlist]
  · rw [filled_set, ← hf.items name']
    by_cases hsame : name'.bytes = name.bytes
    · obtain rfl : name' = name := CString.ext hsame
      simp [hne, hname]
    · have hnot : ¬ InSection name' before := fun hname' => hsame (by rw [hf.unique hname hname'])
      simp [hsame, hnot]

lemma Follows.item (hf : Follows m before h) {key : CString} (hrun : ConfigEvent.run h (.item key) = .ok h') :
    Follows m (before ++ [.item key]) h' := by
  obtain ⟨it, list, list', hit, hlist, happend, rfl⟩ := modify_eq_ok.1 hrun
  cases happend
  obtain ⟨name, rfl, hname, hcurrent, hitems⟩ := hf.set_current hit hlist (List.append_ne_nil_of_right_ne_nil list
    (List.cons_ne_nil (key.bytes, []) []))
  exact
    { current := fun x => by simpa [inSection_concat, ConfigEvent.leavesSection] using hcurrent x
      items := fun name' => by simpa [hasItem_concat] using hitems name'
      element := by simp [lastElement_concat, ConfigEvent.startsElement]
      inItem := fun _ _ => ⟨name, by simp [inSection_concat, ConfigEvent.leavesSection, hname],
        by simp [hasItem_concat, hname]⟩ }

lemma lastElement_text {x : ConfigEvent} (hx : x.startsElement = true) (value : CString) :
    LastElement x (before ++ [.text value]) ↔ LastElement x before := by
  rw [lastElement_concat]
  refine ⟨fun hlast => hlast.resolve_left ?_ |>.1, fun hlast => .inr ⟨hlast, rfl⟩⟩
  rintro rfl
  cases hx

lemma Follows.element_text (hf : Follows m before h) (value : CString) : h.currentElement = kConfigItemElement ↔
    LastElement .bareItem (before ++ [.text value]) ∨ ∃ key, LastElement (.item key) (before ++ [.text value]) := by
  rw [lastElement_text rfl, hf.element]
  simp only [lastElement_text (x := .item _) rfl]

lemma Follows.text (hf : Follows m before h) {value : CString} (hrun : ConfigEvent.run h (.text value) = .ok h') :
    Follows m (before ++ [.text value]) h' := by
  by_cases hitem : h.currentElement = kConfigItemElement
  · rw [ConfigEvent.run, if_pos hitem] at hrun
    obtain ⟨it, list, list', hit, hlist, hset, rfl⟩ := modify_eq_ok.1 hrun
    obtain ⟨kv, rest, rfl⟩ := setLast_eq_ok.1 ⟨list', hset⟩
    obtain ⟨name, rfl, hname, hcurrent, hitems⟩ := hf.set_current hit hlist (setLast_ne_nil hset)
    have hfilled : HasItem m name before := (hf.items name).1 ⟨kv, rest, hlist⟩
    exact
      { current := fun x => by simpa [inSection_concat, ConfigEvent.leavesSection] using hcurrent x
        items := fun name' => by
          have hsame : HasItem m name' before ∨ InSection name' before ↔ HasItem m name' before :=
            or_iff_left_of_imp fun hname' => hf.unique hname hname' ▸ hfilled
          simpa [hasItem_concat, hsame] using hitems name'
        element := hf.element_text value
        inItem := fun _ _ => ⟨name, by simp [inSection_concat, ConfigEvent.leavesSection, hname],
          by simp [hasItem_concat, hfilled]⟩ }
  · rw [ConfigEvent.run, if_neg hitem] at hrun
    cases hrun
    exact
      { current := fun x => by simpa [inSection_concat, ConfigEvent.leavesSection] using hf.current x
        items := fun name' => by simpa [hasItem_concat] using hf.items name'
        element := hf.element_text value
        inItem := fun key hkey => by
          simpa [inSection_concat, hasItem_concat, ConfigEvent.leavesSection] using
            hf.inItem key ((lastElement_text rfl value).1 hkey) }

/-- What an event changes, the history tells. -/
lemma Follows.step (hf : Follows m before h) (hrun : ConfigEvent.run h e = .ok h') : Follows m (before ++ [e]) h' := by
  cases e with
  | ini =>
    cases hrun
    exact Follows.ini h
  | sect name =>
    cases hrun
    exact hf.sect name
  | rejected element =>
    cases hrun
    exact hf.rejected element
  | item key => exact hf.item hrun
  | text value => exact hf.text hrun

end Follows

lemma processNode_safe_iff (m : SectionMap) (root : XmlNode) :
    (∃ r, processNode configHandler root (.new m) = .ok r) ↔ SafeAll (SafeAt m) (visited root) := by
  have hsafe : ∀ before h e, Follows m before h → (SafeAt m before e ↔ ∃ h', ConfigEvent.run h e = .ok h') :=
    fun _ _ e hf => hf.safeAt_iff e
  have hstep : ∀ before h e h', Follows m before h → ConfigEvent.run h e = .ok h' → Follows m (before ++ [e]) h' :=
    fun _ _ _ _ hf hrun => hf.step hrun
  rw [← (foldlM_ok_iff (follows_new m) hsafe hstep (visited root)).2, ← processNode_events root]
  cases processNode configHandler root (.new m) with
  | error e => simp [Except.map]
  | ok r => exact iff_of_true ⟨r, rfl⟩ ⟨r.2, rfl⟩

/-- **The handler is safe on a document if and only if each item is in a section, and each text behind an item without a
name is in one with items**, whatever map there was before. -/
theorem handler_safe_iff (m : SectionMap) (root : XmlNode) :
    (∃ r, parseXMLData configHandler (some (some root)) (.new m) = .ok r) ↔ SafeAll (SafeAt m) (visited root) :=
  processNode_safe_iff m root

/-- `<XMLIni><Item name="host"/></XMLIni>`. -/
def looseItem : XmlNode :=
  .element ⟨kConfigXMLIniElement, kConfigXMLIniElement_nul_free⟩ []
    [.element ⟨kConfigItemElement, kConfigItemElement_nul_free⟩ [(kConfigNameAttribute, kHost)] []]

/-- An item that is in no section. -/
theorem handler_unsafe_looseItem :
    ¬ ∀ m root, ∃ r, parseXMLData configHandler (some (some root)) (.new m) = .ok r := by
  intro hsafe
  obtain ⟨r, hr⟩ := hsafe (fun _ => none) looseItem
  have hfault : parseXMLData configHandler (some (some looseItem)) (.new fun _ => none) = .error .noSuchElement := rfl
  rw [hfault] at hr
  cases hr

end Zutils.Config
