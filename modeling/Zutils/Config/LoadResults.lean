import Zutils.Config.HandlerSafety

/-!
# Documents that the handler of configurations does not accept

`Load` keeps what was built when `ParseXMLData` returns true. It does so for a document with an element that the
handler does not know, or with a text that is not in an item, unless it is the root that is refused
(`errors_reported_iff`).
-/

namespace Zutils.Config

open Zutils.Xml Zutils.Lib

/-- **What is not accepted is not kept**: when the document was not parsed, or a callback has returned false, `Load`
fails and leaves an empty map. -/
def LoadReported (f : ConfigFile) (doc : Option (Option XmlNode)) : Prop :=
  ∀ b f', f.load doc = .ok (b, f') →
    ∀ ok h log, parseXMLData configHandler.logged doc (.new f.configMap, []) = .ok (ok, h, log) →
      doc = none ∨ false ∈ log → b = false ∧ f'.configMap = fun _ => none

/-- What the handler refuses, from what it was told before: an element that it does not know, or without a name, and a
text when the element that started last is not an item. -/
def RefusedAt (before : List ConfigEvent) : ConfigEvent → Prop
  | .rejected _ => True
  | .text _ => ¬ (LastElement .bareItem before ∨ ∃ key, LastElement (.item key) before)
  | .ini | .sect _ | .item _ => False

/-- Something is refused. -/
def Refused (before events : List ConfigEvent) : Prop := ∃ a e b, events = a ++ e :: b ∧ RefusedAt (before ++ a) e

/-- If the root is accepted, and the handler safe, nothing below it is refused. -/
def RefusedAtRoot (m : SectionMap) (doc : Option (Option XmlNode)) : Prop :=
  ∀ root, doc = some (some root) → ∀ e, (visited root).head? = some e → e.entered = true →
    SafeAll (SafeAt m) (visited root) → ¬ Refused [] (visited root)

lemma load_logged {f : ConfigFile} {doc : Option (Option XmlNode)} {ok : Bool} {h : ConfigFileXmlHandler}
    {log : List Bool} (hlogged : parseXMLData configHandler.logged doc (.new f.configMap, []) = .ok (ok, h, log)) :
    f.load doc = .ok (ok, if ok then ⟨h.configMap⟩ else ConfigFile.destroy ⟨h.configMap⟩) := by
  rw [ConfigFile.load, ← parseXMLData_erase, hlogged]
  cases ok <;> rfl

lemma loadReported_iff (f : ConfigFile) (doc : Option (Option XmlNode)) :
    LoadReported f doc ↔ Reported configHandler doc (.new f.configMap) := by
  constructor
  · intro hload ok h log hlogged
    refine ⟨?_, fun hall => parseXMLData_true hlogged hall.1 hall.2⟩
    rintro rfl
    by_contra hrejected
    have hfalse : doc = none ∨ false ∈ log := by
      by_contra hnone
      refine hrejected ⟨fun hdoc => hnone (.inl hdoc), fun b hb => ?_⟩
      cases b with
      | true => rfl
      | false => exact (hnone (.inr hb)).elim
    exact Bool.false_ne_true (hload _ _ (load_logged hlogged) _ _ _ hlogged hfalse).1.symm
  · intro hreported b f' hload ok h log hlogged hrejected
    have hok : ok = false := by
      rw [Bool.eq_false_iff]
      intro htrue
      obtain ⟨hdoc, hall⟩ := (hreported ok h log hlogged).1 htrue
      rcases hrejected with hnone | hfalse
      · exact hdoc hnone
      · exact Bool.false_ne_true (hall _ hfalse)
    rw [load_logged hlogged, hok, Except.ok.injEq, Prod.mk.injEq] at hload
    exact ⟨hload.1.symm, hload.2 ▸ rfl⟩

/-! ### What is refused -/

section Refusals

variable {before es es' : List ConfigEvent} {e : ConfigEvent} {m : SectionMap} {h : ConfigFileXmlHandler}
  {log : List Bool}

lemma refused_nil : ¬ Refused before [] := by
  rintro ⟨a, e, b, heq, -⟩
  simp at heq

lemma refused_append : Refused before (es ++ es') ↔ Refused before es ∨ Refused (before ++ es) es' := by
  constructor
  · rintro ⟨a, e, b, heq, hrefused⟩
    rcases List.append_eq_append_iff.1 heq with ⟨c, rfl, hes'⟩ | ⟨c, rfl, hb⟩
    · exact .inr ⟨c, e, b, hes', by rwa [List.append_assoc]⟩
    · cases c with
      | nil =>
        rw [List.append_nil] at *
        exact .inr ⟨[], e, b, hb.symm, by rwa [List.append_nil]⟩
      | cons e' c =>
        obtain ⟨rfl, rfl⟩ := List.cons.inj hb
        exact .inl ⟨a, e, c, rfl, hrefused⟩
  · rintro (⟨a, e, b, rfl, hrefused⟩ | ⟨a, e, b, rfl, hrefused⟩)
    · exact ⟨a, e, b ++ es', by simp, hrefused⟩
    · exact ⟨es ++ a, e, b, by simp, by rwa [← List.append_assoc]⟩

lemma refused_singleton : Refused before [e] ↔ RefusedAt before e := by
  constructor
  · rintro ⟨a, e', b, heq, hrefused⟩
    obtain ⟨rfl, rfl⟩ : a = [] ∧ e = e' := by
      cases a with
      | nil => exact ⟨rfl, (List.cons.inj heq).1⟩
      | cons c a => simp at heq
    rwa [List.append_nil] at hrefused
  · intro hrefused
    exact ⟨[], e, [], rfl, by rwa [List.append_nil]⟩

lemma refusedAt_start (value : CString) (attributes : List (CString × CString)) :
    RefusedAt before (.start value attributes) ↔ (ConfigEvent.start value attributes).entered = false := by
  cases hstart : ConfigEvent.start value attributes with
  | ini | sect name | item key => simp [RefusedAt, ConfigEvent.entered]
  | rejected element => simp [RefusedAt, ConfigEvent.entered]
  | text text =>
    rw [ConfigEvent.start] at hstart
    split at hstart
    · cases hstart
    · split at hstart
      · cases hname : XMLAttributes.ofList attributes kConfigNameAttribute <;> rw [hname] at hstart <;> cases hstart
      · split at hstart
        · cases hname : XMLAttributes.ofList attributes kConfigNameAttribute <;> rw [hname] at hstart <;> cases hstart
        · cases hstart

/-- A node has a result false in the log if and only if something of it is refused. -/
def NodeRefuses (node : XmlNode) : Prop :=
  ∀ m before h log r, Follows m before h → processNode configHandler.logged node (h, log) = .ok r →
    Follows m (before ++ visited node) r.2.1 ∧ (false ∈ r.2.2 ↔ false ∈ log ∨ Refused before (visited node))

lemma processChildren_refuses {children : List XmlNode} (hnodes : ∀ c ∈ children, NodeRefuses c)
    (hf : Follows m before h) {r : ConfigFileXmlHandler × List Bool}
    (hr : processChildren configHandler.logged children (h, log) = .ok r) :
    Follows m (before ++ visitedChildren children) r.1 ∧
      (false ∈ r.2 ↔ false ∈ log ∨ Refused before (visitedChildren children)) := by
  induction children generalizing before h log with
  | nil =>
    rw [processChildren, Except.ok.injEq] at hr
    subst hr
    rw [visitedChildren, List.append_nil]
    exact ⟨hf, by simp [refused_nil]⟩
  | cons c cs ih =>
    rw [processChildren, bind_eq_ok] at hr
    obtain ⟨r₁, hnode, hrest⟩ := hr
    obtain ⟨hf₁, hlog₁⟩ := hnodes c List.mem_cons_self m before h log r₁ hf hnode
    obtain ⟨hf₂, hlog₂⟩ := ih (fun c' hc' => hnodes c' (List.mem_cons_of_mem c hc')) hf₁ hrest
    rw [visitedChildren, ← List.append_assoc]
    exact ⟨hf₂, by rw [hlog₂, hlog₁, refused_append, or_assoc]⟩

lemma elementStart_logged {value : CString} {attributes : List (CString × CString)} (hf : Follows m before h)
    {started : Bool} {s : ConfigFileXmlHandler × List Bool}
    (hr : note log (configHandler.elementStart value.bytes (.ofList attributes) h) = .ok (started, s)) :
    started = (ConfigEvent.start value attributes).entered ∧ s.2 = log ++ [started] ∧
      Follows m (before ++ [.start value attributes]) s.1 := by
  obtain ⟨hstart, hlog⟩ := note_eq_ok.1 hr
  rw [configHandler_elementStart, elementStart_event] at hstart
  cases hrun : ConfigEvent.run h (.start value attributes) with
  | error e =>
    rw [hrun] at hstart
    cases hstart
  | ok h₁ =>
    rw [hrun] at hstart
    obtain ⟨rfl, rfl⟩ := Prod.mk.inj (Except.ok.inj hstart)
    exact ⟨rfl, hlog, hf.step hrun⟩

lemma processNode_refuses (node : XmlNode) : NodeRefuses node := by
  induction node using XmlNode.induction with
  | element value attributes children ih =>
    intro m before h log r hf hr
    rw [processNode, bind_eq_ok] at hr
    obtain ⟨⟨started, s₁⟩, hstart, hr⟩ := hr
    obtain ⟨hstarted, hlog₁, hf₁⟩ := elementStart_logged hf hstart
    cases started with
    | false =>
      cases hr
      rw [visited, if_neg (by rw [← hstarted]; exact Bool.false_ne_true)]
      refine ⟨hf₁, ?_⟩
      rw [hlog₁, refused_singleton, refusedAt_start, ← hstarted]
      simp
    | true =>
      dsimp only at hr
      rw [if_pos rfl, bind_eq_ok] at hr
      obtain ⟨s₂, hchildren, hend⟩ := hr
      obtain ⟨hf₂, hlog₂⟩ := processChildren_refuses ih hf₁ hchildren
      obtain ⟨hend, hlog⟩ := note_eq_ok.1 hend
      rw [configHandler_elementEnd, elementEnd_entered hstarted.symm] at hend
      obtain ⟨hok, hstate⟩ := Prod.mk.inj (Except.ok.inj hend)
      rw [visited, if_pos hstarted.symm, ← List.singleton_append, ← List.append_assoc, refused_append, refused_singleton,
        refusedAt_start, ← hstarted, ← hstate, hlog, ← hok]
      refine ⟨hf₂, ?_⟩
      rw [List.mem_append, hlog₂, hlog₁]
      simp
  | text value =>
    intro m before h log r hf hr
    obtain ⟨htext, hlog⟩ := note_eq_ok.1 hr
    have hrun : ConfigEvent.run h (.text value) = .ok r.2.1 := by
      rw [← text_event]
      exact congrArg (Except.map Prod.snd) htext
    refine ⟨hf.step hrun, ?_⟩
    have hresult : r.1 = true ↔ h.currentElement = kConfigItemElement := by
      rw [configHandler_text, ConfigFileXmlHandler.text] at htext
      split at htext
      · rename_i hitem
        obtain ⟨h₁, -, hdone⟩ := bind_eq_ok.1 htext
        exact iff_of_true (Prod.mk.inj (Except.ok.inj hdone)).1.symm hitem
      · rename_i hitem
        refine iff_of_false ?_ hitem
        rw [← (Prod.mk.inj (Except.ok.inj htext)).1]
        exact Bool.false_ne_true
    rw [hlog, visited, refused_singleton, RefusedAt, ← hf.element, ← hresult, List.mem_append, List.mem_singleton]
    cases r.1 <;> simp
  | other =>
    intro m before h log r hf hr
    rw [processNode, Except.ok.injEq] at hr
    subst hr
    rw [visited, List.append_nil]
    exact ⟨hf, by simp [refused_nil]⟩

end Refusals

lemma processNode_entered {value : CString} {attributes : List (CString × CString)} {children : List XmlNode}
    {h : ConfigFileXmlHandler} {ok : Bool} {h' : ConfigFileXmlHandler}
    (hr : processNode configHandler (.element value attributes children) h = .ok (ok, h')) :
    ok = (ConfigEvent.start value attributes).entered := by
  rw [processNode, configHandler_elementStart, elementStart_event, configHandler_elementEnd] at hr
  cases hrun : ConfigEvent.run h (.start value attributes) with
  | error e =>
    rw [hrun] at hr
    cases hr
  | ok h₁ =>
    rw [hrun] at hr
    simp only [Except.map, ok_bind] at hr
    cases hentered : (ConfigEvent.start value attributes).entered with
    | false =>
      rw [hentered, if_neg Bool.false_ne_true] at hr
      exact (Prod.mk.inj (Except.ok.inj hr)).1.symm
    | true =>
      rw [hentered, if_pos rfl, bind_eq_ok] at hr
      obtain ⟨h₂, -, hend⟩ := hr
      rw [elementEnd_entered hentered] at hend
      exact (Prod.mk.inj (Except.ok.inj hend)).1.symm

lemma root_results {m : SectionMap} {value : CString} {attributes : List (CString × CString)}
    {children : List XmlNode} {ok : Bool} {h : ConfigFileXmlHandler} {log : List Bool}
    (hr : processNode configHandler.logged (.element value attributes children) (.new m, []) = .ok (ok, h, log)) :
    ok = (ConfigEvent.start value attributes).entered ∧
      (false ∈ log ↔ Refused [] (visited (.element value attributes children))) := by
  have herase := processNode_erase (h := configHandler) (.element value attributes children) (.new m) []
  rw [hr] at herase
  have hlog := (processNode_refuses (.element value attributes children) m [] (.new m) [] _ (follows_new m) hr).2
  exact ⟨processNode_entered herase.symm, by simpa using hlog⟩

lemma visited_head (value : CString) (attributes : List (CString × CString)) (children : List XmlNode) :
    (visited (.element value attributes children)).head? = some (.start value attributes) := by
  rw [visited]
  split <;> rfl

lemma reported_element_iff (m : SectionMap) (value : CString) (attributes : List (CString × CString))
    (children : List XmlNode) :
    Reported configHandler (some (some (.element value attributes children))) (.new m) ↔
      RefusedAtRoot m (some (some (.element value attributes children))) := by
  constructor
  · rintro hreported _ ⟨⟩ e he hentered hsafe hrefused
    rw [visited_head, Option.some.injEq] at he
    subst he
    obtain ⟨⟨ok, h⟩, hrun⟩ := (processNode_safe_iff m _).2 hsafe
    have herase := processNode_erase (h := configHandler) (.element value attributes children) (.new m) []
    rw [hrun] at herase
    cases hlogged : processNode configHandler.logged (.element value attributes children) (.new m, []) with
    | error e =>
      rw [hlogged] at herase
      cases herase
    | ok r =>
      obtain ⟨ok', h', log⟩ := r
      obtain ⟨hok, hlog⟩ := root_results hlogged
      exact Bool.false_ne_true (((hreported _ _ _ hlogged).1 (hok.trans hentered)).2 false (hlog.2 hrefused))
  · intro hroot ok h log hlogged
    obtain ⟨hok, hlog⟩ := root_results hlogged
    have herase := processNode_erase (h := configHandler) (.element value attributes children) (.new m) []
    rw [show processNode configHandler.logged _ (.new m, []) = _ from hlogged] at herase
    have hsafe := (processNode_safe_iff m _).1 ⟨_, herase.symm⟩
    constructor
    · rintro rfl
      refine ⟨by simp, fun b hb => ?_⟩
      cases b with
      | true => rfl
      | false => exact (hroot _ rfl _ (visited_head _ _ _) hok.symm hsafe (hlog.1 hb)).elim
    · intro hall
      exact parseXMLData_true hlogged hall.1 hall.2

lemma reported_config_iff (m : SectionMap) (doc : Option (Option XmlNode)) :
    Reported configHandler doc (.new m) ↔ RefusedAtRoot m doc := by
  rcases doc with _ | _ | _ | value | _
  · exact iff_of_true ((parseXMLData_reported ..).2 (by rintro _ _ _ ⟨⟩)) (by rintro _ ⟨⟩)
  · exact iff_of_true ((parseXMLData_reported ..).2 (by rintro _ _ _ ⟨⟩)) (by rintro _ ⟨⟩)
  · exact reported_element_iff m _ _ _
  · refine iff_of_true ((parseXMLData_reported ..).2 (by rintro _ _ _ ⟨⟩)) ?_
    rintro _ ⟨⟩ e he hentered
    cases he
    cases hentered
  · refine iff_of_true ((parseXMLData_reported ..).2 (by rintro _ _ _ ⟨⟩)) ?_
    rintro _ ⟨⟩ e he
    cases he

/-- **The errors of callbacks are reported**, by `ParseXMLData` for every handler if and only if the root element
decides, and by `Load` if and only if nothing is refused below a root that is accepted. -/
theorem errors_reported_iff {σ : Type} (h : XMLHandler σ) (s : σ) (f : ConfigFile) (doc : Option (Option XmlNode)) :
    (Reported h doc s ↔ RootDecides h doc s) ∧ (LoadReported f doc ↔ RefusedAtRoot f.configMap doc) :=
  ⟨parseXMLData_reported h doc s, (loadReported_iff f doc).trans (reported_config_iff _ _)⟩

/-- `<XMLIni><db/></XMLIni>`. -/
def strayDoc : XmlNode := .element ⟨kConfigXMLIniElement, kConfigXMLIniElement_nul_free⟩ [] [.element kDb [] []]

/-- The element `db` is not known, and the document is loaded. -/
theorem errors_reported_stray : ¬ Reported configHandler (some (some strayDoc)) (.new fun _ => none) ∧
    ¬ LoadReported ⟨fun _ => none⟩ (some (some strayDoc)) := by
  have hlogged : parseXMLData configHandler.logged (some (some strayDoc)) (.new fun _ => none, []) =
      .ok (true, ⟨fun _ => none, none, kDb.bytes⟩, [true, false, true]) := rfl
  constructor
  · intro hreported
    exact Bool.false_ne_true (((hreported _ _ _ hlogged).1 rfl).2 false (by simp))
  · intro hload
    exact Bool.false_ne_true (hload _ _ (load_logged hlogged) _ _ _ hlogged (.inr (by simp))).1.symm

end Zutils.Config
