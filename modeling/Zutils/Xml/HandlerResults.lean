import Zutils.Xml.Parser

/-!
# What becomes of the results of callbacks

`logged` is a handler that writes down what each callback returns. The results of the root element's own callbacks are
what `ParseXMLData` returns, and those of all callbacks below it are dropped.

A document is a list of callbacks, and a handler that hears them one by one (`hear`) is in the same state as one that
is called on the way through the tree (`hear_node`). So the errors of a handler are reported as they should be if and
only if, whenever it refuses one of the callbacks of the list, it refuses the first or the last one
(`parseXMLData_reported`).
-/

namespace Zutils.Xml

variable {σ : Type}

lemma XmlNode.induction {P : XmlNode → Prop}
    (element : ∀ value attributes children, (∀ c ∈ children, P c) → P (.element value attributes children))
    (text : ∀ value, P (.text value)) (other : P .other) : ∀ node, P node
  | .element value attributes children =>
    element value attributes children fun c hc =>
      have : sizeOf c < sizeOf children := List.sizeOf_lt_of_mem hc
      XmlNode.induction element text other c
  | .text value => text value
  | .other => other

/-- A result of a callback, written down behind those before it. -/
def note (log : List Bool) (result : Except HandlerFault (Bool × σ)) : Except HandlerFault (Bool × σ × List Bool) := do
  let (b, s) ← result
  return (b, s, log ++ [b])

/-- The handler with the results of its callbacks so far. -/
def XMLHandler.logged (h : XMLHandler σ) : XMLHandler (σ × List Bool) where
  elementStart element attributes s := note s.2 (h.elementStart element attributes s.1)
  elementEnd element s := note s.2 (h.elementEnd element s.1)
  text text s := note s.2 (h.text text s.1)

/-- **Errors are reported**: true is returned if and only if the document was parsed and each callback has returned
true. -/
def Reported (h : XMLHandler σ) (doc : Option (Option XmlNode)) (s : σ) : Prop :=
  ∀ ok s' log, parseXMLData h.logged doc (s, []) = .ok (ok, s', log) →
    (ok = true ↔ doc ≠ none ∧ ∀ b ∈ log, b = true)

/-! ### The callbacks of a document -/

/-- A callback, with what the document has for it. -/
inductive XmlCallback where
  | elementStart (element : CString) (attributes : List (CString × CString))
  | text (text : CString)
  | elementEnd (element : CString)

mutual
/-- The callbacks for a node in the order of the document. -/
def callbacks : XmlNode → List XmlCallback
  | .element value attributes children => .elementStart value attributes :: (callbacksOf children ++ [.elementEnd value])
  | .text value => [.text value]
  | .other => []

def callbacksOf : List XmlNode → List XmlCallback
  | [] => []
  | childNode :: siblings => callbacks childNode ++ callbacksOf siblings
end

/-- What a handler answers. -/
def XMLHandler.answer (h : XMLHandler σ) : XmlCallback → σ → Except HandlerFault (Bool × σ)
  | .elementStart element attributes, s => h.elementStart element.bytes (.ofList attributes) s
  | .text text, s => h.text text.bytes s
  | .elementEnd element, s => h.elementEnd element.bytes s

/-- The number of elements that are open within a refused one, itself included, behind a callback that is not made. -/
def XmlCallback.passed (n : ℕ) : XmlCallback → ℕ
  | elementStart _ _ => n + 1
  | text _ => n
  | elementEnd _ => n - 1

/-- The handler hears one callback after the other, and nothing of an element that it refuses, not even its end. -/
def hear (h : XMLHandler σ) : ℕ → List XmlCallback → σ → Except HandlerFault σ
  | _, [], s => .ok s
  | 0, c :: cs, s => do
    let (b, s) ← h.answer c s
    hear h (if b then 0 else c.passed 0) cs s
  | n + 1, c :: cs, s => hear h (c.passed (n + 1)) cs s

/-- The root element decides: a handler that refuses a callback refuses the first or the last one that it hears, which
are those of the root element. -/
def RootDecides (h : XMLHandler σ) (doc : Option (Option XmlNode)) (s : σ) : Prop :=
  ∀ value attributes children, doc = some (some (.element value attributes children)) →
    ∀ s' answers, hear h.logged 0 (callbacks (.element value attributes children)) (s, []) = .ok (s', answers) →
      false ∈ answers → answers.head? = some false ∨ answers.getLast? = some false

section Hear

variable {h : XMLHandler σ} {cs : List XmlCallback} {n : ℕ}

/-- A node is passed over. -/
def NodePassed (h : XMLHandler σ) (node : XmlNode) : Prop :=
  ∀ n cs s, hear h (n + 1) (callbacks node ++ cs) s = hear h (n + 1) cs s

lemma hear_passed_children {nodes : List XmlNode} (hnodes : ∀ c ∈ nodes, NodePassed h c) (s : σ) :
    hear h (n + 1) (callbacksOf nodes ++ cs) s = hear h (n + 1) cs s := by
  induction nodes with
  | nil => rfl
  | cons c nodes ih =>
    rw [callbacksOf, List.append_assoc, hnodes c List.mem_cons_self, ih fun c' hc' => hnodes c' (List.mem_cons_of_mem c hc')]

lemma hear_passed (node : XmlNode) : NodePassed h node := by
  induction node using XmlNode.induction with
  | element value attributes children ih =>
    intro n cs s
    rw [callbacks, List.cons_append, List.append_assoc, hear, XmlCallback.passed, hear_passed_children ih]
    rfl
  | text value => exact fun n cs s => rfl
  | other => exact fun n cs s => rfl

/-- A node is heard as it is gone through. -/
def NodeHeard (h : XMLHandler σ) (node : XmlNode) : Prop :=
  ∀ cs s, hear h 0 (callbacks node ++ cs) s = (processNode h node s).bind fun r => hear h 0 cs r.2

lemma hear_children {nodes : List XmlNode} (hnodes : ∀ c ∈ nodes, NodeHeard h c) (cs : List XmlCallback) (s : σ) :
    hear h 0 (callbacksOf nodes ++ cs) s = (processChildren h nodes s).bind fun s => hear h 0 cs s := by
  induction nodes generalizing s with
  | nil => rfl
  | cons c nodes ih =>
    rw [callbacksOf, List.append_assoc, hnodes c List.mem_cons_self, processChildren]
    cases processNode h c s with
    | error e => rfl
    | ok r => exact ih (fun c' hc' => hnodes c' (List.mem_cons_of_mem c hc')) r.2

/-- **Going through a node** is to hear its callbacks. -/
theorem hear_node (node : XmlNode) : NodeHeard h node := by
  induction node using XmlNode.induction with
  | element value attributes children ih =>
    intro cs s
    rw [callbacks, List.cons_append, List.append_assoc, hear, XMLHandler.answer, processNode]
    cases h.elementStart value.bytes (.ofList attributes) s with
    | error e => rfl
    | ok r =>
      obtain ⟨started, s₁⟩ := r
      cases started with
      | false => exact hear_passed_children (fun c _ => hear_passed c) s₁
      | true =>
        show hear h 0 (callbacksOf children ++ ([.elementEnd value] ++ cs)) s₁ =
          ((processChildren h children s₁).bind fun s => h.elementEnd value.bytes s).bind fun r => hear h 0 cs r.2
        rw [hear_children ih]
        cases processChildren h children s₁ with
        | error e => rfl
        | ok s₂ =>
          show (h.elementEnd value.bytes s₂).bind (fun r => hear h (if r.1 then 0 else 0) cs r.2) = _
          simp only [ite_self]
          rfl
  | text value =>
    intro cs s
    show (h.text value.bytes s).bind (fun r => hear h (if r.1 then 0 else 0) cs r.2) = _
    simp only [ite_self]
    rfl
  | other => exact fun cs s => rfl

end Hear

/-! ### The log -/

section Log

variable {h : XMLHandler σ}

lemma note_eq_ok {log : List Bool} {result : Except HandlerFault (Bool × σ)} {r : Bool × σ × List Bool} :
    note log result = .ok r ↔ result = .ok (r.1, r.2.1) ∧ r.2.2 = log ++ [r.1] := by
  obtain ⟨b, s, log'⟩ := r
  cases result with
  | error e => simp [note]
  | ok a =>
    obtain ⟨b', s'⟩ := a
    simp only [note, ok_bind, pure, Except.pure, Except.ok.injEq, Prod.mk.injEq]
    constructor
    · rintro ⟨rfl, rfl, rfl⟩
      exact ⟨⟨rfl, rfl⟩, rfl⟩
    · rintro ⟨⟨rfl, rfl⟩, rfl⟩
      exact ⟨rfl, rfl, rfl⟩

/-- The log only grows. -/
def NodeGrows (h : XMLHandler σ) (node : XmlNode) : Prop :=
  ∀ s log r, processNode h.logged node (s, log) = .ok r → log <+: r.2.2

lemma processChildren_grows {children : List XmlNode} (hnodes : ∀ c ∈ children, NodeGrows h c) {s : σ}
    {log : List Bool} {r : σ × List Bool} (hr : processChildren h.logged children (s, log) = .ok r) : log <+: r.2 := by
  induction children generalizing s log with
  | nil =>
    rw [processChildren, Except.ok.injEq] at hr
    exact hr ▸ List.prefix_rfl
  | cons c cs ih =>
    rw [processChildren, bind_eq_ok] at hr
    obtain ⟨r₁, hnode, hrest⟩ := hr
    exact (hnodes c List.mem_cons_self s log r₁ hnode).trans
      (ih (fun c' hc' => hnodes c' (List.mem_cons_of_mem c hc')) hrest)

/-- The log of an element begins with the result of its start, and if that is true ends with that of its end, which is
returned. -/
lemma processNode_element_logged {value : CString} {attributes : List (CString × CString)} {children : List XmlNode}
    (hnodes : ∀ c ∈ children, NodeGrows h c) {s s' : σ} {log log' : List Bool} {ok : Bool}
    (hr : processNode h.logged (.element value attributes children) (s, log) = .ok (ok, s', log')) :
    log' = log ++ [false] ∧ ok = false ∨ ∃ made, log' = log ++ true :: (made ++ [ok]) := by
  rw [processNode, bind_eq_ok] at hr
  obtain ⟨⟨started, s₁⟩, hstart, hr⟩ := hr
  have hlog₁ : s₁.2 = log ++ [started] := (note_eq_ok.1 hstart).2
  cases started with
  | false =>
    cases hr
    exact .inl ⟨hlog₁, rfl⟩
  | true =>
    dsimp only at hr
    rw [if_pos rfl, bind_eq_ok] at hr
    obtain ⟨s₂, hchildren, hend⟩ := hr
    obtain ⟨made, hmade⟩ := processChildren_grows hnodes hchildren
    have hlog : log' = s₂.2 ++ [ok] := (note_eq_ok.1 hend).2
    refine .inr ⟨made, ?_⟩
    rw [hlog, ← hmade, hlog₁, List.append_assoc, List.append_assoc]
    rfl

lemma processNode_grows (node : XmlNode) : NodeGrows h node := by
  induction node using XmlNode.induction with
  | element value attributes children ih =>
    intro s log r hr
    rcases processNode_element_logged ih hr with ⟨hlog, -⟩ | ⟨made, hlog⟩
    · exact ⟨_, hlog.symm⟩
    · exact ⟨_, hlog.symm⟩
  | text value =>
    intro s log r hr
    exact ⟨_, (note_eq_ok.1 hr).2.symm⟩
  | other =>
    intro s log r hr
    rw [processNode, Except.ok.injEq] at hr
    exact hr ▸ List.prefix_rfl

/-! ### The handler below the log -/

/-- The logging handler does what the handler does. -/
def NodeErases (h : XMLHandler σ) (node : XmlNode) : Prop :=
  ∀ s log, (processNode h.logged node (s, log)).map (fun r => (r.1, r.2.1)) = processNode h node s

lemma note_erase (log : List Bool) (result : Except HandlerFault (Bool × σ)) :
    (note log result).map (fun r => (r.1, r.2.1)) = result := by
  cases result <;> rfl

lemma processChildren_erase {children : List XmlNode} (hnodes : ∀ c ∈ children, NodeErases h c) (s : σ)
    (log : List Bool) : (processChildren h.logged children (s, log)).map Prod.fst = processChildren h children s := by
  induction children generalizing s log with
  | nil => rfl
  | cons c cs ih =>
    have hnode := hnodes c List.mem_cons_self s log
    rw [processChildren, processChildren, ← hnode]
    cases hlogged : processNode h.logged c (s, log) with
    | error e => rfl
    | ok r => exact ih (fun c' hc' => hnodes c' (List.mem_cons_of_mem c hc')) r.2.1 r.2.2

lemma processNode_erase (node : XmlNode) : NodeErases h node := by
  induction node using XmlNode.induction with
  | element value attributes children ih =>
    intro s log
    have hstart := note_erase log (h.elementStart value.bytes (.ofList attributes) s)
    rw [processNode, processNode, ← hstart]
    show Except.map _ (note log _ >>= _) = _
    cases note log (h.elementStart value.bytes (.ofList attributes) s) with
    | error e => rfl
    | ok r =>
      obtain ⟨started, s₁, log₁⟩ := r
      cases started with
      | false => rfl
      | true =>
        have hchildren := processChildren_erase ih s₁ log₁
        simp only [ok_bind, Except.map, if_true]
        rw [← hchildren]
        cases processChildren h.logged children (s₁, log₁) with
        | error e => rfl
        | ok r => exact note_erase r.2 (h.elementEnd value.bytes r.1)
  | text value => exact fun s log => note_erase log (h.text value.bytes s)
  | other => exact fun s log => rfl

end Log

/-! ### Reports -/

section Reports

variable {h : XMLHandler σ} {s s' : σ}

/-- What is returned for a root element is told by the log: true if the first and the last result are. -/
lemma root_logged {value : CString} {attributes : List (CString × CString)} {children : List XmlNode} {ok : Bool}
    {log : List Bool} (hr : processNode h.logged (.element value attributes children) (s, []) = .ok (ok, s', log)) :
    ok ∈ log ∧ (ok = false ↔ log.head? = some false ∨ log.getLast? = some false) := by
  rcases processNode_element_logged (fun c _ => processNode_grows c) hr with ⟨rfl, rfl⟩ | ⟨made, rfl⟩
  · simp
  · rw [List.nil_append]
    refine ⟨by simp, ?_⟩
    rw [List.head?_cons, ← List.cons_append, List.getLast?_concat]
    simp

lemma reported_root (value : CString) (attributes : List (CString × CString)) (children : List XmlNode) (s : σ) :
    Reported h (some (some (.element value attributes children))) s ↔
      RootDecides h (some (some (.element value attributes children))) s := by
  have hheard := hear_node (h := h.logged) (.element value attributes children) [] (s, [])
  rw [List.append_nil] at hheard
  constructor
  · rintro hreported _ _ _ ⟨⟩ s' log hlog hfalse
    rw [hheard] at hlog
    obtain ⟨⟨ok, s₁, log₁⟩, hprocess, hsame⟩ := bind_eq_ok.1 hlog
    obtain ⟨rfl, rfl⟩ := Prod.mk.inj (Except.ok.inj hsame)
    refine (root_logged hprocess).2.1 ?_
    cases ok with
    | false => rfl
    | true => exact (((hreported _ _ _ hprocess).1 rfl).2 false hfalse).symm
  · intro hdecides ok s' log hprocess
    have hlog := hheard
    rw [show processNode h.logged _ (s, []) = _ from hprocess] at hlog
    obtain ⟨hmem, hok⟩ := root_logged hprocess
    constructor
    · rintro rfl
      refine ⟨by simp, fun b hb => ?_⟩
      cases b with
      | true => rfl
      | false => exact (hok.2 (hdecides _ _ _ rfl s' log hlog hb)).symm
    · exact fun hall => hall.2 ok hmem

/-- **Errors are reported if and only if the root element decides.** -/
theorem parseXMLData_reported (h : XMLHandler σ) (doc : Option (Option XmlNode)) (s : σ) :
    Reported h doc s ↔ RootDecides h doc s := by
  rcases doc with _ | _ | _ | value | _
  · refine iff_of_true (fun ok s' log hr => ?_) (by rintro _ _ _ ⟨⟩)
    cases hr
    simp
  · refine iff_of_true (fun ok s' log hr => ?_) (by rintro _ _ _ ⟨⟩)
    cases hr
    simp
  · exact reported_root _ _ _ s
  · refine iff_of_true (fun ok s' log hr => ?_) (by rintro _ _ _ ⟨⟩)
    have hlog : log = [] ++ [ok] := (note_eq_ok.1 hr).2
    rw [hlog]
    simp
  · refine iff_of_true (fun ok s' log hr => ?_) (by rintro _ _ _ ⟨⟩)
    cases hr
    simp

lemma parseXMLData_erase (h : XMLHandler σ) (doc : Option (Option XmlNode)) (s : σ) :
    (parseXMLData h.logged doc (s, [])).map (fun r => (r.1, r.2.1)) = parseXMLData h doc s := by
  rcases doc with _ | _ | root
  · rfl
  · rfl
  · exact processNode_erase root s []

/-- One direction holds of every handler. -/
lemma parseXMLData_true {doc : Option (Option XmlNode)} {ok : Bool} {log : List Bool}
    (hlogged : parseXMLData h.logged doc (s, []) = .ok (ok, s', log)) (hdoc : doc ≠ none)
    (hlog : ∀ b ∈ log, b = true) : ok = true := by
  rcases doc with _ | _ | _ | value | _
  · exact (hdoc rfl).elim
  · cases hlogged
    rfl
  · exact hlog ok (root_logged hlogged).1
  · have hone : log = [] ++ [ok] := (note_eq_ok.1 hlogged).2
    exact hlog ok (by rw [hone]; simp)
  · cases hlogged
    rfl

end Reports

end Zutils.Xml
