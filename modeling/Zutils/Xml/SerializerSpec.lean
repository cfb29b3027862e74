import Zutils.Lib.Run
import Zutils.Lib.XmlWriter
import Zutils.Xml.Serializer
import Mathlib.Data.List.Induction
import Mathlib.Tactic.SplitIfs

/-!
# What `XMLSerializer` writes

`Document` says what calls mean: the tokens of the document, and the tags that are open. What has been written, without
the line breaks and the indentation of the serializer, is that document as long as attributes stand in start tags
(`Sim`). After an attribute that does not, nothing is written (`Silent`).

`closeTag` reads the last open tag before it looks whether there has been an error. After an error no tag is opened, so
a `closeTag` for such a tag is a fault if none was open at the error. The calls do what they should if and only if this
does not happen (`faithful_iff`).
-/

namespace Zutils.Xml

open Zutils.Lib.Xml

/-! ### What calls mean -/

/-- What is to be read back of a value. -/
def AttributeValue.text : AttributeValue → List UInt8
  | .string value => value
  | .int value => decimalInt value
  | .int64 value => decimalInt value
  | .float value => value.text
  | .boolAsTrueFalse value => ascii (if value then ['t', 'r', 'u', 'e'] else ['f', 'a', 'l', 's', 'e'])
  | .boolAsOneZero value => ascii (if value then ['1'] else ['0'])

/-- Values have no NUL and no line feed. -/
def AttributeValue.WellFormed : AttributeValue → Prop
  | .string value => 0 ∉ value ∧ 0x0A ∉ value
  | _ => True

/-- The tokens that calls stand for, the newest one first, and the tags that are open. -/
structure Document where
  tokens : List Token
  openTags : List (List UInt8)
  deriving DecidableEq, Repr

/-- One more call. -/
def Document.call (d : Document) : XMLCall → Document
  | .openTag name => ⟨.start name [] :: d.tokens, name :: d.openTags⟩
  | .closeTag =>
    match d.openTags with
    | [] => d
    | name :: openTags => ⟨.stop name :: d.tokens, openTags⟩
  | .attr name value => { d with tokens := addAttribute name value.text d.tokens }
  | .text text => { d with tokens := addText text d.tokens }

/-- What calls stand for, behind the declaration. -/
def document (calls : List XMLCall) : Document :=
  calls.foldl Document.call ⟨[.declaration XMLSerializer.declaration], []⟩

namespace XMLCall

def isAttribute : XMLCall → Bool
  | .attr _ _ => true
  | _ => false

def isClose : XMLCall → Bool
  | .closeTag => true
  | _ => false

/-- The call is followed by the place of an attribute. -/
def inTag : XMLCall → Bool
  | .openTag _ => true
  | .attr _ _ => true
  | _ => false

/-- Names are names, and strings have no NUL. -/
def WellFormed : XMLCall → Prop
  | .openTag name => IsName name
  | .closeTag => True
  | .attr name value => IsName name ∧ value.WellFormed
  | .text t => 0 ∉ t

instance : DecidablePred AttributeValue.WellFormed
  | .string value => inferInstanceAs (Decidable (0 ∉ value ∧ 0x0A ∉ value))
  | .int _ => isTrue trivial
  | .int64 _ => isTrue trivial
  | .float _ => isTrue trivial
  | .boolAsTrueFalse _ => isTrue trivial
  | .boolAsOneZero _ => isTrue trivial

instance : DecidablePred WellFormed
  | .openTag name => inferInstanceAs (Decidable (IsName name))
  | .closeTag => isTrue trivial
  | .attr name value => inferInstanceAs (Decidable (IsName name ∧ value.WellFormed))
  | .text t => inferInstanceAs (Decidable (0 ∉ t))

end XMLCall

/-- An attribute that is not directly behind an `openTag` or another attribute. -/
def Misplaced (before : List XMLCall) (c : XMLCall) : Prop :=
  c.isAttribute = true ∧ before.getLast?.any XMLCall.inTag = false

/-- Attributes stand in start tags. -/
def WellPlaced (calls : List XMLCall) : Prop := ∀ p c q, calls = p ++ c :: q → ¬ Misplaced p c

/-- The calls that may be made: a tag is closed only when one is open. -/
structure Allowed (calls : List XMLCall) : Prop where
  closes : ∀ p q, calls = p ++ .closeTag :: q → (document p).openTags ≠ []
  wellFormed : ∀ c ∈ calls, c.WellFormed

/-! ### What is put for a string -/

section Strings

variable {v : List UInt8} {c : UInt8}

lemma entityInText_spec (c : UInt8) :
    kLess ∉ entityInText c ∧ kQuote ∉ entityInText c ∧ (0 ∈ entityInText c → c = 0) ∧
      decode (entityInText c) = some [c] := by
  rw [entityInText]
  split_ifs with hless hgreater hamp hapos hquote
  · subst hless
    decide
  · subst hgreater
    decide
  · subst hamp
    decide
  · subst hapos
    decide
  · subst hquote
    decide
  · refine ⟨fun h => hless (List.mem_singleton.1 h).symm, fun h => hquote (List.mem_singleton.1 h).symm,
      fun h => (List.mem_singleton.1 h).symm, decode_plain fun h => hamp (List.mem_singleton.1 h).symm⟩

lemma convertEntityInText_spec (h : 0 ∉ v) :
    kLess ∉ cStr (convertEntityInText v) ∧ kQuote ∉ cStr (convertEntityInText v) ∧
      decode (cStr (convertEntityInText v)) = some v := by
  have hzero : 0 ∉ convertEntityInText v := by
    intro hmem
    obtain ⟨c, hc, hmem⟩ := List.mem_flatMap.1 hmem
    exact h ((entityInText_spec c).2.2.1 hmem ▸ hc)
  rw [cStr, CString.ofString_bytes hzero]
  refine ⟨?_, ?_, decode_flatMap fun c _ => (entityInText_spec c).2.2.2⟩
  · intro hmem
    obtain ⟨c, -, hmem⟩ := List.mem_flatMap.1 hmem
    exact (entityInText_spec c).1 hmem
  · intro hmem
    obtain ⟨c, -, hmem⟩ := List.mem_flatMap.1 hmem
    exact (entityInText_spec c).2.1 hmem

lemma convertEntityInAttribute_eq (h : 0x0A ∉ v) : convertEntityInAttribute v = convertEntityInText v := by
  induction v with
  | nil => rfl
  | cons c v ih =>
    rw [List.mem_cons, not_or] at h
    have hc : entityInAttribute c = entityInText c := if_neg (Ne.symm h.1)
    rw [convertEntityInAttribute, List.flatMap_cons, hc]
    exact congrArg (entityInText c ++ ·) (ih h.2)

/-- Characters that need no entity. -/
def Plain (bs : List UInt8) : Prop := ∀ c ∈ bs, c ≠ kLess ∧ c ≠ kQuote ∧ c ≠ kAmpersand

instance (bs : List UInt8) : Decidable (Plain bs) := List.decidableBAll _ bs

lemma Plain.spec (h : Plain v) : kLess ∉ v ∧ kQuote ∉ v ∧ decode v = some v :=
  ⟨fun hmem => (h _ hmem).1 rfl, fun hmem => (h _ hmem).2.1 rfl, decode_plain fun hmem => (h _ hmem).2.2 rfl⟩

lemma plain_decimal (n : ℕ) : Plain (decimal n) := by
  intro c hc
  obtain ⟨d, hd, rfl⟩ := List.mem_map.1 hc
  have hdigit := Nat.isDigit_of_mem_toDigits (by decide) (by decide) hd
  rw [Char.isDigit, Bool.and_eq_true, decide_eq_true_eq, decide_eq_true_eq] at hdigit
  have hlow : 48 ≤ d.toNat := hdigit.1
  have hhigh : d.toNat ≤ 57 := hdigit.2
  have hne : ∀ b : UInt8, 57 < b.toNat ∨ b.toNat < 48 → UInt8.ofNat d.toNat ≠ b := by
    intro b hb heq
    have htoNat : (UInt8.ofNat d.toNat).toNat = d.toNat := by
      rw [UInt8.toNat_ofNat', Nat.mod_eq_of_lt (by omega)]
    rw [heq] at htoNat
    omega
  exact ⟨hne kLess (by decide), hne kQuote (by decide), hne kAmpersand (by decide)⟩

lemma plain_decimalInt (n : ℤ) : Plain (decimalInt n) := by
  rw [decimalInt]
  split
  · intro c hc
    rcases List.mem_cons.1 hc with rfl | hc
    · decide
    · exact plain_decimal _ c hc
  · exact plain_decimal _

/-- What is written of a value. -/
def AttributeValue.written : AttributeValue → List UInt8
  | .string value => cStr (convertEntityInAttribute value)
  | .int value => decimalInt value
  | .int64 value => decimalInt value
  | .float value => value.text
  | .boolAsTrueFalse value => ascii (if value then ['t', 'r', 'u', 'e'] else ['f', 'a', 'l', 's', 'e'])
  | .boolAsOneZero value => ascii (if value then ['1'] else ['0'])

lemma attributeOf_eq (s : XMLSerializer) (name : List UInt8) (value : AttributeValue) :
    s.attributeOf name value = s.writeAttribute name value.written := by
  cases value <;> rfl

lemma AttributeValue.written_spec {value : AttributeValue} (h : value.WellFormed) :
    kLess ∉ value.written ∧ kQuote ∉ value.written ∧ decode value.written = some value.text := by
  cases value with
  | string value =>
    rw [written, convertEntityInAttribute_eq h.2]
    exact convertEntityInText_spec h.1
  | int value => exact (plain_decimalInt value).spec
  | int64 value => exact (plain_decimalInt value).spec
  | float value =>
    have hplain : Plain value.text := by
      intro c hc
      have hchars : Plain (ascii
          ['0', '1', '2', '3', '4', '5', '6', '7', '8', '9', '+', '-', '.', 'e', 'i', 'n', 'f', 'a']) := by decide
      exact hchars c (value.printed c hc)
    exact hplain.spec
  | boolAsTrueFalse value =>
    have hplain : Plain (AttributeValue.boolAsTrueFalse value).written := by cases value <;> decide
    exact hplain.spec
  | boolAsOneZero value =>
    have hplain : Plain (AttributeValue.boolAsOneZero value).written := by cases value <;> decide
    exact hplain.spec

end Strings

/-! ### Calls without an error -/

namespace XMLSerializer

section Pieces

variable (s : XMLSerializer) (bs : List UInt8)

lemma content_put : (s.put bs).content = s.content ++ bs := by
  rw [put, content, List.flatMap_append, List.flatMap_cons, List.flatMap_nil, List.append_nil]
  rfl

lemma content_newLine : s.newLine.content = s.content := by
  rw [newLine]
  split
  · rfl
  · rw [indentLine, endl, content, List.append_assoc, List.flatMap_append]
    exact List.append_nil _

lemma content_closeStart : s.closeStart.content = s.content ++ if s.needClose then [kGreater] else [] := by
  rw [closeStart]
  split
  · exact content_put s [kGreater]
  · rw [List.append_nil]

lemma tagStack_closeStart : s.closeStart.tagStack = s.tagStack := by
  rw [closeStart]
  split <;> rfl

lemma tagStack_newLine : s.newLine.tagStack = s.tagStack := by
  rw [newLine]
  split <;> rfl

lemma error_closeStart : s.closeStart.error = s.error := by
  rw [closeStart]
  split <;> rfl

lemma error_newLine : s.newLine.error = s.error := by
  rw [newLine]
  split <;> rfl

end Pieces

/-- **The serializer has written the document**, up to the `>` of a start tag. -/
structure Sim (s : XMLSerializer) (d : Document) : Prop where
  error : s.error = false
  tagStack : s.tagStack = d.openTags
  names : ∀ name ∈ d.openTags, IsName name
  inTag : s.needClose = true → ∃ name rest, d.openTags = name :: rest ∧ InTag s.content d.tokens name
  inText : s.needClose = false → InText s.content d.tokens

section Calls

variable {s : XMLSerializer} {d : Document} {name value t : List UInt8}

lemma cStr_name (h : IsName name) : cStr name = name := by
  refine CString.ofString_bytes ?_
  intro hmem
  cases name with
  | nil => cases h
  | cons c cs =>
    rcases List.mem_cons.1 hmem with rfl | hmem
    · exact absurd h.1 (by decide)
    · exact absurd (h.2 0 hmem) (by decide)

lemma Sim.not_error (h : Sim s d) : ¬ s.error = true := by
  rw [h.error]
  exact Bool.false_ne_true

lemma Sim.closeStart (h : Sim s d) : InText (s.content ++ if s.needClose then [kGreater] else []) d.tokens := by
  cases hneed : s.needClose with
  | true =>
    obtain ⟨name, rest, -, hwritten⟩ := h.inTag hneed
    exact hwritten.greater
  | false =>
    rw [if_neg Bool.false_ne_true, List.append_nil]
    exact h.inText hneed

lemma Sim.openTag (h : Sim s d) (hname : IsName name) :
    Sim (s.openTag name) (d.call (.openTag name)) ∧ (s.openTag name).needClose = true := by
  have hnot := h.not_error
  have hcontent : (s.openTag name).content =
      s.content ++ (if s.needClose then [kGreater] else []) ++ (kLess :: name ++ [kSpace]) := by
    rw [XMLSerializer.openTag, if_neg hnot, cStr_name hname]
    refine (content_put _ _).trans ?_
    rw [content_newLine, content_closeStart]
    rfl
  have htags : (s.openTag name).tagStack = name :: d.openTags := by
    rw [XMLSerializer.openTag, if_neg hnot, ← h.tagStack]
    dsimp only [put]
    rw [tagStack_newLine, tagStack_closeStart]
  have herror : (s.openTag name).error = false := by
    rw [XMLSerializer.openTag, if_neg hnot]
    dsimp only [put]
    rw [error_newLine, error_closeStart]
    exact h.error
  have hneed : (s.openTag name).needClose = true := by rw [XMLSerializer.openTag, if_neg hnot]
  refine ⟨⟨herror, htags, List.forall_mem_cons.2 ⟨hname, h.names⟩, ?_, ?_⟩, hneed⟩
  · intro _
    refine ⟨name, d.openTags, rfl, ?_⟩
    rw [hcontent]
    exact h.closeStart.start hname
  · intro hfalse
    cases hneed.symm.trans hfalse

lemma Sim.closeTag (h : Sim s d) (hopen : d.openTags ≠ []) :
    ∃ s', s.closeTag = .ok s' ∧ Sim s' (d.call .closeTag) ∧ s'.needClose = false := by
  have hnot := h.not_error
  cases htags : d.openTags with
  | nil => exact absurd htags hopen
  | cons name rest =>
    have hnames : ∀ n ∈ name :: rest, IsName n := htags ▸ h.names
    have hname : IsName name := hnames name List.mem_cons_self
    have hcall : d.call .closeTag = ⟨.stop name :: d.tokens, rest⟩ := by rw [Document.call, htags]
    have hwritten : InText ({ s with depth := s.depth - 1 }.writeEnd name).content (.stop name :: d.tokens) := by
      rw [writeEnd]
      split
      · rename_i hneed
        obtain ⟨name', rest', htags', hwritten⟩ := h.inTag hneed
        obtain ⟨rfl, -⟩ := List.cons.inj (htags.symm.trans htags')
        rw [content_put]
        exact hwritten.closed
      · rename_i hneed
        rw [content_put, content_newLine, cStr_name hname]
        exact (h.inText (Bool.eq_false_iff.2 hneed)).stop hname
    have herror : ({ s with depth := s.depth - 1 }.writeEnd name).error = false := by
      rw [writeEnd]
      split
      · exact h.error
      · exact (error_newLine _).trans h.error
    have hclose : s.closeTag = .ok { { s with depth := s.depth - 1 }.writeEnd name with
        lastIsText := false, needClose := false, tagStack := rest } := by
      rw [XMLSerializer.closeTag, h.tagStack, htags]
      dsimp only
      rw [if_neg hnot]
    refine ⟨_, hclose, ?_, rfl⟩
    rw [hcall]
    refine ⟨herror, rfl, fun n hn => hnames n (List.mem_cons_of_mem name hn), ?_, fun _ => hwritten⟩
    rintro ⟨⟩

lemma Sim.writeAttribute (h : Sim s d) (hneed : s.needClose = true) (hname : IsName name) {e : List UInt8}
    (hless : kLess ∉ e) (hquote : kQuote ∉ e) (hvalue : decode e = some value) :
    Sim (s.writeAttribute name e) { d with tokens := addAttribute name value d.tokens } ∧
      (s.writeAttribute name e).needClose = true := by
  have hnot := h.not_error
  have heq : s.writeAttribute name e =
      { s.put (name ++ [kEquals, kQuote] ++ e ++ [kQuote, kSpace]) with lastIsText := false } := by
    rw [XMLSerializer.writeAttribute, if_pos hneed, if_neg hnot, cStr_name hname]
    rfl
  obtain ⟨tag, rest, htags, hwritten⟩ := h.inTag hneed
  rw [heq]
  refine ⟨⟨h.error, h.tagStack, h.names, ?_, ?_⟩, hneed⟩
  · intro _
    refine ⟨tag, rest, htags, ?_⟩
    have hadd := hwritten.addAttribute hname hquote hless hvalue
    rw [← content_put] at hadd
    exact hadd
  · intro hfalse
    cases hneed.symm.trans hfalse

lemma Sim.text (h : Sim s d) (ht : 0 ∉ t) :
    Sim (s.text t) (d.call (.text t)) ∧ (s.text t).needClose = false := by
  have hnot := h.not_error
  obtain ⟨hless, -, hdecode⟩ := convertEntityInText_spec ht
  have hneed : (s.text t).needClose = false := by rw [XMLSerializer.text, if_neg hnot]
  have htags : (s.text t).tagStack = d.openTags := by
    rw [XMLSerializer.text, if_neg hnot, ← h.tagStack]
    exact tagStack_closeStart s
  have herror : (s.text t).error = false := by
    rw [XMLSerializer.text, if_neg hnot]
    exact (error_closeStart s).trans h.error
  have hcontent : (s.text t).content =
      s.content ++ (if s.needClose then [kGreater] else []) ++ cStr (convertEntityInText t) := by
    rw [XMLSerializer.text, if_neg hnot, ← content_closeStart]
    exact content_put _ _
  refine ⟨⟨herror, htags, h.names, ?_, ?_⟩, hneed⟩
  · intro htrue
    cases hneed.symm.trans htrue
  · intro _
    rw [hcontent]
    exact h.closeStart.addText hless hdecode

end Calls

/-- **One call** without an error. -/
lemma Sim.call {s : XMLSerializer} {d : Document} (h : Sim s d) {c : XMLCall} (hc : c.WellFormed)
    (hclose : c = .closeTag → d.openTags ≠ []) (hattr : c.isAttribute = true → s.needClose = true) :
    ∃ s', s.call c = .ok s' ∧ Sim s' (d.call c) ∧ s'.needClose = c.inTag := by
  cases c with
  | openTag name =>
    obtain ⟨hsim, hneed⟩ := h.openTag hc
    exact ⟨_, rfl, hsim, hneed⟩
  | closeTag => exact h.closeTag (hclose rfl)
  | attr name value =>
    obtain ⟨hless, hquote, hdecode⟩ := AttributeValue.written_spec hc.2
    obtain ⟨hsim, hneed⟩ := h.writeAttribute (hattr rfl) hc.1 hless hquote hdecode
    rw [← attributeOf_eq] at hsim hneed
    exact ⟨_, rfl, hsim, hneed⟩
  | text t =>
    obtain ⟨hsim, hneed⟩ := h.text hc
    exact ⟨_, rfl, hsim, hneed⟩

/-! ### Calls after an error -/

/-- Nothing has been written since, and no tag has been opened or closed. -/
structure Silent (s s' : XMLSerializer) : Prop where
  error : s'.error = true
  stream : s'.stream = s.stream
  tagStack : s'.tagStack = s.tagStack

/-- **One call** after an error. -/
lemma Silent.call {s s' : XMLSerializer} (h : Silent s s') {c : XMLCall} (hc : c = .closeTag → s.tagStack ≠ []) :
    ∃ s'', s'.call c = .ok s'' ∧ Silent s s'' := by
  have herror := h.error
  cases c with
  | openTag name =>
    refine ⟨s', ?_, h⟩
    rw [XMLSerializer.call, XMLSerializer.openTag, if_pos herror]
  | closeTag =>
    refine ⟨s', ?_, h⟩
    rw [XMLSerializer.call, XMLSerializer.closeTag, h.tagStack]
    cases htags : s.tagStack with
    | nil => exact absurd htags (hc rfl)
    | cons name rest => exact if_pos herror
  | attr name value =>
    refine ⟨_, rfl, ?_⟩
    rw [attributeOf_eq]
    by_cases hneed : s'.needClose = true
    · rw [XMLSerializer.writeAttribute, if_pos hneed, if_pos herror]
      exact h
    · rw [XMLSerializer.writeAttribute, if_neg hneed]
      exact ⟨rfl, h.stream, h.tagStack⟩
  | text t =>
    refine ⟨s', ?_, h⟩
    rw [XMLSerializer.call, XMLSerializer.text, if_pos herror]

lemma Silent.calls {s s' : XMLSerializer} (h : Silent s s') {q : List XMLCall}
    (hq : .closeTag ∈ q → s.tagStack ≠ []) : ∃ s'', q.foldlM XMLSerializer.call s' = .ok s'' ∧ Silent s s'' := by
  induction q generalizing s' with
  | nil => exact ⟨s', rfl, h⟩
  | cons c q ih =>
    obtain ⟨s₁, hcall, hsilent⟩ := h.call (c := c) fun hc => hq (hc ▸ List.mem_cons_self)
    obtain ⟨s₂, hcalls, hsilent'⟩ := ih hsilent fun hc => hq (List.mem_cons_of_mem c hc)
    refine ⟨s₂, ?_, hsilent'⟩
    rw [List.foldlM_cons, hcall]
    exact hcalls

/-- A `closeTag` after an error at which no tag was open. -/
lemma Silent.fault {s s' : XMLSerializer} (h : Silent s s') (htags : s.tagStack = []) {q : List XMLCall}
    (hq : .closeTag ∈ q) : q.foldlM XMLSerializer.call s' = .error .emptyStack := by
  induction q generalizing s' with
  | nil => cases hq
  | cons c q ih =>
    rw [List.foldlM_cons]
    by_cases hc : c = .closeTag
    · subst hc
      rw [XMLSerializer.call, XMLSerializer.closeTag, h.tagStack, htags]
      rfl
    · obtain ⟨s₁, hcall, hsilent⟩ := h.call (c := c) fun heq => absurd heq hc
      rw [hcall]
      exact ih hsilent ((List.mem_cons.1 hq).resolve_left (Ne.symm hc))

/-! ### Runs -/

section Runs

variable {tagCount : UInt32} {indentSpace : UInt64} {p q calls : List XMLCall} {c : XMLCall}

lemma document_snoc : document (p ++ [c]) = (document p).call c := by
  rw [document, List.foldl_append]
  rfl

lemma run_append : run tagCount indentSpace (p ++ q) =
    run tagCount indentSpace p >>= fun s => q.foldlM XMLSerializer.call s := by
  rw [run, List.foldlM_append, run]

lemma allowed_left (h : Allowed (p ++ q)) : Allowed p := by
  refine ⟨?_, fun c hc => h.wellFormed c (List.mem_append_left q hc)⟩
  rintro p' q' rfl
  refine h.closes p' (q' ++ q) ?_
  rw [List.append_assoc, List.cons_append]

lemma wellPlaced_snoc : WellPlaced (p ++ [c]) ↔ WellPlaced p ∧ ¬ Misplaced p c := by
  constructor
  · intro h
    refine ⟨?_, h p c [] rfl⟩
    rintro p' c' q' rfl
    refine h p' c' (q' ++ [c]) ?_
    rw [List.append_assoc, List.cons_append]
  · rintro ⟨hplaced, hc⟩ p' c' q' heq
    rcases Lib.snoc_eq_append_cons heq with ⟨rfl, rfl⟩ | ⟨q'', heq'⟩
    · exact hc
    · exact hplaced p' c' q'' heq'

lemma sim_new : Sim (new tagCount indentSpace) (document []) := by
  refine ⟨rfl, rfl, by rintro name ⟨⟩, by rintro ⟨⟩, ?_⟩
  intro _
  have hcontent : (new tagCount indentSpace).content =
      kLess :: kQuestion :: declaration ++ [kQuestion, kGreater] := rfl
  rw [hcontent]
  exact inText_declaration (by decide)

/-- **A run without an error.** -/
theorem sim_run (tagCount : UInt32) (indentSpace : UInt64) (h : Allowed calls) (hplaced : WellPlaced calls) :
    ∃ s, run tagCount indentSpace calls = .ok s ∧ Sim s (document calls) ∧
      s.needClose = calls.getLast?.any XMLCall.inTag := by
  induction calls using List.reverseRecOn with
  | nil => exact ⟨_, rfl, sim_new, rfl⟩
  | append_singleton p c ih =>
    obtain ⟨hplaced, hc'⟩ := wellPlaced_snoc.1 hplaced
    obtain ⟨s, hrun, hsim, hneed⟩ := ih (allowed_left h) hplaced
    have hc : c.WellFormed := h.wellFormed c (List.mem_append_right p List.mem_cons_self)
    have hclose : c = .closeTag → (document p).openTags ≠ [] := by
      rintro rfl
      exact h.closes p [] rfl
    have hattr : c.isAttribute = true → s.needClose = true := by
      intro hattr
      by_contra hfalse
      refine hc' ⟨hattr, ?_⟩
      rw [← hneed]
      exact Bool.eq_false_iff.2 hfalse
    obtain ⟨s', hcall, hsim', hneed'⟩ := hsim.call hc hclose hattr
    refine ⟨s', ?_, ?_, ?_⟩
    · rw [run_append, hrun]
      show [c].foldlM XMLSerializer.call s = .ok s'
      rw [List.foldlM_cons, hcall]
      rfl
    · rw [document_snoc]
      exact hsim'
    · rw [hneed', List.getLast?_concat]
      rfl

lemma run_misplaced (tagCount : UInt32) (indentSpace : UInt64) (h : Allowed (p ++ c :: q)) (hplaced : WellPlaced p)
    (hc : Misplaced p c) :
    ∃ s₀ s₁, run tagCount indentSpace p = .ok s₀ ∧ s₀.tagStack = (document p).openTags ∧ Silent s₀ s₁ ∧
      run tagCount indentSpace (p ++ c :: q) = q.foldlM XMLSerializer.call s₁ := by
  obtain ⟨s₀, hrun, hsim, hneed⟩ := sim_run tagCount indentSpace (allowed_left h) hplaced
  obtain ⟨hattr, hbehind⟩ := hc
  have hfalse : ¬ s₀.needClose = true := by rw [hneed, hbehind]; exact Bool.false_ne_true
  cases c with
  | attr name value =>
    have hcall : s₀.call (.attr name value) = .ok { s₀ with error := true } := by
      rw [XMLSerializer.call, attributeOf_eq, XMLSerializer.writeAttribute, if_neg hfalse]
      rfl
    refine ⟨s₀, { s₀ with error := true }, hrun, hsim.tagStack, ⟨rfl, rfl, rfl⟩, ?_⟩
    rw [run_append, hrun]
    show (XMLCall.attr name value :: q).foldlM XMLSerializer.call s₀ = _
    rw [List.foldlM_cons, hcall]
    rfl
  | openTag name => cases hattr
  | closeTag => cases hattr
  | text t => cases hattr

lemma exists_misplaced (h : ¬ WellPlaced calls) :
    ∃ p c q, calls = p ++ c :: q ∧ WellPlaced p ∧ Misplaced p c := by
  induction calls using List.reverseRecOn with
  | nil =>
    refine absurd ?_ h
    intro p c q heq
    cases p <;> cases heq
  | append_singleton cs c ih =>
    by_cases hcs : WellPlaced cs
    · refine ⟨cs, c, [], rfl, hcs, ?_⟩
      by_contra hc
      exact h (wellPlaced_snoc.2 ⟨hcs, hc⟩)
    · obtain ⟨p, c', q, rfl, hp, hc'⟩ := ih hcs
      refine ⟨p, c', q ++ [c], ?_, hp, hc'⟩
      rw [List.append_assoc, List.cons_append]

/-- **The calls do what they should**: while attributes are in their places, what has been written is the document, and
a misplaced attribute and the calls after it write nothing. -/
def Faithful (tagCount : UInt32) (indentSpace : UInt64) (calls : List XMLCall) : Prop :=
  ∃ s, run tagCount indentSpace calls = .ok s ∧
    (WellPlaced calls → ∃ ts, tokens s.content = some ts ∧ decodeTokens ts = some (document calls).tokens.reverse) ∧
    ∀ p c q, calls = p ++ c :: q → WellPlaced p → Misplaced p c →
      ∃ s₀, run tagCount indentSpace p = .ok s₀ ∧ s.stream = s₀.stream

/-- If the first misplaced attribute comes when no tag is open, no tag is closed after it. -/
def NoLateClose (calls : List XMLCall) : Prop :=
  ∀ p c q, calls = p ++ c :: q → WellPlaced p → Misplaced p c → (document p).openTags = [] → .closeTag ∉ q

/-- **When the calls do what they should.** -/
theorem faithful_iff (tagCount : UInt32) (indentSpace : UInt64) {calls : List XMLCall} (h : Allowed calls) :
    Faithful tagCount indentSpace calls ↔ NoLateClose calls := by
  constructor
  · rintro ⟨s, hrun, -, -⟩ p c q rfl hplaced hc htags hclose
    obtain ⟨s₀, s₁, -, hstack, hsilent, hcalls⟩ := run_misplaced tagCount indentSpace h hplaced hc
    rw [hcalls, hsilent.fault (hstack.trans htags) hclose] at hrun
    cases hrun
  · intro hlate
    -- A run with a misplaced attribute stays where it was.
    have hmis : ∀ p c q, calls = p ++ c :: q → WellPlaced p → Misplaced p c →
        ∃ s₀ s, run tagCount indentSpace p = .ok s₀ ∧ run tagCount indentSpace calls = .ok s ∧
          s.stream = s₀.stream := by
      rintro p c q rfl hplaced hc
      obtain ⟨s₀, s₁, hrun, hstack, hsilent, hcalls⟩ := run_misplaced tagCount indentSpace h hplaced hc
      have hopen : .closeTag ∈ q → s₀.tagStack ≠ [] := by
        intro hclose hnil
        exact hlate p c q rfl hplaced hc (hstack.symm.trans hnil) hclose
      obtain ⟨s, hall, hsilent'⟩ := hsilent.calls hopen
      exact ⟨s₀, s, hrun, hcalls.trans hall, hsilent'.stream⟩
    by_cases hplaced : WellPlaced calls
    · obtain ⟨s, hrun, hsim, -⟩ := sim_run tagCount indentSpace h hplaced
      refine ⟨s, hrun, fun _ => ?_, ?_⟩
      · cases hneed : s.needClose with
        | true =>
          obtain ⟨name, rest, -, hwritten⟩ := hsim.inTag hneed
          exact hwritten.tokens
        | false => exact (hsim.inText hneed).tokens
      · intro p c q heq _ hc
        exact absurd hc (hplaced p c q heq)
    · obtain ⟨p, c, q, heq, hp, hc⟩ := exists_misplaced hplaced
      obtain ⟨-, s, -, hrun, -⟩ := hmis p c q heq hp hc
      refine ⟨s, hrun, fun hwell => absurd hwell hplaced, ?_⟩
      intro p' c' q' heq' hp' hc'
      obtain ⟨s₀, s', hrun₀, hrun', hstream⟩ := hmis p' c' q' heq' hp' hc'
      obtain rfl : s = s' := Except.ok.inj (hrun.symm.trans hrun')
      exact ⟨s₀, hrun₀, hstream⟩

end Runs

lemma allowed_of_take {calls : List XMLCall}
    (hcloses : ∀ i < calls.length, calls[i]?.any XMLCall.isClose = true → (document (calls.take i)).openTags ≠ [])
    (hwell : ∀ c ∈ calls, c.WellFormed) : Allowed calls := by
  refine ⟨?_, hwell⟩
  rintro p q rfl
  have hlt : p.length < (p ++ .closeTag :: q).length := by
    rw [List.length_append, List.length_cons]
    omega
  have hclose : (p ++ .closeTag :: q)[p.length]?.any XMLCall.isClose = true := by
    rw [List.getElem?_append_right le_rfl, Nat.sub_self]
    rfl
  have hopen := hcloses p.length hlt hclose
  rwa [List.take_left] at hopen

/-- `<a b="1&lt;2">x`, and an attribute that is too late. -/
def lateAttribute : List XMLCall :=
  [.openTag [0x61], .attr [0x62] (.string [0x31, 0x3C, 0x32]), .text [0x78], .attr [0x63] (.int 5), .closeTag]

theorem faithful_iff_lateAttribute : Allowed lateAttribute ∧ (Faithful 0 4 lateAttribute ↔ NoLateClose lateAttribute) :=
  have h := allowed_of_take (by decide) (by decide)
  ⟨h, faithful_iff 0 4 h⟩

/-- An attribute where no tag is open, and a tag behind it. -/
def lateClose : List XMLCall := [.openTag [0x61], .closeTag, .attr [0x78] (.string [0x31]), .openTag [0x62], .closeTag]

/-- The second `closeTag` uses the last element of an empty stack. -/
theorem lateClose_fault : Allowed lateClose ∧ ¬ Faithful 0 4 lateClose := by
  refine ⟨allowed_of_take (by decide) (by decide), ?_⟩
  rintro ⟨s, hrun, -, -⟩
  have hfault : run 0 4 lateClose = .error .emptyStack := rfl
  cases hfault.symm.trans hrun

end XMLSerializer

end Zutils.Xml
