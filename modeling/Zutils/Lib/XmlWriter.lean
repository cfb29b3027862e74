import Zutils.Lib.XmlLexer

/-!
# XML that is written piece by piece

What has been written so far is known by its decoded tokens, the newest one first. The writer is either in a start tag
(`InTag`) or not (`InText`). Each piece that may be written then adds to the tokens or to the newest of them; a text that
is written in pieces is one token, and an empty one is none (`addText`).
-/

namespace Zutils.Lib.Xml

/-- The tokens, with what they stand for. -/
def decodeTokens (ts : List Token) : Option (List Token) := ts.mapM Token.decode

/-- The values of attributes, with what they stand for. -/
def decodeAttributes (attributes : List (List UInt8 × List UInt8)) : Option (List (List UInt8 × List UInt8)) :=
  attributes.mapM fun a => (Prod.mk a.1) <$> decode a.2

/-- A text goes on, or begins. -/
def addText (text : List UInt8) : List Token → List Token
  | .text content :: written => .text (content ++ text) :: written
  | written => textTokens text ++ written

/-- The start tag gets one more attribute. -/
def addAttribute (name value : List UInt8) : List Token → List Token
  | .start tag attributes :: written => .start tag (attributes ++ [(name, value)]) :: written
  | written => written

/-- The newest token is no text. -/
def NoText (written : List Token) : Prop := ∀ content rest, written ≠ .text content :: rest

/-- In the start tag of `name`, whose `>` is still to come. -/
def InTag (bs : List UInt8) (written : List Token) (name : List UInt8) : Prop :=
  ∃ ts attributes attributes' rest, Reads (.text []) bs ts (.inTag name attributes) ∧
    decodeAttributes attributes = some attributes' ∧ decodeTokens ts = some rest.reverse ∧
    written = .start name attributes' :: rest

/-- Not in a tag. -/
def InText (bs : List UInt8) (written : List Token) : Prop :=
  ∃ ts content text rest, Reads (.text []) bs ts (.text content) ∧ decode content = some text ∧
    decodeTokens ts = some rest.reverse ∧ NoText rest ∧ written = textTokens text ++ rest

section

variable {bs e name attr value text : List UInt8} {ts us ts' us' written : List Token}

lemma mapM_append {α β : Type*} {f : α → Option β} {xs xs' : List α} {ys ys' : List β} (h : xs.mapM f = some ys)
    (h' : xs'.mapM f = some ys') : (xs ++ xs').mapM f = some (ys ++ ys') := by
  rw [List.mapM_append, h, h']
  rfl

lemma decodeTokens_snoc {t t' : Token} (h : decodeTokens ts = some written.reverse) (ht : t.decode = some t') :
    decodeTokens (ts ++ [t]) = some (t' :: written).reverse := by
  have hone : [t].mapM Token.decode = some [t'] := by
    rw [List.mapM_cons, ht]
    rfl
  rw [List.reverse_cons]
  exact mapM_append h hone

lemma decode_start (name : List UInt8) {attributes attributes' : List (List UInt8 × List UInt8)}
    (h : decodeAttributes attributes = some attributes') :
    (Token.start name attributes).decode = some (.start name attributes') := by
  rw [Token.decode]
  rw [decodeAttributes] at h
  rw [h]
  rfl

lemma decodeTokens_text (h : decodeTokens ts = some written.reverse) (htext : decode e = some text) :
    decodeTokens (ts ++ textTokens e) = some (textTokens text ++ written).reverse := by
  cases e with
  | nil =>
    obtain rfl : [] = text := Option.some.inj htext
    rw [textTokens, List.append_nil]
    exact h
  | cons c e =>
    cases text with
    | nil => cases decode_eq_nil htext
    | cons d text =>
      refine decodeTokens_snoc h ?_
      rw [Token.decode, htext]
      rfl

lemma addText_textTokens (h : NoText written) (text' : List UInt8) :
    addText text' (textTokens text ++ written) = textTokens (text ++ text') ++ written := by
  cases text with
  | nil =>
    rw [textTokens, List.nil_append, List.nil_append]
    cases written with
    | nil => rfl
    | cons t rest =>
      cases t with
      | text content => exact absurd rfl (h content rest)
      | declaration content => rfl
      | start tag attributes => rfl
      | stop tag => rfl
  | cons c text => rfl

lemma noText_start {attributes : List (List UInt8 × List UInt8)} : NoText (.start name attributes :: written) := by
  rintro content rest ⟨⟩

lemma noText_stop : NoText (.stop name :: written) := by
  rintro content rest ⟨⟩

/-! ### What is written in a start tag -/

namespace InTag

theorem addAttribute (h : InTag bs written name) (hattr : IsName attr) (hquote : kQuote ∉ e) (hless : kLess ∉ e)
    (hvalue : decode e = some value) :
    InTag (bs ++ (attr ++ [kEquals, kQuote] ++ e ++ [kQuote, kSpace])) (addAttribute attr value written) name := by
  obtain ⟨ts, attributes, attributes', rest, hreads, hattributes, hts, rfl⟩ := h
  have hadd := hreads.append (reads_attribute hattr hquote hless)
  rw [List.append_nil] at hadd
  refine ⟨ts, attributes ++ [(attr, e)], attributes' ++ [(attr, value)], rest, hadd, ?_, hts, rfl⟩
  refine mapM_append hattributes ?_
  rw [List.mapM_cons, hvalue]
  rfl

theorem greater (h : InTag bs written name) : InText (bs ++ [kGreater]) written := by
  obtain ⟨ts, attributes, attributes', rest, hreads, hattributes, hts, rfl⟩ := h
  exact ⟨_, [], [], _, hreads.append reads_greater, rfl, decodeTokens_snoc hts (decode_start _ hattributes),
    noText_start, rfl⟩

theorem closed (h : InTag bs written name) : InText (bs ++ [kSlash, kGreater]) (.stop name :: written) := by
  obtain ⟨ts, attributes, attributes', rest, hreads, hattributes, hts, rfl⟩ := h
  have hstart := decodeTokens_snoc hts (decode_start name hattributes)
  have hstop := decodeTokens_snoc hstart (t := .stop name) rfl
  rw [List.append_assoc] at hstop
  exact ⟨_, [], [], _, hreads.append reads_closed, rfl, hstop, noText_stop, rfl⟩

theorem tokens (h : InTag bs written name) : ∃ ts, tokens bs = some ts ∧ decodeTokens ts = some written.reverse := by
  obtain ⟨ts, attributes, attributes', rest, hreads, hattributes, hts, rfl⟩ := h
  exact ⟨_, hreads.tokens rfl, decodeTokens_snoc hts (decode_start _ hattributes)⟩

end InTag

/-! ### What is written elsewhere -/

namespace InText

theorem addText (h : InText bs written) (hless : kLess ∉ e) (he : decode e = some text) :
    InText (bs ++ e) (addText text written) := by
  obtain ⟨ts, content, text', rest, hreads, hcontent, hts, hrest, rfl⟩ := h
  have hadd := hreads.append (reads_text hless content)
  rw [List.append_nil] at hadd
  exact ⟨ts, content ++ e, text' ++ text, rest, hadd, decode_append hcontent he, hts, hrest,
    addText_textTokens hrest text⟩

theorem start (h : InText bs written) (hname : IsName name) :
    InTag (bs ++ (kLess :: name ++ [kSpace])) (.start name [] :: written) name := by
  obtain ⟨ts, content, text, rest, hreads, hcontent, hts, hrest, rfl⟩ := h
  exact ⟨_, [], [], _, hreads.append (reads_start hname content), rfl, decodeTokens_text hts hcontent, rfl⟩

theorem stop (h : InText bs written) (hname : IsName name) :
    InText (bs ++ (kLess :: kSlash :: name ++ [kGreater])) (.stop name :: written) := by
  obtain ⟨ts, content, text, rest, hreads, hcontent, hts, hrest, rfl⟩ := h
  have hstop := decodeTokens_snoc (decodeTokens_text hts hcontent) (t := .stop name) rfl
  rw [List.append_assoc] at hstop
  exact ⟨_, [], [], _, hreads.append (reads_stop hname content), rfl, hstop, noText_stop, rfl⟩

theorem tokens (h : InText bs written) : ∃ ts, tokens bs = some ts ∧ decodeTokens ts = some written.reverse := by
  obtain ⟨ts, content, text, rest, hreads, hcontent, hts, hrest, rfl⟩ := h
  exact ⟨_, hreads.tokens rfl, decodeTokens_text hts hcontent⟩

end InText

theorem inText_declaration (h : kQuestion ∉ bs) :
    InText (kLess :: kQuestion :: bs ++ [kQuestion, kGreater]) [.declaration bs] := by
  refine ⟨[.declaration bs], [], [], [.declaration bs], reads_declaration h [], rfl, rfl, ?_, rfl⟩
  rintro content rest ⟨⟩

end

end Zutils.Lib.Xml
