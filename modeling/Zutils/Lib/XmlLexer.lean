import Mathlib.Data.List.Basic

/-!
# The lexical structure of XML

A lexer for documents of one declaration, tags and text, as a machine that reads byte by byte, in an encoding in which
the bytes below 128 are ASCII. A tag that closes itself is a start tag and an end tag. A document may still be growing: at
its end, a start tag to which attributes may be added counts as a start tag (`finish`).

`decode` puts in what the five predefined entities stand for. What a text or a value is encoded to may be done piece by
piece (`decode_append`).
-/

namespace Zutils.Lib.Xml

def kSpace : UInt8 := 0x20
def kQuote : UInt8 := 0x22
def kAmpersand : UInt8 := 0x26
def kApostrophe : UInt8 := 0x27
def kSlash : UInt8 := 0x2F
def kSemicolon : UInt8 := 0x3B
def kLess : UInt8 := 0x3C
def kEquals : UInt8 := 0x3D
def kGreater : UInt8 := 0x3E
def kQuestion : UInt8 := 0x3F

def isSpace (c : UInt8) : Bool := c = 0x20 ∨ c = 0x09 ∨ c = 0x0A ∨ c = 0x0D

/-- Letters, `_`, `:`, and what is not ASCII. -/
def isNameStart (c : UInt8) : Bool :=
  0x41 ≤ c ∧ c ≤ 0x5A ∨ 0x61 ≤ c ∧ c ≤ 0x7A ∨ c = 0x5F ∨ c = 0x3A ∨ 0x80 ≤ c

/-- These, digits, `-` and `.`. -/
def isNameByte (c : UInt8) : Bool := isNameStart c ∨ 0x30 ≤ c ∧ c ≤ 0x39 ∨ c = 0x2D ∨ c = 0x2E

/-- A name of an element or an attribute. -/
def IsName : List UInt8 → Prop
  | [] => False
  | c :: cs => isNameStart c = true ∧ ∀ d ∈ cs, isNameByte d = true

instance : DecidablePred IsName
  | [] => inferInstanceAs (Decidable False)
  | c :: cs => @instDecidableAnd (isNameStart c = true) _ _ (List.decidableBAll (isNameByte · = true) cs)

inductive Token where
  /-- What stands between `<?` and `?>`. -/
  | declaration (content : List UInt8)
  | start (name : List UInt8) (attributes : List (List UInt8 × List UInt8))
  | text (content : List UInt8)
  | stop (name : List UInt8)
  deriving DecidableEq, Repr

inductive LexState where
  | text (content : List UInt8)
  | less
  | declaration (content : List UInt8)
  /-- Behind a `?` in a declaration. -/
  | question (content : List UInt8)
  | startName (name : List UInt8)
  /-- Where an attribute may begin. -/
  | inTag (name : List UInt8) (attributes : List (List UInt8 × List UInt8))
  | attrName (name : List UInt8) (attributes : List (List UInt8 × List UInt8)) (attr : List UInt8)
  | attrEnd (name : List UInt8) (attributes : List (List UInt8 × List UInt8)) (attr : List UInt8)
  | equals (name : List UInt8) (attributes : List (List UInt8 × List UInt8)) (attr : List UInt8)
  | value (name : List UInt8) (attributes : List (List UInt8 × List UInt8)) (attr : List UInt8) (quote : UInt8)
      (value : List UInt8)
  | valueEnd (name : List UInt8) (attributes : List (List UInt8 × List UInt8))
  /-- Behind the `/` of a tag that closes itself. -/
  | slash (name : List UInt8) (attributes : List (List UInt8 × List UInt8))
  | stopName (name : List UInt8)
  | stopEnd (name : List UInt8)
  deriving DecidableEq, Repr

/-- A text, unless it is empty. -/
def textTokens : List UInt8 → List Token
  | [] => []
  | content => [.text content]

/-- Behind a name or a value in a start tag. -/
def stepTag (name : List UInt8) (attributes : List (List UInt8 × List UInt8)) (c : UInt8) :
    Option (List Token × LexState) :=
  if isSpace c then some ([], .inTag name attributes)
  else if c = kSlash then some ([], .slash name attributes)
  else if c = kGreater then some ([.start name attributes], .text [])
  else none

/-- The tokens that are complete when the next byte has been read, and the state then. -/
def step : LexState → UInt8 → Option (List Token × LexState)
  | .text content, c => if c = kLess then some (textTokens content, .less) else some ([], .text (content ++ [c]))
  | .less, c =>
    if c = kSlash then some ([], .stopName [])
    else if c = kQuestion then some ([], .declaration [])
    else if isNameStart c then some ([], .startName [c])
    else none
  | .declaration content, c =>
    if c = kQuestion then some ([], .question content) else some ([], .declaration (content ++ [c]))
  | .question content, c =>
    if c = kGreater then some ([.declaration content], .text [])
    else if c = kQuestion then some ([], .question (content ++ [c]))
    else some ([], .declaration (content ++ [kQuestion, c]))
  | .startName name, c => if isNameByte c then some ([], .startName (name ++ [c])) else stepTag name [] c
  | .inTag name attributes, c =>
    if isNameStart c then some ([], .attrName name attributes [c]) else stepTag name attributes c
  | .attrName name attributes attr, c =>
    if isNameByte c then some ([], .attrName name attributes (attr ++ [c]))
    else if c = kEquals then some ([], .equals name attributes attr)
    else if isSpace c then some ([], .attrEnd name attributes attr)
    else none
  | .attrEnd name attributes attr, c =>
    if c = kEquals then some ([], .equals name attributes attr)
    else if isSpace c then some ([], .attrEnd name attributes attr)
    else none
  | .equals name attributes attr, c =>
    if c = kQuote ∨ c = kApostrophe then some ([], .value name attributes attr c [])
    else if isSpace c then some ([], .equals name attributes attr)
    else none
  | .value name attributes attr quote value, c =>
    if c = quote then some ([], .valueEnd name (attributes ++ [(attr, value)]))
    else if c = kLess then none
    else some ([], .value name attributes attr quote (value ++ [c]))
  | .valueEnd name attributes, c => stepTag name attributes c
  | .slash name attributes, c => if c = kGreater then some ([.start name attributes, .stop name], .text []) else none
  | .stopName name, c =>
    if isNameByte c ∧ (name ≠ [] ∨ isNameStart c) then some ([], .stopName (name ++ [c]))
    else if name ≠ [] ∧ c = kGreater then some ([.stop name], .text [])
    else if name ≠ [] ∧ isSpace c then some ([], .stopEnd name)
    else none
  | .stopEnd name, c =>
    if c = kGreater then some ([.stop name], .text [])
    else if isSpace c then some ([], .stopEnd name)
    else none

/-- The tokens that are complete behind some bytes, and the state then. -/
def read : LexState → List UInt8 → Option (List Token × LexState)
  | s, [] => some ([], s)
  | s, c :: cs => do
    let (ts, s) ← step s c
    let (ts', s) ← read s cs
    return (ts ++ ts', s)

/-- The token at the end of what has been written. -/
def finish : LexState → Option (List Token)
  | .text content => some (textTokens content)
  | .inTag name attributes => some [.start name attributes]
  | .valueEnd name attributes => some [.start name attributes]
  | _ => none

/-- The tokens of a document, if it is well formed as far as it goes. -/
def tokens (bs : List UInt8) : Option (List Token) := do
  let (ts, s) ← read (.text []) bs
  let ts' ← finish s
  return ts ++ ts'

/-! ### Reading -/

section Read

variable {s s' s'' : LexState} {bs cs : List UInt8} {ts us : List Token} {c : UInt8}
  {name attr value content : List UInt8} {attributes : List (List UInt8 × List UInt8)}

/-- The bytes lead from one state to the other, with these tokens. -/
def Reads (s : LexState) (bs : List UInt8) (ts : List Token) (s' : LexState) : Prop := read s bs = some (ts, s')

namespace Reads

lemma nil : Reads s [] [] s := rfl

lemma cons (h : step s c = some (ts, s')) (h' : Reads s' cs us s'') : Reads s (c :: cs) (ts ++ us) s'' := by
  rw [Reads] at h' ⊢
  rw [read, h, Option.bind_eq_bind, Option.bind_some]
  dsimp only
  rw [h']
  rfl

lemma one (h : step s c = some (ts, s')) : Reads s [c] ts s' := by
  have hone := Reads.nil.cons h
  rwa [List.append_nil] at hone

lemma quiet (h : step s c = some ([], s')) (h' : Reads s' cs us s'') : Reads s (c :: cs) us s'' := h'.cons h

lemma append (h : Reads s bs ts s') (h' : Reads s' cs us s'') : Reads s (bs ++ cs) (ts ++ us) s'' := by
  induction bs generalizing s ts with
  | nil =>
    obtain ⟨rfl, rfl⟩ := Prod.mk.inj (Option.some.inj h)
    exact h'
  | cons c bs ih =>
    rw [Reads, read, Option.bind_eq_bind, Option.bind_eq_some_iff] at h
    obtain ⟨⟨ts₁, s₁⟩, hstep, hrest⟩ := h
    obtain ⟨⟨ts₂, s₂⟩, hread, heq⟩ := Option.bind_eq_some_iff.1 hrest
    obtain ⟨rfl, rfl⟩ := Prod.mk.inj (Option.some.inj heq)
    rw [List.append_assoc]
    exact (ih hread).cons hstep

end Reads

lemma reads_gather {f : List UInt8 → LexState} (h : ∀ acc, ∀ c ∈ bs, step (f acc) c = some ([], f (acc ++ [c])))
    (acc : List UInt8) : Reads (f acc) bs [] (f (acc ++ bs)) := by
  induction bs generalizing acc with
  | nil =>
    rw [List.append_nil]
    exact .nil
  | cons c bs ih =>
    have hrest := ih (fun acc d hd => h acc d (List.mem_cons_of_mem c hd)) (acc ++ [c])
    rw [List.append_assoc] at hrest
    exact hrest.quiet (h acc c List.mem_cons_self)

lemma reads_text (h : kLess ∉ bs) (content : List UInt8) : Reads (.text content) bs [] (.text (content ++ bs)) := by
  refine reads_gather ?_ content
  intro acc c hc
  have hne : c ≠ kLess := fun heq => h (heq ▸ hc)
  exact if_neg hne

lemma reads_less (content : List UInt8) : Reads (.text content) [kLess] (textTokens content) .less :=
  .one rfl

lemma reads_declaration (h : kQuestion ∉ bs) (content : List UInt8) :
    Reads (.text content) (kLess :: kQuestion :: bs ++ [kQuestion, kGreater])
      (textTokens content ++ [.declaration bs]) (.text []) := by
  have hgather : Reads (.declaration []) bs [] (.declaration bs) := by
    refine reads_gather ?_ []
    intro acc c hc
    have hne : c ≠ kQuestion := fun heq => h (heq ▸ hc)
    exact if_neg hne
  have hopen : step .less kQuestion = some ([], .declaration []) := rfl
  have hquestion : step (.declaration bs) kQuestion = some ([], .question bs) := rfl
  have hgreater : step (.question bs) kGreater = some ([.declaration bs], .text []) := rfl
  have hend : Reads (.declaration bs) [kQuestion, kGreater] [.declaration bs] (.text []) :=
    (Reads.one hgreater).quiet hquestion
  exact (reads_less content).append ((hgather.append hend).quiet hopen)

lemma reads_start (h : IsName name) (content : List UInt8) :
    Reads (.text content) (kLess :: name ++ [kSpace]) (textTokens content) (.inTag name []) := by
  cases name with
  | nil => cases h
  | cons c cs =>
    obtain ⟨hc, hcs⟩ := h
    have hslash : c ≠ kSlash := by rintro rfl; cases hc
    have hquestion : c ≠ kQuestion := by rintro rfl; cases hc
    have hfirst : step .less c = some ([], .startName [c]) := by
      rw [step, if_neg hslash, if_neg hquestion, if_pos hc]
    have hgather : Reads (.startName [c]) cs [] (.startName (c :: cs)) := by
      refine reads_gather ?_ [c]
      intro acc d hd
      exact if_pos (hcs d hd)
    have hspace : step (.startName (c :: cs)) kSpace = some ([], .inTag (c :: cs) []) := rfl
    have hrest : Reads .less (c :: (cs ++ [kSpace])) [] (.inTag (c :: cs) []) :=
      (hgather.append (.one hspace)).quiet hfirst
    have hall := (reads_less content).append hrest
    rwa [List.append_nil] at hall

lemma reads_attribute (h : IsName attr) (hquote : kQuote ∉ value) (hless : kLess ∉ value) :
    Reads (.inTag name attributes) (attr ++ [kEquals, kQuote] ++ value ++ [kQuote, kSpace]) []
      (.inTag name (attributes ++ [(attr, value)])) := by
  cases attr with
  | nil => cases h
  | cons c cs =>
    obtain ⟨hc, hcs⟩ := h
    have hfirst : step (.inTag name attributes) c = some ([], .attrName name attributes [c]) := if_pos hc
    have hgather : Reads (.attrName name attributes [c]) cs [] (.attrName name attributes (c :: cs)) := by
      refine reads_gather ?_ [c]
      intro acc d hd
      exact if_pos (hcs d hd)
    have hequals : step (.attrName name attributes (c :: cs)) kEquals =
        some ([], .equals name attributes (c :: cs)) := rfl
    have hopen : step (.equals name attributes (c :: cs)) kQuote =
        some ([], .value name attributes (c :: cs) kQuote []) := rfl
    have hvalue : Reads (.value name attributes (c :: cs) kQuote []) value []
        (.value name attributes (c :: cs) kQuote value) := by
      refine reads_gather ?_ []
      intro acc d hd
      have hd₁ : d ≠ kQuote := fun heq => hquote (heq ▸ hd)
      have hd₂ : d ≠ kLess := fun heq => hless (heq ▸ hd)
      rw [step, if_neg hd₁, if_neg hd₂]
    have hclose : step (.value name attributes (c :: cs) kQuote value) kQuote =
        some ([], .valueEnd name (attributes ++ [(c :: cs, value)])) := rfl
    have hspace : step (.valueEnd name (attributes ++ [(c :: cs, value)])) kSpace =
        some ([], .inTag name (attributes ++ [(c :: cs, value)])) := rfl
    exact (((hgather.quiet hfirst).append ((Reads.one hopen).quiet hequals)).append hvalue).append
      ((Reads.one hspace).quiet hclose)

lemma reads_greater : Reads (.inTag name attributes) [kGreater] [.start name attributes] (.text []) := .one rfl

lemma reads_closed :
    Reads (.inTag name attributes) [kSlash, kGreater] [.start name attributes, .stop name] (.text []) := by
  have hslash : step (.inTag name attributes) kSlash = some ([], .slash name attributes) := rfl
  have hgreater : step (.slash name attributes) kGreater =
      some ([.start name attributes, .stop name], .text []) := rfl
  exact (Reads.one hgreater).quiet hslash

lemma reads_stop (h : IsName name) (content : List UInt8) :
    Reads (.text content) (kLess :: kSlash :: name ++ [kGreater]) (textTokens content ++ [.stop name]) (.text []) := by
  cases name with
  | nil => cases h
  | cons c cs =>
    obtain ⟨hc, hcs⟩ := h
    have hslash : step .less kSlash = some ([], .stopName []) := rfl
    have hfirst : step (.stopName []) c = some ([], .stopName [c]) := by
      have hbyte : isNameByte c = true := by
        rw [isNameByte, decide_eq_true_eq]
        exact .inl hc
      exact if_pos ⟨hbyte, .inr hc⟩
    -- What has been gathered is never empty behind the first byte.
    have hgather : Reads (.stopName (c :: [])) cs [] (.stopName (c :: ([] ++ cs))) := by
      refine reads_gather (f := fun acc => .stopName (c :: acc)) ?_ []
      intro acc d hd
      exact if_pos ⟨hcs d hd, .inl (List.cons_ne_nil c acc)⟩
    have hgreater : step (.stopName (c :: cs)) kGreater = some ([.stop (c :: cs)], .text []) := by
      have hnot : ¬ (isNameByte kGreater = true ∧ (c :: cs ≠ [] ∨ isNameStart kGreater = true)) := by
        rintro ⟨hbyte, -⟩
        cases hbyte
      rw [step, if_neg hnot]
      exact if_pos ⟨List.cons_ne_nil c cs, rfl⟩
    exact (reads_less content).append (((hgather.append (.one hgreater)).quiet hfirst).quiet hslash)

lemma Reads.tokens (h : Reads (.text []) bs ts s) (hs : finish s = some us) : tokens bs = some (ts ++ us) := by
  rw [Xml.tokens, h, Option.bind_eq_bind, Option.bind_some]
  dsimp only
  rw [hs]
  rfl

end Read

/-! ### Entities -/

/-- The predefined entities: `lt`, `gt`, `amp`, `apos` and `quot`. -/
def entities : List (List UInt8 × UInt8) :=
  [([0x6C, 0x74], kLess), ([0x67, 0x74], kGreater), ([0x61, 0x6D, 0x70], kAmpersand),
    ([0x61, 0x70, 0x6F, 0x73], kApostrophe), ([0x71, 0x75, 0x6F, 0x74], kQuote)]

/-- Decoding, where `entity` is what has been read of an entity. -/
def decodeFrom : Option (List UInt8) → List UInt8 → Option (List UInt8)
  | none, [] => some []
  | some _, [] => none
  | none, c :: cs => if c = kAmpersand then decodeFrom (some []) cs else (c :: ·) <$> decodeFrom none cs
  | some entity, c :: cs =>
    if c = kSemicolon then
      match entities.lookup entity with
      | some b => (b :: ·) <$> decodeFrom none cs
      | none => none
    else decodeFrom (some (entity ++ [c])) cs

/-- What a text or a value stands for. -/
def decode (bs : List UInt8) : Option (List UInt8) := decodeFrom none bs

/-- The token with what its text or its values stand for. -/
def Token.decode : Token → Option Token
  | .declaration content => some (.declaration content)
  | .start name attributes => do
    let attributes ← attributes.mapM fun a => (Prod.mk a.1) <$> Xml.decode a.2
    return .start name attributes
  | .text content => Token.text <$> Xml.decode content
  | .stop name => some (.stop name)

section Entities

variable {e e' v v' : List UInt8} {c : UInt8}

lemma decodeFrom_append {entity : Option (List UInt8)} (h : decodeFrom entity e = some v) (h' : decode e' = some v') :
    decodeFrom entity (e ++ e') = some (v ++ v') := by
  induction e generalizing entity v with
  | nil =>
    cases entity with
    | none =>
      obtain rfl : [] = v := Option.some.inj h
      exact h'
    | some entity => cases h
  | cons c e ih =>
    cases entity with
    | none =>
      rw [List.cons_append, decodeFrom]
      rw [decodeFrom] at h
      split
      · rename_i hc
        rw [if_pos hc] at h
        exact ih h
      · rename_i hc
        rw [if_neg hc] at h
        obtain ⟨w, hw, rfl⟩ := Option.map_eq_some_iff.1 h
        rw [ih hw]
        rfl
    | some entity =>
      rw [List.cons_append, decodeFrom]
      rw [decodeFrom] at h
      split
      · rename_i hc
        rw [if_pos hc] at h
        cases hlookup : entities.lookup entity with
        | none =>
          rw [hlookup] at h
          cases h
        | some b =>
          rw [hlookup] at h
          obtain ⟨w, hw, rfl⟩ := Option.map_eq_some_iff.1 h
          dsimp only
          rw [ih hw]
          rfl
      · rename_i hc
        rw [if_neg hc] at h
        exact ih h

/-- **Piece by piece.** -/
theorem decode_append (h : decode e = some v) (h' : decode e' = some v') : decode (e ++ e') = some (v ++ v') :=
  decodeFrom_append h h'

lemma decodeFrom_entity {entity : List UInt8} (h : decodeFrom (some entity) e = some v) : v ≠ [] := by
  induction e generalizing entity with
  | nil => cases h
  | cons c e ih =>
    rw [decodeFrom] at h
    split at h
    · cases hlookup : entities.lookup entity with
      | none =>
        rw [hlookup] at h
        cases h
      | some b =>
        rw [hlookup] at h
        obtain ⟨w, -, rfl⟩ := Option.map_eq_some_iff.1 h
        exact List.cons_ne_nil b w
    · exact ih h

lemma decode_eq_nil (h : decode e = some []) : e = [] := by
  cases e with
  | nil => rfl
  | cons c e =>
    rw [decode, decodeFrom] at h
    split at h
    · exact absurd rfl (decodeFrom_entity h)
    · obtain ⟨w, -, hw⟩ := Option.map_eq_some_iff.1 h
      cases hw

lemma decode_plain (h : kAmpersand ∉ v) : decode v = some v := by
  induction v with
  | nil => rfl
  | cons c v ih =>
    rw [List.mem_cons, not_or] at h
    rw [decode, decodeFrom, if_neg (Ne.symm h.1)]
    exact congrArg (Option.map (c :: ·)) (ih h.2)

lemma decode_flatMap {f : UInt8 → List UInt8} (h : ∀ c ∈ v, decode (f c) = some [c]) :
    decode (v.flatMap f) = some v := by
  induction v with
  | nil => rfl
  | cons c v ih =>
    rw [List.flatMap_cons]
    exact decode_append (h c List.mem_cons_self) (ih fun d hd => h d (List.mem_cons_of_mem c hd))

end Entities

end Zutils.Lib.Xml
