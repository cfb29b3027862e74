import Mathlib.Data.List.Basic

/-!
# The lexical structure of SQL

A lexer for MySQL's dialect of SQL, with backslash escapes and an encoding in which the bytes below 128 are ASCII, as a
machine that reads byte by byte. Quotes, comments and words are told apart; numbers are words, and an operator is its
characters. Comments leave no token, and those that begin with `/*!` are read as code.

`Encodes q v e` says that `e` stands for `v` between two quotes `q`. Where a quote opens a literal, a quoted encoding is
one token with the value it encodes, whatever is around it, and the tokens around it do not depend on it
(`tokens_literal`).
-/

namespace Zutils.Lib.Sql

inductive Token where
  /-- A literal; one that is not closed goes on to the end. -/
  | text (quote : UInt8) (closed : Bool) (value : List UInt8)
  | identifier (closed : Bool) (name : List UInt8)
  /-- `x'41'` and `b'01'`. -/
  | bits (closed : Bool) (digits : List UInt8)
  | word (w : List UInt8)
  | symbol (c : UInt8)
  | openComment
  deriving DecidableEq, Repr

inductive LexState where
  | between
  | word (w : List UInt8)
  | text (quote : UInt8) (value : List UInt8)
  /-- Behind a backslash. -/
  | escape (quote : UInt8) (value : List UInt8)
  /-- Behind a quote, which closes the literal unless it is doubled. -/
  | quote (quote : UInt8) (value : List UInt8)
  | identifier (name : List UInt8)
  | identifierQuote (name : List UInt8)
  | bits (digits : List UInt8)
  | dash | dashes | line
  | slash | blockOpen | block | blockStar
  deriving DecidableEq, Repr

def kBackslash : UInt8 := 0x5C

/-- What a character stands for behind a backslash. -/
def unescape (c : UInt8) : List UInt8 :=
  if c = 0x30 then [0]
  else if c = 0x62 then [0x08]
  else if c = 0x6E then [0x0A]
  else if c = 0x72 then [0x0D]
  else if c = 0x74 then [0x09]
  else if c = 0x5A then [0x1A]
  else if c = 0x25 ∨ c = 0x5F then [kBackslash, c]
  else [c]

def isSpace (c : UInt8) : Bool := c ≤ 0x20

/-- Letters, digits, `_`, `$`, and what is not ASCII. -/
def isWord (c : UInt8) : Bool :=
  0x30 ≤ c ∧ c ≤ 0x39 ∨ 0x41 ≤ c ∧ c ≤ 0x5A ∨ 0x61 ≤ c ∧ c ≤ 0x7A ∨ c = 0x5F ∨ c = 0x24 ∨ 0x80 ≤ c

/-- The words that make a number of the quoted text behind them. -/
def isBits (w : List UInt8) : Bool := w ∈ [[0x78], [0x58], [0x62], [0x42]]

/-- The state after a byte with which a token begins, and the token if that is all of it. -/
def begins (c : UInt8) : List Token × LexState :=
  if c = 0x27 ∨ c = 0x22 then ([], .text c [])
  else if c = 0x60 then ([], .identifier [])
  else if c = 0x23 then ([], .line)
  else if c = 0x2D then ([], .dash)
  else if c = 0x2F then ([], .slash)
  else if isWord c then ([], .word [c])
  else if isSpace c then ([], .between)
  else ([.symbol c], .between)

/-- Some tokens end in front of the byte. -/
def endsBefore (ts : List Token) (c : UInt8) : List Token × LexState := (ts ++ (begins c).1, (begins c).2)

/-- The tokens that are complete when the next byte has been read, and the state then. -/
def step (s : LexState) (c : UInt8) : List Token × LexState :=
  match s with
  | .between => begins c
  | .word w =>
    if isWord c then ([], .word (w ++ [c]))
    else if c = 0x27 ∧ isBits w then ([], .bits [])
    else endsBefore [.word w] c
  | .text q v =>
    if c = kBackslash then ([], .escape q v)
    else if c = q then ([], .quote q v)
    else ([], .text q (v ++ [c]))
  | .escape q v => ([], .text q (v ++ unescape c))
  | .quote q v => if c = q then ([], .text q (v ++ [c])) else endsBefore [.text q true v] c
  | .identifier n => if c = 0x60 then ([], .identifierQuote n) else ([], .identifier (n ++ [c]))
  | .identifierQuote n => if c = 0x60 then ([], .identifier (n ++ [c])) else endsBefore [.identifier true n] c
  | .bits d => if c = 0x27 then ([.bits true d], .between) else ([], .bits (d ++ [c]))
  | .dash => if c = 0x2D then ([], .dashes) else endsBefore [.symbol 0x2D] c
  -- two dashes begin a comment when there is a space behind them
  | .dashes =>
    if c = 0x0A then ([], .between)
    else if isSpace c then ([], .line)
    else if c = 0x2D then ([.symbol 0x2D], .dashes)
    else endsBefore [.symbol 0x2D, .symbol 0x2D] c
  | .line => ([], if c = 0x0A then .between else .line)
  | .slash => if c = 0x2A then ([], .blockOpen) else endsBefore [.symbol 0x2F] c
  | .blockOpen => if c = 0x21 then ([.symbol 0x21], .between) else ([], if c = 0x2A then .blockStar else .block)
  | .block => ([], if c = 0x2A then .blockStar else .block)
  | .blockStar => ([], if c = 0x2F then .between else if c = 0x2A then .blockStar else .block)

/-- What is complete at the end. -/
def finish : LexState → List Token
  | .between | .dashes | .line => []
  | .word w => [.word w]
  | .text q v | .escape q v => [.text q false v]
  | .quote q v => [.text q true v]
  | .identifier n => [.identifier false n]
  | .identifierQuote n => [.identifier true n]
  | .bits d => [.bits false d]
  | .dash => [.symbol 0x2D]
  | .slash => [.symbol 0x2F]
  | .blockOpen | .block | .blockStar => [.openComment]

/-- The state after some bytes. -/
def stateFrom (s : LexState) : List UInt8 → LexState
  | [] => s
  | c :: cs => stateFrom (step s c).2 cs

/-- The tokens that are complete after some bytes. -/
def emittedFrom (s : LexState) : List UInt8 → List Token
  | [] => []
  | c :: cs => (step s c).1 ++ emittedFrom (step s c).2 cs

def tokensFrom (s : LexState) (bs : List UInt8) : List Token := emittedFrom s bs ++ finish (stateFrom s bs)

/-- The tokens of a query. -/
def tokens (bs : List UInt8) : List Token := tokensFrom .between bs

/-- The literal that `q` has opened goes on. -/
def LexState.IsOpen (q : UInt8) (s : LexState) : Prop := ∃ v, s = .text q v ∨ s = .escape q v

/-- A quote opens a literal, or opens the last one again. -/
def LexState.Opens (q : UInt8) (s : LexState) : Prop := ∃ v, (step s q).2 = .text q v

section Append

variable {s : LexState} {bs cs : List UInt8}

lemma stateFrom_append : stateFrom s (bs ++ cs) = stateFrom (stateFrom s bs) cs := by
  induction bs generalizing s with
  | nil => rfl
  | cons b bs ih => exact ih

lemma emittedFrom_append : emittedFrom s (bs ++ cs) = emittedFrom s bs ++ emittedFrom (stateFrom s bs) cs := by
  induction bs generalizing s with
  | nil => rfl
  | cons b bs ih => rw [List.cons_append, emittedFrom, ih, emittedFrom, List.append_assoc]; rfl

lemma tokensFrom_append : tokensFrom s (bs ++ cs) = emittedFrom s bs ++ tokensFrom (stateFrom s bs) cs := by
  rw [tokensFrom, tokensFrom, emittedFrom_append, stateFrom_append, List.append_assoc]

lemma tokensFrom_cons (c : UInt8) : tokensFrom s (c :: cs) = (step s c).1 ++ tokensFrom (step s c).2 cs := by
  rw [tokensFrom, tokensFrom, emittedFrom, List.append_assoc]; rfl

end Append

/-! ### Literals -/

/-- `e` stands for `v` in a literal with the quote `q`. -/
inductive Encodes (q : UInt8) : List UInt8 → List UInt8 → Prop
  | nil : Encodes q [] []
  | plain {c : UInt8} {v e : List UInt8} : c ≠ q → c ≠ kBackslash → Encodes q v e → Encodes q (c :: v) (c :: e)
  | escaped {c : UInt8} {v e : List UInt8} : Encodes q v e → Encodes q (unescape c ++ v) (kBackslash :: c :: e)

section Literal

variable {q : UInt8} {v w e : List UInt8}

lemma step_plain {c : UInt8} (hq : c ≠ q) (hb : c ≠ kBackslash) : step (.text q w) c = ([], .text q (w ++ [c])) := by
  rw [step, if_neg hb, if_neg hq]

lemma step_backslash : step (.text q w) kBackslash = ([], .escape q w) := by
  rw [step, if_pos rfl]

/-- **What is read in a literal** is what the encoding stands for. -/
lemma Encodes.read (h : Encodes q v e) (w : List UInt8) :
    stateFrom (.text q w) e = .text q (w ++ v) ∧ emittedFrom (.text q w) e = [] := by
  induction h generalizing w with
  | nil => exact ⟨by rw [List.append_nil]; rfl, rfl⟩
  | @plain c v e hq hb _ ih =>
    obtain ⟨hstate, hemitted⟩ := ih (w ++ [c])
    rw [stateFrom, emittedFrom, step_plain hq hb, hstate, hemitted, List.append_assoc]
    exact ⟨rfl, rfl⟩
  | @escaped c v e _ ih =>
    obtain ⟨hstate, hemitted⟩ := ih (w ++ unescape c)
    rw [stateFrom, emittedFrom, step_backslash, stateFrom, emittedFrom]
    rw [step, hstate, hemitted, List.append_assoc]
    exact ⟨rfl, rfl⟩

lemma Encodes.isOpen (h : Encodes q v e) (w : List UInt8) {e' : List UInt8} (he : e' <+: e) :
    (stateFrom (.text q w) e').IsOpen q := by
  induction h generalizing w e' with
  | nil =>
    rw [List.prefix_nil.1 he]
    exact ⟨w, .inl rfl⟩
  | @plain c v e hq hb _ ih =>
    rcases List.prefix_cons_iff.1 he with rfl | ⟨e', rfl, he'⟩
    · exact ⟨w, .inl rfl⟩
    · rw [stateFrom, step_plain hq hb]
      exact ih _ he'
  | @escaped c v e _ ih =>
    rcases List.prefix_cons_iff.1 he with rfl | ⟨e', rfl, he'⟩
    · exact ⟨w, .inl rfl⟩
    · rw [stateFrom, step_backslash]
      rcases List.prefix_cons_iff.1 he' with rfl | ⟨e'', rfl, he''⟩
      · exact ⟨w, .inr rfl⟩
      · exact ih _ he''

/-- **A quoted encoding is a literal**, which its last byte closes. -/
theorem tokens_quoted (h : Encodes q v e) (hq : q = 0x27 ∨ q = 0x22) : tokens (q :: e ++ [q]) = [.text q true v] := by
  have hbegin : step .between q = ([], .text q []) := by rw [step, begins, if_pos hq]
  have hq' : q ≠ kBackslash := by rcases hq with rfl | rfl <;> decide
  obtain ⟨hstate, hemitted⟩ := h.read []
  rw [tokens, List.cons_append, tokensFrom_cons, hbegin, tokensFrom_append, hstate, hemitted, tokensFrom_cons, step,
    if_neg hq', if_pos rfl]
  rfl

/-- What follows a byte of a literal adds to its value or ends it, whatever the value is. -/
lemma tokensFrom_literal (q : UInt8) (post : List UInt8) {k : List UInt8 → LexState}
    (hk : k = .text q ∨ k = .escape q ∨ k = .quote q) :
    ∃ closed more rest, ∀ v, tokensFrom (k v) post = .text q closed (v ++ more) :: rest := by
  induction post generalizing k with
  | nil =>
    rcases hk with rfl | rfl | rfl
    · exact ⟨false, [], [], fun v => by rw [List.append_nil]; rfl⟩
    · exact ⟨false, [], [], fun v => by rw [List.append_nil]; rfl⟩
    · exact ⟨true, [], [], fun v => by rw [List.append_nil]; rfl⟩
  | cons c cs ih =>
    obtain ⟨closed, more, rest, ih₁⟩ := ih (.inl rfl)
    -- the byte adds to the value
    have hadd : ∀ bs v, tokensFrom (.text q (v ++ bs)) cs = .text q closed (v ++ (bs ++ more)) :: rest := fun bs v => by
      rw [ih₁, List.append_assoc]
    rcases hk with rfl | rfl | rfl
    · by_cases hb : c = kBackslash
      · obtain ⟨closed, more, rest, ih₂⟩ := ih (.inr (.inl rfl))
        refine ⟨closed, more, rest, fun v => ?_⟩
        rw [tokensFrom_cons, step, if_pos hb]
        exact ih₂ v
      · by_cases hq : c = q
        · obtain ⟨closed, more, rest, ih₃⟩ := ih (.inr (.inr rfl))
          refine ⟨closed, more, rest, fun v => ?_⟩
          rw [tokensFrom_cons, step, if_neg hb, if_pos hq]
          exact ih₃ v
        · refine ⟨closed, [c] ++ more, rest, fun v => ?_⟩
          rw [tokensFrom_cons, step_plain hq hb]
          exact hadd [c] v
    · exact ⟨closed, unescape c ++ more, rest, fun v => by rw [tokensFrom_cons]; exact hadd (unescape c) v⟩
    · by_cases hq : c = q
      · refine ⟨closed, [c] ++ more, rest, fun v => ?_⟩
        rw [tokensFrom_cons, step, if_pos hq]
        exact hadd [c] v
      · refine ⟨true, [], (begins c).1 ++ tokensFrom (begins c).2 cs, fun v => ?_⟩
        rw [tokensFrom_cons, step, if_neg hq, List.append_nil]
        rfl

/-- A literal that is not followed by another quote is complete. -/
lemma tokensFrom_quote {post : List UInt8} (hpost : post.head? ≠ some q) :
    ∃ rest, ∀ v, tokensFrom (.quote q v) post = .text q true v :: rest := by
  cases post with
  | nil => exact ⟨[], fun v => rfl⟩
  | cons c cs =>
    have hq : c ≠ q := fun h => hpost (congrArg some h)
    refine ⟨(begins c).1 ++ tokensFrom (begins c).2 cs, fun v => ?_⟩
    rw [tokensFrom_cons, step, if_neg hq]
    rfl

variable {pre post : List UInt8}

lemma tokens_opened (hq : q ≠ kBackslash) {w : List UInt8} (hw : (step (stateFrom .between pre) q).2 = .text q w)
    (h : Encodes q v e) : tokens (pre ++ (q :: e ++ [q]) ++ post) =
      emittedFrom .between (pre ++ [q]) ++ tokensFrom (.quote q (w ++ v)) post := by
  obtain ⟨hstate, hemitted⟩ := h.read w
  have hsplit : pre ++ (q :: e ++ [q]) ++ post = pre ++ [q] ++ (e ++ ([q] ++ post)) := by simp
  have hopen : stateFrom .between (pre ++ [q]) = .text q w := by rw [stateFrom_append]; exact hw
  rw [tokens, hsplit, tokensFrom_append, hopen, tokensFrom_append, hstate, hemitted, List.nil_append,
    List.singleton_append, tokensFrom_cons, step, if_neg hq, if_pos rfl]
  rfl

/-- **The tokens around a literal** do not depend on its value. -/
theorem tokens_literal (hq : q ≠ kBackslash) (hopens : (stateFrom .between pre).Opens q) (post : List UInt8) :
    ∃ before old closed more rest, ∀ v e, Encodes q v e →
      tokens (pre ++ (q :: e ++ [q]) ++ post) = before ++ .text q closed (old ++ v ++ more) :: rest := by
  obtain ⟨w, hw⟩ := hopens
  obtain ⟨closed, more, rest, hpost⟩ := tokensFrom_literal q post (.inr (.inr rfl))
  refine ⟨emittedFrom .between (pre ++ [q]), w, closed, more, rest, fun v e h => ?_⟩
  rw [tokens_opened hq hw h, hpost]

/-- **A literal by itself**: a quote opens a new one, and there is none behind it. -/
theorem tokens_own_literal (hq : q ≠ kBackslash) (hopens : (step (stateFrom .between pre) q).2 = .text q [])
    (hpost : post.head? ≠ some q) : ∃ before rest, ∀ v e, Encodes q v e →
      tokens (pre ++ (q :: e ++ [q]) ++ post) = before ++ .text q true v :: rest := by
  obtain ⟨rest, hpost⟩ := tokensFrom_quote hpost
  refine ⟨emittedFrom .between (pre ++ [q]), rest, fun v e h => ?_⟩
  rw [tokens_opened hq hopens h, hpost, List.nil_append]

end Literal

end Zutils.Lib.Sql
