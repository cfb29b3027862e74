import Zutils.Net.Http.ResponseTurns

/-!
# Reads of a client of responses (`http_parser_execute`)

A turn of the parser takes some of the bytes of a read, and what it does with them is what a reader does that takes them
one by one (`takes_turn`). So a client that receives a read is where the reader is behind its bytes
(`ResponseClient.receive_run`), and how a stream is cut into reads does not matter (`ResponseClient.receive_reads`).
-/

namespace Zutils.Net.Http

variable {strict : Bool} {p : ResponseParser} {ch : UInt8} {mark mark' : Option ParserData} {bytes : List UInt8}

/-- The first bytes of a kind, and what is behind them. -/
lemma exists_span (q : UInt8 → Prop) [DecidablePred q] (l : List UInt8) : ∃ a b, l = a ++ b ∧ (∀ c ∈ a, q c) ∧
    (b = [] ∨ ∃ c t, b = c :: t ∧ ¬ q c) := by
  induction l with
  | nil => exact ⟨[], [], rfl, by simp, .inl rfl⟩
  | cons c l ih =>
    by_cases hc : q c
    · obtain ⟨a, b, rfl, ha, hb⟩ := ih
      exact ⟨c :: a, b, rfl, List.forall_mem_cons.2 ⟨hc, ha⟩, hb⟩
    · exact ⟨[], c :: l, rfl, by simp, .inr ⟨c, l, rfl, hc⟩⟩

/-! ### What a reader makes of the bytes of a turn -/

/-- The mark within a read: that of the state, or the part of the body that has not been handed over yet. -/
def MarkFits (p : ResponseParser) (mark : Option ParserData) : Prop :=
  mark = p.openMark ∨
    mark = some .body ∧ p.openMark = none ∧ p.state.taking = true

lemma MarkFits.settled {r : Reading} (h : MarkFits p mark) (hset : r.Settled mark) : r.Settled p.openMark := by
  rcases h with rfl | ⟨-, hopen, -⟩
  · exact hset
  · rw [hopen]
    exact .none _

/-- The turn leaves the bytes `left`, and does what takes a reader from `s` to `s₁`. -/
structure Taken (t : ParserTurn) (mark : Option ParserData) (s : ResponseReader) (left : List UInt8)
    (s₁ : ResponseReader) (mark₁ : Option ParserData) : Prop where
  next : t.next = .ok left
  parser : t.parser = s₁.parser
  follow : t.effects.foldlM Hearing.follow ⟨mark, s.reading⟩ = some ⟨mark₁, s₁.reading⟩
  mark : MarkFits s₁.parser mark₁
  head : s₁.head ≤ kMaxHead
  counts : ∀ n : ℤ, 0 ≤ n → n ≤ 4 * s.head → ∃ n₁, CountsTo n t.effects n₁ ∧ 0 ≤ n₁ ∧ n₁ ≤ 4 * s₁.head

/-- The turn takes some of the bytes, and a reader goes on from there. -/
def Takes (strict : Bool) (t : ParserTurn) (mark : Option ParserData) (s s' : ResponseReader)
    (bytes : List UInt8) : Prop :=
  ∃ left s₁ mark₁, Taken t mark s left s₁ mark₁ ∧ left.length < bytes.length ∧
    ResponseReader.run strict s₁ left = some s'

namespace ResponseReader

variable {s s' s₁ : ResponseReader} {a b rest : List UInt8}

lemma takes_oneByte (h : s.parser.state.taking = false) (hmark : MarkFits s.parser mark)
    (hrun : s.run strict (ch :: rest) = some s') :
    Takes strict (s.parser.turn strict ch rest) mark s s' (ch :: rest) := by
  obtain ⟨s₁, hs₁, hrest⟩ := Option.bind_eq_some_iff.1 (run_cons.symm.trans hrun)
  obtain ⟨hhead, hnext, ⟨mark₁, r₁⟩, hfollow, rfl⟩ := step_eq_some.1 hs₁
  obtain ⟨hany, heffects⟩ : OneByte s.parser.openMark _ (s.parser.turn strict ch) := ResponseParser.turn_oneByte h
  obtain ⟨hhears, hcounts⟩ := heffects hnext
  obtain rfl : mark = s.parser.openMark := hmark.resolve_right fun hm => by simp [h] at hm
  have heq : mark₁ = (s.parser.turn strict ch []).parser.openMark := by
    obtain ⟨r', hr'⟩ := hhears s.reading
    exact congrArg Hearing.mark (Option.some.inj (hfollow.symm.trans hr'))
  have hmax : kHttpMaxHeaderSize = 4 * kMaxHead := by decide
  rw [hany rest, hnext]
  refine ⟨rest, _, mark₁, ⟨rfl, rfl, hfollow, .inl heq, ?_, fun n hn hle => ?_⟩, Nat.lt_succ_self _, hrest⟩
  · show (if _ then _ else _) ≤ kMaxHead
    split
    · exact Nat.zero_le _
    · exact hhead
  · have hbudget : n + ((if s.parser.state.parsingHeader then 4 else 0 : ℕ) : ℤ) ≤ 4 * s.headBehind := by
      unfold headBehind
      split <;> omega
    obtain ⟨n₁, hn₁, hge, hle₁⟩ := hcounts n hn (by omega)
    refine ⟨n₁, hn₁, hge, ?_⟩
    show n₁ ≤ 4 * ((if .clear ∈ (s.parser.turn strict ch []).effects then 0 else s.headBehind : ℕ) : ℤ)
    split at hle₁ <;> rename_i hclear
    · rw [if_pos hclear]
      exact hle₁
    · rw [if_neg hclear]
      omega

end ResponseReader

/-! ### Names -/

namespace ResponseParser

/-- What a name makes of the parser. -/
def headerFieldBytes (strict : Bool) (p : ResponseParser) (name : List UInt8) : ResponseParser :=
  name.foldl (fun p c => p.headerFieldByte c (token strict c)) p

lemma state_matchWord {word : List UInt8} {matched unmatched : HeaderState} {c : UInt8} :
    (p.matchWord word matched unmatched c).state = p.state := by
  unfold matchWord
  dsimp only
  split_ifs <;> rfl

lemma state_headerFieldByte {c : UInt8} : (p.headerFieldByte ch c).state = p.state := by
  unfold headerFieldByte
  split
  all_goals first | rfl | exact state_matchWord | (split_ifs <;> rfl)

lemma state_headerFieldBytes {name : List UInt8} : (p.headerFieldBytes strict name).state = p.state := by
  induction name generalizing p with
  | nil => rfl
  | cons c name ih => exact ih.trans state_headerFieldByte

lemma turn_headerField (h : p.state = .headerField) (rest : List UInt8) :
    p.turn strict ch rest = (p.headerField strict ch rest).after [.count 1] := by
  simp [turn, dispatch, h, ParserState.parsingHeader]

/-- A name to the end of the read. -/
lemma headerField_left (h : ∀ c ∈ ch :: bytes, token strict c ≠ 0) : p.headerField strict ch bytes =
    ⟨p.headerFieldBytes strict (ch :: bytes), [.pass (ch :: bytes), .count (ch :: bytes).length], .ok []⟩ := by
  have htake : (ch :: bytes).takeWhile (fun c => decide (token strict c ≠ 0)) = ch :: bytes :=
    List.takeWhile_eq_self_iff.2 fun c hc => decide_eq_true (h c hc)
  have hdrop : (ch :: bytes).dropWhile (fun c => decide (token strict c ≠ 0)) = [] :=
    List.dropWhile_eq_nil_iff.2 fun c hc => decide_eq_true (h c hc)
  rw [headerField, htake, hdrop]
  rfl

/-- A name that ends in the read. -/
lemma headerField_ends {name left : List UInt8} {c : UInt8} (h : ∀ c ∈ name, token strict c ≠ 0)
    (hc : token strict c = 0) (heq : ch :: bytes = name ++ c :: left) : p.headerField strict ch bytes =
    if c = 0x3A then
      consume { p.headerFieldBytes strict name with state := .headerValueDiscardWs } c left
        [.pass name, .count name.length, .data .headerField]
    else (p.headerFieldBytes strict name).fail .invalidHeaderToken [.pass name, .count name.length] := by
  have htake : (ch :: bytes).takeWhile (fun c => decide (token strict c ≠ 0)) = name := by
    rw [heq, List.takeWhile_append_of_pos fun c hc => decide_eq_true (h c hc)]
    simp [hc]
  have hdrop : (ch :: bytes).dropWhile (fun c => decide (token strict c ≠ 0)) = c :: left := by
    rw [heq, List.dropWhile_append_of_pos fun c hc => decide_eq_true (h c hc)]
    simp [hc]
  rw [headerField, htake, hdrop]
  rfl

/-- A byte behind a name. -/
lemma headerField_behind (hc : token strict ch = 0) : p.headerField strict ch [] =
    if ch = 0x3A then
      consume { p with state := .headerValueDiscardWs } ch [] [.pass [], .count 0, .data .headerField]
    else p.fail .invalidHeaderToken [.pass [], .count 0] := by
  have hnone : ∀ c ∈ ([] : List UInt8), token strict c ≠ 0 := by simp
  exact headerField_ends hnone hc rfl

end ResponseParser

namespace ResponseReader

variable {s s' : ResponseReader} {p' : ResponseParser} {head : ℕ} {r : Reading} {rest name : List UInt8}

lemma run_name (hstate : p.state = .headerField) (hset : r.Settled (some .headerField)) (hhead : head ≤ kMaxHead)
    (hname : ∀ c ∈ name, token strict c ≠ 0) :
    run strict ⟨p, head, r⟩ name = if head + name.length ≤ kMaxHead then
      some ⟨p.headerFieldBytes strict name, head + name.length, r.hear (.data .headerField name)⟩ else none := by
  refine run_part (q := fun p l => p.state = .headerField ∧ ∀ c ∈ l, token strict c ≠ 0) ?_ ⟨hstate, hname⟩ hset hhead
  rintro p c l head r ⟨hstate, hl⟩
  have hc : ∀ c' ∈ [c], token strict c' ≠ 0 := by simpa using hl c List.mem_cons_self
  refine ⟨⟨ResponseParser.state_headerFieldByte.trans hstate, fun c hc => hl c (.tail _ hc)⟩, ?_⟩
  refine step_of_turn (h := ⟨some .headerField, r.hear (.data .headerField [c])⟩)
    ((ResponseParser.turn_headerField hstate []).trans (congrArg _ (ResponseParser.headerField_left hc))) rfl ?_
    (by simp [ParserTurn.after]) (by rw [hstate]; rfl)
  rw [show p.openMark = some .headerField by simp [ResponseParser.openMark, hstate]]
  rfl

lemma step_colon (hstate : p.state = .headerField) (hset : r.Settled (some .headerField))
    (hc : token strict 0x3A = 0) :
    step strict ⟨p, head, r⟩ 0x3A = if head + 1 ≤ kMaxHead then
      some ⟨{ p with state := .headerValueDiscardWs }, head + 1, r⟩ else none := by
  have hturn := (ResponseParser.headerField_behind (p := p) hc).trans (if_pos rfl)
  refine step_of_turn (h := ⟨none, r⟩) ((ResponseParser.turn_headerField hstate []).trans (congrArg _ hturn)) rfl ?_
    (by simp [ParserTurn.after, ResponseParser.consume]) (by rw [hstate]; rfl)
  rw [show p.openMark = some .headerField by simp [ResponseParser.openMark, hstate]]
  show some (Hearing.mk none (r.hear (.data .headerField []))) = _
  rw [hset _ rfl]

lemma step_behind_name (hstate : s.parser.state = .headerField) (hc : token strict ch = 0) (hcolon : ch ≠ 0x3A) :
    s.step strict ch ≠ some s' := by
  intro h
  obtain ⟨-, hnext, -⟩ := step_eq_some.1 h
  rw [ResponseParser.turn_headerField hstate, ResponseParser.headerField_behind hc, if_neg hcolon] at hnext
  cases hnext

lemma takes_headerField (hstate : p.state = .headerField) (hset : r.Settled (some .headerField))
    (hhead : head ≤ kMaxHead) (hrun : run strict ⟨p, head, r⟩ (ch :: rest) = some s') :
    Takes strict (p.turn strict ch rest) (some .headerField) ⟨p, head, r⟩ s' (ch :: rest) := by
  have hmax : kHttpMaxHeaderSize = 4 * kMaxHead := by decide
  rw [ResponseParser.turn_headerField hstate]
  obtain ⟨name, left, heq, hname, hleft⟩ := exists_span (fun c => token strict c ≠ 0) (ch :: rest)
  have hlength := congrArg List.length heq
  obtain ⟨s₁, hs₁, hrun⟩ := Option.bind_eq_some_iff.1 (run_append.symm.trans (heq ▸ hrun))
  obtain ⟨hlen, hs₁⟩ := Option.ite_none_right_eq_some.1 ((run_name hstate hset hhead hname).symm.trans hs₁)
  obtain rfl := Option.some.inj hs₁
  have hstate' : (p.headerFieldBytes strict name).state = .headerField :=
    ResponseParser.state_headerFieldBytes.trans hstate
  rcases hleft with rfl | ⟨c, left, rfl, hc⟩
  · obtain rfl : name = ch :: rest := by simpa using heq.symm
    rw [ResponseParser.headerField_left hname]
    refine ⟨[], _, some .headerField, ⟨rfl, rfl, rfl, .inl ?_, hlen, fun n hn (hle : n ≤ 4 * (head : ℤ)) => ?_⟩, by simp, hrun⟩
    · simp [ResponseParser.openMark, hstate']
    · simp only [List.length_cons] at hlen
      refine ⟨n + 1 + (ch :: rest).length, ⟨by omega, by omega, by simp; omega, by simp; omega, rfl⟩, by omega, ?_⟩
      simp only [List.length_cons]
      omega
  · have hc : token strict c = 0 := not_not.1 hc
    obtain ⟨s₂, hs₂, hrun⟩ := Option.bind_eq_some_iff.1 (run_cons.symm.trans hrun)
    obtain rfl : c = 0x3A := by
      by_contra hcolon
      exact step_behind_name hstate' hc hcolon hs₂
    obtain ⟨hlen₂, hs₂⟩ := Option.ite_none_right_eq_some.1 ((step_colon hstate' (.hear _ _ _) hc).symm.trans hs₂)
    obtain rfl := Option.some.inj hs₂
    rw [ResponseParser.headerField_ends hname hc heq, if_pos rfl]
    refine ⟨left, _, none, ⟨rfl, rfl, rfl, .inl rfl, hlen₂, fun n hn (hle : n ≤ 4 * (head : ℤ)) => ?_⟩, ?_, hrun⟩
    · refine ⟨n + 1 + name.length, ⟨by omega, by omega, by omega, by omega, rfl⟩, by omega, ?_⟩
      show _ ≤ 4 * ((head + name.length + 1 : ℕ) : ℤ)
      omega
    · simp at hlength ⊢
      omega

end ResponseReader

/-! ### Values -/

namespace ResponseParser

lemma state_finishHeader : p.finishHeader.state = p.state := by
  unfold finishHeader
  split <;> rfl

lemma state_headerValueByte {p' : ResponseParser} (h : p.headerValueByte ch = .ok p') : p'.state = p.state := by
  unfold headerValueByte at h
  dsimp only at h
  split at h
  all_goals
    first
    | (obtain rfl := Except.ok.inj h; first | rfl | exact state_matchWord)
    | (split_ifs at h <;> first | (cases h; done) | (obtain rfl := Except.ok.inj h; first | rfl | exact state_finishHeader))

lemma turn_headerValue (h : p.state = .headerValue) (rest : List UInt8) :
    p.turn strict ch rest = (p.headerValue strict ch rest).after [.count 1] := by
  simp [turn, dispatch, h, ParserState.parsingHeader]

/-- How far `p` skips, when the line ends in the window, or the read does. -/
lemma skipTo_eq {value left : List UInt8} (hvalue : ∀ c ∈ value, isLineEnd c = false)
    (hleft : left = [] ∨ ∃ c t, left = c :: t ∧ isLineEnd c = true) (hlen : value.length < kHttpMaxHeaderSize) :
    skipTo (value ++ left) = value.length := by
  have hnone : value.findIdx? isLineEnd = none := List.findIdx?_eq_none_iff.2 hvalue
  have htake : value.take kHttpMaxHeaderSize = value := List.take_of_length_le hlen.le
  unfold skipTo
  rw [List.take_append, htake]
  rcases hleft with rfl | ⟨c, t, rfl, hc⟩
  · simp [hnone]
  · obtain ⟨k, hk⟩ : ∃ k, kHttpMaxHeaderSize - value.length = k + 1 := ⟨_, (Nat.succ_pred_eq_of_pos (by omega)).symm⟩
    rw [hk, List.take_succ_cons, List.findIdx?_append, hnone]
    simp [List.findIdx?_cons, hc]

/-- The rest of a value that says nothing. -/
lemma scanValue_general {value left : List UInt8} (hstate : p.headerState = .general)
    (hvalue : ∀ c ∈ value, isLineEnd c = false) (hne : value ≠ [])
    (hleft : left = [] ∨ ∃ c t, left = c :: t ∧ isLineEnd c = true) (hlen : value.length < kHttpMaxHeaderSize) :
    p.scanValue (value ++ left) = (p, value, .ok left) := by
  have hskip := skipTo_eq hvalue hleft hlen
  obtain ⟨c, value, rfl⟩ := List.exists_cons_of_ne_nil hne
  rw [List.cons_append] at hskip ⊢
  rw [scanValue, if_neg (by simp [hvalue c]), if_pos hstate, hskip]
  simp

lemma scanValue_one (hstate : p.headerState = .general) (hch : isLineEnd ch = false) :
    p.scanValue [ch] = (p, [ch], .ok []) := by
  have hvalue : ∀ c ∈ [ch], isLineEnd c = false := by simpa using hch
  exact scanValue_general hstate hvalue (List.cons_ne_nil ch []) (.inl rfl) (by rw [List.length_singleton]; decide)

/-- A byte that the parser looks at. -/
lemma scanValue_byte {p' : ResponseParser} {rest : List UInt8} (hstate : p.headerState ≠ .general)
    (hch : isLineEnd ch = false) (h : p.headerValueByte ch = .ok p') : p.scanValue (ch :: rest) =
      ((p'.scanValue rest).1, ch :: (p'.scanValue rest).2.1, (p'.scanValue rest).2.2) := by
  rw [scanValue, if_neg (by simp [hch]), if_neg hstate, h]

lemma headerValue_left {p' : ResponseParser} {rest value : List UInt8}
    (h : p.scanValue (ch :: rest) = (p', value, .ok [])) :
    p.headerValue strict ch rest = ⟨p', [.pass value, .count value.length], .ok []⟩ := by
  rw [headerValue, h]

lemma headerValue_ends {p' : ResponseParser} {c : UInt8} {rest value left : List UInt8}
    (h : p.scanValue (ch :: rest) = (p', value, .ok (c :: left))) (hc : isLineEnd c = true) :
    p.headerValue strict ch rest =
    if c = 0x0D then
      consume { p' with state := .headerAlmostDone } c left [.pass value, .data .headerValue, .count value.length]
    else
      consume { p' with state := .headerValueLws } c left
        [.pass value, .count value.length, .data .headerValue, .count (value.length - 1), .count 1] := by
  rw [headerValue, h]
  dsimp only
  split <;> rename_i hcr
  · rfl
  · obtain rfl : c = 0x0A := by simpa [isLineEnd, hcr] using hc
    rw [lineFeed, strictCheck, if_neg (by simp)]
    rfl

end ResponseParser

namespace ResponseReader

open ResponseParser (isLineEnd)

variable {s s' : ResponseReader} {p' : ResponseParser} {head : ℕ} {r : Reading} {rest value : List UInt8}

/-- A byte of a value that says nothing, or that the parser looks at. -/
lemma step_value (hstate : p.state = .headerValue) (hscan : p.scanValue [ch] = (p', [ch], .ok [])) :
    step strict ⟨p, head, r⟩ ch = if head + 1 ≤ kMaxHead then
      some ⟨p', head + 1, r.hear (.data .headerValue [ch])⟩ else none := by
  refine step_of_turn (h := ⟨some .headerValue, r.hear (.data .headerValue [ch])⟩)
    ((ResponseParser.turn_headerValue hstate []).trans (congrArg _ (ResponseParser.headerValue_left hscan))) rfl ?_
    (by simp [ParserTurn.after]) (by rw [hstate]; rfl)
  rw [show p.openMark = some .headerValue by simp [ResponseParser.openMark, hstate]]
  rfl

lemma run_general (hstate : p.state = .headerValue) (hgeneral : p.headerState = .general)
    (hset : r.Settled (some .headerValue)) (hhead : head ≤ kMaxHead) (hvalue : ∀ c ∈ value, isLineEnd c = false) :
    run strict ⟨p, head, r⟩ value = if head + value.length ≤ kMaxHead then
      some ⟨p, head + value.length, r.hear (.data .headerValue value)⟩ else none := by
  refine run_same (q := fun c => isLineEnd c = false) (fun c hc head r => ?_) hvalue hset hhead
  exact step_value hstate (ResponseParser.scanValue_one hgeneral hc)

lemma step_value_error {e : HttpErrno} (hstate : p.state = .headerValue) (hgeneral : p.headerState ≠ .general)
    (hch : isLineEnd ch = false) (hbyte : p.headerValueByte ch = .error e) :
    step strict ⟨p, head, r⟩ ch ≠ some s' := by
  intro h
  obtain ⟨-, hnext, -⟩ := step_eq_some.1 h
  have hscan : p.scanValue [ch] = (p, [], .error e) := by
    rw [ResponseParser.scanValue, if_neg (by simp [hch]), if_neg hgeneral, hbyte]
  rw [ResponseParser.turn_headerValue hstate, ResponseParser.headerValue, hscan] at hnext
  cases hnext

/-- **A value** is taken up to the end of its line, or of the read. -/
lemma run_value {l : List UInt8} (hstate : p.state = .headerValue) (hset : r.Settled (some .headerValue))
    (hhead : head ≤ kMaxHead) (h : run strict ⟨p, head, r⟩ l = some s') :
    ∃ p' value left, p.scanValue l = (p', value, .ok left) ∧ l = value ++ left ∧
      (left = [] ∨ ∃ c t, left = c :: t ∧ isLineEnd c = true) ∧ p'.state = .headerValue ∧
      head + value.length ≤ kMaxHead ∧
      run strict ⟨p', head + value.length, r.hear (.data .headerValue value)⟩ left = some s' := by
  induction l generalizing p head r with
  | nil => exact ⟨p, [], [], rfl, rfl, .inl rfl, hstate, hhead, by rwa [hset _ rfl]⟩
  | cons ch l ih =>
    by_cases hch : isLineEnd ch = true
    · refine ⟨p, [], ch :: l, ?_, rfl, .inr ⟨ch, l, rfl, hch⟩, hstate, hhead, by rwa [hset _ rfl]⟩
      rw [ResponseParser.scanValue, if_pos hch]
    have hch : isLineEnd ch = false := by simpa using hch
    by_cases hgeneral : p.headerState = .general
    · -- the line ends within the window, as the head is short
      obtain ⟨value, left, heq, hvalue, hleft⟩ := exists_span (fun c => isLineEnd c = false) (ch :: l)
      have hleft : left = [] ∨ ∃ c t, left = c :: t ∧ isLineEnd c = true := by simpa using hleft
      have hne : value ≠ [] := by
        rintro rfl
        rcases hleft with rfl | ⟨c, t, rfl, hc⟩
        · cases heq
        · obtain ⟨rfl, -⟩ := List.cons.inj heq
          exact absurd (hch.symm.trans hc) (by decide)
      obtain ⟨s₁, hs₁, hrun⟩ := Option.bind_eq_some_iff.1 (run_append.symm.trans (heq ▸ h))
      obtain ⟨hlen, hs₁⟩ := Option.ite_none_right_eq_some.1
        ((run_general hstate hgeneral hset hhead hvalue).symm.trans hs₁)
      obtain rfl := Option.some.inj hs₁
      have hmax : kHttpMaxHeaderSize = 4 * kMaxHead := by decide
      have hpos : 0 < kMaxHead := by decide
      refine ⟨p, value, left, ?_, heq, hleft, hstate, hlen, hrun⟩
      rw [heq]
      exact ResponseParser.scanValue_general hgeneral hvalue hne hleft (by omega)
    · obtain ⟨s₂, hs₂, hrun⟩ := Option.bind_eq_some_iff.1 (run_cons.symm.trans h)
      rcases hbyte : p.headerValueByte ch with e | p'
      · exact absurd hs₂ (step_value_error hstate hgeneral hch hbyte)
      · have hscan : p.scanValue [ch] = (p', [ch], .ok []) := ResponseParser.scanValue_byte hgeneral hch hbyte
        obtain ⟨hhead₂, hs₂⟩ := Option.ite_none_right_eq_some.1 ((step_value hstate hscan).symm.trans hs₂)
        obtain rfl := Option.some.inj hs₂
        obtain ⟨q, value, left, hscan, rfl, hleft, hstate', hlen, hrun'⟩ :=
          ih ((ResponseParser.state_headerValueByte hbyte).trans hstate) (.hear _ _ _) hhead₂ hrun
        rw [Reading.hear_hear, Nat.add_assoc, Nat.add_comm 1] at hrun'
        refine ⟨q, ch :: value, left, ?_, rfl, hleft, hstate', by simpa [Nat.add_assoc, Nat.add_comm 1] using hlen, hrun'⟩
        rw [ResponseParser.scanValue_byte hgeneral hch hbyte, hscan]

lemma step_lineEnd (hstate : p.state = .headerValue) (hset : r.Settled (some .headerValue))
    (hch : isLineEnd ch = true) :
    step strict ⟨p, head, r⟩ ch = if head + 1 ≤ kMaxHead then
      some ⟨{ p with state := if ch = 0x0D then .headerAlmostDone else .headerValueLws }, head + 1, r⟩ else none := by
  have hopen : p.openMark = some .headerValue := by simp [ResponseParser.openMark, hstate]
  have hscan : p.scanValue [ch] = (p, [], .ok [ch]) := by rw [ResponseParser.scanValue, if_pos hch]
  have hends : p.headerValue strict ch [] = _ := ResponseParser.headerValue_ends hscan hch
  have hturn := (ResponseParser.turn_headerValue hstate []).trans (congrArg (ParserTurn.after [.count 1]) hends)
  by_cases hcr : ch = 0x0D
  · rw [if_pos hcr] at hturn ⊢
    refine step_of_turn (h := ⟨none, r⟩) hturn rfl ?_ (by simp [ParserTurn.after, ResponseParser.consume])
      (by rw [hstate]; rfl)
    rw [hopen]
    show some (Hearing.mk none (r.hear (.data .headerValue []))) = _
    rw [hset _ rfl]
  · rw [if_neg hcr] at hturn ⊢
    refine step_of_turn (h := ⟨none, r⟩) hturn rfl ?_ (by simp [ParserTurn.after, ResponseParser.consume])
      (by rw [hstate]; rfl)
    rw [hopen]
    show some (Hearing.mk none (r.hear (.data .headerValue []))) = _
    rw [hset _ rfl]

lemma takes_headerValue (hstate : p.state = .headerValue) (hset : r.Settled (some .headerValue))
    (hhead : head ≤ kMaxHead) (hrun : run strict ⟨p, head, r⟩ (ch :: rest) = some s') :
    Takes strict (p.turn strict ch rest) (some .headerValue) ⟨p, head, r⟩ s' (ch :: rest) := by
  have hmax : kHttpMaxHeaderSize = 4 * kMaxHead := by decide
  rw [ResponseParser.turn_headerValue hstate]
  obtain ⟨p', value, left, hscan, heq, hleft, hstate', hlen, hrun⟩ := run_value hstate hset hhead hrun
  have hlength := congrArg List.length heq
  rcases hleft with rfl | ⟨c, left, rfl, hc⟩
  · rw [ResponseParser.headerValue_left hscan]
    simp only [List.append_nil, List.length_cons] at hlength
    refine ⟨[], _, some .headerValue, ⟨rfl, rfl, rfl, .inl ?_, hlen, fun n hn (hle : n ≤ 4 * (head : ℤ)) => ?_⟩, by simp, hrun⟩
    · simp [ResponseParser.openMark, hstate']
    · refine ⟨n + 1 + value.length, ⟨by omega, by omega, by omega, by omega, rfl⟩, by omega, ?_⟩
      show _ ≤ 4 * ((head + value.length : ℕ) : ℤ)
      omega
  · obtain ⟨s₂, hs₂, hrun⟩ := Option.bind_eq_some_iff.1 (run_cons.symm.trans hrun)
    obtain ⟨hlen₂, hs₂⟩ := Option.ite_none_right_eq_some.1 ((step_lineEnd hstate' (.hear _ _ _) hc).symm.trans hs₂)
    obtain rfl := Option.some.inj hs₂
    have hshort : left.length < (ch :: rest).length := by
      simp at hlength ⊢
      omega
    rw [ResponseParser.headerValue_ends hscan hc]
    by_cases hcr : c = 0x0D
    all_goals simp only [hcr, if_true, if_false] at hrun ⊢
    · refine ⟨left, _, none, ⟨rfl, rfl, rfl, .inl rfl, hlen₂, fun n hn (hle : n ≤ 4 * (head : ℤ)) => ?_⟩, hshort, hrun⟩
      refine ⟨n + 1 + value.length, ⟨by omega, by omega, by omega, by omega, rfl⟩, by omega, ?_⟩
      show _ ≤ 4 * ((head + value.length + 1 : ℕ) : ℤ)
      omega
    · refine ⟨left, _, none, ⟨rfl, rfl, rfl, .inl rfl, hlen₂, fun n hn (hle : n ≤ 4 * (head : ℤ)) => ?_⟩, hshort, hrun⟩
      refine ⟨n + 1 + value.length + (value.length - 1) + 1,
        ⟨by omega, by omega, by omega, by omega, by omega, by omega, by omega, by omega, rfl⟩, by omega, ?_⟩
      show _ ≤ 4 * ((head + value.length + 1 : ℕ) : ℤ)
      omega

end ResponseReader

/-! ### Bodies -/

namespace ResponseParser

/-- A turn that takes as much of a body as it can: the parser behind the body, and what ends it. -/
def takeBody (p : ResponseParser) (bytes : List UInt8) (finish : ResponseParser) (ending : List ParserEffect) :
    ParserTurn :=
  if p.contentLength ≤ bytes.length then
    ⟨finish, [.mark .body, .pass (bytes.take p.contentLength)] ++ ending, .ok (bytes.drop p.contentLength)⟩
  else ⟨{ p with contentLength := p.contentLength - bytes.length }, [.mark .body, .pass bytes], .ok []⟩

/-- The body of `contentLength` bytes in a state, which ends so. -/
structure TakesBody (strict : Bool) (p finish : ResponseParser) (ending : List ParserEffect)
    (mark : Option ParserData) (g : Reading → Reading) : Prop where
  turn : ∀ k ch rest, turn strict { p with contentLength := k } ch rest =
    takeBody { p with contentLength := k } (ch :: rest) finish ending
  openMark : p.openMark = none
  parsingHeader : p.state.parsingHeader = false
  taking : p.state.taking = true
  noClear : ParserEffect.clear ∉ ending
  counts : ∀ n, CountsTo n ending n
  heard : ∀ r, ending.foldlM Hearing.follow ⟨some .body, r⟩ = some ⟨mark, g r⟩
  fits : MarkFits finish mark

lemma takesBody_bodyIdentity (h : p.state = .bodyIdentity) :
    TakesBody strict p { p with contentLength := 0, state := newMessage strict { p with contentLength := 0 } }
      [.data .body, .notify .messageComplete] none (·.hear .messageComplete) where
  turn k ch rest := by
    simp only [turn, dispatch, h, ParserState.parsingHeader, bodyIdentity, takeBody, Bool.false_eq_true, if_false]
    by_cases hk : k ≤ (ch :: rest).length
    · rw [if_pos hk, Nat.min_eq_left hk, if_pos (Nat.sub_self k), Nat.sub_self]
      rfl
    · rw [if_neg hk, Nat.min_eq_right (by omega), if_neg (by omega), List.take_length]
  openMark := by simp [openMark, h]
  parsingHeader := by simp [h, ParserState.parsingHeader]
  taking := by simp [h, ParserState.taking]
  noClear := by simp
  counts _ := rfl
  heard _ := rfl
  fits := .inl openMark_newMessage.symm

lemma takesBody_chunkData (h : p.state = .chunkData) :
    TakesBody strict p { p with contentLength := 0, state := .chunkDataAlmostDone } [] (some .body) id where
  turn k ch rest := by
    simp only [turn, dispatch, h, ParserState.parsingHeader, chunkData, takeBody, Bool.false_eq_true, if_false]
    by_cases hk : k ≤ (ch :: rest).length
    · rw [if_pos hk, Nat.min_eq_left hk, if_pos (Nat.sub_self k), Nat.sub_self]
      rfl
    · rw [if_neg hk, Nat.min_eq_right (by omega), if_neg (by omega), List.take_length]
  openMark := by simp [openMark, h]
  parsingHeader := by simp [h, ParserState.parsingHeader]
  taking := by simp [h, ParserState.taking]
  noClear := by simp
  counts _ := rfl
  heard _ := rfl
  fits := .inr ⟨rfl, rfl, rfl⟩

end ResponseParser

namespace ResponseReader

variable {s s' s₁ : ResponseReader} {rest body : List UInt8} {finish : ResponseParser} {ending : List ParserEffect}
  {g : Reading → Reading} {k head : ℕ} {r : Reading}

lemma step_body_zero (hbody : p.TakesBody strict finish ending mark g) :
    step strict ⟨{ p with contentLength := 0 }, head, r⟩ ch ≠ some s' := by
  intro h
  obtain ⟨-, hnext, -⟩ := step_eq_some.1 h
  rw [hbody.turn] at hnext
  cases hnext

lemma step_body (hbody : p.TakesBody strict finish ending mark g) (hhead : head ≤ kMaxHead) (hk : 0 < k) :
    step strict ⟨{ p with contentLength := k }, head, r⟩ ch = some
      (if k = 1 then ⟨finish, head, g (r.hear (.data .body [ch]))⟩
      else ⟨{ p with contentLength := k - 1 }, head, r.hear (.data .body [ch])⟩) := by
  have hopen : ResponseParser.openMark { p with contentLength := k } = none := hbody.openMark
  have hbehind : headBehind ⟨{ p with contentLength := k }, head, r⟩ = head := headBehind_body hbody.parsingHeader
  have hmark : (r.hear (.data .body [])).hear (.data .body [ch]) = r.hear (.data .body [ch]) :=
    congrArg (Reading.hear · _) (Reading.hear_body_nil r)
  rw [step_eq_some, hbehind, hopen, hbody.turn, ResponseParser.takeBody]
  refine ⟨hhead, ?_⟩
  by_cases hone : k = 1
  · subst hone
    rw [if_pos (by simp), if_pos rfl]
    refine ⟨rfl, ⟨mark, g (r.hear (.data .body [ch]))⟩, ?_, ?_⟩
    · rw [List.foldlM_append, ← hmark]
      exact hbody.heard _
    · rw [if_neg (by simp [hbody.noClear])]
  · rw [if_neg (by simp; omega), if_neg hone]
    refine ⟨rfl, ⟨some .body, r.hear (.data .body [ch])⟩, ?_, ?_⟩
    · rw [← hmark]
      rfl
    · rw [if_neg (by simp)]
      rfl

lemma run_body (hbody : p.TakesBody strict finish ending mark g) (hhead : head ≤ kMaxHead) (hne : body ≠ [])
    (hlen : body.length ≤ k) : run strict ⟨{ p with contentLength := k }, head, r⟩ body = some
      (if k = body.length then ⟨finish, head, g (r.hear (.data .body body))⟩
      else ⟨{ p with contentLength := k - body.length }, head, r.hear (.data .body body)⟩) := by
  induction body generalizing k r with
  | nil => exact absurd rfl hne
  | cons c body ih =>
    rw [List.length_cons] at hlen ⊢
    rw [run_cons, step_body hbody hhead (by omega), Option.bind_some]
    cases body with
    | nil => rfl
    | cons c' body =>
      rw [List.length_cons] at hlen
      rw [if_neg (by omega), ih (by simp) (by rw [List.length_cons]; omega), Reading.hear_hear]
      simp only [List.length_cons, List.singleton_append, Nat.sub_sub, Nat.add_comm 1]
      by_cases hlast : k = body.length + 1 + 1
      · rw [if_pos hlast, if_pos (by omega)]
      · rw [if_neg hlast, if_neg (by omega)]

lemma takes_body (hbody : p.TakesBody strict finish ending mark' g)
    (hmark : MarkFits { p with contentLength := k } mark) (hhead : head ≤ kMaxHead)
    (hrun : run strict ⟨{ p with contentLength := k }, head, r⟩ (ch :: rest) = some s') :
    Takes strict (ResponseParser.turn strict { p with contentLength := k } ch rest) mark
      ⟨{ p with contentLength := k }, head, r⟩ s' (ch :: rest) := by
  have hmarked : ∀ bytes, Hearing.follow ⟨mark, r⟩ (.mark .body) >>= (Hearing.follow · (.pass bytes)) =
      some ⟨some .body, r.hear (.data .body bytes)⟩ := by
    intro bytes
    rcases hmark with hm | ⟨hm, -⟩
    · rw [hm.trans hbody.openMark]
      show Hearing.follow ⟨some .body, r.hear (.data .body [])⟩ (.pass bytes) = _
      rw [Reading.hear_body_nil]
      rfl
    · rw [hm]
      rfl
  have hk : 0 < k := by
    obtain ⟨s₁, hs₁, -⟩ := Option.bind_eq_some_iff.1 (run_cons.symm.trans hrun)
    rcases Nat.eq_zero_or_pos k with rfl | hk
    · exact absurd hs₁ (step_body_zero hbody)
    · exact hk
  rw [hbody.turn, ResponseParser.takeBody]
  by_cases hlen : k ≤ (ch :: rest).length
  · have hlength : ((ch :: rest).take k).length = k := List.length_take_of_le hlen
    rw [if_pos hlen]
    rw [← List.take_append_drop k (ch :: rest)] at hrun
    obtain ⟨s₁, hs₁, hrun⟩ := Option.bind_eq_some_iff.1 (run_append.symm.trans hrun)
    obtain rfl := Option.some.inj <|
      (run_body hbody hhead (List.ne_nil_of_length_pos (by omega)) hlength.le).symm.trans hs₁
    rw [if_pos hlength.symm] at hrun
    refine ⟨_, _, mark', ⟨rfl, rfl, ?_, hbody.fits, hhead, fun n hn hle => ?_⟩, ?_, hrun⟩
    · rw [List.foldlM_append]
      show ((Hearing.follow ⟨mark, r⟩ (.mark .body) >>= (Hearing.follow · (.pass _))) >>= _) = _
      rw [hmarked]
      exact hbody.heard _
    · exact ⟨n, hbody.counts n, hn, hle⟩
    · rw [List.length_drop]
      show (ch :: rest).length - k < _
      omega
  · rw [if_neg hlen]
    obtain rfl := Option.some.inj <|
      (run_body hbody hhead (List.cons_ne_nil ch rest) (Nat.le_of_not_le hlen)).symm.trans hrun
    rw [if_neg (by omega)]
    refine ⟨[], _, some .body, ⟨rfl, rfl, ?_, .inr ⟨rfl, hbody.openMark, hbody.taking⟩, hhead, fun n hn hle => ?_⟩,
      by simp, rfl⟩
    · exact hmarked _
    · exact ⟨n, rfl, hn, hle⟩

/-- A body that goes on to the end. -/
lemma takes_bodyIdentityEof (hstate : s.parser.state = .bodyIdentityEof) (hmark : MarkFits s.parser mark)
    (hhead : s.head ≤ kMaxHead) (hrun : s.run strict (ch :: rest) = some s') :
    Takes strict (s.parser.turn strict ch rest) mark s s' (ch :: rest) := by
  have hopen : s.parser.openMark = none := by simp [ResponseParser.openMark, hstate]
  have hturn : ∀ ch rest, s.parser.turn strict ch rest = s.parser.bodyIdentityEof ch rest := by
    intro ch rest
    simp [ResponseParser.turn, ResponseParser.dispatch, hstate, ParserState.parsingHeader]
  have hrun' : ∀ bytes r s', run strict ⟨s.parser, s.head, r⟩ bytes = some s' →
      s' = ⟨s.parser, s.head, r.hear (.data .body bytes)⟩ := by
    intro bytes
    induction bytes with
    | nil =>
      intro r s' h
      obtain rfl := Option.some.inj h
      rw [Reading.hear_body_nil]
    | cons c bytes ih =>
      intro r s' h
      obtain ⟨s₁, hs₁, h⟩ := Option.bind_eq_some_iff.1 (run_cons.symm.trans h)
      obtain ⟨-, -, hs, hfollow, rfl⟩ := step_eq_some.1 hs₁
      have hhead' : headBehind ⟨s.parser, s.head, r⟩ = s.head := headBehind_body (by rw [hstate]; rfl)
      rw [hhead', hturn] at h
      rw [hturn, hopen] at hfollow
      obtain rfl := Option.some.inj hfollow
      rw [if_neg (by simp [ResponseParser.bodyIdentityEof]), Reading.hear_body_nil] at h
      rw [ih _ _ h]
      exact congrArg (mk s.parser s.head) (Reading.hear_hear r .body [c] bytes)
  obtain rfl := hrun' _ _ _ hrun
  rw [hturn]
  refine ⟨[], ⟨s.parser, s.head, s.reading.hear (.data .body (ch :: rest))⟩, some .body,
    ⟨rfl, rfl, ?_, .inr ⟨rfl, hopen, by simp [hstate, ParserState.taking]⟩, hhead,
    fun n hn hle => ⟨n, rfl, hn, hle⟩⟩, by simp, rfl⟩
  rcases hmark with hm | ⟨hm, -⟩
  · rw [hm, hopen]
    show Hearing.follow ⟨some .body, s.reading.hear (.data .body [])⟩ (.pass _) = _
    rw [Reading.hear_body_nil]
    rfl
  · rw [hm]
    rfl

/-- The byte behind a chunk: the callback for its data is made. -/
lemma takes_chunkDataAlmostDone (hstate : s.parser.state = .chunkDataAlmostDone) (hmark : MarkFits s.parser mark)
    (hhead : s.head ≤ kMaxHead) (hrun : s.run strict (ch :: rest) = some s') :
    Takes strict (s.parser.turn strict ch rest) mark s s' (ch :: rest) := by
  have hopen : s.parser.openMark = none := by simp [ResponseParser.openMark, hstate]
  have hturn : ∀ rest, s.parser.turn strict ch rest = s.parser.chunkDataAlmostDone strict ch rest := by
    intro rest
    simp [ResponseParser.turn, ResponseParser.dispatch, hstate, ParserState.parsingHeader]
  obtain ⟨s₁, hs₁, hrest⟩ := Option.bind_eq_some_iff.1 (run_cons.symm.trans hrun)
  obtain ⟨-, hnext, hs, hfollow, rfl⟩ := step_eq_some.1 hs₁
  have hhead' : s.headBehind = s.head := headBehind_body (p := s.parser) (by rw [hstate]; rfl)
  rw [hturn, ResponseParser.chunkDataAlmostDone, ResponseParser.strictCheck] at hnext hfollow
  rw [hturn, ResponseParser.chunkDataAlmostDone, ResponseParser.strictCheck, hhead'] at hrest
  rw [hturn, ResponseParser.chunkDataAlmostDone, ResponseParser.strictCheck]
  by_cases hcr : (strict && decide (ch ≠ 0x0D)) = true
  · rw [if_pos hcr] at hnext
    cases hnext
  · rw [if_neg hcr] at hfollow hrest ⊢
    rw [hopen] at hfollow
    obtain rfl := Option.some.inj hfollow
    rw [if_neg (by simp [ResponseParser.consume])] at hrest
    refine ⟨rest, ⟨{ s.parser with state := .chunkDataDone }, s.head, s.reading⟩, none,
      ⟨rfl, rfl, ?_, .inl rfl, hhead, fun n hn hle => ⟨n, rfl, hn, hle⟩⟩, by simp, hrest⟩
    rcases hmark with hm | ⟨hm, -⟩
    · rw [hm, hopen]
      rfl
    · rw [hm]
      rfl

/-- **A turn** of the parser does what the reader does with the bytes that it takes. -/
theorem takes_turn (hmark : MarkFits s.parser mark) (hset : s.reading.Settled mark) (hhead : s.head ≤ kMaxHead)
    (hrun : s.run strict (ch :: rest) = some s') :
    Takes strict (s.parser.turn strict ch rest) mark s s' (ch :: rest) := by
  by_cases htaking : s.parser.state.taking = true
  · obtain ⟨p, head, r⟩ := s
    have hopen : p.openMark ≠ none → mark = p.openMark := fun h => hmark.resolve_right fun hm => h hm.2.1
    cases hstate : p.state
    case headerField =>
      obtain rfl : mark = some .headerField := by simpa [ResponseParser.openMark, hstate] using hopen
      exact takes_headerField hstate hset hhead hrun
    case headerValue =>
      obtain rfl : mark = some .headerValue := by simpa [ResponseParser.openMark, hstate] using hopen
      exact takes_headerValue hstate hset hhead hrun
    case bodyIdentity => exact takes_body (ResponseParser.takesBody_bodyIdentity hstate) hmark hhead hrun
    case chunkData => exact takes_body (ResponseParser.takesBody_chunkData hstate) hmark hhead hrun
    case bodyIdentityEof => exact takes_bodyIdentityEof hstate hmark hhead hrun
    case chunkDataAlmostDone => exact takes_chunkDataAlmostDone hstate hmark hhead hrun
    all_goals simp [hstate, ParserState.taking] at htaking
  · exact takes_oneByte (by simpa using htaking) hmark hrun

end ResponseReader

/-! ### Reads -/

/-- The client is where the reader is, between two reads. -/
structure ResponseClient.At (c : ResponseClient) (s : ResponseReader) : Prop where
  parser : c.parser = s.parser
  reading : c.reading = s.reading
  nread : c.nread ≤ 4 * s.head
  head : s.head ≤ kMaxHead
  settled : s.reading.Settled s.parser.openMark

lemma ResponseClient.at_new : ResponseClient.At .new .new := ⟨rfl, rfl, Nat.le_refl 0, Nat.zero_le _, .none _⟩

lemma ResponseClient.Waiting.atReader {c : ResponseClient} (h : c.Waiting) : c.At ⟨c.parser, 0, c.reading⟩ := by
  refine ⟨rfl, rfl, h.2.le, Nat.zero_le _, ?_⟩
  have hopen : c.parser.openMark = none := by rw [ResponseParser.openMark, h.1]
  rw [hopen]
  exact .none _

lemma ResponseClient.At.waiting {c : ResponseClient} {s : ResponseReader} (h : c.At s)
    (hstate : s.parser.state = .startRes) (hhead : s.head = 0) : c.Waiting := by
  have hnread : c.nread ≤ 4 * 0 := hhead ▸ h.nread
  exact ⟨h.parser ▸ hstate, Nat.eq_zero_of_le_zero hnread⟩

/-- **The loop** over the bytes of a read. -/
lemma loop_run {s s' : ResponseReader} {o : ParserOuter} {r : Reading} {data : List UInt8} {fuel : ℕ}
    (hfuel : data.length ≤ fuel) (hagrees : Agrees o r ⟨mark, s.reading⟩) (hmark : MarkFits s.parser mark)
    (hset : s.reading.Settled mark) (hhead : s.head ≤ kMaxHead) (hnread : o.nread ≤ 4 * s.head)
    (hrun : s.run strict data = some s') :
    ∃ nread calls, ResponseParser.loop strict fuel s.parser o data = ⟨s'.parser, nread, calls, none⟩ ∧
      ResponseClient.At ⟨s'.parser, nread, calls.foldl Reading.hear r⟩ s' := by
  induction fuel generalizing s o data mark with
  | zero =>
    obtain rfl := List.eq_nil_of_length_eq_zero (Nat.le_zero.1 hfuel)
    obtain rfl := Option.some.inj hrun
    exact ⟨o.nread, o.leftover, rfl, rfl, hagrees.heard, hnread, hhead, hmark.settled hset⟩
  | succ fuel ih =>
    cases data with
    | nil =>
      obtain rfl := Option.some.inj hrun
      exact ⟨o.nread, o.leftover, rfl, rfl, hagrees.heard, hnread, hhead, hmark.settled hset⟩
    | cons ch rest =>
      obtain ⟨left, s₁, mark₁, ht, hshort, hrun⟩ := ResponseReader.takes_turn hmark hset hhead hrun
      obtain ⟨n₁, hn₁, hge, hle⟩ := ht.counts o.nread (Int.natCast_nonneg _) (by exact_mod_cast hnread)
      obtain ⟨o₁, ho₁, hagrees₁, hnread₁⟩ := perform_all_agrees hagrees ht.follow hn₁
      have hset₁ : s₁.reading.Settled mark₁ :=
        follow_all_settled (s := ⟨mark, s.reading⟩) hset ht.follow
      have hloop : ResponseParser.loop strict (fuel + 1) s.parser o (ch :: rest) =
          ResponseParser.loop strict fuel s₁.parser o₁ left := by
        rw [ResponseParser.loop]
        simp only [ho₁, ht.next, ht.parser]
      rw [hloop]
      exact ih (by simp at hfuel hshort; omega) hagrees₁ ht.mark hset₁ ht.head (by omega) hrun

namespace ResponseClient

variable {c : ResponseClient} {s s' : ResponseReader} {data : List UInt8} {reads : List (List UInt8)}

/-- **A read** takes the client where its bytes take the reader. -/
theorem receive_run (h : c.At s) (hdata : data ≠ []) (hrun : s.run strict data = some s') :
    ∃ c', c.receive strict data = some c' ∧ c'.At s' := by
  obtain ⟨hparser, hreading, hnread, hhead, hset⟩ := h
  have hagrees : Agrees ⟨c.nread, s.parser.openMark.map (·, []), []⟩ s.reading ⟨s.parser.openMark, s.reading⟩ := by
    refine ⟨by cases s.parser.openMark <;> rfl, ?_⟩
    cases hopen : s.parser.openMark with
    | none => rfl
    | some k => exact hset k hopen
  obtain ⟨nread, calls, hloop, hat⟩ := loop_run (Nat.le_refl data.length) hagrees (.inl rfl) hset hhead hnread hrun
  refine ⟨_, ?_, hat⟩
  rw [receive, ResponseParser.execute, if_neg hdata, hparser, hloop, hreading]
  rfl

/-- **What has been read does not depend on the reads.** -/
theorem receive_reads (h : c.At s) (hreads : ∀ data ∈ reads, data ≠ []) (hrun : s.run strict reads.flatten = some s') :
    ∃ c', reads.foldlM (receive strict) c = some c' ∧ c'.At s' := by
  induction reads generalizing c s with
  | nil =>
    obtain rfl := Option.some.inj hrun
    exact ⟨c, rfl, h⟩
  | cons data reads ih =>
    rw [List.flatten_cons] at hrun
    obtain ⟨s₁, hs₁, hrun⟩ := Option.bind_eq_some_iff.1 (ResponseReader.run_append.symm.trans hrun)
    obtain ⟨c₁, hc₁, h₁⟩ := receive_run h (hreads data List.mem_cons_self) hs₁
    obtain ⟨c', hc', h'⟩ := ih h₁ (fun data hd => hreads data (.tail _ hd)) hrun
    exact ⟨c', by rw [List.foldlM_cons, hc₁]; exact hc', h'⟩

end ResponseClient

end Zutils.Net.Http
