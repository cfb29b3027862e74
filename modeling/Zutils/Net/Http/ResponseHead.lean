import Zutils.Net.Http.ResponseReads

/-!
# What the parser of responses makes of a head

A `ResponseReader` reads the status line, then each header, then the empty line, and then the body. It follows the name
of a header letter by letter, as the parser does something with the values of five of them. What it has found of these
names is said of the bytes of the name so far by `Matched`: the first of a name that is followed, or that no name begins
so. So at the end of a name it is known to be `Content-Length`, or one whose value is only handed over, if it is none of
`Connection`, `Proxy-Connection` and `Transfer-Encoding` (`PlainHeader`).

A head of plain headers is read as it was written (`run_headers`), whatever it begins with, and the body that follows is
read to its end if a header tells its length, or if the status has no body (`run_end`).
-/

namespace Zutils.Net.Http

namespace ResponseReader

open ResponseParser (isLineEnd consume)

variable {strict : Bool} {p q : ResponseParser} {ch : UInt8} {head : ℕ} {r : Reading} {s : ResponseReader}
  {bytes rest : List UInt8}

/-- A turn of the header that only goes past the byte. -/
lemma step_consume (hturn : p.turn strict ch [] = (q.consume ch [] []).after [.count 1])
    (hopen : p.openMark = none) (hheader : p.state.parsingHeader = true) (hhead : head + 1 ≤ kMaxHead) :
    step strict ⟨p, head, r⟩ ch = some ⟨q, head + 1, r⟩ :=
  (step_of_turn (h := ⟨none, r⟩) hturn rfl (by rw [hopen]; rfl) (by simp [consume, ParserTurn.after]) hheader).trans
    (if_pos hhead)

/-- A turn of the header with which a part begins. -/
lemma step_marks {k : ParserData} (hturn : p.turn strict ch [] = (q.consume ch [] [.mark k]).after [.count 1])
    (hopen : p.openMark = none) (hheader : p.state.parsingHeader = true) (hhead : head + 1 ≤ kMaxHead) :
    step strict ⟨p, head, r⟩ ch = some ⟨q, head + 1, r.hear (.data k [ch])⟩ := by
  refine (step_of_turn (h := ⟨some k, r.hear (.data k [ch])⟩) hturn rfl ?_ (by simp [consume, ParserTurn.after])
    hheader).trans (if_pos hhead)
  rw [hopen]
  exact congrArg (fun r => some (Hearing.mk (some k) r)) (Reading.hear_hear r k [] [ch])

/-! ### The status line -/

lemma run_version (hstate : p.state = .startRes) :
    run strict ⟨p, 0, r⟩ (ascii "HTTP/1.1 ".toList) =
      some ⟨{ p with
          state := .resFirstStatusCode
          flags := .none
          contentLength := kUllongMax
          httpMajor := 1
          httpMinor := 1 }, 9, r.hear .messageBegin⟩ := by
  obtain ⟨state, headerState, index, contentLength, httpMajor, httpMinor, statusCode, flags, upgrade⟩ := p
  obtain rfl : state = .startRes := hstate
  cases strict <;> rfl

lemma step_firstDigit (hstate : p.state = .resFirstStatusCode) (hch : isNum ch = true) (hhead : head + 1 ≤ kMaxHead) :
    step strict ⟨p, head, r⟩ ch = some ⟨{ p with state := .resStatusCode, statusCode := digit ch }, head + 1, r⟩ := by
  refine step_consume ?_ (by simp [ResponseParser.openMark, hstate]) (by rw [hstate]; rfl) hhead
  simp [ResponseParser.turn, ResponseParser.dispatch, hstate, ParserState.parsingHeader,
    ResponseParser.resFirstStatusCode, hch]

lemma step_digit (hstate : p.state = .resStatusCode) (hch : isNum ch = true) (hle : p.statusCode * 10 + digit ch ≤ 999)
    (hhead : head + 1 ≤ kMaxHead) :
    step strict ⟨p, head, r⟩ ch = some ⟨{ p with statusCode := p.statusCode * 10 + digit ch }, head + 1, r⟩ := by
  refine step_consume ?_ (by simp [ResponseParser.openMark, hstate]) (by rw [hstate]; rfl) hhead
  simp [ResponseParser.turn, ResponseParser.dispatch, hstate, ParserState.parsingHeader,
    ResponseParser.resStatusCode, hch, Nat.not_lt.2 hle]

lemma step_space (hstate : p.state = .resStatusCode) (hhead : head + 1 ≤ kMaxHead) :
    step strict ⟨p, head, r⟩ 0x20 = some ⟨{ p with state := .resStatusStart }, head + 1, r⟩ := by
  refine step_consume ?_ (by simp [ResponseParser.openMark, hstate]) (by rw [hstate]; rfl) hhead
  simp [ResponseParser.turn, ResponseParser.dispatch, hstate, ParserState.parsingHeader,
    ResponseParser.resStatusCode, isNum]

lemma run_phrase (hstate : p.state = .resStatusStart) (hne : bytes ≠ []) (hbytes : ∀ c ∈ bytes, isLineEnd c = false)
    (hhead : head + bytes.length + 2 ≤ kMaxHead) :
    run strict ⟨p, head, r⟩ (bytes ++ [0x0D, 0x0A]) =
      some ⟨{ p with state := .headerFieldStart, index := 0 }, head + bytes.length + 2,
        r.hear (.data .status bytes)⟩ := by
  obtain ⟨c, bytes, rfl⟩ := List.exists_cons_of_ne_nil hne
  have hline : ∀ c ∈ bytes, isLineEnd c = false := fun c hc => hbytes c (.tail _ hc)
  have hc : c ≠ 0x0D ∧ c ≠ 0x0A := by simpa [isLineEnd] using hbytes c List.mem_cons_self
  rw [List.length_cons] at hhead ⊢
  have hstart : step strict ⟨p, head, r⟩ c =
      some ⟨{ p with state := .resStatus, index := 0 }, head + 1, r.hear (.data .status [c])⟩ := by
    refine step_marks ?_ (by simp [ResponseParser.openMark, hstate]) (by rw [hstate]; rfl) (by omega)
    simp [ResponseParser.turn, ResponseParser.dispatch, hstate, ParserState.parsingHeader,
      ResponseParser.resStatusStart, hc]
  have hrest : run strict ⟨{ p with state := .resStatus, index := 0 }, head + 1, r.hear (.data .status [c])⟩ bytes =
      some ⟨{ p with state := .resStatus, index := 0 }, head + 1 + bytes.length,
        (r.hear (.data .status [c])).hear (.data .status bytes)⟩ := by
    refine (run_same (q := fun c => isLineEnd c = false) (fun c hc head r => ?_) hline (.hear _ _ _) (by omega)).trans
      (if_pos (by omega))
    have hc : c ≠ 0x0D ∧ c ≠ 0x0A := by simpa [isLineEnd] using hc
    refine step_of_turn (h := ⟨some .status, r.hear (.data .status [c])⟩)
      (t := (consume { p with state := .resStatus, index := 0 } c [] []).after [.count 1]) ?_ rfl rfl
      (by simp [consume, ParserTurn.after]) rfl
    simp [ResponseParser.turn, ResponseParser.dispatch, ParserState.parsingHeader, ResponseParser.resStatus, hc]
  have hcr : ∀ head r, head + 1 ≤ kMaxHead →
      step strict ⟨{ p with state := .resStatus, index := 0 }, head, r⟩ 0x0D =
        some ⟨{ p with state := .resLineAlmostDone, index := 0 }, head + 1, r⟩ := by
    intro head r hhead
    exact (step_of_turn (h := ⟨none, r⟩)
      (t := (consume { p with state := .resLineAlmostDone, index := 0 } 0x0D [] [.data .status]).after [.count 1])
      rfl rfl rfl (by simp [consume, ParserTurn.after]) rfl).trans (if_pos hhead)
  have hlf : ∀ head r, head + 1 ≤ kMaxHead →
      step strict ⟨{ p with state := .resLineAlmostDone, index := 0 }, head, r⟩ 0x0A =
        some ⟨{ p with state := .headerFieldStart, index := 0 }, head + 1, r⟩ := by
    intro head r hhead
    refine step_consume ?_ rfl rfl hhead
    cases strict <;> rfl
  rw [List.cons_append, run_cons, hstart, Option.bind_some, run_append, hrest, Option.bind_some, run_cons,
    hcr _ _ (by omega), Option.bind_some, run_cons, hlf _ _ (by omega), Reading.hear_hear, List.singleton_append]
  have hlength : head + 1 + bytes.length + 1 + 1 = head + (bytes.length + 1) + 2 := by omega
  rw [hlength]
  rfl

end ResponseReader

/-! ### The name of a header -/

namespace ResponseParser

variable {p : ResponseParser} {ch c : UInt8} {pre name word : List UInt8} {matched : HeaderState}

/-- The names that the parser looks at. -/
def kNames : List (List UInt8) := [kConnection, kProxyConnection, kContentLengthName, kTransferEncoding, kUpgrade]

/-- The first `i + 1` bytes of the word have been matched, but not all of them. -/
def Matching (word : List UInt8) (least : ℕ) (pre : List UInt8) (i : ℕ) : Prop :=
  least ≤ i ∧ i + 1 < word.length ∧ pre = word.take (i + 1)

/-- Nothing of the names begins so. -/
def Unmatched (pre : List UInt8) : Prop := ∀ w ∈ kNames, ¬ pre <+: w

/-- What the state of the header and the index say of the bytes of the name so far, in lower case. -/
def Matched (pre : List UInt8) (i : ℕ) : HeaderState → Prop
  | .general => Unmatched pre
  | .C => pre = kConnection.take 1 ∧ i = 0
  | .CO => pre = kConnection.take 2 ∧ i = 1
  | .CON => pre = kConnection.take 3 ∧ i = 2
  | .matchingConnection => Matching kConnection 3 pre i
  | .matchingProxyConnection => Matching kProxyConnection 0 pre i
  | .matchingContentLength => Matching kContentLengthName 3 pre i
  | .matchingTransferEncoding => Matching kTransferEncoding 0 pre i
  | .matchingUpgrade => Matching kUpgrade 0 pre i
  | .connection => pre = kConnection ∨ pre = kProxyConnection
  | .contentLength => pre = kContentLengthName
  | .transferEncoding => pre = kTransferEncoding
  | .upgrade => pre = kUpgrade
  | _ => False

lemma Unmatched.append (h : Unmatched pre) (c : UInt8) : Unmatched (pre ++ [c]) :=
  fun w hw hp => h w hw ((List.prefix_append pre [c]).trans hp)

/-- No name is the beginning of another. -/
lemma unmatched_of_mem (h : word ∈ kNames) (c : UInt8) : Unmatched (word ++ [c]) := by
  intro w hw hp
  have heq : ∀ v ∈ kNames, ∀ w ∈ kNames, v <+: w → v.length = w.length := by decide
  have hlength := heq word h w hw ((List.prefix_append word [c]).trans hp)
  have hle := hp.length_le
  rw [List.length_append, List.length_singleton] at hle
  omega

lemma take_of_begins (h : pre ++ [c] <+: word) : pre <+: word ∧ word.take (pre.length + 1) = pre ++ [c] := by
  refine ⟨(List.prefix_append pre [c]).trans h, ?_⟩
  rw [List.prefix_iff_eq_take.1 h, List.length_append, List.length_singleton]

/-- Behind the letters of `con`. -/
lemma unmatched_letter : (∀ c, c ≠ 0x6F → Unmatched (kConnection.take 1 ++ [c])) ∧
    (∀ c, c ≠ 0x6E → Unmatched (kConnection.take 2 ++ [c])) ∧
    ∀ c, c ≠ 0x6E → c ≠ 0x74 → Unmatched (kConnection.take 3 ++ [c]) := by
  have hC : ∀ w ∈ kNames, kConnection.take 1 <+: w → w.take 2 = kConnection.take 1 ++ [0x6F] := by decide
  have hCO : ∀ w ∈ kNames, kConnection.take 2 <+: w → w.take 3 = kConnection.take 2 ++ [0x6E] := by decide
  have hCON : ∀ w ∈ kNames, kConnection.take 3 <+: w →
      w.take 4 = kConnection.take 3 ++ [0x6E] ∨ w.take 4 = kConnection.take 3 ++ [0x74] := by decide
  refine ⟨fun c hc w hw hp => ?_, fun c hc w hw hp => ?_, fun c hn ht w hw hp => ?_⟩
  · obtain ⟨hpre, htake⟩ := take_of_begins hp
    have heq := (hC w hw hpre).symm.trans htake
    exact hc (List.cons.inj (List.append_cancel_left heq)).1.symm
  · obtain ⟨hpre, htake⟩ := take_of_begins hp
    have heq := (hCO w hw hpre).symm.trans htake
    exact hc (List.cons.inj (List.append_cancel_left heq)).1.symm
  · obtain ⟨hpre, htake⟩ := take_of_begins hp
    rcases hCON w hw hpre with h | h
    · exact hn (List.cons.inj (List.append_cancel_left (h.symm.trans htake))).1.symm
    · exact ht (List.cons.inj (List.append_cancel_left (h.symm.trans htake))).1.symm

/-- One more byte of a word that no other name shares the beginning of. -/
lemma matchWord_matched (least : ℕ) (hown : ∀ w ∈ kNames, word.take (least + 1) <+: w → w = word)
    (hmatched : ∀ i, Matched word i matched) (hstate : ∀ i pre, Matched pre i p.headerState = Matching word least pre i)
    (h : Matched pre p.index p.headerState) :
    Matched (pre ++ [c]) (p.matchWord word matched .general c).index (p.matchWord word matched .general c).headerState := by
  rw [hstate] at h
  obtain ⟨hleast, hlt, rfl⟩ := h
  have hnext : word.take (p.index + 1 + 1) = word.take (p.index + 1) ++ [word.getD (p.index + 1) 0] := by
    rw [List.take_succ_eq_append_getElem hlt, List.getD_eq_getElem word 0 hlt]
  unfold matchWord
  dsimp only
  by_cases hc : c = word.getD (p.index + 1) 0
  · have hmore : ¬ (word.length < p.index + 1 ∨ c ≠ word.getD (p.index + 1) 0) := by
      rintro (h | h)
      · omega
      · exact h hc
    rw [if_neg hmore, hc, ← hnext]
    by_cases hlast : p.index + 1 = word.length - 1
    · rw [if_pos hlast, List.take_of_length_le (by omega)]
      exact hmatched _
    · rw [if_neg hlast]
      show Matched _ (p.index + 1) p.headerState
      rw [hstate]
      exact ⟨Nat.le_succ_of_le hleast, by omega, rfl⟩
  · rw [if_pos (.inr hc)]
    intro w hw hp
    obtain rfl : w = word := hown w hw <|
      ((List.take_prefix_take_left (Nat.succ_le_succ hleast)).trans (List.prefix_append _ [c])).trans hp
    have htake := (take_of_begins hp).2
    rw [List.length_take_of_le hlt.le, hnext] at htake
    exact hc (List.cons.inj (List.append_cancel_left htake)).1.symm

/-- **One more byte** of a name. -/
lemma headerFieldByte_matched (h : Matched pre p.index p.headerState) (hch : ch ≠ 0x20) :
    Matched (pre ++ [c]) (p.headerFieldByte ch c).index (p.headerFieldByte ch c).headerState := by
  obtain ⟨hC, hCO, hCON⟩ := unmatched_letter
  unfold headerFieldByte
  cases hs : p.headerState <;> dsimp only
  case general =>
    rw [hs] at h ⊢
    exact Unmatched.append h c
  case C =>
    rw [hs] at h
    obtain ⟨rfl, hi⟩ := h
    unfold matchLetter
    dsimp only
    split <;> rename_i hc
    · rw [hc, hi]
      exact ⟨by decide, rfl⟩
    · exact hC c hc
  case CO =>
    rw [hs] at h
    obtain ⟨rfl, hi⟩ := h
    unfold matchLetter
    dsimp only
    split <;> rename_i hc
    · rw [hc, hi]
      exact ⟨by decide, rfl⟩
    · exact hCO c hc
  case CON =>
    rw [hs] at h
    obtain ⟨rfl, hi⟩ := h
    rw [hi]
    split <;> rename_i hn
    · rw [hn]
      exact ⟨by decide, by decide, by decide⟩
    split <;> rename_i ht
    · rw [ht]
      exact ⟨by decide, by decide, by decide⟩
    · exact hCON c hn ht
  case matchingConnection =>
    exact matchWord_matched 3 (by decide) (fun _ => .inl rfl) (fun _ _ => by rw [hs]; rfl) h
  case matchingProxyConnection =>
    exact matchWord_matched 0 (by decide) (fun _ => .inr rfl) (fun _ _ => by rw [hs]; rfl) h
  case matchingContentLength =>
    exact matchWord_matched 3 (by decide) (fun _ => rfl) (fun _ _ => by rw [hs]; rfl) h
  case matchingTransferEncoding =>
    exact matchWord_matched 0 (by decide) (fun _ => rfl) (fun _ _ => by rw [hs]; rfl) h
  case matchingUpgrade =>
    exact matchWord_matched 0 (by decide) (fun _ => rfl) (fun _ _ => by rw [hs]; rfl) h
  case connection =>
    rw [hs] at h
    rw [if_pos hch]
    rcases h with rfl | rfl
    · exact unmatched_of_mem (by decide) c
    · exact unmatched_of_mem (by decide) c
  case contentLength | transferEncoding | upgrade =>
    rw [hs] at h
    rw [if_pos hch]
    obtain rfl := h
    exact unmatched_of_mem (by decide) c
  all_goals
    rw [hs] at h
    exact h.elim

lemma firstHeaderState_matched (c : UInt8) : Matched [c] 0 (firstHeaderState c) := by
  unfold firstHeaderState
  split <;> rename_i hc
  · rw [hc]
    exact ⟨by decide, rfl⟩
  split <;> rename_i hp
  · rw [hp]
    exact ⟨by decide, by decide, by decide⟩
  split <;> rename_i ht
  · rw [ht]
    exact ⟨by decide, by decide, by decide⟩
  split <;> rename_i hu
  · rw [hu]
    exact ⟨by decide, by decide, by decide⟩
  · have hfirst : ∀ w ∈ kNames, w.take 1 = [0x63] ∨ w.take 1 = [0x70] ∨ w.take 1 = [0x74] ∨ w.take 1 = [0x75] := by decide
    intro w hw hpre
    have htake : w.take 1 = [c] := (List.prefix_iff_eq_take.1 hpre).symm
    rcases hfirst w hw with h | h | h | h
    · exact hc (List.cons.inj (htake.symm.trans h)).1
    · exact hp (List.cons.inj (htake.symm.trans h)).1
    · exact ht (List.cons.inj (htake.symm.trans h)).1
    · exact hu (List.cons.inj (htake.symm.trans h)).1

/-- A name changes nothing else. -/
lemma headerFieldBytes_eq (strict : Bool) (p : ResponseParser) (name : List UInt8) :
    ∃ headerState index, p.headerFieldBytes strict name = { p with headerState, index } := by
  have hword : ∀ (p : ResponseParser) (word : List UInt8) (matched : HeaderState) (c : UInt8),
      ∃ headerState index, p.matchWord word matched .general c = { p with headerState, index } := by
    intro p word matched c
    unfold matchWord
    dsimp only
    split_ifs <;> exact ⟨_, _, rfl⟩
  have hbyte : ∀ (p : ResponseParser) (ch c : UInt8),
      ∃ headerState index, p.headerFieldByte ch c = { p with headerState, index } := by
    intro p ch c
    unfold headerFieldByte
    split
    all_goals first | exact ⟨_, _, rfl⟩ | exact hword _ _ _ _ | (split_ifs <;> exact ⟨_, _, rfl⟩)
  induction name generalizing p with
  | nil => exact ⟨_, _, rfl⟩
  | cons c name ih =>
    obtain ⟨hs₁, i₁, h₁⟩ := hbyte p c (token strict c)
    obtain ⟨hs, i, h⟩ := ih { p with headerState := hs₁, index := i₁ }
    exact ⟨hs, i, (congrArg (headerFieldBytes strict · name) h₁).trans h⟩

/-- A name in lower case. -/
def lowerName (name : List UInt8) : List UInt8 := name.map tokens

lemma tokens_ne {c : UInt8} (h : tokens c ≠ 0) (strict : Bool) :
    c ≠ 0x0D ∧ c ≠ 0x0A ∧ c ≠ 0x20 ∧ isBlank c = false ∧ token strict c = tokens c := by
  have hne : ∀ d : UInt8, tokens d = 0 → c ≠ d := by
    rintro d hd rfl
    exact h hd
  have hspace := hne 0x20 (by decide)
  refine ⟨hne _ (by decide), hne _ (by decide), hspace, ?_, ?_⟩
  · simp [isBlank, hspace, hne 0x09 (by decide)]
  · simp [token, hspace]

/-- **A name** has been matched byte for byte. -/
lemma headerFieldBytes_matched (h : Matched pre p.index p.headerState) (hname : ∀ c ∈ name, tokens c ≠ 0)
    (strict : Bool) : Matched (pre ++ lowerName name) (p.headerFieldBytes strict name).index
      (p.headerFieldBytes strict name).headerState := by
  induction name generalizing p pre with
  | nil => simpa [lowerName, headerFieldBytes] using h
  | cons c name ih =>
    obtain ⟨-, -, hspace, -, htoken⟩ := tokens_ne (hname c List.mem_cons_self) strict
    have hc := headerFieldByte_matched (c := token strict c) h hspace
    rw [htoken] at hc
    have hrest := ih hc fun c hc => hname c (.tail _ hc)
    rw [List.append_assoc] at hrest
    show Matched _ ((p.headerFieldByte c (token strict c)).headerFieldBytes strict name).index
      ((p.headerFieldByte c (token strict c)).headerFieldBytes strict name).headerState
    rw [htoken]
    exact hrest

end ResponseParser

namespace ResponseReader

open ResponseParser (isLineEnd isBlank consume lowerName Matched)

variable {strict : Bool} {p q : ResponseParser} {ch : UInt8} {head : ℕ} {r : Reading} {name value : List UInt8}

lemma run_headerField (hstate : p.state = .headerFieldStart) (hne : name ≠ []) (hname : ∀ c ∈ name, tokens c ≠ 0)
    (hhead : head + name.length + 1 ≤ kMaxHead) :
    ∃ headerState index, Matched (lowerName name) index headerState ∧
      run strict ⟨p, head, r⟩ (name ++ [0x3A]) =
        some ⟨{ p with state := .headerValueDiscardWs, headerState, index }, head + name.length + 1,
          r.hear (.data .headerField name)⟩ := by
  obtain ⟨c, name, rfl⟩ := List.exists_cons_of_ne_nil hne
  rw [List.length_cons] at hhead ⊢
  have hc : tokens c ≠ 0 := hname c List.mem_cons_self
  have hname : ∀ c ∈ name, tokens c ≠ 0 := fun c hc => hname c (.tail _ hc)
  obtain ⟨hcr, hlf, -, -, htoken⟩ := ResponseParser.tokens_ne hc strict
  let p₁ := { p with index := 0, state := .headerField, headerState := ResponseParser.firstHeaderState (tokens c) }
  have hstart : step strict ⟨p, head, r⟩ c = some ⟨p₁, head + 1, r.hear (.data .headerField [c])⟩ := by
    refine step_marks ?_ (by simp [ResponseParser.openMark, hstate]) (by rw [hstate]; rfl) (by omega)
    simp [ResponseParser.turn, ResponseParser.dispatch, hstate, ParserState.parsingHeader,
      ResponseParser.headerFieldStart, hcr, hlf, htoken, hc, p₁]
  obtain ⟨headerState, index, heq⟩ := ResponseParser.headerFieldBytes_eq strict p₁ name
  have hmatched : Matched ([tokens c] ++ lowerName name) (p₁.headerFieldBytes strict name).index
      (p₁.headerFieldBytes strict name).headerState :=
    ResponseParser.headerFieldBytes_matched (ResponseParser.firstHeaderState_matched _) hname strict
  have hrest : run strict ⟨p₁, head + 1, r.hear (.data .headerField [c])⟩ name = _ :=
    run_name rfl (.hear _ _ _) (by omega) fun c hc => by
      rw [(ResponseParser.tokens_ne (hname c hc) strict).2.2.2.2]
      exact hname c hc
  rw [if_pos (by omega), heq] at hrest
  rw [heq] at hmatched
  refine ⟨headerState, index, hmatched, ?_⟩
  have hcolon : step strict ⟨{ p₁ with headerState, index }, head + 1 + name.length,
      (r.hear (.data .headerField [c])).hear (.data .headerField name)⟩ 0x3A = _ :=
    step_colon rfl (.hear _ _ _) (by cases strict <;> decide)
  rw [if_pos (by omega)] at hcolon
  rw [List.cons_append, run_cons, hstart, Option.bind_some, run_append, hrest, Option.bind_some, run_cons, hcolon,
    Option.bind_some, Reading.hear_hear, List.singleton_append, Nat.add_right_comm head 1, Nat.add_assoc head]
  rfl

end ResponseReader

/-! ### The value of a header -/

/-- The states behind a name that the parser does not look at the value of. -/
def HeaderState.plain : HeaderState → Bool
  | general | C | CO | CON | matchingConnection | matchingProxyConnection | matchingContentLength
  | matchingTransferEncoding | matchingUpgrade | upgrade => true
  | _ => false

/-- The number that digits make behind others. -/
def decimalValue (n : ℕ) (digits : List UInt8) : ℕ := digits.foldl (fun n c => n * 10 + digit c) n

namespace ResponseParser

variable {p : ResponseParser} {ch : UInt8} {pre rest : List UInt8} {i : ℕ} {state : HeaderState}

lemma Matched.contentLength (h : Matched kContentLengthName i state) : state = .contentLength := by
  have hmatching : ∀ w ∈ kNames, ∀ least, ¬ Matching w least kContentLengthName i := by
    have hown : ∀ w ∈ kNames, kContentLengthName <+: w → w.length = kContentLengthName.length := by decide
    rintro w hw least ⟨-, hlt, heq⟩
    have hlength := hown w hw (heq ▸ List.take_prefix (i + 1) w)
    have hle := congrArg List.length heq
    rw [List.length_take_of_le hlt.le] at hle
    omega
  cases state
  case contentLength => rfl
  case general => exact absurd (List.prefix_refl _) (h _ (by decide))
  case C | CO | CON => exact absurd h.1 (by decide)
  case matchingConnection | matchingProxyConnection | matchingContentLength | matchingTransferEncoding
      | matchingUpgrade => exact absurd h (hmatching _ (by decide) _)
  case connection => exact absurd (show kContentLengthName = _ ∨ kContentLengthName = _ from h) (by decide)
  case transferEncoding | upgrade => exact absurd (show kContentLengthName = _ from h) (by decide)
  all_goals exact h.elim

lemma Matched.plain (h : Matched pre i state)
    (hpre : pre ∉ [kConnection, kProxyConnection, kContentLengthName, kTransferEncoding]) : state.plain = true := by
  simp only [List.mem_cons, List.not_mem_nil, or_false, not_or] at hpre
  obtain ⟨hconnection, hproxy, hlength, htransfer⟩ := hpre
  cases state
  case connection => exact absurd h (not_or.2 ⟨hconnection, hproxy⟩)
  case contentLength => exact absurd h hlength
  case transferEncoding => exact absurd h htransfer
  all_goals first | rfl | exact h.elim

lemma headerValueStart_plain (h : p.headerState.plain = true) : ∃ b, p.headerValueStart ch rest =
    consume { p with state := .headerValue, headerState := .general, index := 0, flags.upgrade := b } ch rest
      [.mark .headerValue] := by
  unfold headerValueStart
  cases hs : p.headerState <;> rw [hs] at h
  case upgrade => exact ⟨true, rfl⟩
  all_goals first | exact ⟨p.flags.upgrade, rfl⟩ | cases h

lemma finishHeader_plain (h : p.headerState.plain = true ∨ p.headerState = .contentLength) : p.finishHeader = p := by
  unfold finishHeader
  rcases h with h | h
  · cases hs : p.headerState <;> rw [hs] at h <;> first | rfl | cases h
  · rw [h]

end ResponseParser

namespace ResponseReader

open ResponseParser (isLineEnd isBlank consume lowerName Matched)

variable {strict : Bool} {p q : ResponseParser} {ch : UInt8} {head : ℕ} {r : Reading} {name value rest : List UInt8}

lemma turn_valueStart (hstate : p.state = .headerValueDiscardWs) (hch : isLineEnd ch = false) (hblank : isBlank ch = false) :
    p.turn strict ch rest = (p.headerValueStart ch rest).after [.count 1] := by
  have hne : ch ≠ 0x0D ∧ ch ≠ 0x0A := by simpa [isLineEnd] using hch
  simp [ResponseParser.turn, ResponseParser.dispatch, hstate, ParserState.parsingHeader,
    ResponseParser.headerValueDiscardWs, hne, hblank]

lemma run_valueEnd (hstate : p.state = .headerValue) (hset : r.Settled (some .headerValue))
    (hhead : head + 2 ≤ kMaxHead) :
    run strict ⟨p, head, r⟩ [0x0D, 0x0A] = some ⟨{ p with state := .headerValueLws }, head + 2, r⟩ := by
  have hcr : step strict ⟨p, head, r⟩ 0x0D = _ := step_lineEnd hstate hset (by decide)
  rw [if_pos (by omega), if_pos rfl] at hcr
  have hlf : step strict ⟨{ p with state := .headerAlmostDone }, head + 1, r⟩ 0x0A =
      some ⟨{ p with state := .headerValueLws }, head + 2, r⟩ :=
    step_consume (by cases strict <;> rfl) rfl rfl (by omega)
  rw [run_cons, hcr, Option.bind_some, run_cons, hlf]
  rfl

/-- A value that is not looked at. -/
lemma run_plainValue (hstate : p.state = .headerValueDiscardWs) (hplain : p.headerState.plain = true) (hne : value ≠ [])
    (hvalue : ∀ c ∈ value, isLineEnd c = false) (hblank : ∀ c ∈ value.head?, isBlank c = false)
    (hhead : head + value.length + 2 ≤ kMaxHead) :
    ∃ b, run strict ⟨p, head, r⟩ (value ++ [0x0D, 0x0A]) =
      some ⟨{ p with state := .headerValueLws, headerState := .general, index := 0, flags.upgrade := b },
        head + value.length + 2, r.hear (.data .headerValue value)⟩ := by
  obtain ⟨c, value, rfl⟩ := List.exists_cons_of_ne_nil hne
  rw [List.length_cons] at hhead ⊢
  obtain ⟨b, hb⟩ : ∃ b, p.headerValueStart c [] = _ := ResponseParser.headerValueStart_plain hplain
  have hturn : p.turn strict c [] = _ := turn_valueStart hstate (hvalue c List.mem_cons_self) (hblank c rfl)
  rw [hb] at hturn
  have hstart : step strict ⟨p, head, r⟩ c = _ :=
    step_marks hturn (by simp [ResponseParser.openMark, hstate]) (by rw [hstate]; rfl) (by omega)
  have hrest : run strict ⟨{ p with state := .headerValue, headerState := .general, index := 0, flags.upgrade := b },
      head + 1, r.hear (.data .headerValue [c])⟩ value = _ :=
    run_general rfl rfl (.hear _ _ _) (by omega) fun c hc => hvalue c (.tail _ hc)
  rw [if_pos (by omega), Reading.hear_hear] at hrest
  refine ⟨b, ?_⟩
  rw [List.cons_append, run_cons, hstart, Option.bind_some, run_append, hrest, Option.bind_some,
    run_valueEnd rfl (.hear _ _ _) (by omega), List.singleton_append, Nat.add_right_comm head 1, Nat.add_assoc head]

lemma run_noValue (hstate : p.state = .headerValueDiscardWs) (hhead : head + 2 ≤ kMaxHead) :
    run strict ⟨p, head, r⟩ [0x0D, 0x0A] = some ⟨{ p with state := .headerValueDiscardLws }, head + 2, r⟩ := by
  have hcr : step strict ⟨p, head, r⟩ 0x0D =
      some ⟨{ p with state := .headerValueDiscardWsAlmostDone }, head + 1, r⟩ := by
    refine step_consume ?_ (by simp [ResponseParser.openMark, hstate]) (by rw [hstate]; rfl) (by omega)
    simp [ResponseParser.turn, ResponseParser.dispatch, hstate, ParserState.parsingHeader,
      ResponseParser.headerValueDiscardWs, isBlank]
  have hlf : step strict ⟨{ p with state := .headerValueDiscardWsAlmostDone }, head + 1, r⟩ 0x0A =
      some ⟨{ p with state := .headerValueDiscardLws }, head + 2, r⟩ :=
    step_consume (by cases strict <;> rfl) rfl rfl (by omega)
  rw [run_cons, hcr, Option.bind_some, run_cons, hlf]
  rfl

lemma le_decimalValue (n : ℕ) (digits : List UInt8) : n ≤ decimalValue n digits := by
  induction digits generalizing n with
  | nil => exact Nat.le_refl n
  | cons c digits ih => exact le_trans (by omega) (ih (n * 10 + digit c))

lemma isNum_ne {c : UInt8} (h : isNum c = true) : isLineEnd c = false ∧ isBlank c = false := by
  have hne : ∀ d : UInt8, isNum d = false → c ≠ d := by
    rintro d hd rfl
    exact absurd (h.symm.trans hd) (by decide)
  simp [isLineEnd, isBlank, hne 0x0D (by decide), hne 0x0A (by decide), hne 0x20 (by decide), hne 0x09 (by decide)]

lemma headerValueByte_digit (hlength : p.headerState = .contentLength) (hch : isNum ch = true)
    (hle : p.contentLength * 10 + digit ch ≤ kUllongMax - 10) :
    p.headerValueByte ch = .ok { p with contentLength := p.contentLength * 10 + digit ch } := by
  have hspace : ch ≠ 0x20 := by
    rintro rfl
    exact absurd hch (by decide)
  have hlimit : ¬ (kUllongMax - 10) / 10 < p.contentLength :=
    Nat.not_lt.2 ((Nat.le_div_iff_mul_le (by decide)).2 (by omega))
  simp [ResponseParser.headerValueByte, hlength, hspace, hch, hlimit]

lemma run_digits (hstate : p.state = .headerValue) (hlength : p.headerState = .contentLength)
    (hvalue : ∀ c ∈ value, isNum c = true) (hle : decimalValue p.contentLength value ≤ kUllongMax - 10)
    (hset : r.Settled (some .headerValue)) (hhead : head ≤ kMaxHead) :
    run strict ⟨p, head, r⟩ value = if head + value.length ≤ kMaxHead then
      some ⟨{ p with contentLength := decimalValue p.contentLength value }, head + value.length,
        r.hear (.data .headerValue value)⟩ else none := by
  have hfold : ∀ (l : List UInt8) (p : ResponseParser),
      l.foldl (fun p c => { p with contentLength := p.contentLength * 10 + digit c }) p =
        { p with contentLength := decimalValue p.contentLength l } := by
    intro l
    induction l with
    | nil => exact fun _ => rfl
    | cons c l ih => exact fun p => ih { p with contentLength := p.contentLength * 10 + digit c }
  have hpart : ∀ (p : ResponseParser) (c : UInt8) (l : List UInt8) (head : ℕ) (r : Reading),
      (p.state = .headerValue ∧ p.headerState = .contentLength ∧ (∀ x ∈ c :: l, isNum x = true) ∧
        decimalValue p.contentLength (c :: l) ≤ kUllongMax - 10) →
      (p.state = .headerValue ∧ p.headerState = .contentLength ∧ (∀ x ∈ l, isNum x = true) ∧
        decimalValue (p.contentLength * 10 + digit c) l ≤ kUllongMax - 10) ∧
      step strict ⟨p, head, r⟩ c = if head + 1 ≤ kMaxHead then
        some ⟨{ p with contentLength := p.contentLength * 10 + digit c }, head + 1, r.hear (.data .headerValue [c])⟩
        else none := by
    rintro p c l head r ⟨hstate, hlength, hl, hle⟩
    have hc := hl c List.mem_cons_self
    refine ⟨⟨hstate, hlength, fun x hx => hl x (.tail _ hx), hle⟩, step_value hstate ?_⟩
    exact ResponseParser.scanValue_byte (by rw [hlength]; decide) (isNum_ne hc).1
      (headerValueByte_digit hlength hc ((le_decimalValue _ l).trans hle))
  rw [← hfold]
  exact run_part (f := fun p c => { p with contentLength := p.contentLength * 10 + digit c })
    (q := fun p l => p.state = .headerValue ∧ p.headerState = .contentLength ∧
      (∀ x ∈ l, isNum x = true) ∧ decimalValue p.contentLength l ≤ kUllongMax - 10)
    hpart ⟨hstate, hlength, hvalue, hle⟩ hset hhead

lemma run_lengthValue (hstate : p.state = .headerValueDiscardWs) (hlength : p.headerState = .contentLength)
    (hne : value ≠ []) (hvalue : ∀ c ∈ value, isNum c = true) (hle : decimalValue 0 value ≤ kUllongMax - 10)
    (hhead : head + value.length + 2 ≤ kMaxHead) :
    run strict ⟨p, head, r⟩ (value ++ [0x0D, 0x0A]) =
      some ⟨{ p with state := .headerValueLws, index := 0, contentLength := decimalValue 0 value },
        head + value.length + 2, r.hear (.data .headerValue value)⟩ := by
  obtain ⟨c, value, rfl⟩ := List.exists_cons_of_ne_nil hne
  rw [List.length_cons] at hhead ⊢
  have hc := hvalue c List.mem_cons_self
  have hvalue : ∀ c ∈ value, isNum c = true := fun c hc => hvalue c (.tail _ hc)
  have hzero : 0 * 10 + digit c = digit c := by omega
  have hvalueEq : decimalValue 0 (c :: value) = decimalValue (digit c) value := by
    show decimalValue (0 * 10 + digit c) value = _
    rw [hzero]
  rw [hvalueEq] at hle ⊢
  let q : ResponseParser := { p with state := .headerValue, index := 0, contentLength := digit c }
  have hturn : p.turn strict c [] = (p.headerValueStart c []).after [.count 1] :=
    turn_valueStart hstate (isNum_ne hc).1 (isNum_ne hc).2
  have hstartValue : p.headerValueStart c [] = q.consume c [] [.mark .headerValue] := by
    simp [ResponseParser.headerValueStart, hlength, hc, q]
  rw [hstartValue] at hturn
  have hstart : step strict ⟨p, head, r⟩ c = _ :=
    step_marks hturn (by simp [ResponseParser.openMark, hstate]) (by rw [hstate]; rfl) (by omega)
  have hrest : run strict ⟨q, head + 1, r.hear (.data .headerValue [c])⟩ value = _ :=
    run_digits rfl hlength hvalue hle (.hear _ _ _) (by omega)
  rw [if_pos (by omega), Reading.hear_hear] at hrest
  rw [List.cons_append, run_cons, hstart, Option.bind_some, run_append, hrest, Option.bind_some,
    run_valueEnd rfl (.hear _ _ _) (by omega), List.singleton_append, Nat.add_right_comm head 1, Nat.add_assoc head]

/-! ### The next line -/

/-- Two turns of the header that differ in what they count and in what has been heard. -/
lemma step_congr {r' : Reading} {t t' : ParserTurn} (hturn : p.turn strict ch [] = t) (hturn' : q.turn strict ch [] = t')
    (hparser : t.parser = t'.parser) (hnext : t.next = t'.next) (hclear : .clear ∈ t.effects ↔ .clear ∈ t'.effects)
    (hfollow : t.effects.foldlM Hearing.follow ⟨p.openMark, r⟩ = t'.effects.foldlM Hearing.follow ⟨q.openMark, r'⟩)
    (hheader : p.state.parsingHeader = true) (hheader' : q.state.parsingHeader = true) :
    step strict ⟨p, head, r⟩ ch = step strict ⟨q, head, r'⟩ ch := by
  subst hturn hturn'
  have hhead : (if .clear ∈ (p.turn strict ch []).effects then 0 else head + 1) =
      if .clear ∈ (q.turn strict ch []).effects then 0 else head + 1 := if_congr hclear rfl rfl
  unfold step
  rw [headBehind_header hheader, headBehind_header hheader']
  dsimp only
  rw [hparser, hnext, hfollow, hhead]

/-- Behind a value the next line begins, unless it begins with a blank. -/
lemma step_valueLws (hstate : p.state = .headerValueLws) (hfinish : p.finishHeader = p) (hch : isBlank ch = false) :
    step strict ⟨p, head, r⟩ ch = step strict ⟨{ p with state := .headerFieldStart }, head, r⟩ ch := by
  have hturn : p.turn strict ch [] =
      ((ResponseParser.headerFieldStart strict { p with state := .headerFieldStart } ch []).reexecuted).after
        [.count 1] := by
    simp [ResponseParser.turn, ResponseParser.dispatch, hstate, ParserState.parsingHeader,
      ResponseParser.headerValueLws, hfinish, hch]
  have hopen : p.openMark = none := by simp [ResponseParser.openMark, hstate]
  refine step_congr hturn rfl rfl rfl (by simp [ParserTurn.reexecuted, ParserTurn.after, ResponseParser.turn,
    ParserState.parsingHeader, ResponseParser.dispatch]) ?_ (by rw [hstate]; rfl) rfl
  rw [hopen]
  rfl

/-- Behind no value, too, and that it is empty is told. -/
lemma step_valueDiscardLws (hstate : p.state = .headerValueDiscardLws) (hfinish : p.finishHeader = p)
    (hch : isBlank ch = false) : step strict ⟨p, head, r⟩ ch =
      step strict ⟨{ p with state := .headerFieldStart }, head, r.hear (.data .headerValue [])⟩ ch := by
  have hturn : p.turn strict ch [] =
      (((ResponseParser.headerFieldStart strict { p with state := .headerFieldStart } ch []).reexecuted).after
        [.mark .headerValue, .data .headerValue]).after [.count 1] := by
    simp [ResponseParser.turn, ResponseParser.dispatch, hstate, ParserState.parsingHeader,
      ResponseParser.headerValueDiscardLws, hfinish, hch]
  have hopen : p.openMark = none := by simp [ResponseParser.openMark, hstate]
  refine step_congr hturn rfl rfl rfl (by simp [ParserTurn.reexecuted, ParserTurn.after, ResponseParser.turn,
    ParserState.parsingHeader, ResponseParser.dispatch]) ?_ (by rw [hstate]; rfl) rfl
  rw [hopen]
  rfl

end ResponseReader

/-! ### The headers -/

/-- `name:value`, and the end of the line. -/
def headerLine (h : List UInt8 × List UInt8) : List UInt8 := h.1 ++ 0x3A :: h.2 ++ [0x0D, 0x0A]

/-- A header that is read as it is, and says nothing about the connection or how the body is sent. -/
structure PlainHeader (h : List UInt8 × List UInt8) : Prop where
  name_ne : h.1 ≠ []
  name : ∀ c ∈ h.1, tokens c ≠ 0
  other : ResponseParser.lowerName h.1 ∉
    [ResponseParser.kConnection, ResponseParser.kProxyConnection, ResponseParser.kTransferEncoding]
  value : ∀ c ∈ h.2, ResponseParser.isLineEnd c = false
  value_head : ∀ c ∈ h.2.head?, ResponseParser.isBlank c = false

/-- The header tells how long the body is. -/
def IsLength (h : List UInt8 × List UInt8) : Prop := ResponseParser.lowerName h.1 = ResponseParser.kContentLengthName

/-- The value is this length. -/
def TellsLength (length : ℕ) (value : List UInt8) : Prop :=
  value ≠ [] ∧ (∀ c ∈ value, isNum c = true) ∧ decimalValue 0 value = length

instance (h : List UInt8 × List UInt8) : Decidable (PlainHeader h) :=
  decidable_of_iff (h.1 ≠ [] ∧ h.1.all (fun c => tokens c ≠ 0) ∧
    [ResponseParser.kConnection, ResponseParser.kProxyConnection, ResponseParser.kTransferEncoding].all
      (fun name => ResponseParser.lowerName h.1 ≠ name) ∧
    h.2.all (fun c => ResponseParser.isLineEnd c = false) ∧
    h.2.head?.all (fun c => ResponseParser.isBlank c = false)) <| by
    simp only [List.all_eq_true, Option.all_eq_true, decide_eq_true_eq]
    exact ⟨fun ⟨h₁, h₂, h₃, h₄, h₅⟩ => ⟨h₁, h₂, fun hmem => h₃ _ hmem rfl, h₄, h₅⟩,
      fun ⟨h₁, h₂, h₃, h₄, h₅⟩ => ⟨h₁, h₂, fun _ hmem heq => h₃ (heq ▸ hmem), h₄, h₅⟩⟩

instance : DecidablePred IsLength := fun h =>
  inferInstanceAs (Decidable (ResponseParser.lowerName h.1 = ResponseParser.kContentLengthName))

instance (length : ℕ) : DecidablePred (TellsLength length) := fun value =>
  decidable_of_iff (value ≠ [] ∧ value.all isNum ∧ decimalValue 0 value = length) <| by
    rw [TellsLength, List.all_eq_true]

/-- The parser within a head of version 1.1, with the status and the length that it has read. -/
structure InHead (code length : ℕ) (p : ResponseParser) : Prop where
  state : p.state = .headerFieldStart
  major : p.httpMajor = 1
  minor : p.httpMinor = 1
  code : p.statusCode = code
  length : p.contentLength = length
  flags : ∃ b, p.flags = { ParserFlags.none with upgrade := b }

namespace ResponseReader

open ResponseParser (isLineEnd isBlank consume lowerName Matched)

variable {strict : Bool} {p q : ResponseParser} {ch c : UInt8} {head code length n : ℕ} {r : Reading}
  {value rest : List UInt8} {h : List UInt8 × List UInt8} {hs : List (List UInt8 × List UInt8)}

lemma run_plainLine (hstate : p.state = .headerValueDiscardWs) (hplain : p.headerState.plain = true)
    (hin : InHead code length { p with state := .headerFieldStart }) (hvalue : ∀ c ∈ value, isLineEnd c = false)
    (hblank : ∀ c ∈ value.head?, isBlank c = false) (hhead : head + value.length + 2 ≤ kMaxHead) :
    ∃ q, InHead code length q ∧ ∀ c rest, isBlank c = false →
      run strict ⟨p, head, r⟩ (value ++ [0x0D, 0x0A] ++ c :: rest) =
        run strict ⟨q, head + value.length + 2, r.hear (.data .headerValue value)⟩ (c :: rest) := by
  obtain ⟨-, hmajor, hminor, hcode, hlen, b, hflags⟩ := hin
  cases value with
  | nil =>
    have hrunValue : run strict ⟨p, head, r⟩ [0x0D, 0x0A] = _ := run_noValue hstate hhead
    have hfinish : ResponseParser.finishHeader { p with state := .headerValueDiscardLws } = _ :=
      ResponseParser.finishHeader_plain (.inl hplain)
    refine ⟨{ p with state := .headerFieldStart }, ⟨rfl, hmajor, hminor, hcode, hlen, b, hflags⟩, ?_⟩
    intro c rest hc
    rw [List.nil_append, run_append, hrunValue, Option.bind_some, run_cons, step_valueDiscardLws rfl hfinish hc]
    rfl
  | cons v value =>
    obtain ⟨b', hrunValue⟩ : ∃ b', run strict ⟨p, head, r⟩ (v :: value ++ [0x0D, 0x0A]) = _ :=
      run_plainValue hstate hplain (List.cons_ne_nil v value) hvalue hblank hhead
    refine ⟨{ p with
      state := .headerFieldStart
      headerState := .general
      index := 0
      flags.upgrade := b' }, ⟨rfl, hmajor, hminor, hcode, hlen, b', ?_⟩, ?_⟩
    · rw [show p.flags = _ from hflags]
    intro c rest hc
    rw [run_append, hrunValue, Option.bind_some, run_cons,
      step_valueLws rfl (ResponseParser.finishHeader_plain (.inl rfl)) hc]
    rfl

lemma run_lengthLine (hstate : p.state = .headerValueDiscardWs) (hlength : p.headerState = .contentLength)
    (hin : InHead code length { p with state := .headerFieldStart }) (htells : TellsLength n value)
    (hle : n ≤ kUllongMax - 10) (hhead : head + value.length + 2 ≤ kMaxHead) :
    ∃ q, InHead code n q ∧ ∀ c rest, isBlank c = false →
      run strict ⟨p, head, r⟩ (value ++ [0x0D, 0x0A] ++ c :: rest) =
        run strict ⟨q, head + value.length + 2, r.hear (.data .headerValue value)⟩ (c :: rest) := by
  obtain ⟨hne, hdigits, rfl⟩ := htells
  obtain ⟨-, hmajor, hminor, hcode, -, b, hflags⟩ := hin
  have hrunValue : run strict ⟨p, head, r⟩ (value ++ [0x0D, 0x0A]) = _ :=
    run_lengthValue hstate hlength hne hdigits hle hhead
  let p₁ : ResponseParser := { p with state := .headerValueLws, index := 0, contentLength := decimalValue 0 value }
  have hfinish : p₁.finishHeader = p₁ := ResponseParser.finishHeader_plain (.inr hlength)
  refine ⟨{ p with state := .headerFieldStart, index := 0, contentLength := decimalValue 0 value },
    ⟨rfl, hmajor, hminor, hcode, rfl, b, hflags⟩, ?_⟩
  intro c rest hc
  rw [run_append, hrunValue, Option.bind_some, run_cons, step_valueLws rfl hfinish hc]
  rfl

/-- **A header** is read as it is, whatever line follows. -/
lemma run_header (hin : InHead code length p) (hr : r.inValue = true) (hplain : PlainHeader h)
    (hlength : IsLength h → TellsLength n h.2 ∧ n ≤ kUllongMax - 10) (hhead : head + (headerLine h).length ≤ kMaxHead) :
    ∃ q, InHead code (if IsLength h then n else length) q ∧ ∀ c rest, isBlank c = false →
      run strict ⟨p, head, r⟩ (headerLine h ++ c :: rest) =
        run strict ⟨q, head + (headerLine h).length, { r with headers := h :: r.headers }⟩ (c :: rest) := by
  obtain ⟨name, value⟩ := h
  obtain ⟨hne, hname, hother, hvalue, hblank⟩ := hplain
  have hsize : head + (headerLine (name, value)).length = head + name.length + 1 + value.length + 2 := by
    simp [headerLine]
    omega
  rw [hsize] at hhead ⊢
  obtain ⟨headerState, index, hmatched, hrunName⟩ : ∃ headerState index, Matched (lowerName name) index headerState ∧
      run strict ⟨p, head, r⟩ (name ++ [0x3A]) = _ := run_headerField hin.state hne hname (by omega)
  let p₁ : ResponseParser := { p with state := .headerValueDiscardWs, headerState, index }
  have hin₁ : InHead code length { p₁ with state := .headerFieldStart } :=
    ⟨rfl, hin.major, hin.minor, hin.code, hin.length, hin.flags⟩
  have hreading : (r.hear (.data .headerField name)).hear (.data .headerValue value) =
      { r with headers := (name, value) :: r.headers } := by
    simp [Reading.hear, hr]
  have hrun : ∀ c rest, run strict ⟨p, head, r⟩ (headerLine (name, value) ++ c :: rest) =
      run strict ⟨p₁, head + name.length + 1, r.hear (.data .headerField name)⟩
        (value ++ [0x0D, 0x0A] ++ c :: rest) := by
    intro c rest
    have happend : headerLine (name, value) ++ c :: rest = (name ++ [0x3A]) ++ (value ++ [0x0D, 0x0A] ++ c :: rest) := by
      simp [headerLine]
    rw [happend, run_append, hrunName]
    rfl
  by_cases hisLength : IsLength (name, value)
  · obtain ⟨htells, hle⟩ := hlength hisLength
    have hcontentLength : headerState = .contentLength := by
      rw [show lowerName name = ResponseParser.kContentLengthName from hisLength] at hmatched
      exact hmatched.contentLength
    obtain ⟨q, hq, hrunLine⟩ := run_lengthLine (p := p₁) rfl hcontentLength hin₁ htells hle hhead
    refine ⟨q, by rwa [if_pos hisLength], fun c rest hc => ?_⟩
    rw [hrun, hrunLine c rest hc, hreading]
  · have hstatePlain : headerState.plain = true := by
      refine hmatched.plain ?_
      simp only [List.mem_cons, List.not_mem_nil, or_false, not_or] at hother ⊢
      exact ⟨hother.1, hother.2.1, hisLength, hother.2.2⟩
    obtain ⟨q, hq, hrunLine⟩ := run_plainLine (p := p₁) rfl hstatePlain hin₁ hvalue hblank hhead
    refine ⟨q, by rwa [if_neg hisLength], fun c rest hc => ?_⟩
    rw [hrun, hrunLine c rest hc, hreading]

/-- The length that headers tell, or the one before. -/
def lengthOf (n : ℕ) (hs : List (List UInt8 × List UInt8)) (length : ℕ) : ℕ :=
  if ∃ h ∈ hs, IsLength h then n else length

/-- **All headers** are read. -/
lemma run_headers (hin : InHead code length p) (hr : r.inValue = true) (hplain : ∀ h ∈ hs, PlainHeader h)
    (hlength : ∀ h ∈ hs, IsLength h → TellsLength n h.2 ∧ n ≤ kUllongMax - 10)
    (hhead : head + (hs.flatMap headerLine).length ≤ kMaxHead) :
    ∃ q, InHead code (lengthOf n hs length) q ∧ ∀ c rest, isBlank c = false →
      run strict ⟨p, head, r⟩ (hs.flatMap headerLine ++ c :: rest) =
        run strict ⟨q, head + (hs.flatMap headerLine).length, { r with headers := hs.reverse ++ r.headers }⟩
          (c :: rest) := by
  induction hs generalizing p head r length with
  | nil => exact ⟨p, by simpa [lengthOf] using hin, fun _ _ _ => rfl⟩
  | cons h hs ih =>
    rw [List.flatMap_cons, List.length_append] at hhead
    obtain ⟨q₁, hq₁, hrun₁⟩ := run_header hin hr (hplain h List.mem_cons_self)
      (hlength h List.mem_cons_self) (show head + (headerLine h).length ≤ kMaxHead by omega)
    obtain ⟨q, hq, hrun⟩ := ih hq₁ (r := { r with headers := h :: r.headers }) hr (fun h hh => hplain h (.tail _ hh))
      (fun h hh => hlength h (.tail _ hh)) (show head + (headerLine h).length + (hs.flatMap headerLine).length ≤ kMaxHead by
        omega)
    refine ⟨q, ?_, fun c rest hc => ?_⟩
    · have heq : lengthOf n (h :: hs) length = lengthOf n hs (if IsLength h then n else length) := by
        simp only [lengthOf, List.exists_mem_cons_iff]
        split_ifs <;> simp_all
      rwa [heq]
    · -- the byte behind the first line is that of the next name, or `c`
      obtain ⟨c', rest', hc', heq⟩ : ∃ c' rest', isBlank c' = false ∧ hs.flatMap headerLine ++ c :: rest = c' :: rest' := by
        cases hs with
        | nil => exact ⟨c, rest, hc, rfl⟩
        | cons h' hs =>
          obtain ⟨hne, hname, -⟩ := hplain h' (.tail _ List.mem_cons_self)
          obtain ⟨c', name, hname'⟩ := List.exists_cons_of_ne_nil hne
          refine ⟨c', name ++ 0x3A :: h'.2 ++ [0x0D, 0x0A] ++ (hs.flatMap headerLine ++ c :: rest), ?_, ?_⟩
          · exact (ResponseParser.tokens_ne (hname c' (by simp [hname'])) true).2.2.2.1
          · simp [headerLine, hname']
      rw [List.flatMap_cons, List.append_assoc, heq, hrun₁ c' rest' hc', ← heq, hrun c rest hc, List.length_append,
        ← Nat.add_assoc, List.reverse_cons, List.append_assoc, List.singleton_append]

end ResponseReader

/-! ### The end of the head, and the body -/

/-- The statuses of responses that have no body. -/
def Bodyless (code : ℕ) : Prop := code / 100 = 1 ∨ code = 204 ∨ code = 304

instance : DecidablePred Bodyless := fun _ => inferInstanceAs (Decidable (_ ∨ _ ∨ _))

/-- The parser knows where the body ends. -/
def Framed (code length : ℕ) (body : List UInt8) : Prop :=
  length = body.length ∧ length ≠ kUllongMax ∨ length = kUllongMax ∧ body = [] ∧ Bodyless code

lemma ResponseParser.newMessage_eq {strict : Bool} {p : ResponseParser} (hmajor : p.httpMajor = 1)
    (hminor : p.httpMinor = 1) (hclose : p.flags.connectionClose = false)
    (hend : p.contentLength ≠ kUllongMax ∨ Bodyless p.statusCode) : p.newMessage strict = .startRes := by
  have heof : p.messageNeedsEof = false := by
    unfold messageNeedsEof
    rcases hend with hlength | hbodyless
    · simp [hlength]
    · exact if_pos hbodyless
  simp [newMessage, shouldKeepAlive, hmajor, hminor, hclose, heof]

namespace ResponseReader

open ResponseParser (consume)

variable {strict : Bool} {p : ResponseParser} {head code length : ℕ} {r : Reading} {body : List UInt8}

/-- The LF of the empty line: the callback for the headers is made, and that for the message, if there is no body. -/
lemma step_headEnd {t : ParserTurn} (hin : InHead code length p)
    (hdone : ResponseParser.headersDone strict { p with state := .headersDone, upgrade := false } 0x0A [] = t)
    {h : Hearing} (hnext : t.next = .ok []) (hclear : .clear ∈ t.effects)
    (hfollow : t.effects.foldlM Hearing.follow ⟨none, r.hear (.headersComplete code)⟩ = some h)
    (hhead : head + 1 ≤ kMaxHead) :
    step strict ⟨{ p with state := .headersAlmostDone }, head, r⟩ 0x0A = some ⟨t.parser, 0, h.reading⟩ := by
  obtain ⟨-, -, -, rfl, -, b, hflags⟩ := hin
  have hturn : ResponseParser.turn strict { p with state := .headersAlmostDone } 0x0A [] =
      ((t.reexecuted).after [.notify (.headersComplete p.statusCode)]).after [.count 1] := by
    have hupgrade : (p.flags.upgrade && p.flags.connectionUpgrade) = false := by simp [hflags, ParserFlags.none]
    have htrailing : p.flags.trailing = false := by simp [hflags, ParserFlags.none]
    simp [ResponseParser.turn, ResponseParser.dispatch, ParserState.parsingHeader, ResponseParser.headersAlmostDone,
      ResponseParser.strictCheck, htrailing, hupgrade, hdone]
  refine step_eq_some.2 ⟨hhead, ?_, h, ?_, ?_⟩
  · rw [hturn]
    exact hnext
  · rw [hturn]
    exact hfollow
  · rw [hturn, if_pos (by simp [ParserTurn.reexecuted, ParserTurn.after, hclear])]
    rfl

lemma step_messageEnd (hin : InHead code length p) (hcase : length = 0 ∨ length = kUllongMax ∧ Bodyless code)
    (hhead : head + 1 ≤ kMaxHead) :
    ∃ q : ResponseParser, q.state = .startRes ∧ step strict ⟨{ p with state := .headersAlmostDone }, head, r⟩ 0x0A =
      some ⟨q, 0, (r.hear (.headersComplete code)).hear .messageComplete⟩ := by
  obtain ⟨-, hmajor, hminor, rfl, rfl, b, hflags⟩ := id hin
  have hclose : p.flags.connectionClose = false := by simp [hflags, ParserFlags.none]
  have hchunked : p.flags.chunked = false := by simp [hflags, ParserFlags.none]
  let p₁ : ResponseParser := { p with state := .headersDone, upgrade := false }
  have hnew : p₁.newMessage strict = .startRes := by
    refine ResponseParser.newMessage_eq hmajor hminor hclose ?_
    rcases hcase with h | ⟨-, h⟩
    · exact .inl (by show p.contentLength ≠ _; rw [h]; decide)
    · exact .inr h
  have hdone : p₁.headersDone strict 0x0A [] = p₁.completeMessage strict 0x0A [] [.clear] := by
    rcases hcase with h | ⟨h, hbodyless⟩
    · simp [ResponseParser.headersDone, ResponseParser.strictCheck, p₁, hchunked, h]
    · have heof : p₁.messageNeedsEof = false := if_pos hbodyless
      have hzero : kUllongMax ≠ 0 := by decide
      simp only [ResponseParser.headersDone, ResponseParser.strictCheck]
      rw [if_neg (by simp), if_neg (by simp [p₁]), if_neg (by simp [p₁, hchunked]), if_neg (by simp [p₁, h, hzero]),
        if_neg (by simp [p₁, h]), if_pos (by simp [heof])]
  exact ⟨{ p₁ with state := p₁.newMessage strict }, hnew,
    step_headEnd hin hdone rfl (by simp [ResponseParser.completeMessage, consume]) rfl hhead⟩

/-- **The end of the head and the body** are read, and the message is complete. -/
lemma run_end (hin : InHead code length p) (hframed : Framed code length body) (hhead : head + 2 ≤ kMaxHead) :
    ∃ q : ResponseParser, q.state = .startRes ∧ run strict ⟨p, head, r⟩ ([0x0D, 0x0A] ++ body) =
      some ⟨q, 0, ((r.hear (.headersComplete code)).hear (.data .body body)).hear .messageComplete⟩ := by
  obtain ⟨hstate, hmajor, hminor, -, hlength, b, hflags⟩ := id hin
  have hcr : step strict ⟨p, head, r⟩ 0x0D = some ⟨{ p with state := .headersAlmostDone }, head + 1, r⟩ := by
    refine step_consume ?_ (by simp [ResponseParser.openMark, hstate]) (by rw [hstate]; rfl) (by omega)
    simp [ResponseParser.turn, ResponseParser.dispatch, hstate, ParserState.parsingHeader,
      ResponseParser.headerFieldStart]
  rw [run_append, run_cons, hcr, Option.bind_some, run_cons]
  cases body with
  | nil =>
    have hcase : length = 0 ∨ length = kUllongMax ∧ Bodyless code := by
      rcases hframed with ⟨hlen, -⟩ | ⟨hmax, -, hcode⟩
      · exact .inl hlen
      · exact .inr ⟨hmax, hcode⟩
    obtain ⟨q, hq, hstep⟩ : ∃ q : ResponseParser, q.state = .startRes ∧
        step strict ⟨{ p with state := .headersAlmostDone }, head + 1, r⟩ 0x0A = _ :=
      step_messageEnd hin hcase (by omega)
    refine ⟨q, hq, ?_⟩
    rw [hstep, Reading.hear_body_nil]
    rfl
  | cons c body =>
    obtain ⟨hlen, hne⟩ : length = (c :: body).length ∧ length ≠ kUllongMax :=
      hframed.resolve_right fun h => List.cons_ne_nil c body h.2.1
    have hclose : p.flags.connectionClose = false := by simp [hflags, ParserFlags.none]
    have hchunked : p.flags.chunked = false := by simp [hflags, ParserFlags.none]
    have hpos : p.contentLength ≠ 0 := by
      rw [hlength, hlen]
      simp
    let p₁ : ResponseParser := { p with state := .headersDone, upgrade := false }
    let p₂ : ResponseParser := { p₁ with state := .bodyIdentity }
    have hdone : p₁.headersDone strict 0x0A [] = p₂.consume 0x0A [] [.clear] := by
      simp [ResponseParser.headersDone, ResponseParser.strictCheck, p₁, p₂, hchunked, hpos, hlength.trans_ne hne]
    have hstep : step strict ⟨{ p with state := .headersAlmostDone }, head + 1, r⟩ 0x0A =
        some ⟨p₂, 0, r.hear (.headersComplete code)⟩ :=
      step_headEnd hin hdone rfl (by simp [consume]) rfl (by omega)
    have hbody : run strict ⟨p₂, 0, r.hear (.headersComplete code)⟩ (c :: body) = _ :=
      run_body (ResponseParser.takesBody_bodyIdentity (p := p₂) rfl) (Nat.zero_le _) (List.cons_ne_nil c body)
        (hlength.trans hlen).ge
    rw [if_pos (hlength.trans hlen)] at hbody
    refine ⟨{ p₂ with
      contentLength := 0
      state := ResponseParser.newMessage strict { p₂ with contentLength := 0 } }, ?_, ?_⟩
    · exact ResponseParser.newMessage_eq hmajor hminor hclose (.inl (by show 0 ≠ kUllongMax; decide))
    · rw [hstep, Option.bind_some]
      exact hbody

end ResponseReader

end Zutils.Net.Http
