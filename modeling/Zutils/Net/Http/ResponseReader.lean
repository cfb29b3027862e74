import Zutils.Net.Http.ResponseParser

/-!
# A client that reads responses

A client puts responses together from the callbacks of `http_parser_execute`, as the parser's documentation asks for:
a part of a name or a value continues the part before it. How its stream is cut into reads must not matter, and does
not matter (`ResponseClient.receive_run`): what the client makes of a read is what a `ResponseReader` makes of its
bytes, one after the other. That holds as long as a head is not longer than `kMaxHead`, a fourth of what the parser
counts to: it counts a byte up to four times, and how often depends on the reads.

The proof goes over the turns of the parser. In most states a turn takes one byte, and does not look at those behind it
(`OneByte`). In the others it takes as many as it can; that comes to the same as one turn for each of them, as parts
that are handed over one after the other are put together (`Reading.hear_hear`).
-/

namespace Zutils.Net.Http

/-! ### The client -/

/-- A response, as a client has read it. -/
structure ReceivedResponse where
  statusCode : ℕ
  phrase : List UInt8
  headers : List (List UInt8 × List UInt8)
  body : List UInt8
  deriving DecidableEq, Repr

/-- What a client has put together: of the response that has begun, the latest header first, and the responses that are
complete. -/
structure Reading where
  statusCode : ℕ
  phrase : List UInt8
  headers : List (List UInt8 × List UInt8)
  /-- The latest header has a value, so that a name is that of another one. -/
  inValue : Bool
  body : List UInt8
  responses : List ReceivedResponse
  deriving DecidableEq, Repr

namespace Reading

/-- Nothing has been read. -/
def empty : Reading := ⟨0, [], [], true, [], []⟩

variable (r : Reading)

/-- A callback is made. -/
def hear : ParserCallback → Reading
  | .messageBegin => { r with statusCode := 0, phrase := [], headers := [], inValue := true, body := [] }
  | .data .status bytes => { r with phrase := r.phrase ++ bytes }
  | .data .headerField bytes =>
    if r.inValue then { r with headers := (bytes, []) :: r.headers, inValue := false }
    else { r with headers := r.headers.modifyHead fun h => (h.1 ++ bytes, h.2) }
  | .data .headerValue bytes =>
    { r with headers := r.headers.modifyHead fun h => (h.1, h.2 ++ bytes), inValue := true }
  | .data .body bytes => { r with body := r.body ++ bytes }
  | .headersComplete statusCode => { r with statusCode }
  | .messageComplete =>
    { r with responses := r.responses ++ [⟨r.statusCode, r.phrase, r.headers.reverse, r.body⟩] }

variable {r : Reading} {k : ParserData} {mark : Option ParserData}

/-- **Parts are put together.** -/
lemma hear_hear (r : Reading) (k : ParserData) (a b : List UInt8) :
    (r.hear (.data k a)).hear (.data k b) = r.hear (.data k (a ++ b)) := by
  cases k with
  | status => simp [hear]
  | body => simp [hear]
  | headerValue => cases hh : r.headers <;> simp [hear, hh]
  | headerField => cases hv : r.inValue <;> cases hh : r.headers <;> simp [hear, hv, hh]

lemma hear_body_nil (r : Reading) : r.hear (.data .body []) = r := by simp [hear]

/-- **What has been read stays.** -/
lemma hear_grows (r : Reading) (c : ParserCallback) : r.responses <+: (r.hear c).responses := by
  fun_cases hear r c <;> simp

/-- An empty part of what the mark is for makes no difference. -/
def Settled (r : Reading) (mark : Option ParserData) : Prop := ∀ k ∈ mark, r.hear (.data k []) = r

lemma Settled.hear (r : Reading) (k : ParserData) (a : List UInt8) : (r.hear (.data k a)).Settled (some k) := by
  rintro _ ⟨⟩
  rw [hear_hear, List.append_nil]

lemma Settled.none (r : Reading) : r.Settled none := fun _ h => by cases h

end Reading

/-- A client: its parser, and what it has read. -/
structure ResponseClient where
  parser : ResponseParser
  nread : ℕ
  reading : Reading
  deriving DecidableEq, Repr

namespace ResponseClient

/-- A client that has read nothing. -/
def new : ResponseClient := ⟨.init, 0, .empty⟩

/-- The client receives bytes; it gives up if the parser does not take all of them. -/
def receive (strict : Bool) (c : ResponseClient) (data : List UInt8) : Option ResponseClient :=
  let call := c.parser.execute strict c.nread data
  if call.halt = none then some ⟨call.parser, call.nread, call.calls.foldl Reading.hear c.reading⟩ else none

/-- Nothing of a response has arrived. -/
def Waiting (c : ResponseClient) : Prop := c.parser.state = .startRes ∧ c.nread = 0

lemma waiting_new : ResponseClient.Waiting .new := ⟨rfl, rfl⟩

end ResponseClient

/-! ### Effects -/

/-- What has been heard, if the parts of a read are heard as `p` goes past them: the mark, and the reading. -/
structure Hearing where
  mark : Option ParserData
  reading : Reading
  deriving DecidableEq, Repr

/-- An effect, which is `none` if a callback comes in between the parts of another. -/
def Hearing.follow (s : Hearing) : ParserEffect → Option Hearing
  | .count _ | .clear => some s
  | .mark k => if s.mark = none then some ⟨some k, s.reading.hear (.data k [])⟩ else some s
  | .pass bytes => some { s with reading := (s.mark.map (s.reading.hear <| .data · bytes)).getD s.reading }
  | .data k => if s.mark = some k then some { s with mark := none } else some s
  | .notify c => if s.mark = none then some { s with reading := s.reading.hear c } else none

/-- `nread` goes from the one to the other, and not beyond the limit. -/
def CountsTo : ℤ → List ParserEffect → ℤ → Prop
  | n, [], n' => n = n'
  | n, .count v :: effects, n' => 0 ≤ n + v ∧ n + v ≤ kHttpMaxHeaderSize ∧ CountsTo (n + v) effects n'
  | _, .clear :: effects, n' => CountsTo 0 effects n'
  | n, _ :: effects, n' => CountsTo n effects n'

/-- What has been heard of the callbacks, with the one for a mark that is left over. -/
def ParserOuter.heard (o : ParserOuter) (r : Reading) : Reading := o.leftover.foldl Reading.hear r

section Effects

variable {o o' : ParserOuter} {s s' : Hearing} {e : ParserEffect} {effects : List ParserEffect} {r : Reading} {n : ℤ}

lemma heard_none (h : o.mark = none) : o.heard r = o.calls.foldl Reading.hear r := by
  simp [ParserOuter.heard, ParserOuter.leftover, h]

lemma heard_some {m : ParserData × List UInt8} (h : o.mark = some m) :
    o.heard r = (o.calls.foldl Reading.hear r).hear (.data m.1 m.2) := by
  simp [ParserOuter.heard, ParserOuter.leftover, h]

lemma Hearing.follow_settled (h : s.reading.Settled s.mark) (hf : s.follow e = some s') :
    s'.reading.Settled s'.mark := by
  cases e with
  | count v =>
    obtain rfl := Option.some.inj hf
    exact h
  | clear =>
    obtain rfl := Option.some.inj hf
    exact h
  | mark k =>
    by_cases hm : s.mark = none
    · obtain rfl := Option.some.inj ((if_pos hm).symm.trans hf)
      exact .hear _ _ _
    · obtain rfl := Option.some.inj ((if_neg hm).symm.trans hf)
      exact h
  | pass bytes =>
    obtain rfl := Option.some.inj hf
    obtain ⟨_ | k, r⟩ := s
    · exact .none _
    · exact .hear _ _ _
  | data k =>
    by_cases hm : s.mark = some k
    · obtain rfl := Option.some.inj ((if_pos hm).symm.trans hf)
      exact .none _
    · obtain rfl := Option.some.inj ((if_neg hm).symm.trans hf)
      exact h
  | notify c =>
    by_cases hm : s.mark = none
    · obtain rfl := Option.some.inj ((if_pos hm).symm.trans hf)
      show Reading.Settled _ s.mark
      rw [hm]
      exact .none _
    · rw [Hearing.follow, if_neg hm] at hf
      cases hf

lemma follow_all_settled (h : s.reading.Settled s.mark) (hf : effects.foldlM Hearing.follow s = some s') :
    s'.reading.Settled s'.mark := by
  induction effects generalizing s with
  | nil =>
    obtain rfl := Option.some.inj hf
    exact h
  | cons e effects ih =>
    obtain ⟨s₁, hs₁, hf⟩ := Option.bind_eq_some_iff.1 hf
    exact ih (Hearing.follow_settled h hs₁) hf

lemma Hearing.follow_grows (hf : s.follow e = some s') : s.reading.responses <+: s'.reading.responses := by
  cases e with
  | count v | clear =>
    obtain rfl := Option.some.inj hf
    exact List.prefix_refl _
  | mark k =>
    rw [Hearing.follow] at hf
    split at hf
    all_goals obtain rfl := Option.some.inj hf
    · exact Reading.hear_grows _ _
    · exact List.prefix_refl _
  | pass bytes =>
    obtain rfl := Option.some.inj hf
    obtain ⟨_ | k, r⟩ := s
    · exact List.prefix_refl _
    · exact Reading.hear_grows _ _
  | data k =>
    rw [Hearing.follow] at hf
    split at hf
    all_goals
      obtain rfl := Option.some.inj hf
      exact List.prefix_refl _
  | notify c =>
    obtain ⟨-, hf⟩ := Option.ite_none_right_eq_some.1 hf
    obtain rfl := Option.some.inj hf
    exact Reading.hear_grows _ _

lemma Hearing.follow_all_grows (hf : effects.foldlM Hearing.follow s = some s') :
    s.reading.responses <+: s'.reading.responses := by
  induction effects generalizing s with
  | nil =>
    obtain rfl := Option.some.inj hf
    exact List.prefix_refl _
  | cons e effects ih =>
    obtain ⟨s₁, hs₁, hf⟩ := Option.bind_eq_some_iff.1 hf
    exact (Hearing.follow_grows hs₁).trans (ih hf)

/-- The parser's own account of an effect agrees with what is heard. -/
structure Agrees (o : ParserOuter) (r : Reading) (s : Hearing) : Prop where
  mark : o.mark.map Prod.fst = s.mark
  heard : o.heard r = s.reading

lemma perform_agrees (h : Agrees o r s) (hf : s.follow e = some s') (hc : CountsTo o.nread (e :: effects) n) :
    ∃ o', o.perform e = some o' ∧ Agrees o' r s' ∧ CountsTo o'.nread effects n := by
  obtain ⟨hmark, hheard⟩ := h
  cases e with
  | count v =>
    obtain ⟨hge, hle, hc⟩ := hc
    obtain rfl := Option.some.inj hf
    have hmod : (o.nread + v) % 2 ^ 32 = o.nread + v := Int.emod_eq_of_lt hge (by unfold kHttpMaxHeaderSize at hle; omega)
    have hnat : (((o.nread + v).toNat : ℕ) : ℤ) = o.nread + v := Int.toNat_of_nonneg hge
    refine ⟨{ o with nread := (o.nread + v).toNat }, ?_, ⟨hmark, hheard⟩, by rwa [hnat]⟩
    rw [ParserOuter.perform, hmod, if_neg (by omega)]
  | clear =>
    obtain rfl := Option.some.inj hf
    exact ⟨_, rfl, ⟨hmark, hheard⟩, hc⟩
  | mark k =>
    refine ⟨_, rfl, ?_, hc⟩
    obtain ⟨nread, _ | m, calls⟩ := o
    · obtain rfl := Option.some.inj ((if_pos hmark.symm).symm.trans hf)
      exact ⟨rfl, by rw [heard_some rfl, ← hheard, heard_none rfl]⟩
    · obtain rfl := Option.some.inj ((if_neg (by simp [← hmark])).symm.trans hf)
      exact ⟨hmark, hheard⟩
  | pass bytes =>
    obtain rfl := Option.some.inj hf
    refine ⟨_, rfl, ?_, hc⟩
    obtain ⟨mark, reading⟩ := s
    obtain ⟨nread, _ | m, calls⟩ := o
    · obtain rfl := hmark
      exact ⟨rfl, hheard⟩
    · obtain rfl := hmark
      refine ⟨rfl, ?_⟩
      rw [heard_some rfl, ← Reading.hear_hear]
      exact congrArg (Reading.hear · (.data m.1 bytes)) ((heard_some rfl).symm.trans hheard)
  | data k =>
    obtain ⟨nread, _ | ⟨k', bytes⟩, calls⟩ := o
    · obtain rfl := Option.some.inj ((if_neg (by simp [← hmark])).symm.trans hf)
      exact ⟨_, rfl, ⟨hmark, hheard⟩, hc⟩
    · by_cases hk : k' = k
      · subst hk
        obtain rfl := Option.some.inj ((if_pos hmark.symm).symm.trans hf)
        refine ⟨_, if_pos rfl, ⟨rfl, ?_⟩, hc⟩
        rw [heard_none rfl, List.foldl_append, ← hheard, heard_some rfl]
        rfl
      · obtain rfl := Option.some.inj ((if_neg (by simp [← hmark, hk])).symm.trans hf)
        exact ⟨_, if_neg hk, ⟨hmark, hheard⟩, hc⟩
  | notify c =>
    by_cases hm : s.mark = none
    · obtain rfl := Option.some.inj ((if_pos hm).symm.trans hf)
      have hnone : o.mark = none := Option.map_eq_none_iff.1 (hmark.trans hm)
      refine ⟨_, rfl, ⟨hmark, ?_⟩, hc⟩
      rw [heard_none (by exact hnone), List.foldl_append, ← hheard, heard_none hnone]
      rfl
    · rw [Hearing.follow, if_neg hm] at hf
      cases hf

/-- **All effects** of a turn. -/
lemma perform_all_agrees (h : Agrees o r s) (hf : effects.foldlM Hearing.follow s = some s')
    (hc : CountsTo o.nread effects n) :
    ∃ o', effects.foldlM ParserOuter.perform o = some o' ∧ Agrees o' r s' ∧ (o'.nread : ℤ) = n := by
  induction effects generalizing o s with
  | nil =>
    obtain rfl := Option.some.inj hf
    exact ⟨o, rfl, h, hc⟩
  | cons e effects ih =>
    obtain ⟨s₁, hs₁, hf⟩ := Option.bind_eq_some_iff.1 hf
    obtain ⟨o₁, ho₁, h₁, hc₁⟩ := perform_agrees h hs₁ hc
    obtain ⟨o', ho', hagrees, hn⟩ := ih h₁ hf hc₁
    exact ⟨o', by rw [List.foldlM_cons, ho₁]; exact ho', hagrees, hn⟩

end Effects

/-! ### Byte for byte -/

/-- A client that takes bytes one by one: its parser, the length of the head so far, and what it has read. -/
structure ResponseReader where
  parser : ResponseParser
  head : ℕ
  reading : Reading
  deriving DecidableEq, Repr

/-- The length of a head. -/
def kMaxHead : ℕ := kHttpMaxHeaderSize / 4

namespace ResponseReader

variable (strict : Bool) (s : ResponseReader)

/-- A reader that has read nothing. -/
def new : ResponseReader := ⟨.init, 0, .empty⟩

/-- The length of the head behind the next byte. -/
def headBehind : ℕ := if s.parser.state.parsingHeader then s.head + 1 else s.head

/-- A byte, which must be taken by one turn of the parser. -/
def step (ch : UInt8) : Option ResponseReader :=
  let t := s.parser.turn strict ch []
  if s.headBehind ≤ kMaxHead then
    match t.next with
    | .ok [] =>
      (t.effects.foldlM Hearing.follow ⟨s.parser.openMark, s.reading⟩).map fun h =>
        ⟨t.parser, if .clear ∈ t.effects then 0 else s.headBehind, h.reading⟩
    | _ => none
  else none

/-- Some bytes. -/
def run (bytes : List UInt8) : Option ResponseReader := bytes.foldlM (step strict) s

variable {strict : Bool} {s s' : ResponseReader} {p : ResponseParser} {head : ℕ} {r : Reading} {ch : UInt8}
  {a b rest : List UInt8}

lemma run_append : s.run strict (a ++ b) = (s.run strict a).bind (·.run strict b) := List.foldlM_append

lemma run_cons : s.run strict (ch :: rest) = (s.step strict ch).bind (·.run strict rest) := List.foldlM_cons

lemma headBehind_header (h : p.state.parsingHeader = true) : headBehind ⟨p, head, r⟩ = head + 1 := if_pos h

lemma headBehind_body (h : p.state.parsingHeader = false) : headBehind ⟨p, head, r⟩ = head := if_neg (by simp [h])

lemma step_eq_some : s.step strict ch = some s' ↔
    s.headBehind ≤ kMaxHead ∧ (s.parser.turn strict ch []).next = .ok [] ∧
    ∃ h, (s.parser.turn strict ch []).effects.foldlM Hearing.follow ⟨s.parser.openMark, s.reading⟩ = some h ∧
      s' = ⟨(s.parser.turn strict ch []).parser,
        if .clear ∈ (s.parser.turn strict ch []).effects then 0 else s.headBehind, h.reading⟩ := by
  unfold step
  dsimp only
  split <;> rename_i hhead
  · split <;> rename_i hnext
    · rw [Option.map_eq_some_iff]
      refine ⟨?_, ?_⟩
      · rintro ⟨h, hfollow, rfl⟩
        exact ⟨hhead, hnext, h, hfollow, rfl⟩
      · rintro ⟨-, -, h, hfollow, rfl⟩
        exact ⟨h, hfollow, rfl⟩
    · exact ⟨fun h => (by cases h), fun h => absurd h.2.1 hnext⟩
  · exact ⟨fun h => (by cases h), fun h => absurd h.1 hhead⟩

/-- A turn of the header that takes the byte. -/
lemma step_of_turn {t : ParserTurn} {h : Hearing} (hturn : p.turn strict ch [] = t) (hnext : t.next = .ok [])
    (hfollow : t.effects.foldlM Hearing.follow ⟨p.openMark, r⟩ = some h) (hclear : .clear ∉ t.effects)
    (hheader : p.state.parsingHeader = true) :
    step strict ⟨p, head, r⟩ ch = if head + 1 ≤ kMaxHead then some ⟨t.parser, head + 1, h.reading⟩ else none := by
  subst hturn
  rw [step, headBehind_header hheader]
  dsimp only
  rw [hnext, hfollow, if_neg hclear]
  rfl

/-- **A part of a read** that is handed over: each of its bytes does `f` to the parser. -/
lemma run_part {f : ResponseParser → UInt8 → ResponseParser} {k : ParserData} {q : ResponseParser → List UInt8 → Prop}
    {part : List UInt8}
    (hstep : ∀ p c l head r, q p (c :: l) → q (f p c) l ∧ step strict ⟨p, head, r⟩ c =
      if head + 1 ≤ kMaxHead then some ⟨f p c, head + 1, r.hear (.data k [c])⟩ else none)
    (hq : q p part) (hset : r.Settled (some k)) (hhead : head ≤ kMaxHead) :
    run strict ⟨p, head, r⟩ part =
      if head + part.length ≤ kMaxHead then some ⟨part.foldl f p, head + part.length, r.hear (.data k part)⟩
      else none := by
  induction part generalizing p head r with
  | nil =>
    rw [hset _ rfl, List.length_nil, Nat.add_zero, if_pos hhead]
    rfl
  | cons c part ih =>
    obtain ⟨hq', hc⟩ := hstep p c part head r hq
    have hlength : head + (c :: part).length = head + 1 + part.length := by rw [List.length_cons]; omega
    rw [run_cons, hc, hlength]
    by_cases hhead' : head + 1 ≤ kMaxHead
    · rw [if_pos hhead', Option.bind_some, ih hq' (.hear _ _ _) hhead', Reading.hear_hear]
      rfl
    · rw [if_neg hhead', if_neg (by omega)]
      rfl

/-- A part whose bytes do nothing to the parser. -/
lemma run_same {k : ParserData} {q : UInt8 → Prop} {part : List UInt8}
    (hstep : ∀ c, q c → ∀ head r, step strict ⟨p, head, r⟩ c =
      if head + 1 ≤ kMaxHead then some ⟨p, head + 1, r.hear (.data k [c])⟩ else none)
    (hq : ∀ c ∈ part, q c) (hset : r.Settled (some k)) (hhead : head ≤ kMaxHead) :
    run strict ⟨p, head, r⟩ part =
      if head + part.length ≤ kMaxHead then some ⟨p, head + part.length, r.hear (.data k part)⟩ else none := by
  have hfold : ∀ l : List UInt8, l.foldl (fun p _ => p) p = p := fun l => by
    induction l with
    | nil => rfl
    | cons _ _ ih => exact ih
  have hpart : ∀ (p' : ResponseParser) (c : UInt8) (l : List UInt8) (head : ℕ) (r : Reading),
      (p' = p ∧ ∀ x ∈ c :: l, q x) → (p' = p ∧ ∀ x ∈ l, q x) ∧ step strict ⟨p', head, r⟩ c =
        if head + 1 ≤ kMaxHead then some ⟨p', head + 1, r.hear (.data k [c])⟩ else none := by
    rintro _ c l head r ⟨rfl, hl⟩
    exact ⟨⟨rfl, fun c hc => hl c (.tail _ hc)⟩, hstep c (hl c List.mem_cons_self) head r⟩
  have hrun := run_part (f := fun p _ => p) (q := fun p' l => p' = p ∧ ∀ x ∈ l, q x) hpart ⟨rfl, hq⟩ hset hhead
  rwa [hfold] at hrun

/-- **What has been read stays.** -/
lemma run_grows (h : s.run strict a = some s') : s.reading.responses <+: s'.reading.responses := by
  induction a generalizing s with
  | nil =>
    obtain rfl := Option.some.inj h
    exact List.prefix_refl _
  | cons ch a ih =>
    obtain ⟨s₁, hs₁, h⟩ := Option.bind_eq_some_iff.1 (run_cons.symm.trans h)
    obtain ⟨-, -, heard, hfollow, rfl⟩ := step_eq_some.1 hs₁
    have hstep : s.reading.responses <+: heard.reading.responses := Hearing.follow_all_grows hfollow
    exact hstep.trans (ih h)

end ResponseReader

end Zutils.Net.Http
