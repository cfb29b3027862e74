import Zutils.Net.Http.ResponseReader

/-!
# Turns of one byte (`http_parser_execute`)

In most states a turn takes one byte, and does not look at those behind it. It hands over no part of a read but the one
that the state has begun, and counts the byte four times at most (`turn_oneByte`).
-/

namespace Zutils.Net.Http

variable {strict : Bool} {p : ResponseParser} {ch : UInt8} {mark mark' : Option ParserData} {m n : ℕ}
  {f g : List UInt8 → ParserTurn} {effects effects' : List ParserEffect}

/-- The effects are in order for the mark, and leave the other. -/
def HearsTo (mark : Option ParserData) (effects : List ParserEffect) (mark' : Option ParserData) : Prop :=
  ∀ r, ∃ r', effects.foldlM Hearing.follow ⟨mark, r⟩ = some ⟨mark', r'⟩

/-- The effects count up to `n`. -/
def CountsWithin (n : ℕ) (effects : List ParserEffect) : Prop :=
  ∀ i : ℤ, 0 ≤ i → i + n ≤ kHttpMaxHeaderSize →
    ∃ j, CountsTo i effects j ∧ 0 ≤ j ∧ j ≤ if .clear ∈ effects then 0 else i + n

/-- A turn takes one byte, whatever follows it. -/
structure OneByte (mark : Option ParserData) (n : ℕ) (f : List UInt8 → ParserTurn) : Prop where
  next : ∀ rest, f rest = { f [] with next := (f []).next.map fun _ => rest }
  effects : (f []).next = .ok [] →
    HearsTo mark (f []).effects (f []).parser.openMark ∧ CountsWithin n (f []).effects

lemma countsTo_append {i k : ℤ} :
    CountsTo i (effects ++ effects') k ↔ ∃ j, CountsTo i effects j ∧ CountsTo j effects' k := by
  induction effects generalizing i with
  | nil => simp [CountsTo]
  | cons e effects ih => cases e <;> simp [CountsTo, ih, and_assoc]

lemma CountsWithin.mono (h : CountsWithin m effects) (hmn : m ≤ n) : CountsWithin n effects := by
  intro i hi hn
  obtain ⟨j, hj, hge, hle⟩ := h i hi (by omega)
  refine ⟨j, hj, hge, ?_⟩
  split at hle <;> rename_i hmem
  · rwa [if_pos hmem]
  · rw [if_neg hmem]
    omega

lemma countsWithin_count : CountsWithin 1 [.count 1] := fun i hi hn =>
  ⟨i + 1, ⟨by omega, hn, rfl⟩, by omega, by simp⟩

lemma countsWithin_zero (h : ∀ i, CountsTo i effects i) (hclear : .clear ∉ effects) : CountsWithin 0 effects :=
  fun i hi _ => ⟨i, h i, hi, by simp [hclear]⟩

lemma countsWithin_append (hclear : .clear ∉ effects) (h : CountsWithin m effects) (h' : CountsWithin n effects') :
    CountsWithin (m + n) (effects ++ effects') := by
  intro i hi hn
  obtain ⟨j, hj, hge, hle⟩ := h i hi (by omega)
  rw [if_neg hclear] at hle
  obtain ⟨k, hk, hge', hle'⟩ := h' j hge (by omega)
  refine ⟨k, countsTo_append.2 ⟨j, hj, hk⟩, hge', ?_⟩
  simp only [List.mem_append, hclear, false_or]
  split at hle' <;> rename_i hmem
  · rwa [if_pos hmem]
  · rw [if_neg hmem]
    omega

namespace OneByte

lemma mono (h : OneByte mark m f) (hmn : m ≤ n) : OneByte mark n f :=
  ⟨h.next, fun hok => ⟨(h.effects hok).1, (h.effects hok).2.mono hmn⟩⟩

lemma consume (hm : HearsTo mark (effects ++ [.pass [ch]]) p.openMark)
    (hc : CountsWithin n (effects ++ [.pass [ch]])) : OneByte mark n fun rest => p.consume ch rest effects :=
  ⟨fun _ => rfl, fun _ => ⟨hm, hc⟩⟩

lemma fail (e : HttpErrno) : OneByte mark n fun _ => p.fail e effects := ⟨fun _ => rfl, fun h => by cases h⟩

lemma ite {c : Prop} [Decidable c] (hf : c → OneByte mark n f) (hg : ¬ c → OneByte mark n g) :
    OneByte mark n fun rest => if c then f rest else g rest := by
  by_cases hc : c
  · simpa [hc] using hf hc
  · simpa [hc] using hg hc

lemma strictCheck {cond : Bool} (h : OneByte mark n f) :
    OneByte mark n fun rest => p.strictCheck strict cond (f rest) := ite (fun _ => fail _) fun _ => h

lemma after (h : OneByte mark' n f) (hm : HearsTo mark effects mark') (hc : CountsWithin m effects)
    (hclear : .clear ∉ effects) : OneByte mark (m + n) fun rest => (f rest).after effects := by
  refine ⟨fun rest => congrArg (ParserTurn.after effects) (h.next rest), fun hok => ⟨fun r => ?_, ?_⟩⟩
  · obtain ⟨r₁, hr₁⟩ := hm r
    obtain ⟨r₂, hr₂⟩ := (h.effects hok).1 r₁
    refine ⟨r₂, ?_⟩
    rw [ParserTurn.after, List.foldlM_append, hr₁]
    exact hr₂
  · exact countsWithin_append hclear hc (h.effects hok).2

lemma reexecuted (h : OneByte mark n f) : OneByte mark (1 + n) fun rest => (f rest).reexecuted :=
  h.after (fun r => ⟨r, rfl⟩) countsWithin_count (by simp)


lemma told {c : ParserCallback} (h : OneByte none n f) : OneByte none n fun rest => (f rest).after [.notify c] := by
  have hm : HearsTo none [.notify c] none := fun r => ⟨r.hear c, rfl⟩
  have hafter := h.after hm (countsWithin_zero (fun _ => rfl) (by simp)) (by simp)
  rwa [Nat.zero_add] at hafter

/-- No callback is made, and nothing counted. -/
lemma pass (hp : p.openMark = mark) : OneByte mark 0 fun rest => p.consume ch rest [] :=
  consume (fun r => ⟨_, by rw [hp]; rfl⟩) fun i hi hn => ⟨i, rfl, hi, by simp⟩

lemma notify {c : ParserCallback} (hp : p.openMark = none) :
    OneByte none 0 fun rest => p.consume ch rest [.notify c] :=
  consume (fun r => ⟨_, by rw [hp]; rfl⟩) fun i hi hn => ⟨i, rfl, hi, by simp⟩

lemma marks {k : ParserData} (hp : p.openMark = some k) : OneByte none 0 fun rest => p.consume ch rest [.mark k] :=
  consume (fun r => ⟨_, by rw [hp]; rfl⟩) fun i hi hn => ⟨i, rfl, hi, by simp⟩

/-- The part that has been marked is complete. -/
lemma data {k : ParserData} (hp : p.openMark = none) :
    OneByte (some k) 0 fun rest => p.consume ch rest [.data k] :=
  consume (fun r => ⟨r, by rw [hp]; simp [Hearing.follow]⟩) fun i hi hn => ⟨i, rfl, hi, by simp⟩

lemma clear (hp : p.openMark = none) : OneByte none 0 fun rest => p.consume ch rest [.clear] :=
  consume (fun r => ⟨_, by rw [hp]; rfl⟩) fun i hi hn => ⟨0, rfl, Int.le_refl 0, by simp⟩

end OneByte

/-! ### The states in which a turn takes one byte -/

namespace ResponseParser

lemma openMark_newMessage : openMark { p with state := p.newMessage strict } = none := by
  unfold newMessage
  split <;> rfl

lemma startRes_oneByte (hp : p.openMark = none) : OneByte none 0 (p.startRes ch) :=
  .ite (fun _ => .notify rfl) fun _ => .ite (fun _ => .notify hp) fun _ => .fail _

lemma resLetter_oneByte {letter : UInt8} {state : ParserState} (h : openMark { p with state } = none) :
    OneByte none 0 (p.resLetter strict ch · letter state) := .strictCheck (.pass h)

lemma resFirstHttpMajor_oneByte : OneByte none 0 (p.resFirstHttpMajor ch) :=
  .ite (fun _ => .pass rfl) fun _ => .fail _

lemma resHttpMajor_oneByte (hp : p.openMark = none) : OneByte none 0 (p.resHttpMajor ch) :=
  .ite (fun _ => .pass rfl) fun _ => .ite (fun _ => .fail _) fun _ => .ite (fun _ => .fail _) fun _ => .pass hp

lemma resFirstHttpMinor_oneByte : OneByte none 0 (p.resFirstHttpMinor ch) :=
  .ite (fun _ => .pass rfl) fun _ => .fail _

lemma resHttpMinor_oneByte (hp : p.openMark = none) : OneByte none 0 (p.resHttpMinor ch) :=
  .ite (fun _ => .pass rfl) fun _ => .ite (fun _ => .fail _) fun _ => .ite (fun _ => .fail _) fun _ => .pass hp

lemma resFirstStatusCode_oneByte (hp : p.openMark = none) : OneByte none 0 (p.resFirstStatusCode ch) :=
  .ite (fun _ => .ite (fun _ => .pass hp) fun _ => .fail _) fun _ => .pass rfl

lemma resStatusCode_oneByte (hp : p.openMark = none) : OneByte none 0 (p.resStatusCode ch) :=
  .ite (fun _ => .ite (fun _ => .pass rfl) fun _ => .ite (fun _ => .pass rfl) fun _ =>
      .ite (fun _ => .pass rfl) fun _ => .fail _)
    fun _ => .ite (fun _ => .fail _) fun _ => .pass hp

lemma resStatusStart_oneByte : OneByte none 0 (p.resStatusStart ch) :=
  .ite (fun _ => .pass rfl) fun _ => .ite (fun _ => .pass rfl) fun _ => .marks rfl

lemma resStatus_oneByte (hp : p.openMark = some .status) : OneByte (some .status) 0 (p.resStatus ch) :=
  .ite (fun _ => .data rfl) fun _ => .ite (fun _ => .data rfl) fun _ => .pass hp

lemma lineFeed_oneByte {state : ParserState} (h : openMark { p with state } = none) :
    OneByte none 0 (p.lineFeed strict ch · state) := .strictCheck (.pass h)

lemma completeMessage_oneByte : OneByte none 0 (p.completeMessage strict ch · []) := .notify openMark_newMessage

lemma completeMessage_clear : OneByte none 0 (p.completeMessage strict ch · [.clear]) :=
  .consume (fun r => ⟨_, by rw [openMark_newMessage]; rfl⟩) fun i hi hn => ⟨0, rfl, Int.le_refl 0, by simp⟩

lemma headersDone_oneByte : OneByte none 0 (p.headersDone strict ch) :=
  .strictCheck <| .ite (fun _ => ⟨fun _ => rfl, fun h => by cases h⟩) fun _ =>
    .ite (fun _ => .clear rfl) fun _ => .ite (fun _ => completeMessage_clear) fun _ =>
      .ite (fun _ => .clear rfl) fun _ => .ite (fun _ => completeMessage_clear) fun _ => .clear rfl

lemma headersAlmostDone_oneByte : OneByte none 1 (p.headersAlmostDone strict ch) :=
  .strictCheck <| .ite (fun _ => completeMessage_oneByte.mono (Nat.zero_le 1)) fun _ =>
    headersDone_oneByte.reexecuted.told

lemma headerFieldStart_oneByte : OneByte none 2 (p.headerFieldStart strict ch) :=
  .ite (fun _ => .mono (.pass rfl) (Nat.zero_le 2)) fun _ => .ite (fun _ => headersAlmostDone_oneByte.reexecuted) fun _ =>
    .ite (fun _ => .fail _) fun _ => .mono (.marks rfl) (Nat.zero_le 2)

lemma headerValueStart_oneByte : OneByte none 0 (p.headerValueStart ch) := by
  unfold headerValueStart
  cases hs : p.headerState
  case contentLength => exact .ite (fun _ => .fail _) fun _ => .marks rfl
  all_goals exact .marks rfl

lemma headerValueDiscardWs_oneByte (hp : p.openMark = none) : OneByte none 0 (p.headerValueDiscardWs ch) :=
  .ite (fun _ => .pass hp) fun _ => .ite (fun _ => .pass rfl) fun _ => .ite (fun _ => .pass rfl) fun _ =>
    headerValueStart_oneByte

lemma headerValueDiscardLws_oneByte : OneByte none 3 (p.headerValueDiscardLws strict ch) := by
  refine .ite (fun _ => .mono (.pass rfl) (Nat.zero_le 3)) fun _ => ?_
  have hm : HearsTo none [.mark .headerValue, .data .headerValue] none := fun r => ⟨_, rfl⟩
  exact headerFieldStart_oneByte.reexecuted.after hm (countsWithin_zero (fun _ => rfl) (by simp)) (by simp)

lemma headerValueLws_oneByte : OneByte none 3 (p.headerValueLws strict ch) :=
  .ite (fun _ => headerValueStart_oneByte.reexecuted.mono (by decide)) fun _ => headerFieldStart_oneByte.reexecuted

lemma chunkSizeStart_oneByte : OneByte none 0 (p.chunkSizeStart ch) := by
  unfold chunkSizeStart
  cases unhex ch with
  | none => exact .fail _
  | some v => exact .pass rfl

lemma chunkSize_oneByte (hp : p.openMark = none) : OneByte none 0 (p.chunkSize ch) := by
  unfold chunkSize
  refine .ite (fun _ => .pass rfl) fun _ => ?_
  cases unhex ch with
  | none => exact .ite (fun _ => .pass rfl) fun _ => .fail _
  | some v => exact .ite (fun _ => .fail _) fun _ => .pass hp

lemma chunkParameters_oneByte (hp : p.openMark = none) : OneByte none 0 (p.chunkParameters ch) :=
  .ite (fun _ => .pass rfl) fun _ => .pass hp

lemma chunkSizeAlmostDone_oneByte : OneByte none 0 (p.chunkSizeAlmostDone strict ch) :=
  .strictCheck <| .ite (fun _ => .clear rfl) fun _ => .clear rfl

lemma chunkDataDone_oneByte : OneByte none 0 (p.chunkDataDone strict ch) := .strictCheck (.clear rfl)

lemma dead_oneByte (hp : p.openMark = none) :
    OneByte none 0 fun rest => if ch = 0x0D ∨ ch = 0x0A then p.consume ch rest [] else p.fail .closedConnection [] :=
  .ite (fun _ => .pass hp) fun _ => .fail _

end ResponseParser

/-- The states in which a turn can take several bytes, or end the part of a body. -/
def ParserState.taking : ParserState → Bool
  | headerField | headerValue | bodyIdentity | bodyIdentityEof | chunkData | chunkDataAlmostDone => true
  | _ => false

namespace ResponseParser

lemma dispatch_oneByte (h : p.state.taking = false) : OneByte p.openMark 3 (p.dispatch strict ch) := by
  obtain ⟨state, headerState, index, contentLength, httpMajor, httpMinor, statusCode, flags, upgrade⟩ := p
  cases state
  case dead => exact (dead_oneByte rfl).mono (Nat.zero_le 3)
  case startRes => exact (startRes_oneByte rfl).mono (Nat.zero_le 3)
  case resH | resHT | resHTT | resHTTP => exact (resLetter_oneByte rfl).mono (Nat.zero_le 3)
  case resFirstHttpMajor => exact resFirstHttpMajor_oneByte.mono (Nat.zero_le 3)
  case resHttpMajor => exact (resHttpMajor_oneByte rfl).mono (Nat.zero_le 3)
  case resFirstHttpMinor => exact resFirstHttpMinor_oneByte.mono (Nat.zero_le 3)
  case resHttpMinor => exact (resHttpMinor_oneByte rfl).mono (Nat.zero_le 3)
  case resFirstStatusCode => exact (resFirstStatusCode_oneByte rfl).mono (Nat.zero_le 3)
  case resStatusCode => exact (resStatusCode_oneByte rfl).mono (Nat.zero_le 3)
  case resStatusStart => exact resStatusStart_oneByte.mono (Nat.zero_le 3)
  case resStatus => exact (resStatus_oneByte rfl).mono (Nat.zero_le 3)
  case resLineAlmostDone | headerValueDiscardWsAlmostDone | headerAlmostDone =>
    exact (lineFeed_oneByte rfl).mono (Nat.zero_le 3)
  case headerFieldStart => exact headerFieldStart_oneByte.mono (by decide)
  case headerValueDiscardWs => exact (headerValueDiscardWs_oneByte rfl).mono (Nat.zero_le 3)
  case headerValueDiscardLws => exact headerValueDiscardLws_oneByte
  case headerValueStart => exact headerValueStart_oneByte.mono (Nat.zero_le 3)
  case headerValueLws => exact headerValueLws_oneByte
  case headersAlmostDone => exact headersAlmostDone_oneByte.mono (by decide)
  case headersDone => exact headersDone_oneByte.mono (Nat.zero_le 3)
  case messageDone => exact completeMessage_oneByte.mono (Nat.zero_le 3)
  case chunkSizeStart => exact chunkSizeStart_oneByte.mono (Nat.zero_le 3)
  case chunkSize => exact (chunkSize_oneByte rfl).mono (Nat.zero_le 3)
  case chunkParameters => exact (chunkParameters_oneByte rfl).mono (Nat.zero_le 3)
  case chunkSizeAlmostDone => exact chunkSizeAlmostDone_oneByte.mono (Nat.zero_le 3)
  case chunkDataDone => exact chunkDataDone_oneByte.mono (Nat.zero_le 3)
  case headerField | headerValue | bodyIdentity | bodyIdentityEof | chunkData | chunkDataAlmostDone => cases h

lemma turn_oneByte (h : p.state.taking = false) :
    OneByte p.openMark (if p.state.parsingHeader then 4 else 0) (p.turn strict ch) := by
  unfold turn
  split <;> rename_i hheader
  · exact (dispatch_oneByte h).reexecuted
  · obtain ⟨state, headerState, index, contentLength, httpMajor, httpMinor, statusCode, flags, upgrade⟩ := p
    cases state
    case messageDone => exact completeMessage_oneByte
    case chunkDataDone => exact chunkDataDone_oneByte
    case headerField | headerValue | bodyIdentity | bodyIdentityEof | chunkData | chunkDataAlmostDone => cases h
    all_goals exact absurd rfl hheader

end ResponseParser

end Zutils.Net.Http
