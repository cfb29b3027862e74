import Zutils.Net.Transmit

/-!
# The write watcher follows the pending data

Any run of `SendInternal` and `OnWrite` on an open handler, with the checks compiled out and any result of each `send`,
failures included. After every step the handler waits for `WATCH_WRITE` exactly if `write_buf_` has readable bytes, and
so does its watcher, unless `WatchFileDescriptor` has failed (`watch_follows_data`): what is pending is tried again, and
a handler that has sent all is not woken for nothing. A `send` of `SendInternal` that fails passes for one of
`2 ^ 32 - 1` bytes, and what then remains goes to `write_buf_` with the watcher.

`SendInternal` does not look at what `WatchFileDescriptor` returns. Where that is false the handler waits for an event
that does not come, and later calls of `SendInternal` only add to what is pending (`stays_unwatched`).
-/

namespace Zutils.Net

open Zutils.Lib

/-- A handler with its `write_watcher_`. -/
structure Watched where
  handler : IOHandler
  /-- `write_watcher_` watches the socket for `WATCH_WRITE`. -/
  watching : Bool

/-- An event, with what `WatchFileDescriptor` returns if it is called. -/
structure WatchedEvent where
  event : SendEvent
  watched : Bool

namespace Watched

/-- After `OnCreated()`. -/
def opened (socket : ℤ) : Watched := ⟨{ IOHandler.new socket with readWaitState := .waitingRead }, false⟩

/-- One event, with the checks compiled out. -/
def exec : WatchedEvent → Watched → Except Fault Watched
  | ⟨.sendInternal data dataLen r, watched⟩, w => do
    let (handler, _) ← w.handler.sendInternal false data dataLen r
    -- `WatchFileDescriptor` is called where `write_wait_state_` becomes `WAITING_WRITE`, whatever it returns
    return ⟨handler, if !w.handler.isWriting && handler.isWriting then watched else w.watching⟩
  | ⟨.onWrite r, _⟩, w => do
    let (handler, _) ← w.handler.onWrite r
    -- `StopWatchingFileDescriptor` is called where it becomes `NOT_WAITING`
    return ⟨handler, if w.handler.isWriting && !handler.isWriting then false else w.watching⟩

/-- An event of an open handler; the kernel takes no more than it is offered. -/
def Step (w : Watched) (e : WatchedEvent) (w' : Watched) : Prop := e.event.Legal w.handler ∧ exec e w = .ok w'

/-- The handler waits to write exactly if bytes are pending, and the watcher does only then. -/
structure Follows (w : Watched) : Prop where
  ok : w.handler.writeBuf.Ok
  waits : w.handler.isWriting = true ↔ 0 < w.handler.writeBuf.readableBytes
  watches : w.watching = true → w.handler.isWriting = true

lemma follows_opened (socket : ℤ) : Follows (opened socket) where
  ok := IOBuffer.new_ok 64
  waits := by
    refine iff_of_false (fun h => ?_) (Nat.lt_irrefl 0)
    cases h
  watches h := by cases h

end Watched

/-! ### What the two functions do to the wait state -/

namespace IOHandler

variable {h : IOHandler} {r : SendResult}

lemma afterSend_fault (dataLen : UInt32) (r : SendResult) : (h.afterSend dataLen r).2.2 = false := by
  unfold afterSend
  split
  · rw [if_pos UInt32.zero_le]
  · rfl

/-- `SendInternal` leaves the handler alone, or it puts bytes into `write_buf_` and waits to write. -/
lemma sendInternal_cases (data : Mem) (dataLen : UInt32) (r : SendResult) (hok : h.writeBuf.Ok) :
    ∃ h' out, h.sendInternal false data dataLen r = .ok (h', out) ∧ h'.writeBuf.Ok ∧
      (h' = h ∨ h'.isWriting = true ∧ 0 < h'.writeBuf.readableBytes ∧
        h.writeBuf.readableBytes ≤ h'.writeBuf.readableBytes) := by
  let kernel := if h.sendsDirectly then data.bytes 0 r.taken else []
  have hfault := afterSend_fault (h := h) dataLen r
  unfold sendInternal
  generalize h.afterSend dataLen r = after at hfault ⊢
  obtain ⟨nwrote, remaining, fault⟩ := after
  obtain rfl : fault = false := hfault
  by_cases hpos : 0 < remaining
  · obtain ⟨b', hwrite, e⟩ := IOBuffer.write_spec hok (data.bytes nwrote.toNat remaining)
    refine ⟨{ h with writeBuf := b', writeWaitState := .waitingWrite }, kernel, ?_, e.ok, .inr ⟨rfl, ?_⟩⟩
    · simp only [dcheck_true (fun h : false = true => absurd h (by decide)), ok_bind, Bool.not_false, Bool.true_and,
        decide_eq_true hpos, if_true, hwrite]
      rfl
    · have hgrows : b'.readableBytes = h.writeBuf.readableBytes + remaining := by
        rw [← e.ok.readable_length, e.queue, List.length_append, Mem.bytes_length, hok.readable_length]
      show 0 < b'.readableBytes ∧ h.writeBuf.readableBytes ≤ b'.readableBytes
      omega
  · refine ⟨h, kernel, ?_, hok, .inl rfl⟩
    simp only [Bool.not_false, Bool.true_and, decide_eq_false hpos, Bool.false_eq_true, if_false]
    rfl

lemma toNat_ret_le (hpos : 0 < r.ret.bmod (2 ^ 32)) : (r.ret.bmod (2 ^ 32)).toNat ≤ r.taken := by
  cases r with
  | accepted n =>
    have hret : (SendResult.accepted n).ret = n := rfl
    have htaken : (SendResult.accepted n).taken = n := rfl
    rw [hret] at hpos ⊢
    rw [htaken, Int.bmod_def] at *
    split <;> omega
  | failed e => cases e <;> exact absurd hpos (by decide)

/-- `OnWrite` leaves the handler alone; or bytes remain in `write_buf_`, and it waits for them; or none do, and it does
not. -/
lemma onWrite_cases (hok : h.writeBuf.Ok) (hr : h.isWriting = true → r.Within h.writeBuf.readableBytes) :
    ∃ h' out, h.onWrite r = .ok (h', out) ∧ h'.writeBuf.Ok ∧
      (h' = h ∨ h.isWriting = true ∧ (h'.isWriting = true ↔ 0 < h'.writeBuf.readableBytes)) := by
  unfold onWrite
  by_cases hw : h.isWriting = true
  swap
  · exact ⟨h, [], by rw [if_neg hw]; rfl, hok, .inl rfl⟩
  rw [if_pos hw]
  by_cases hpos : 0 < r.ret.bmod (2 ^ 32)
  swap
  · exact ⟨h, _, by rw [if_neg hpos]; rfl, hok, .inl rfl⟩
  obtain ⟨b', hb, e⟩ := IOBuffer.retrieve_spec hok ((toNat_ret_le hpos).trans (hr hw))
  rw [if_pos hpos, hb, ok_bind]
  by_cases h0 : b'.readableBytes = 0
  · refine ⟨{ h with writeBuf := b', writeWaitState := .notWaiting }, _, by rw [if_pos h0]; rfl, e.ok, .inr ⟨hw, ?_⟩⟩
    refine iff_of_false (fun hwaits => ?_) (show ¬ 0 < b'.readableBytes by omega)
    cases hwaits
  · refine ⟨{ h with writeBuf := b' }, _, by rw [if_neg h0]; rfl, e.ok, .inr ⟨hw, ?_⟩⟩
    exact iff_of_true hw (Nat.pos_of_ne_zero h0)

end IOHandler

namespace Watched

variable {w w' : Watched} {e : WatchedEvent}

/-- **One event** returns; the handler still follows the data, and the watcher too, unless it could not be set. -/
theorem Follows.step (hw : Follows w) (hlegal : e.event.Legal w.handler) : ∃ w', exec e w = .ok w' ∧ Follows w' ∧
    (e.watched = true → w.watching = w.handler.isWriting → w'.watching = w'.handler.isWriting) := by
  obtain ⟨event, watched⟩ := e
  cases event with
  | sendInternal data dataLen r =>
    obtain ⟨h', out, hsend, hok, hcases⟩ := IOHandler.sendInternal_cases data dataLen r hw.ok
    refine ⟨⟨h', if !w.handler.isWriting && h'.isWriting then watched else w.watching⟩, by rw [exec, hsend]; rfl,
      ⟨hok, ?_, ?_⟩, ?_⟩
    · rcases hcases with rfl | ⟨hwrites, hpos, -⟩
      · exact hw.waits
      · exact iff_of_true hwrites hpos
    · rcases hcases with rfl | ⟨hwrites, -⟩
      · simpa using hw.watches
      · exact fun _ => hwrites
    · rintro (rfl : watched = true) hsame
      show (if (!w.handler.isWriting && h'.isWriting) = true then true else w.watching) = h'.isWriting
      rcases hcases with rfl | ⟨hwrites, -⟩
      · simpa using hsame
      · rw [hsame, hwrites]
        cases w.handler.isWriting <;> rfl
  | onWrite r =>
    have hwithin : w.handler.isWriting = true → r.Within w.handler.writeBuf.readableBytes := hlegal
    obtain ⟨h', out, hsend, hok, hcases⟩ := IOHandler.onWrite_cases hw.ok hwithin
    refine ⟨⟨h', if w.handler.isWriting && !h'.isWriting then false else w.watching⟩, by rw [exec, hsend]; rfl,
      ⟨hok, ?_, ?_⟩, ?_⟩
    · rcases hcases with rfl | ⟨-, hiff⟩
      · exact hw.waits
      · exact hiff
    · show (if (w.handler.isWriting && !h'.isWriting) = true then false else w.watching) = true → h'.isWriting = true
      rcases hcases with rfl | ⟨hwriting, -⟩
      · simpa using hw.watches
      · rw [hwriting]
        cases h'.isWriting <;> simp
    · intro _ hsame
      show (if (w.handler.isWriting && !h'.isWriting) = true then false else w.watching) = h'.isWriting
      rcases hcases with rfl | ⟨hwriting, -⟩
      · simpa using hsame
      · rw [hsame, hwriting]
        cases h'.isWriting <;> rfl

lemma follows_of_run {socket : ℤ} {es : List WatchedEvent} (h : Run Step (opened socket) es w) : Follows w ∧
    ((∀ e ∈ es, e.watched = true) → w.watching = w.handler.isWriting) := by
  refine h.inv_of_exec
    (P := fun es w => Follows w ∧ ((∀ e ∈ es, e.watched = true) → w.watching = w.handler.isWriting))
    (fun e w => e.event.Legal w.handler) exec ?_ ⟨follows_opened socket, fun _ => rfl⟩ ?_
  · exact fun _ _ _ hstep => hstep
  · rintro es w e ⟨hw, hsame⟩ hlegal
    obtain ⟨w', hexec, hw', hkeeps⟩ := hw.step hlegal
    refine ⟨w', hexec, hw', fun hall => ?_⟩
    have hbefore : ∀ e' ∈ es, e'.watched = true := fun e' he' => hall e' (List.mem_append_left _ he')
    exact hkeeps (hall e (by simp)) (hsame hbefore)

/-- **A watch that failed** is not tried again: a handler that waits without a watcher stays so, whatever is sent. -/
theorem stays_unwatched {data : Mem} {dataLen : UInt32} {r : SendResult} {watched : Bool} (hw : Follows w)
    (hwaits : w.handler.isWriting = true) (hunwatched : w.watching = false)
    (hexec : exec ⟨.sendInternal data dataLen r, watched⟩ w = .ok w') :
    w'.handler.isWriting = true ∧ w'.watching = false ∧
      w.handler.writeBuf.readableBytes ≤ w'.handler.writeBuf.readableBytes := by
  obtain ⟨h', out, hsend, -, hcases⟩ := IOHandler.sendInternal_cases data dataLen r hw.ok
  rw [exec, hsend] at hexec
  obtain rfl := Except.ok.inj hexec
  rcases hcases with rfl | ⟨hwrites, -, hgrows⟩
  · exact ⟨hwaits, by simpa using hunwatched, le_rfl⟩
  · exact ⟨hwrites, by simpa [hwaits] using hunwatched, hgrows⟩

end Watched

/-- **The write watcher follows the pending data** in every run: after each step the handler waits to write exactly if
`write_buf_` has readable bytes, and its watcher is active only then, and always then unless `WatchFileDescriptor` has
failed. Every further event returns. -/
theorem watch_follows_data {socket : ℤ} {es : List WatchedEvent} {w : Watched}
    (h : Run Watched.Step (Watched.opened socket) es w) :
    (w.handler.writeWaitState = .waitingWrite ↔ 0 < w.handler.writeBuf.readableBytes) ∧
    (w.watching = true → 0 < w.handler.writeBuf.readableBytes) ∧
    ((∀ e ∈ es, e.watched = true) → (w.watching = true ↔ 0 < w.handler.writeBuf.readableBytes)) ∧
    ∀ e : WatchedEvent, e.event.Legal w.handler → ∃ w', Watched.exec e w = .ok w' := by
  obtain ⟨hw, hsame⟩ := Watched.follows_of_run h
  refine ⟨decide_eq_true_iff.symm.trans hw.waits, fun hwatches => hw.waits.1 (hw.watches hwatches), fun hall => ?_,
    fun e hlegal => ?_⟩
  · rw [hsame hall]
    exact hw.waits
  · obtain ⟨w', hexec, -⟩ := hw.step hlegal
    exact ⟨w', hexec⟩

/-- A `send` that would block for two bytes, and one that takes the three that have gone to `write_buf_`. -/
theorem watch_follows_data_two : ∃ w,
    Run Watched.Step (Watched.opened 5)
      [⟨.sendInternal twoBytes 2 (.failed .eagain), true⟩, ⟨.onWrite (.accepted 3), true⟩] w ∧
    (w.watching = true ↔ 0 < w.handler.writeBuf.readableBytes) := by
  have h : Run Watched.Step (Watched.opened 5)
      [⟨.sendInternal twoBytes 2 (.failed .eagain), true⟩, ⟨.onWrite (.accepted 3), true⟩] _ :=
    (Run.nil.snoc ⟨fun _ => by decide, rfl⟩).snoc ⟨fun _ => by decide, rfl⟩
  exact ⟨_, h, (watch_follows_data h).2.2.1 (by decide)⟩

end Zutils.Net
