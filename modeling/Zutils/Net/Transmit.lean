import Zutils.Lib.Run
import Zutils.Net.IoHandlerSpec

/-!
# Transmit integrity of one connection

Any finite run of `SendInternal` and `OnWrite` on one open connection, with any answer of the kernel to each
`send`. The stream is what the kernel has accepted followed by the content of `write_buf_`; it should be the
concatenation of all data passed to `SendInternal`.

`SendInternal` keeps the result of `send` in a `uint32` and tests `nwrote >= 0`, so that a failed `send` passes for
one of `2 ^ 32 - 1` bytes (`failed_send_breaks_check`); `OnWrite` keeps it in an `int`. `SendEvent.Fits` says that
neither conversion bites, and in the runs whose events all fit the stream is intact (`stream_intact`).
-/

namespace Zutils.Net

open Zutils.Lib

/-- One connection, seen from its sending side. -/
structure Transmission where
  handler : IOHandler
  /-- What the kernel has accepted so far. -/
  kernel : List UInt8
  /-- All data passed to `SendInternal`, in call order. -/
  sent : List UInt8
  /-- Some `send` failed with an errno other than would-block. -/
  failed : Bool

def Transmission.new (socket : ℤ) : Transmission := ⟨IOHandler.new socket, [], [], false⟩

/-- Nothing was lost, duplicated or invented. -/
def Transmission.Intact (t : Transmission) : Prop :=
  t.failed = false → t.kernel ++ t.handler.writeBuf.readable = t.sent

/-- An event with the answer of the `send` it makes, if it makes one. -/
inductive SendEvent where
  | sendInternal (data : Mem) (dataLen : UInt32) (r : SendResult)
  | onWrite (r : SendResult)

namespace SendEvent

def result : SendEvent → SendResult
  | sendInternal _ _ r | onWrite r => r

/-- The event calls `send`. -/
def callsSend : SendEvent → IOHandler → Bool
  | sendInternal .., h => h.sendsDirectly
  | onWrite _, h => h.isWriting

/-- The length `send` is given. -/
def offered : SendEvent → IOHandler → ℕ
  | sendInternal _ dataLen _, _ => dataLen.toNat
  | onWrite _, h => h.writeBuf.readableBytes

/-- The kernel takes no more than it is offered. -/
def Legal (e : SendEvent) (h : IOHandler) : Prop := e.callsSend h = true → e.result.Within (e.offered h)

/-- `send` failed with an errno other than would-block. -/
def faults (e : SendEvent) (h : IOHandler) : Bool := e.callsSend h && e.result.isFault

/-- The result of `send` survives its conversion: in `SendInternal` it is no failure (or one that is no would-block,
of exactly `2 ^ 32 - 1` bytes), in `OnWrite` it is below `2 ^ 31`. -/
def Fits : SendEvent → IOHandler → Prop
  | sendInternal _ dataLen r, h => h.sendsDirectly = true →
      0 ≤ r.ret ∨ r.isFault = true ∧ dataLen.toNat = 2 ^ 32 - 1
  | onWrite r, h => h.isWriting = true → r.ret < 2 ^ 31

def exec (dcheckIsOn : Bool) : SendEvent → Transmission → Except Fault Transmission
  | e@(sendInternal data dataLen r), t => do
    let (handler, out) ← t.handler.sendInternal dcheckIsOn data dataLen r
    return ⟨handler, t.kernel ++ out, t.sent ++ data.bytes 0 dataLen.toNat, t.failed || e.faults t.handler⟩
  | e@(onWrite r), t => do
    let (handler, out) ← t.handler.onWrite r
    return ⟨handler, t.kernel ++ out, t.sent, t.failed || e.faults t.handler⟩

/-- **One event** that fits meets no failing check and keeps the stream intact; a `send` that fails otherwise than by
blocking leaves `write_buf_` alone. -/
theorem exec_spec {e : SendEvent} {t : Transmission} (hok : t.handler.writeBuf.Ok) (hint : t.Intact)
    (hlegal : e.Legal t.handler) (hfit : e.Fits t.handler) :
    ∃ t', e.exec true t = .ok t' ∧ t'.handler.writeBuf.Ok ∧ t'.Intact ∧
      (e.faults t.handler = true → t'.handler.writeBuf = t.handler.writeBuf) := by
  cases e with
  | sendInternal data dataLen r =>
    by_cases hacc : t.handler.sendsDirectly = true → ∃ n, r = .accepted n ∧ n ≤ dataLen.toNat
    · obtain ⟨h', out, hs, hok', hstream⟩ := IOHandler.sendInternal_spec true data hok hacc
      refine ⟨_, by rw [exec, hs]; rfl, hok', ?_, ?_⟩
      · intro hf
        simp only [Bool.or_eq_false_iff] at hf
        rw [List.append_assoc, hstream, ← List.append_assoc, hint hf.1]
      · intro hf
        simp only [faults, callsSend, result, Bool.and_eq_true] at hf
        obtain ⟨n, rfl, -⟩ := hacc hf.1
        cases hf.2
    · -- `send` was called and failed, with nothing remaining
      obtain ⟨hd, hno⟩ := Classical.not_imp.1 hacc
      rcases r with n | e
      · exact absurd ⟨n, rfl, hlegal hd⟩ hno
      · rcases hfit hd with h0 | ⟨hfault, hmax⟩
        · simp [SendResult.ret] at h0
        · have hs := @IOHandler.sendInternal_failed _ dataLen data e hd
          rw [if_pos hmax] at hs
          have hfaults : (SendEvent.sendInternal data dataLen (.failed e)).faults t.handler = true := by
            simp [faults, callsSend, result, hd, hfault]
          refine ⟨⟨t.handler, t.kernel ++ [], t.sent ++ data.bytes 0 dataLen.toNat, t.failed || true⟩,
            by rw [exec, hs, hfaults]; rfl, hok, ?_, fun _ => rfl⟩
          intro hf
          simp at hf
  | onWrite r =>
    have htaken : t.handler.isWriting = true → r.taken < 2 ^ 31 := by
      intro hw
      have := hfit hw
      cases r <;> simp [SendResult.ret, SendResult.taken] at this ⊢
      omega
    obtain ⟨h', out, hs, hok', hstream, hsame⟩ := IOHandler.onWrite_spec (r := r) hok hlegal htaken
    refine ⟨_, by rw [exec, hs]; rfl, hok', ?_, ?_⟩
    · intro hf
      simp only [Bool.or_eq_false_iff] at hf
      rw [List.append_assoc, hstream, hint hf.1]
    · intro hf
      simp only [faults, callsSend, result, Bool.and_eq_true] at hf
      rw [hsame (by cases r <;> simp_all [SendResult.isFault, SendResult.taken])]

end SendEvent

/-- An event of the connection. -/
def Transmits (t : Transmission) (e : SendEvent) (t' : Transmission) : Prop :=
  e.Legal t.handler ∧ e.exec true t = .ok t'

/-- An event that fits. -/
def TransmitsFit (t : Transmission) (e : SendEvent) (t' : Transmission) : Prop :=
  Transmits t e t' ∧ e.Fits t.handler

lemma intact_of_run {socket : ℤ} {es : List SendEvent} {t : Transmission}
    (h : Run TransmitsFit (Transmission.new socket) es t) : t.handler.writeBuf.Ok ∧ t.Intact := by
  refine h.inv_of_exec (P := fun _ t => t.handler.writeBuf.Ok ∧ t.Intact)
    (fun e t => e.Legal t.handler ∧ e.Fits t.handler) (SendEvent.exec true) ?_ ⟨IOBuffer.new_ok 64, fun _ => rfl⟩ ?_
  · rintro t e t' ⟨⟨hlegal, hexec⟩, hfit⟩
    exact ⟨⟨hlegal, hfit⟩, hexec⟩
  · rintro es t e ⟨hok, hint⟩ ⟨hlegal, hfit⟩
    obtain ⟨t', he, hok', hint', -⟩ := e.exec_spec hok hint hlegal hfit
    exact ⟨t', he, hok', hint'⟩

/-- **The stream is intact** in every run whose events fit: unless some `send` failed otherwise than by blocking, the
bytes the kernel accepted and the content of `write_buf_` are all data passed to `SendInternal`, in order. No check
of a further event that fits fails, and a `send` that fails otherwise than by blocking leaves `write_buf_` alone. -/
theorem stream_intact {socket : ℤ} {es : List SendEvent} {t : Transmission}
    (h : Run TransmitsFit (Transmission.new socket) es t) :
    (t.failed = false → t.kernel ++ t.handler.writeBuf.readable = t.sent) ∧
    ∀ e : SendEvent, e.Legal t.handler → e.Fits t.handler → ∃ t', e.exec true t = .ok t' ∧
      (e.faults t.handler = true → t'.handler.writeBuf = t.handler.writeBuf) := by
  obtain ⟨hok, hint⟩ := intact_of_run h
  refine ⟨hint, ?_⟩
  intro e hlegal hfit
  obtain ⟨t', he, -, -, hfault⟩ := e.exec_spec hok hint hlegal hfit
  exact ⟨t', he, hfault⟩

theorem stream_intact_run : ∃ t,
    Run TransmitsFit (Transmission.new 5)
      [.sendInternal (Mem.ofList [1, 2, 3]) 3 (.accepted 1), .onWrite (.accepted 1)] t ∧
    t.kernel ++ t.handler.writeBuf.readable = [1, 2, 3] := by
  have h : Run TransmitsFit (Transmission.new 5)
      [.sendInternal (Mem.ofList [1, 2, 3]) 3 (.accepted 1), .onWrite (.accepted 1)] _ :=
    (Run.nil.snoc ⟨⟨fun _ => by decide, rfl⟩, fun _ => .inl (by decide)⟩).snoc
      ⟨⟨fun _ => by decide, rfl⟩, fun _ => by decide⟩
  exact ⟨_, h, (stream_intact h).1 rfl⟩

/-- The memory of a caller that passes two bytes, and what lies behind them. -/
def twoBytes : Mem := fun i => if i < 2 then 1 else 9

/-- **A first `send` that would block breaks the check**: `remaining` becomes 3 for two bytes. Without the check,
`write_buf_` receives three bytes from outside the caller's buffer. -/
theorem failed_send_breaks_check :
    (SendEvent.sendInternal twoBytes 2 (.failed .eagain)).Legal (Transmission.new 5).handler ∧
    ((SendEvent.sendInternal twoBytes 2 (.failed .eagain)).exec true (Transmission.new 5)).isOk = false ∧
    ((SendEvent.sendInternal twoBytes 2 (.failed .eagain)).exec false (Transmission.new 5)).map
      (fun t => t.kernel ++ t.handler.writeBuf.readable) = .ok [9, 9, 9] := by
  refine ⟨fun _ => by decide, by rfl, by rfl⟩

end Zutils.Net
