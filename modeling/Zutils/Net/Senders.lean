import Zutils.Lib.Run
import Zutils.Net.IoHandlerSpec
import Mathlib.Data.List.Perm.Basic

/-!
# Concurrent senders of one connection

`SendData` on the thread of the loop is an immediate `SendInternal`; on any other thread it posts `SendInternal2`
with a copy of the data onto the FIFO task queue of the loop. Threads call `SendData`, the loop runs tasks and
`OnWrite` in any interleaving, and every `send` takes some of the bytes it is offered.

The stream here is what the kernel has taken, the content of `write_buf_` and the queued messages. It is the
concatenation of the messages `order`: those handed to `SendInternal`, in that order, and then the queued ones. The
lengths go through `uint32` in `SendInternal2` and through `int` in `OnWrite`; a message of `2 ^ 32` bytes is lost
(`long_message_lost`), and where both conversions fit no message is torn (`messages_whole`).
-/

namespace Zutils.Net

open Zutils.Lib

variable {τ : Type}

/-- A message and the thread that sends it. -/
abbrev Message (τ : Type) := τ × List UInt8

/-- The bytes of some messages, in order. -/
def payload (ms : List (Message τ)) : List UInt8 := (ms.map (·.2)).flatten

lemma payload_append (ms ms' : List (Message τ)) : payload (ms ++ ms') = payload ms ++ payload ms' := by
  simp [payload]

/-- A connection with its senders. -/
structure Senders (τ : Type) where
  handler : IOHandler
  /-- What the kernel has accepted so far. -/
  kernel : List UInt8
  /-- The posted `SendInternal2` tasks, the next one first. -/
  tasks : List (Message τ)
  /-- All messages accepted by `SendData`, in call order. -/
  calls : List (Message τ)
  /-- The messages `SendInternal` was called with, in that order. -/
  done : List (Message τ)

def Senders.new (τ : Type) (socket : ℤ) : Senders τ := ⟨IOHandler.new socket, [], [], [], []⟩

/-- `SendInternal` for the message `m`. -/
def Senders.send (m : Message τ) (r : SendResult) (s : Senders τ) : Except Fault (Senders τ) := do
  let (handler, out) ← s.handler.sendInternal2 true m.2 r
  return { s with handler, kernel := s.kernel ++ out, done := s.done ++ [m] }

lemma send_stream {m : Message τ} {r : SendResult} {s : Senders τ} (hok : s.handler.writeBuf.Ok)
    (hstream : s.kernel ++ s.handler.writeBuf.readable = payload s.done) (hlen : m.2.length < 2 ^ 32)
    (hr : s.handler.sendsDirectly = true →
      ∃ n, r = .accepted n ∧ n ≤ (UInt32.ofNat m.2.length).toNat) :
    ∃ s', Senders.send m r s = .ok s' ∧ s'.handler.writeBuf.Ok ∧
      s'.kernel ++ s'.handler.writeBuf.readable = payload s'.done ∧
      s'.done = s.done ++ [m] ∧ s'.tasks = s.tasks ∧ s'.calls = s.calls := by
  obtain ⟨h', out, hs, hok', hout⟩ := IOHandler.sendInternal_spec true (Mem.ofList m.2) hok hr
  refine ⟨{ s with handler := h', kernel := s.kernel ++ out, done := s.done ++ [m] },
    by rw [Senders.send, IOHandler.sendInternal2, hs]; rfl, hok', ?_, rfl, rfl, rfl⟩
  have hto : (UInt32.ofNat m.2.length).toNat = m.2.length := by
    simpa using hlen
  rw [hto, Mem.bytes_ofList] at hout
  rw [List.append_assoc, hout, ← List.append_assoc, hstream, payload_append]
  simp [payload]

/-- An event, with the answer of the `send` it makes if it makes one. -/
inductive SenderEvent (τ : Type) where
  | sendData (t : τ) (data : List UInt8) (r : SendResult)
  | runTask (r : SendResult)
  | onWrite (r : SendResult)

variable [DecidableEq τ]

namespace SenderEvent

/-- `loop` is the thread of the message loop. -/
def exec (loop : τ) : SenderEvent τ → Senders τ → Except Fault (Senders τ)
  | sendData t data r, s =>
    let s := { s with calls := s.calls ++ [(t, data)] }
    if t = loop then Senders.send (t, data) r s
    else .ok { s with tasks := s.tasks ++ [(t, data)] }
  | runTask r, s =>
    match s.tasks with
    | [] => .ok s
    | m :: tasks => Senders.send m r { s with tasks }
  | onWrite r, s => do
    let (handler, out) ← s.handler.onWrite r
    return { s with handler, kernel := s.kernel ++ out }

/-- The message `SendInternal` is called with, if it is called. -/
def sends (loop : τ) : SenderEvent τ → Senders τ → Option (List UInt8)
  | sendData t data _, _ => if t = loop then some data else none
  | runTask _, s => s.tasks.head?.map (·.2)
  | onWrite _, _ => none

/-- Every `send` takes a count between zero and the length it is offered. -/
def Legal (loop : τ) (e : SenderEvent τ) (s : Senders τ) : Prop :=
  match e with
  | sendData _ _ r | runTask r => ∀ data ∈ e.sends loop s, s.handler.sendsDirectly = true →
      ∃ n, r = .accepted n ∧ n ≤ (UInt32.ofNat data.length).toNat
  | onWrite r => s.handler.isWriting = true →
      ∃ n, r = .accepted n ∧ n ≤ s.handler.writeBuf.readableBytes

/-- The length of a message is a `uint32`, and the result of the `send` in `OnWrite` an `int`. -/
def Fits : SenderEvent τ → Senders τ → Prop
  | sendData _ data _, _ => data.length < 2 ^ 32
  | runTask _, _ => True
  | onWrite r, s => s.handler.isWriting = true → r.ret < 2 ^ 31

end SenderEvent

/-- What holds of a connection and its senders. -/
structure Whole (loop : τ) (s : Senders τ) : Prop where
  ok : s.handler.writeBuf.Ok
  /-- The stream is the messages handed to `SendInternal`. -/
  stream : s.kernel ++ s.handler.writeBuf.readable = payload s.done
  /-- The loop posts no messages. -/
  posted : ∀ m ∈ s.tasks, m.1 ≠ loop
  /-- Every queued message has a length that fits. -/
  short : ∀ m ∈ s.tasks, m.2.length < 2 ^ 32
  /-- Each message is handed over or queued, once. -/
  perm : (s.done ++ s.tasks).Perm s.calls
  /-- The messages of one thread keep their order. -/
  fifo : ∀ t, (s.done ++ s.tasks).filter (·.1 = t) = s.calls.filter (·.1 = t)

section Steps

variable {loop : τ} {s s' : Senders τ}

/-- A message of the loop's own comes last: nothing of the loop is queued. -/
lemma Whole.called_by_loop (h : Whole loop s) {data : List UInt8} (hok : s'.handler.writeBuf.Ok)
    (hstream : s'.kernel ++ s'.handler.writeBuf.readable = payload s'.done) (hdone : s'.done = s.done ++ [(loop, data)])
    (htasks : s'.tasks = s.tasks) (hcalls : s'.calls = s.calls ++ [(loop, data)]) : Whole loop s' := by
  refine ⟨hok, hstream, by rw [htasks]; exact h.posted, by rw [htasks]; exact h.short, ?_, ?_⟩
  · rw [hdone, htasks, hcalls, List.append_assoc]
    refine (List.Perm.append_left _ List.perm_append_comm).trans ?_
    rw [← List.append_assoc]
    exact h.perm.append_right _
  · intro t
    have hf := h.fifo t
    rw [hdone, htasks, hcalls]
    simp only [List.filter_append] at hf ⊢
    by_cases ht : loop = t
    · subst ht
      have hnil : s.tasks.filter (fun m => decide (m.1 = loop)) = [] := by
        simpa using fun a b hm => h.posted (a, b) hm
      rw [hnil, List.append_nil] at hf ⊢
      rw [hf]
    · rw [← hf]
      simp [ht]

lemma Whole.post (h : Whole loop s) {t : τ} {data : List UInt8} (ht : t ≠ loop) (hlen : data.length < 2 ^ 32) :
    Whole loop { s with calls := s.calls ++ [(t, data)], tasks := s.tasks ++ [(t, data)] } := by
  refine ⟨h.ok, h.stream, ?_, ?_, ?_, ?_⟩
  · intro m hm
    rcases List.mem_append.1 hm with hm | hm
    · exact h.posted m hm
    · rw [List.mem_singleton.1 hm]
      exact ht
  · intro m hm
    rcases List.mem_append.1 hm with hm | hm
    · exact h.short m hm
    · rw [List.mem_singleton.1 hm]
      exact hlen
  · rw [← List.append_assoc]
    exact h.perm.append_right _
  · intro t'
    show ((s.done ++ (s.tasks ++ [(t, data)])).filter _) = (s.calls ++ [(t, data)]).filter _
    have hf := h.fifo t'
    simp only [List.filter_append] at hf ⊢
    rw [← List.append_assoc, hf]

/-- The first message that is queued is handed over: the order of the messages stays. -/
lemma Whole.handed_over (h : Whole loop s) {m : Message τ} {tasks : List (Message τ)}
    (hqueue : s.tasks = m :: tasks) (hok : s'.handler.writeBuf.Ok)
    (hstream : s'.kernel ++ s'.handler.writeBuf.readable = payload s'.done) (hdone : s'.done = s.done ++ [m])
    (htasks : s'.tasks = tasks) (hcalls : s'.calls = s.calls) : Whole loop s' := by
  have horder : s'.done ++ s'.tasks = s.done ++ s.tasks := by
    rw [hdone, htasks, hqueue, List.append_assoc]
    rfl
  have hmem : ∀ m' ∈ s'.tasks, m' ∈ s.tasks := by
    intro m' hm'
    rw [hqueue]
    rw [htasks] at hm'
    exact List.mem_cons_of_mem _ hm'
  refine ⟨hok, hstream, fun m' hm' => h.posted m' (hmem m' hm'), fun m' hm' => h.short m' (hmem m' hm'), ?_, ?_⟩
  · rw [horder, hcalls]
    exact h.perm
  · intro t
    rw [horder, hcalls]
    exact h.fifo t

/-- **One event** that fits meets no failing check and tears no message. -/
theorem Whole.step (h : Whole loop s) {e : SenderEvent τ} (hlegal : e.Legal loop s) (hfit : e.Fits s) :
    ∃ s', e.exec loop s = .ok s' ∧ Whole loop s' := by
  cases e with
  | sendData t data r =>
    by_cases ht : t = loop
    · subst ht
      have hr := hlegal data (by simp [SenderEvent.sends])
      obtain ⟨s', hs, hok, hstream, hdone, htasks, hcalls⟩ := send_stream (m := (t, data))
        (s := { s with calls := s.calls ++ [(t, data)] }) h.ok h.stream hfit hr
      exact ⟨s', by rw [SenderEvent.exec, if_pos rfl]; exact hs, h.called_by_loop hok hstream hdone htasks hcalls⟩
    · exact ⟨_, by rw [SenderEvent.exec, if_neg ht], h.post ht hfit⟩
  | runTask r =>
    rcases htasks : s.tasks with _ | ⟨m, tasks⟩
    · exact ⟨s, by simp only [SenderEvent.exec, htasks], h⟩
    · have hm : m ∈ s.tasks := by simp [htasks]
      have hr := hlegal m.2 (by simp [SenderEvent.sends, htasks])
      obtain ⟨s', hs, hok, hstream, hdone, htasks', hcalls⟩ := send_stream (m := m)
        (s := { s with tasks }) h.ok h.stream (h.short m hm) hr
      exact ⟨s', by simp only [SenderEvent.exec, htasks]; exact hs,
        h.handed_over htasks hok hstream hdone htasks' hcalls⟩
  | onWrite r =>
    have htaken : s.handler.isWriting = true → r.taken < 2 ^ 31 := by
      intro hw
      obtain ⟨n, rfl, -⟩ := hlegal hw
      have hlt := hfit hw
      simp only [SendResult.ret, SendResult.taken] at hlt ⊢
      omega
    have hwithin : s.handler.isWriting = true → r.Within s.handler.writeBuf.readableBytes := by
      intro hw
      obtain ⟨n, rfl, hn⟩ := hlegal hw
      exact hn
    obtain ⟨h', out, hs, hok, hstream, -⟩ := IOHandler.onWrite_spec h.ok hwithin htaken
    refine ⟨{ s with handler := h', kernel := s.kernel ++ out }, by rw [SenderEvent.exec, hs]; rfl, hok, ?_, h.posted,
      h.short, h.perm, h.fifo⟩
    rw [List.append_assoc, hstream, h.stream]

end Steps

/-- An event of the connection and its senders. -/
def Sends (loop : τ) (s : Senders τ) (e : SenderEvent τ) (s' : Senders τ) : Prop :=
  e.Legal loop s ∧ e.exec loop s = .ok s'

/-- An event that fits. -/
def SendsFit (loop : τ) (s : Senders τ) (e : SenderEvent τ) (s' : Senders τ) : Prop :=
  Sends loop s e s' ∧ e.Fits s

lemma whole_of_run {loop : τ} {socket : ℤ} {es : List (SenderEvent τ)} {s : Senders τ}
    (h : Run (SendsFit loop) (Senders.new τ socket) es s) : Whole loop s := by
  have hnew : Whole loop (Senders.new τ socket) :=
    ⟨IOBuffer.new_ok 64, rfl, by simp [Senders.new], by simp [Senders.new], .rfl, fun _ => rfl⟩
  refine h.inv_of_exec (P := fun _ s => Whole loop s) (fun e s => e.Legal loop s ∧ e.Fits s)
    (SenderEvent.exec loop) ?_ hnew ?_
  · rintro s e s' ⟨⟨hlegal, hexec⟩, hfit⟩
    exact ⟨⟨hlegal, hfit⟩, hexec⟩
  · rintro es s e hw ⟨hlegal, hfit⟩
    exact hw.step hlegal hfit

/-- **Concurrent senders do not tear messages**: in every run whose events fit, the kernel's bytes, the content of
`write_buf_` and the queued messages are a concatenation of whole messages, namely of every message accepted by
`SendData`, once, with those of each thread in its call order. No check of a further event that fits fails. -/
theorem messages_whole {loop : τ} {socket : ℤ} {es : List (SenderEvent τ)} {s : Senders τ}
    (h : Run (SendsFit loop) (Senders.new τ socket) es s) :
    (∃ order : List (Message τ),
      s.kernel ++ s.handler.writeBuf.readable ++ payload s.tasks = payload order ∧
      order.Perm s.calls ∧ ∀ t, order.filter (·.1 = t) = s.calls.filter (·.1 = t)) ∧
    ∀ e : SenderEvent τ, e.Legal loop s → e.Fits s → ∃ s', e.exec loop s = .ok s' := by
  have hw := whole_of_run h
  refine ⟨⟨s.done ++ s.tasks, ?_, hw.perm, hw.fifo⟩, ?_⟩
  · rw [hw.stream, payload_append]
  · intro e hlegal hfit
    obtain ⟨s', he, -⟩ := hw.step hlegal hfit
    exact ⟨s', he⟩

/-- Thread 1 posts a message, the loop thread 0 sends one of its own first, the kernel takes a part of it. -/
theorem messages_whole_run : ∃ s : Senders ℕ,
    Run (SendsFit 0) (Senders.new ℕ 5)
      [.sendData 1 [1, 2] (.accepted 0), .sendData 0 [3, 4] (.accepted 1), .runTask (.accepted 0)] s ∧
    ∃ order : List (Message ℕ), s.kernel ++ s.handler.writeBuf.readable ++ payload s.tasks = payload order ∧
      order.Perm s.calls ∧ ∀ t, order.filter (·.1 = t) = s.calls.filter (·.1 = t) := by
  have hlen : 2 < 2 ^ 32 := by omega
  have h : Run (SendsFit 0) (Senders.new ℕ 5)
      [.sendData 1 [1, 2] (.accepted 0), .sendData 0 [3, 4] (.accepted 1), .runTask (.accepted 0)] _ :=
    ((Run.nil.snoc ⟨⟨fun _ hm => (by cases hm), rfl⟩, hlen⟩).snoc
      ⟨⟨fun _ hm _ => ⟨1, rfl, by cases hm; decide⟩, rfl⟩, hlen⟩).snoc
      ⟨⟨fun _ hm hd => (by cases hd), rfl⟩, trivial⟩
  exact ⟨_, h, (messages_whole h).1⟩

/-- **A message of `2 ^ 32` bytes is lost**: its length is 0 as a `uint32`. -/
theorem long_message_lost : ∃ s : Senders Unit,
    Run (Sends ()) (Senders.new Unit 5) [.sendData () (List.replicate (2 ^ 32) 0) (.accepted 0)] s ∧
    s.kernel ++ s.handler.writeBuf.readable ++ payload s.tasks = [] ∧
    ∀ order : List (Message Unit), order.Perm s.calls → payload order ≠ [] := by
  generalize hd : List.replicate (2 ^ 32) (0 : UInt8) = data
  have hlen : data.length = 2 ^ 32 := by rw [← hd, List.length_replicate]
  have h32 : UInt32.ofNat data.length = 0 := by rw [hlen]; rfl
  have hs : (IOHandler.new 5).sendInternal2 true data (.accepted 0) = .ok (IOHandler.new 5, []) := by
    rw [IOHandler.sendInternal2, h32]
    rfl
  refine ⟨⟨IOHandler.new 5, [], [], [((), data)], [((), data)]⟩, Run.nil.snoc ⟨?_, ?_⟩, rfl, ?_⟩
  · intro d hd' _
    exact ⟨0, rfl, Nat.zero_le _⟩
  · simp only [SenderEvent.exec, if_true, Senders.send, Senders.new, hs]
    rfl
  · intro order hp hnil
    rw [List.perm_singleton.1 hp] at hnil
    have : data = [] := by simpa [payload] using hnil
    rw [this] at hlen
    cases hlen

end Zutils.Net
