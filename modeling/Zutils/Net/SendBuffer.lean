import Mathlib.Data.List.Infix
import Mathlib.Data.List.Induction
import Zutils.Lib.Run
import Zutils.Net.IoHandlerSpec

/-!
# `SendData` of a buffer, on either thread

`SendData(IOBuffer*)` should mean the same on the thread of the loop and on another one, once the loop has run the task
that it posts. The bytes on the connection are the same, if the `send` does not fail. But on another thread the content
of the buffer is taken out, and on the thread of the loop it stays there: only for an empty buffer are the two the same,
and a caller that goes on using its buffer sends everything again (`send_buffer_iff`).
-/

namespace Zutils.Net

open Zutils.Lib

/-- The memory from a pointer to `data` on, with `rest` behind it. -/
def Mem.before (data : List UInt8) (rest : Mem) : Mem := fun i => data.getD i (rest (i - data.length))

namespace IOHandler

/-- `SendData(IOBuffer*)`: on the thread of the loop, or on another one, and then the loop has run the task. It also
gives what is in the buffer of the caller then. -/
def sendBuffer (dcheckIsOn onLoop : Bool) (h : IOHandler) (data : IOBuffer) (rest : Mem) (r : SendResult) :
    Except Fault (IOHandler × List UInt8 × IOBuffer) := do
  if onLoop then
    let (h, out) ← h.sendInternal dcheckIsOn (Mem.before data.readable rest) (UInt32.ofNat data.readableBytes) r
    return (h, out, data)
  else
    -- the task is bound to what `RetrieveAllAsString` returns
    let (message, data) ← data.retrieveAllAsString
    let (h, out) ← h.sendInternal dcheckIsOn (Mem.before message rest) (UInt32.ofNat message.length) r
    return (h, out, data)

/-- The bytes on the connection, those of a call included that has given `out` to the kernel. -/
def stream (h : IOHandler) (out : List UInt8) : List UInt8 := out ++ h.writeBuf.readable

/-- **One meaning**: on either thread `SendData` returns, with the same bytes on the connection and the same content of
the buffer, whatever is in the memory behind the data. -/
def OneMeaning (dcheckIsOn : Bool) (h : IOHandler) (data : IOBuffer) (r : SendResult) : Prop :=
  ∀ rest rest' : Mem, ∃ h₁ out₁ data₁ h₂ out₂ data₂,
    h.sendBuffer dcheckIsOn true data rest r = .ok (h₁, out₁, data₁) ∧
    h.sendBuffer dcheckIsOn false data rest' r = .ok (h₂, out₂, data₂) ∧
    h₁.stream out₁ = h₂.stream out₂ ∧ data₁.readable = data₂.readable

section Calls

variable {h : IOHandler} {data : IOBuffer} {r : SendResult} {dcheckIsOn : Bool}

lemma bytes_before {bytes : List UInt8} (rest : Mem) {n : ℕ} (hn : n ≤ bytes.length) :
    (Mem.before bytes rest).bytes 0 n = bytes.take n := by
  apply List.ext_getElem
  · rw [Mem.bytes_length, List.length_take, Nat.min_eq_left hn]
  · intro i h₁ h₂
    have hi : i < bytes.length := by
      rw [List.length_take] at h₂
      omega
    simp [Mem.bytes, Mem.before, List.getD_eq_getElem?_getD, hi]

lemma toNat_ofNat_le (n : ℕ) : (UInt32.ofNat n).toNat ≤ n := by
  rw [UInt32.toNat_ofNat']
  exact Nat.mod_le _ _

/-- On either thread `SendInternal` is called with the content of the buffer. -/
lemma sendBuffer_eq (dcheckIsOn onLoop : Bool) (h : IOHandler) (hdata : data.Ok) (rest : Mem) (r : SendResult) :
    ∃ data', data'.Ok ∧ data'.readable = (if onLoop then data.readable else []) ∧
      h.sendBuffer dcheckIsOn onLoop data rest r =
        h.sendInternal dcheckIsOn (Mem.before data.readable rest) (UInt32.ofNat data.readableBytes) r >>=
          fun x => .ok (x.1, x.2, data') := by
  cases onLoop with
  | true =>
    refine ⟨data, hdata, rfl, ?_⟩
    unfold sendBuffer
    rw [if_pos rfl]
    rfl
  | false =>
    obtain ⟨data', hretrieve, e⟩ := IOBuffer.retrieveAsString_spec hdata (Nat.le_refl data.readableBytes)
    have hlen := hdata.readable_length
    rw [List.take_of_length_le (Nat.le_of_eq hlen)] at hretrieve
    refine ⟨data', e.ok, ?_, ?_⟩
    · rw [e.queue, List.drop_of_length_le (Nat.le_of_eq hlen)]
      rfl
    · unfold sendBuffer IOBuffer.retrieveAllAsString
      rw [if_neg (by decide), hretrieve, ok_bind]
      simp only [hlen]
      rfl

/-- A `send` of no bytes that fails: without the check, a byte from far behind the data is sent. -/
lemma sendInternal_none_failed {e : Errno} (m : Mem) (hok : h.writeBuf.Ok) (hd : h.sendsDirectly = true) :
    ∃ h', h.sendInternal false m 0 (.failed e) = .ok (h', []) ∧ h'.stream [] = [m 4294967295] := by
  have hempty := readable_of_sendsDirectly hok hd
  obtain ⟨b', hwrite, e'⟩ := IOBuffer.write_spec hok (m.bytes 4294967295 1)
  refine ⟨{ h with writeBuf := b', writeWaitState := .waitingWrite }, ?_, ?_⟩
  · unfold sendInternal
    rw [afterSend_failed hd, hd]
    simp only [dcheck_true (fun h : false = true => absurd h (by decide)), ok_bind]
    exact (congrArg (· >>= _) hwrite).trans rfl
  · unfold stream
    rw [List.nil_append, e'.queue, hempty]
    rfl

/-- **Of a `send` that does not fail, both threads make the same**: all that is in the buffer is on the connection. -/
theorem sendBuffer_spec (dcheckIsOn onLoop : Bool) (hok : h.writeBuf.Ok) (hdata : data.Ok) (rest : Mem)
    (hr : h.sendsDirectly = true → ∃ n, r = .accepted n ∧ n ≤ (UInt32.ofNat data.readableBytes).toNat) :
    ∃ h' out data', h.sendBuffer dcheckIsOn onLoop data rest r = .ok (h', out, data') ∧ h'.writeBuf.Ok ∧ data'.Ok ∧
      h'.stream out = h.writeBuf.readable ++ data.readable.take (UInt32.ofNat data.readableBytes).toNat ∧
      data'.readable = if onLoop then data.readable else [] := by
  obtain ⟨data', hok', hread, hsend⟩ := sendBuffer_eq dcheckIsOn onLoop h hdata rest r
  obtain ⟨h', out, hinternal, hwrite, hstream⟩ :=
    sendInternal_spec dcheckIsOn (Mem.before data.readable rest) hok hr
  refine ⟨h', out, data', by rw [hsend, hinternal]; rfl, hwrite, hok', ?_, hread⟩
  unfold stream
  rw [hstream, bytes_before rest (by rw [hdata.readable_length]; exact toNat_ofNat_le _)]

/-- **Only an empty buffer has one meaning**, and only if the `send` does not fail. -/
theorem oneMeaning_iff (hok : h.writeBuf.Ok) (hdata : data.Ok)
    (hr : h.sendsDirectly = true → r.Within (UInt32.ofNat data.readableBytes).toNat) :
    h.OneMeaning dcheckIsOn data r ↔ data.readable = [] ∧ (h.sendsDirectly = true → ∃ n, r = .accepted n) := by
  constructor
  · intro hone
    obtain ⟨h₁, out₁, data₁, h₂, out₂, data₂, hloop, hposted, hstream, hsame⟩ := hone (fun _ => 0) (fun _ => 1)
    obtain ⟨data₁', -, hread₁, hsend₁⟩ := sendBuffer_eq dcheckIsOn true h hdata (fun _ => 0) r
    obtain ⟨data₂', -, hread₂, hsend₂⟩ := sendBuffer_eq dcheckIsOn false h hdata (fun _ => 1) r
    obtain ⟨⟨h₁', out₁'⟩, hinternal₁, heq₁⟩ := bind_eq_ok.1 (hsend₁.symm.trans hloop)
    obtain ⟨⟨h₂', out₂'⟩, hinternal₂, heq₂⟩ := bind_eq_ok.1 (hsend₂.symm.trans hposted)
    cases heq₁
    cases heq₂
    have hempty : data.readable = [] := by
      rw [hread₁, hread₂] at hsame
      exact hsame
    refine ⟨hempty, fun hd => ?_⟩
    have hzero : data.readableBytes = 0 := by
      rw [← hdata.readable_length, hempty]
      rfl
    rw [hzero, hempty] at hinternal₁ hinternal₂
    cases r with
    | accepted n => exact ⟨n, rfl⟩
    | failed e =>
      cases dcheckIsOn with
      | true =>
        -- the check stops both
        rw [sendInternal_failed _ hd, if_neg (by decide)] at hinternal₁
        cases hinternal₁
      | false =>
        obtain ⟨h₁', hfail₁, hbyte₁⟩ := sendInternal_none_failed (e := e) (Mem.before [] fun _ => 0) hok hd
        obtain ⟨h₂', hfail₂, hbyte₂⟩ := sendInternal_none_failed (e := e) (Mem.before [] fun _ => 1) hok hd
        cases hfail₁.symm.trans hinternal₁
        cases hfail₂.symm.trans hinternal₂
        rw [hbyte₁, hbyte₂] at hstream
        cases hstream
  · rintro ⟨hempty, haccepted⟩ rest rest'
    have hr' : h.sendsDirectly = true → ∃ n, r = .accepted n ∧ n ≤ (UInt32.ofNat data.readableBytes).toNat := by
      intro hd
      obtain ⟨n, rfl⟩ := haccepted hd
      exact ⟨n, rfl, hr hd⟩
    obtain ⟨h₁, out₁, data₁, hloop, -, -, hstream₁, hread₁⟩ :=
      sendBuffer_spec dcheckIsOn true hok hdata rest hr'
    obtain ⟨h₂, out₂, data₂, hposted, -, -, hstream₂, hread₂⟩ :=
      sendBuffer_spec dcheckIsOn false hok hdata rest' hr'
    refine ⟨h₁, out₁, data₁, h₂, out₂, data₂, hloop, hposted, hstream₁.trans hstream₂.symm, ?_⟩
    rw [hread₁, hread₂, if_pos rfl, if_neg (by decide), hempty]

end Calls

end IOHandler

/-! ### A caller that goes on -/

/-- A connection, and the buffer of a caller. -/
structure BufferSender where
  handler : IOHandler
  /-- What the kernel has accepted. -/
  kernel : List UInt8
  data : IOBuffer

namespace BufferSender

/-- The bytes on the connection. -/
def transmitted (s : BufferSender) : List UInt8 := s.kernel ++ s.handler.writeBuf.readable

/-- The caller appends a chunk to its buffer and sends it; the kernel takes some of what it is offered, if it is. -/
def Sends (dcheckIsOn onLoop : Bool) (s : BufferSender) (chunk : List UInt8) (s' : BufferSender) : Prop :=
  ∃ data rest n handler out data', s.data.write chunk = .ok data ∧
    (s.handler.sendsDirectly = true → n ≤ (UInt32.ofNat data.readableBytes).toNat) ∧
    s.handler.sendBuffer dcheckIsOn onLoop data rest (.accepted n) = .ok (handler, out, data') ∧
    s' = ⟨handler, s.kernel ++ out, data'⟩

/-- The content of the buffer at each call, if nothing is taken out. -/
def resent (chunks : List (List UInt8)) : List UInt8 := (chunks.inits.map List.flatten).flatten

lemma resent_snoc (chunks : List (List UInt8)) (chunk : List UInt8) :
    resent (chunks ++ [chunk]) = resent chunks ++ (chunks ++ [chunk]).flatten := by
  have hinits : [chunk].inits = [[], [chunk]] := rfl
  unfold resent
  rw [List.inits_append, hinits, List.map_append, List.flatten_append]
  simp

lemma resent_eq_nil_iff {chunks : List (List UInt8)} : resent chunks = [] ↔ ∀ chunk ∈ chunks, chunk = [] := by
  induction chunks using List.reverseRecOn with
  | nil => exact iff_of_true rfl (fun chunk h => absurd h List.not_mem_nil)
  | append_singleton chunks chunk ih =>
    rw [resent_snoc, List.append_eq_nil_iff, ih, List.flatten_eq_nil_iff]
    refine ⟨And.right, fun h => ⟨fun c hc => ?_, h⟩⟩
    exact h c (List.mem_append_left _ hc)

/-- Nothing is sent twice exactly if only the last chunk is not empty. -/
lemma resent_eq_iff {chunks : List (List UInt8)} :
    resent chunks = chunks.flatten ↔ ∀ chunk ∈ chunks.dropLast, chunk = [] := by
  rcases List.eq_nil_or_concat chunks with rfl | ⟨before, chunk, rfl⟩
  · exact iff_of_true rfl (fun chunk h => absurd h List.not_mem_nil)
  · rw [List.concat_eq_append, resent_snoc, List.append_left_eq_self, List.dropLast_concat, resent_eq_nil_iff]

section Runs

variable {dcheckIsOn onLoop : Bool} {s₀ s : BufferSender} {chunks : List (List UInt8)}

lemma transmitted_of_run (hok : s₀.handler.writeBuf.Ok) (hdata : s₀.data.Ok) (hempty : s₀.data.readable = [])
    (hlen : chunks.flatten.length < 2 ^ 32) (h : Run (Sends dcheckIsOn onLoop) s₀ chunks s) :
    s.handler.writeBuf.Ok ∧ s.data.Ok ∧ s.data.readable = (if onLoop then chunks.flatten else []) ∧
      s.transmitted = s₀.transmitted ++ if onLoop then resent chunks else chunks.flatten := by
  revert hlen
  refine h.inv (P := fun chunks s => chunks.flatten.length < 2 ^ 32 → s.handler.writeBuf.Ok ∧ s.data.Ok ∧
    s.data.readable = (if onLoop then chunks.flatten else []) ∧
    s.transmitted = s₀.transmitted ++ if onLoop then resent chunks else chunks.flatten) ?_ ?_
  · intro _
    refine ⟨hok, hdata, ?_, ?_⟩
    · rw [hempty]
      cases onLoop <;> rfl
    · cases onLoop <;> exact (List.append_nil _).symm
  rintro chunks s chunk s' ih ⟨data, rest, n, handler, out, data', hwrite, hn, hsend, rfl⟩ hlen
  rw [List.flatten_append, List.flatten_singleton, List.length_append] at hlen
  obtain ⟨hok, hdata, hread, hsent⟩ := ih (by omega)
  obtain ⟨data₁, hwrite', e⟩ := IOBuffer.write_spec hdata chunk
  obtain rfl := Except.ok.inj (hwrite.symm.trans hwrite')
  obtain ⟨handler', out', data₂, hsend', hok', hdata', hstream, hread'⟩ :=
    IOHandler.sendBuffer_spec dcheckIsOn onLoop hok e.ok rest (fun hd => ⟨n, rfl, hn hd⟩)
  cases hsend.symm.trans hsend'
  -- the length of what is in the buffer is a `uint32`
  have hshort : data.readable.length < 2 ^ 32 := by
    rw [e.queue, hread, List.length_append]
    cases onLoop with
    | true => exact hlen
    | false => exact Nat.lt_of_le_of_lt (Nat.add_le_add_right (Nat.zero_le _) _) hlen
  have hall : (UInt32.ofNat data.readableBytes).toNat = data.readable.length := by
    rw [UInt32.toNat_ofNat', ← e.ok.readable_length, Nat.mod_eq_of_lt hshort]
  rw [hall, List.take_length, e.queue, hread] at hstream
  rw [e.queue, hread] at hread'
  have htransmitted : BufferSender.transmitted ⟨handler, s.kernel ++ out, data'⟩ =
      s.transmitted ++ ((if onLoop then chunks.flatten else []) ++ chunk) := by
    unfold transmitted
    rw [List.append_assoc, List.append_assoc]
    exact congrArg (s.kernel ++ ·) hstream
  refine ⟨hok', hdata', ?_, ?_⟩
  · rw [List.flatten_append, List.flatten_singleton, hread']
    cases onLoop <;> rfl
  · rw [htransmitted, hsent, List.append_assoc]
    cases onLoop with
    | true => simp only [if_true, resent_snoc, List.flatten_append, List.flatten_singleton]
    | false => simp only [Bool.false_eq_true, if_false, List.nil_append, List.flatten_append, List.flatten_singleton]

end Runs

end BufferSender

/-- **`SendData` has one meaning exactly for an empty buffer and a `send` that does not fail.** A caller that goes on
appending to its buffer and sending it, to a kernel that does not fail, has transmitted each byte once exactly if it is
on another thread than that of the loop, or only its last chunk is not empty. -/
theorem send_buffer_iff {h : IOHandler} {data : IOBuffer} {r : SendResult} (dcheckIsOn : Bool) (hok : h.writeBuf.Ok)
    (hdata : data.Ok) (hr : h.sendsDirectly = true → r.Within (UInt32.ofNat data.readableBytes).toNat) :
    (h.OneMeaning dcheckIsOn data r ↔ data.readable = [] ∧ (h.sendsDirectly = true → ∃ n, r = .accepted n)) ∧
    ∀ (onLoop : Bool) (chunks : List (List UInt8)) (s : BufferSender), data.readable = [] →
      chunks.flatten.length < 2 ^ 32 → Run (BufferSender.Sends dcheckIsOn onLoop) ⟨h, [], data⟩ chunks s →
      (s.transmitted = h.writeBuf.readable ++ chunks.flatten ↔
        (onLoop = true → ∀ chunk ∈ chunks.dropLast, chunk = [])) := by
  refine ⟨IOHandler.oneMeaning_iff hok hdata hr, fun onLoop chunks s hempty hlen hrun => ?_⟩
  obtain ⟨-, -, -, hsent⟩ := BufferSender.transmitted_of_run hok hdata hempty hlen hrun
  rw [hsent]
  cases onLoop with
  | true =>
    show h.writeBuf.readable ++ BufferSender.resent chunks = h.writeBuf.readable ++ chunks.flatten ↔ _
    rw [List.append_right_inj, BufferSender.resent_eq_iff]
    exact ⟨fun hlast _ => hlast, fun hlast => hlast rfl⟩
  | false => exact iff_of_true rfl (fun h => by cases h)

/-- An empty buffer. -/
theorem send_buffer_iff_empty : (IOHandler.new 5).OneMeaning true (.new 64) (.accepted 0) :=
  (send_buffer_iff true (IOBuffer.new_ok 64) (IOBuffer.new_ok 64) (fun _ => Nat.zero_le _)).1.2
    ⟨IOBuffer.new_readable 64, fun _ => ⟨0, rfl⟩⟩

/-- **On the thread of the loop the byte that has been sent stays in the buffer**, and is sent again with the next. -/
theorem loop_keeps_buffer :
    (∃ data, (IOBuffer.new 64).write [1] = .ok data ∧ ¬ (IOHandler.new 5).OneMeaning true data (.accepted 1)) ∧
    (∃ s, Run (BufferSender.Sends true true) ⟨IOHandler.new 5, [], .new 64⟩ [[1], [2]] s ∧
      s.transmitted = [1, 1, 2]) ∧
    ∃ s, Run (BufferSender.Sends true false) ⟨IOHandler.new 5, [], .new 64⟩ [[1], [2]] s ∧ s.transmitted = [1, 2] := by
  refine ⟨⟨_, rfl, fun hone => ?_⟩, ?_, ?_⟩
  · obtain ⟨h₁, out₁, data₁, h₂, out₂, data₂, hloop, hposted, -, hsame⟩ := hone (fun _ => 0) (fun _ => 0)
    cases hloop
    cases hposted
    exact absurd hsame (by decide)
  · refine ⟨_, (Run.nil.snoc ⟨_, fun _ => 0, 1, _, _, _, rfl, fun _ => by decide, rfl, rfl⟩).snoc
      ⟨_, fun _ => 0, 2, _, _, _, rfl, fun _ => by decide, rfl, rfl⟩, rfl⟩
  · refine ⟨_, (Run.nil.snoc ⟨_, fun _ => 0, 1, _, _, _, rfl, fun _ => by decide, rfl, rfl⟩).snoc
      ⟨_, fun _ => 0, 1, _, _, _, rfl, fun _ => by decide, rfl, rfl⟩, rfl⟩

end Zutils.Net
