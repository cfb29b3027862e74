import Zutils.Lib.Framing
import Zutils.Lib.Loop
import Zutils.Lib.Run
import Zutils.Net.IoBufferSpec

/-!
# The length-header codec (`net/codec/length_header/length_header_codec.cc`)

A frame is a header of `header_len_` bytes, of which the first four are the length of the message as a big-endian
`int32`, and the message. `OnDataReceived` loops over the frames in the receive buffer; nothing but the buffer
survives from one call to the next.

The delegate is a function of the messages it has seen, the new one included. The reference parser is
`Framing.parse` for the framing `lengthFraming`, run once over everything received, and a connection that serves its
reads one by one agrees with it after every read (`reads_agree`). The invariant of the loop is that parsing what is
left gives what parsing at the start would have given; what carries it from one read to the next is
`Framing.parse_append`.
-/

namespace Zutils.Net

open Zutils.Lib

/-- `class LengthHeaderCodec`. -/
structure LengthHeaderCodec where
  /-- `OnLengthHeaderDataReceived`, of all messages seen so far. -/
  delegate : List (List UInt8) → ℤ
  headerLen : ℕ

namespace LengthHeaderCodec

/-- `ret`, the messages the delegate has seen, and the receive buffer. -/
structure State where
  ret : ℤ
  seen : List (List UInt8)
  data : IOBuffer

variable (codec : LengthHeaderCodec)

/-- One turn of the `while` loop; `.inr` leaves the loop. -/
def round : State → Except Fault (State ⊕ State)
  | ⟨ret, seen, data⟩ => do
    if codec.headerLen ≤ data.readableBytes then
      let len ← data.peekBigEndianInt32
      if len > 65536 ∨ len < 0 then
        return .inr ⟨-1, seen, data⟩
      else if len.toNat + codec.headerLen ≤ data.readableBytes then
        let data ← data.retrieve codec.headerLen
        let message := data.peek len.toNat
        let ret := codec.delegate (seen ++ [message])
        let data ← data.retrieve len.toNat
        if ret = -1 then
          return .inr ⟨ret, seen ++ [message], data⟩
        else
          return .inl ⟨ret, seen ++ [message], data⟩
      else
        return .inr ⟨ret, seen, data⟩
    else
      return .inr ⟨ret, seen, data⟩

/-- `OnDataReceived`, with at most `fuel` turns of its loop. -/
def onDataReceived (fuel : ℕ) (seen : List (List UInt8)) (data : IOBuffer) : Option (Except Fault State) :=
  rounds codec.round fuel ⟨0, seen, data⟩

/-! ### The reference parser -/

/-- A length outside `0 .. 65536` is invalid. -/
def validLength (len : ℤ) : Option ℕ := if 0 ≤ len ∧ len ≤ 65536 then some len.toNat else none

/-- The length in a header. -/
def bodyLength (header : List UInt8) : Option ℕ := validLength ((beNat (header.take 4) : ℤ).bmod (2 ^ 32))

/-- The frames of the stream. The content of a frame is its message. -/
def lengthFraming (headerLen : ℕ) (hlen : 4 ≤ headerLen) : Framing UInt8 (List UInt8) :=
  .ofHeader headerLen (by omega) bodyLength fun frame => frame.drop headerLen

lemma lengthFraming_front {headerLen : ℕ} (hlen : 4 ≤ headerLen) (s : List UInt8) :
    (lengthFraming headerLen hlen).front s =
      Framing.headerFront headerLen bodyLength (fun frame => frame.drop headerLen) s := rfl

/-- The delegate did not say -1. -/
def accepts (seen : List (List UInt8)) : Bool := codec.delegate seen ≠ -1

/-- The messages, the verdict and the unconsumed bytes of a run of the reference parser over all of `received`. -/
def reference (hlen : 4 ≤ codec.headerLen) (received : List UInt8) : List (List UInt8) × ℤ × List UInt8 :=
  let o := (lengthFraming codec.headerLen hlen).parse codec.accepts [] received
  (o.items, if o.stopped then -1 else 0, o.rest)

/-! ### One call -/

section Call

variable {codec} {b : IOBuffer} {seen : List (List UInt8)}

lemma peek_bodyLength (hok : b.Ok) (hlen : 4 ≤ codec.headerLen) (hr : codec.headerLen ≤ b.readableBytes) :
    ∃ len, b.peekBigEndianInt32 = .ok len ∧ bodyLength (b.readable.take codec.headerLen) = validLength len := by
  have hb : b.peek 4 = b.readable.take 4 := IOBuffer.peek_eq_take (by omega)
  have hl : (b.readable.take 4).length = 4 := by
    rw [List.length_take, hok.readable_length]
    omega
  have h32 : (get32 (b.readable.take 4) 0).toNat = beNat (b.readable.take 4) := by
    rw [get32_toNat (by omega), List.drop_zero, List.take_of_length_le (by omega)]
  have hu : b.peekBigEndianUint32 = .ok (get32 (b.readable.take 4) 0) := by
    rw [IOBuffer.peekBigEndianUint32, dcheck_true (by omega), hb]
    rfl
  refine ⟨(beNat (b.readable.take 4) : ℤ).bmod (2 ^ 32), ?_, ?_⟩
  · rw [IOBuffer.peekBigEndianInt32, hu, ok_bind, h32]
    rfl
  · rw [bodyLength, List.take_take, Nat.min_eq_left hlen]

section Branches

variable {len : ℤ} (hr : codec.headerLen ≤ b.readableBytes) (hpeek : b.peekBigEndianInt32 = .ok len) (ret : ℤ)

lemma round_short (ret : ℤ) (hr : ¬ codec.headerLen ≤ b.readableBytes) :
    codec.round ⟨ret, seen, b⟩ = .ok (.inr ⟨ret, seen, b⟩) := by
  rw [round, if_neg hr]
  rfl

include hr hpeek

lemma round_invalid (hbad : len > 65536 ∨ len < 0) :
    codec.round ⟨ret, seen, b⟩ = .ok (.inr ⟨-1, seen, b⟩) := by
  rw [round, if_pos hr, hpeek, ok_bind, if_pos hbad]
  rfl

lemma round_incomplete (hbad : ¬ (len > 65536 ∨ len < 0))
    (hfull : ¬ len.toNat + codec.headerLen ≤ b.readableBytes) :
    codec.round ⟨ret, seen, b⟩ = .ok (.inr ⟨ret, seen, b⟩) := by
  rw [round, if_pos hr, hpeek, ok_bind, if_neg hbad, if_neg hfull]
  rfl

lemma round_frame (seen : List (List UInt8)) (hok : b.Ok) (hbad : ¬ (len > 65536 ∨ len < 0))
    (hfull : len.toNat + codec.headerLen ≤ b.readableBytes) :
    ∃ message b', message = (b.readable.take (codec.headerLen + len.toNat)).drop codec.headerLen ∧
      IOBuffer.Effect b b' (b.readable.drop (codec.headerLen + len.toNat)) ∧
      codec.round ⟨ret, seen, b⟩ =
        if codec.delegate (seen ++ [message]) = -1 then
          .ok (.inr ⟨codec.delegate (seen ++ [message]), seen ++ [message], b'⟩)
        else .ok (.inl ⟨codec.delegate (seen ++ [message]), seen ++ [message], b'⟩) := by
  obtain ⟨b₁, h₁, e₁⟩ := IOBuffer.retrieve_spec hok hr
  have hr₁ : b₁.readableBytes = b.readableBytes - codec.headerLen := by
    rw [← e₁.ok.readable_length, e₁.queue, List.length_drop, hok.readable_length]
  obtain ⟨b₂, h₂, e₂⟩ := IOBuffer.retrieve_spec e₁.ok (show len.toNat ≤ b₁.readableBytes by omega)
  refine ⟨b₁.peek len.toNat, b₂, ?_, ⟨e₂.ok, ?_, fun h => e₂.cheap (e₁.cheap h)⟩, ?_⟩
  · rw [IOBuffer.peek_eq_take (by omega), e₁.queue, List.drop_take, Nat.add_sub_cancel_left]
  · rw [e₂.queue, e₁.queue, List.drop_drop]
  · simp only [round, if_pos hr, hpeek, ok_bind, if_neg hbad, if_pos hfull, h₁, h₂]
    rfl

end Branches

/-- What a call that had the result `ret` so far returns, if the reference parser comes to `o`. -/
def verdict (codec : LengthHeaderCodec) (ret : ℤ) (seen : List (List UInt8))
    (o : Framing.Outcome UInt8 (List UInt8)) : ℤ :=
  if o.stopped then -1 else if o.items = seen then ret else codec.delegate o.items

lemma verdict_stopped (ret : ℤ) (seen items : List (List UInt8)) (rest : List UInt8) :
    codec.verdict ret seen ⟨items, true, rest⟩ = -1 := if_pos rfl

lemma verdict_none (ret : ℤ) (seen : List (List UInt8)) (rest : List UInt8) :
    codec.verdict ret seen ⟨seen, false, rest⟩ = ret := by
  unfold verdict
  rw [if_neg (by simp), if_pos rfl]

/-- What is returned does not depend on the result before a frame. -/
lemma verdict_frame {accept : List (List UInt8) → Bool} {F : Framing UInt8 (List UInt8)} {message : List UInt8}
    (ret : ℤ) (s : List UInt8) : codec.verdict ret seen (F.parse accept (seen ++ [message]) s) =
      codec.verdict (codec.delegate (seen ++ [message])) (seen ++ [message])
        (F.parse accept (seen ++ [message]) s) := by
  obtain ⟨xs, hxs⟩ := F.parse_extends accept (seen ++ [message]) s
  have hne : (F.parse accept (seen ++ [message]) s).items ≠ seen := by
    intro h
    rw [hxs, List.append_assoc] at h
    exact List.cons_ne_nil message xs (List.append_right_eq_self.1 h)
  unfold verdict
  rw [if_neg hne]
  by_cases heq : (F.parse accept (seen ++ [message]) s).items = seen ++ [message]
  · rw [if_pos heq, heq]
  · rw [if_neg heq]

/-- **One turn of the loop**: it leaves with the outcome of the reference parser, or consumes one frame without
changing what the reference parser will say. -/
theorem round_spec (ret : ℤ) (seen : List (List UInt8)) (hlen : 4 ≤ codec.headerLen) (hok : b.Ok) :
    (∃ s : State, codec.round ⟨ret, seen, b⟩ = .ok (.inr s) ∧ s.data.Ok ∧
      ∃ stopped, (lengthFraming codec.headerLen hlen).parse codec.accepts seen b.readable =
        ⟨s.seen, stopped, s.data.readable⟩ ∧ s.ret = codec.verdict ret seen ⟨s.seen, stopped, s.data.readable⟩) ∨
    ∃ message b', codec.round ⟨ret, seen, b⟩ =
        .ok (.inl ⟨codec.delegate (seen ++ [message]), seen ++ [message], b'⟩) ∧ b'.Ok ∧
      b'.readableBytes < b.readableBytes ∧
      (lengthFraming codec.headerLen hlen).parse codec.accepts seen b.readable =
        (lengthFraming codec.headerLen hlen).parse codec.accepts (seen ++ [message]) b'.readable := by
  have hrl := hok.readable_length
  have hfront := lengthFraming_front hlen b.readable
  by_cases hr : codec.headerLen ≤ b.readableBytes
  · obtain ⟨len, hpeek, hbody⟩ := peek_bodyLength hok hlen hr
    by_cases hbad : len > 65536 ∨ len < 0
    · rw [validLength, if_neg (by omega)] at hbody
      have hf := hfront.trans (Framing.headerFront_eq_bad.2 ⟨by omega, hbody⟩)
      exact .inl ⟨⟨-1, seen, b⟩, round_invalid hr hpeek ret hbad, hok, true, Framing.parse_bad hf,
        (verdict_stopped _ _ _ _).symm⟩
    · rw [validLength, if_pos (by omega)] at hbody
      by_cases hfull : len.toNat + codec.headerLen ≤ b.readableBytes
      · obtain ⟨message, b', hmsg, e, hround⟩ := round_frame hr hpeek ret seen hok hbad hfull
        have hf := hfront.trans (Framing.headerFront_eq_frame.2 ⟨len.toNat, hbody, rfl, by omega, hmsg⟩)
        by_cases h1 : codec.delegate (seen ++ [message]) = -1
        · left
          rw [if_pos h1, h1] at hround
          refine ⟨_, hround, e.ok, true, ?_, (verdict_stopped _ _ _ _).symm⟩
          rw [Framing.parse_refused hf (by simp [accepts, h1]), e.queue]
        · right
          rw [if_neg h1] at hround
          refine ⟨message, b', hround, e.ok, ?_, ?_⟩
          · rw [← e.ok.readable_length, e.queue, List.length_drop, hrl]
            omega
          · rw [Framing.parse_frame hf (by simp [accepts, h1]), e.queue]
      · have hf := hfront.trans (Framing.headerFront_eq_wait.2 (.inr ⟨len.toNat, hbody, by omega⟩))
        exact .inl ⟨⟨ret, seen, b⟩, round_incomplete hr hpeek ret hbad hfull, hok, false, Framing.parse_wait hf,
          (verdict_none _ _ _).symm⟩
  · have hf := hfront.trans (Framing.headerFront_eq_wait.2 (.inl (by omega)))
    exact .inl ⟨⟨ret, seen, b⟩, round_short ret hr, hok, false, Framing.parse_wait hf, (verdict_none _ _ _).symm⟩

/-- **One call returns**, and its outcome is that of the reference parser on the content of the buffer. -/
theorem onDataReceived_outcome (hlen : 4 ≤ codec.headerLen) (seen : List (List UInt8)) (hok : b.Ok) :
    ∃ (s : State) (stopped : Bool),
      (∀ fuel, b.readableBytes < fuel → codec.onDataReceived fuel seen b = some (.ok s)) ∧ s.data.Ok ∧
      (lengthFraming codec.headerLen hlen).parse codec.accepts seen b.readable = ⟨s.seen, stopped, s.data.readable⟩ ∧
      s.ret = codec.verdict 0 seen ⟨s.seen, stopped, s.data.readable⟩ := by
  let F := lengthFraming codec.headerLen hlen
  let target := F.parse codec.accepts seen b.readable
  -- the rest of the loop comes to the same outcome, and to the same result
  obtain ⟨s, ⟨hs, stopped, htarget, hret⟩, hrounds⟩ := rounds_total (fun s : State => s.data.readableBytes)
    (P := fun s : State => s.data.Ok ∧ target = F.parse codec.accepts s.seen s.data.readable ∧
      codec.verdict 0 seen target = codec.verdict s.ret s.seen target)
    (Q := fun s : State => s.data.Ok ∧ ∃ stopped, target = ⟨s.seen, stopped, s.data.readable⟩ ∧
      s.ret = codec.verdict 0 seen target)
    (by
      rintro ⟨ret, seen', b'⟩ ⟨hok', htarget, hverdict⟩
      rcases round_spec ret seen' hlen hok' with ⟨s, hr, hs, stopped, hp, hret⟩ | ⟨message, b'', hr, hok'', hlt, hp⟩
      · refine .inl ⟨s, hr, hs, stopped, htarget.trans hp, ?_⟩
        rw [hverdict, htarget.trans hp, hret]
      · refine .inr ⟨_, hr, ⟨hok'', htarget.trans hp, ?_⟩, hlt⟩
        rw [hverdict, htarget.trans hp]
        exact verdict_frame ret _)
    ⟨0, seen, b⟩ ⟨hok, rfl, rfl⟩
  exact ⟨s, stopped, hrounds, hs, htarget, by rw [hret, htarget]⟩

/-- **With a delegate that says 0 or -1**, so does the call, and it says -1 exactly if the reference parser stops. -/
theorem onDataReceived_spec (hlen : 4 ≤ codec.headerLen)
    (hdlg : ∀ seen, codec.delegate seen = 0 ∨ codec.delegate seen = -1) (seen : List (List UInt8)) (hok : b.Ok) :
    ∃ s : State, (∀ fuel, b.readableBytes < fuel → codec.onDataReceived fuel seen b = some (.ok s)) ∧
      s.data.Ok ∧ (s.ret = 0 ∨ s.ret = -1) ∧
      (lengthFraming codec.headerLen hlen).parse codec.accepts seen b.readable =
        ⟨s.seen, s.ret = -1, s.data.readable⟩ := by
  obtain ⟨s, stopped, hcall, hs, hparse, hret⟩ := onDataReceived_outcome hlen seen hok
  cases stopped with
  | true =>
    rw [verdict_stopped] at hret
    exact ⟨s, hcall, hs, .inr hret, by rw [hparse, hret]; rfl⟩
  | false =>
    have hstopped : ((lengthFraming codec.headerLen hlen).parse codec.accepts seen b.readable).stopped = false := by
      rw [hparse]
    have hacc := Framing.parse_accepted hstopped
    rw [hparse] at hacc
    have hzero : s.ret = 0 := by
      rw [hret]
      unfold verdict
      rw [if_neg (by simp)]
      by_cases hitems : s.seen = seen
      · rw [if_pos hitems]
      · rw [if_neg hitems]
        have hne := hacc.resolve_left hitems
        unfold accepts at hne
        exact (hdlg s.seen).resolve_right (of_decide_eq_true hne)
    exact ⟨s, hcall, hs, .inl hzero, by rw [hparse, hzero]; rfl⟩

end Call

/-! ### All reads of a connection -/

/-- A read appends `chunk` to the receive buffer and calls `OnDataReceived`, unless an earlier call returned nonzero. -/
def Reads (s : State) (chunk : List UInt8) (s' : State) : Prop :=
  s.ret = 0 ∧ ∃ b fuel, s.data.Appends chunk b ∧ codec.onDataReceived fuel s.seen b = some (.ok s')

/-- The state agrees with the reference parser on the bytes received. -/
structure Agrees (hlen : 4 ≤ codec.headerLen) (received : List UInt8) (s : State) : Prop where
  ok : s.data.Ok
  verdict : s.ret = 0 ∨ s.ret = -1
  parsed : (lengthFraming codec.headerLen hlen).parse codec.accepts [] received =
    ⟨s.seen, s.ret = -1, s.data.readable⟩

variable {codec}

lemma Agrees.reads {hlen : 4 ≤ codec.headerLen} {received chunk : List UInt8} {s s' : State}
    (hdlg : ∀ seen, codec.delegate seen = 0 ∨ codec.delegate seen = -1)
    (h : codec.Agrees hlen received s) (hr : codec.Reads s chunk s') : codec.Agrees hlen (received ++ chunk) s' := by
  obtain ⟨h0, b, fuel, ha, hcall⟩ := hr
  have e := ha.spec h.ok
  obtain ⟨out, hout, hok, hv, hparse⟩ := onDataReceived_spec hlen hdlg s.seen e.ok
  have hs : s' = out := by
    have h1 := rounds_mono hcall (Nat.le_add_right fuel (b.readableBytes + 1))
    have h2 := hout (fuel + (b.readableBytes + 1)) (by omega)
    exact Except.ok.inj (Option.some.inj (h1.symm.trans h2))
  subst hs
  refine ⟨hok, hv, ?_⟩
  rw [Framing.parse_append, h.parsed, h0, ← e.queue]
  exact hparse

lemma agrees_of_run (hlen : 4 ≤ codec.headerLen) (hdlg : ∀ seen, codec.delegate seen = 0 ∨ codec.delegate seen = -1)
    {n : ℕ} {chunks : List (List UInt8)} {s : State} (h : Run codec.Reads ⟨0, [], .new n⟩ chunks s) :
    codec.Agrees hlen chunks.flatten s := by
  refine h.inv (P := fun chunks s => codec.Agrees hlen chunks.flatten s) ⟨IOBuffer.new_ok n, .inl rfl, ?_⟩ ?_
  · have hf : (lengthFraming codec.headerLen hlen).front [] = .wait :=
      (lengthFraming_front hlen []).trans (Framing.headerFront_eq_wait.2 (.inl (by rw [List.length_nil]; omega)))
    rw [List.flatten_nil, Framing.parse_wait hf, IOBuffer.new_readable]
    rfl
  · intro chunks s chunk s' hagrees hr
    rw [List.flatten_append, List.flatten_singleton]
    exact hagrees.reads hdlg hr

/-- **The codec does not depend on how the stream is cut into reads**: after every read, the messages delivered, the
verdict and the unconsumed bytes are those of the reference parser run once over everything received. As long as the
verdict is 0 every further read can be served, and every call terminates. -/
theorem reads_agree (hlen : 4 ≤ codec.headerLen)
    (hdlg : ∀ seen, codec.delegate seen = 0 ∨ codec.delegate seen = -1) {n : ℕ} {chunks : List (List UInt8)}
    {s : State} (h : Run codec.Reads ⟨0, [], .new n⟩ chunks s) :
    (s.seen, s.ret, s.data.readable) = codec.reference hlen chunks.flatten ∧
    (s.ret = 0 → ∀ chunk, ∃ s', codec.Reads s chunk s') ∧
    ∀ chunk b, s.data.Appends chunk b → ∃ s', ∀ fuel, b.readableBytes < fuel →
      codec.onDataReceived fuel s.seen b = some (.ok s') := by
  have hagrees := agrees_of_run hlen hdlg h
  have hcall : ∀ chunk b, s.data.Appends chunk b → ∃ s', ∀ fuel, b.readableBytes < fuel →
      codec.onDataReceived fuel s.seen b = some (.ok s') := by
    intro chunk b ha
    obtain ⟨out, hout, -⟩ := onDataReceived_spec hlen hdlg s.seen (ha.spec hagrees.ok).ok
    exact ⟨out, hout⟩
  refine ⟨?_, ?_, hcall⟩
  · rw [reference, hagrees.parsed]
    rcases hagrees.verdict with h0 | h1
    · rw [h0]; rfl
    · rw [h1]; rfl
  · intro h0 chunk
    obtain ⟨b, hw, -⟩ := IOBuffer.write_spec hagrees.ok chunk
    obtain ⟨s', hs'⟩ := hcall chunk b (.inl hw)
    exact ⟨s', h0, b, _, .inl hw, hs' _ (Nat.lt_succ_self _)⟩

/-- One message of two bytes, cut in the middle of its body, and a part of the next header. -/
theorem reads_agree_run : ∃ s : State,
    Run (Reads ⟨fun _ => 0, 4⟩) ⟨0, [], .new 64⟩ [[0, 0, 0, 2, 7], [8, 0, 0]] s ∧
    (s.seen, s.ret, s.data.readable) = ([[7, 8]], 0, [0, 0]) := by
  let codec : LengthHeaderCodec := ⟨fun _ => 0, 4⟩
  have hdlg : ∀ seen, codec.delegate seen = 0 ∨ codec.delegate seen = -1 := fun _ => .inl rfl
  have hnil : Run codec.Reads ⟨0, [], .new 64⟩ [] ⟨0, [], .new 64⟩ := .nil
  obtain ⟨s₁, h₁⟩ := (reads_agree (Nat.le_refl 4) hdlg hnil).2.1 rfl [0, 0, 0, 2, 7]
  have href : codec.reference (Nat.le_refl 4) [0, 0, 0, 2, 7] = ([], 0, [0, 0, 0, 2, 7]) := by decide +kernel
  have hret : s₁.ret = 0 := congrArg (fun o => o.2.1) ((reads_agree (Nat.le_refl 4) hdlg (hnil.snoc h₁)).1.trans href)
  obtain ⟨s₂, h₂⟩ := (reads_agree (Nat.le_refl 4) hdlg (hnil.snoc h₁)).2.1 hret [8, 0, 0]
  have href' : codec.reference (Nat.le_refl 4) [0, 0, 0, 2, 7, 8, 0, 0] = ([[7, 8]], 0, [0, 0]) := by decide +kernel
  have hrun := (hnil.snoc h₁).snoc h₂
  exact ⟨s₂, hrun, (reads_agree (Nat.le_refl 4) hdlg hrun).1.trans href'⟩

end LengthHeaderCodec

end Zutils.Net
