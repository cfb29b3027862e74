import Zutils.Net.IoHandler
import Zutils.Net.IoBufferSpec

/-!
# What `SendInternal` and `OnWrite` do to the stream

The stream of a connection is what the kernel has taken followed by the content of `write_buf_`. `SendInternal`
appends its data to the stream and `OnWrite` leaves the stream alone: each has one lemma of the form
`out ++ (new content) = (old content) ++ …`, where `out` is what the kernel took in the call. The hypotheses are
exactly what the integer conversions ask: a `send` of `SendInternal` that did not fail, and a result of the `send`
in `OnWrite` that is an `int`.
-/

namespace Zutils.Net

namespace Mem

variable {p : Mem}

@[simp] lemma bytes_length {off n : ℕ} : (p.bytes off n).length = n := by simp [bytes]

@[simp] lemma bytes_zero {off : ℕ} : p.bytes off 0 = [] := rfl

lemma bytes_append {k n : ℕ} (h : k ≤ n) : p.bytes 0 k ++ p.bytes k (n - k) = p.bytes 0 n := by
  have : List.range' 0 k ++ List.range' (0 + 1 * k) (n - k) = List.range' 0 (k + (n - k)) := List.range'_append
  simp only [Nat.one_mul, Nat.zero_add, Nat.add_sub_cancel' h] at this
  rw [bytes, bytes, ← List.map_append, this, bytes]

lemma bytes_ofList (data : List UInt8) : (ofList data).bytes 0 data.length = data := by
  apply List.ext_getElem
  · simp
  · intro i h1 h2
    simp only [bytes, ofList, List.getElem_map, List.getElem_range']
    simp [List.getD_eq_getElem?_getD, h2]

end Mem

namespace IOHandler

variable {h : IOHandler} {data : Mem} {dataLen : UInt32} {r : SendResult} {dcheckIsOn : Bool}

lemma readable_of_sendsDirectly (hok : h.writeBuf.Ok) (hd : h.sendsDirectly = true) :
    h.writeBuf.readable = [] := by
  simp only [sendsDirectly, Bool.and_eq_true, decide_eq_true_eq] at hd
  exact List.eq_nil_of_length_eq_zero (hok.readable_length.trans hd.2)

lemma afterSend_accepted {n : ℕ} (hd : h.sendsDirectly = true) (hn : n ≤ dataLen.toNat) :
    h.afterSend dataLen (.accepted n) = (UInt32.ofNat n, dataLen.toNat - n, false) := by
  have hlt : n < 2 ^ 32 := Nat.lt_of_le_of_lt hn dataLen.toNat_lt
  have hof : UInt32.ofInt (SendResult.accepted n).ret = UInt32.ofNat n := by
    have hmod : ((n : ℤ) % 2 ^ 32).toNat = n := by omega
    rw [SendResult.ret, UInt32.ofInt, hmod]
  have hto : (UInt32.ofNat n).toNat = n := UInt32.toNat_ofNat_of_lt' hlt
  have hsub : (dataLen - UInt32.ofNat n).toNat = dataLen.toNat - n := by
    rw [UInt32.toNat_sub_of_le _ _ (by rw [UInt32.le_iff_toNat_le, hto]; exact hn), hto]
  simp only [afterSend, hd, hof, if_true, UInt32.zero_le, hsub]

/-- After a failed `send`, `nwrote` is `2 ^ 32 - 1` and `remaining` one more than the length, as a `uint32`. -/
lemma afterSend_failed {e : Errno} (hd : h.sendsDirectly = true) :
    h.afterSend dataLen (.failed e) = (4294967295, (dataLen + 1).toNat, false) := by
  have hof : UInt32.ofInt (SendResult.failed e).ret = 4294967295 := rfl
  have hsub : dataLen - 4294967295 = dataLen + 1 := by
    apply UInt32.toNat_inj.1
    rw [UInt32.toNat_sub, UInt32.toNat_add]
    simp only [UInt32.reduceToNat]
    omega
  simp only [afterSend, hd, hof, if_true, UInt32.zero_le, hsub]

/-- What the kernel took and what remains are the data, whether `SendInternal` called `send` or not. -/
lemma afterSend_spec (data : Mem) (hok : h.writeBuf.Ok)
    (hr : h.sendsDirectly = true → ∃ n, r = .accepted n ∧ n ≤ dataLen.toNat) :
    ∃ nwrote : UInt32, h.afterSend dataLen r = (nwrote, dataLen.toNat - nwrote.toNat, false) ∧
      nwrote.toNat ≤ dataLen.toNat ∧
      (if h.sendsDirectly then data.bytes 0 r.taken else []) = data.bytes 0 nwrote.toNat ∧
      data.bytes 0 nwrote.toNat ++ h.writeBuf.readable = h.writeBuf.readable ++ data.bytes 0 nwrote.toNat := by
  by_cases hd : h.sendsDirectly = true
  · obtain ⟨n, rfl, hn⟩ := hr hd
    have hto : (UInt32.ofNat n).toNat = n := by
      simpa using Nat.lt_of_le_of_lt hn dataLen.toNat_lt
    refine ⟨UInt32.ofNat n, by rw [afterSend_accepted hd hn, hto], by rw [hto]; exact hn, ?_, ?_⟩
    · rw [if_pos hd, hto]; rfl
    · rw [readable_of_sendsDirectly hok hd, List.append_nil, List.nil_append]
  · exact ⟨0, by simp [afterSend, hd], Nat.zero_le _, by simp [hd], by simp⟩

/-- **`SendInternal` appends its data to the stream**, if its own `send` does not fail. -/
theorem sendInternal_spec (dcheckIsOn : Bool) (data : Mem) (hok : h.writeBuf.Ok)
    (hr : h.sendsDirectly = true → ∃ n, r = .accepted n ∧ n ≤ dataLen.toNat) :
    ∃ h' out, h.sendInternal dcheckIsOn data dataLen r = .ok (h', out) ∧ h'.writeBuf.Ok ∧
      out ++ h'.writeBuf.readable = h.writeBuf.readable ++ data.bytes 0 dataLen.toNat := by
  obtain ⟨nwrote, hafter, hle, hout, hcomm⟩ := afterSend_spec data hok hr
  have hcheck : dcheckIsOn = true → dataLen.toNat - nwrote.toNat ≤ dataLen.toNat := fun _ => Nat.sub_le _ _
  simp only [sendInternal, hafter, dcheck_true hcheck, ok_bind, hout, Bool.not_false, Bool.true_and,
    decide_eq_true_eq]
  by_cases hrem : 0 < dataLen.toNat - nwrote.toNat
  · obtain ⟨b', hw, e⟩ := IOBuffer.write_spec hok (data.bytes nwrote.toNat (dataLen.toNat - nwrote.toNat))
    refine ⟨_, _, by rw [if_pos hrem, hw]; rfl, e.ok, ?_⟩
    rw [e.queue, ← List.append_assoc, hcomm, List.append_assoc, Mem.bytes_append hle]
  · have hall : nwrote.toNat = dataLen.toNat := by omega
    refine ⟨_, _, by rw [if_neg hrem]; rfl, hok, ?_⟩
    rw [hcomm, hall]

/-- A `send` of `SendInternal` that fails goes unnoticed: the check on `remaining` fails, except for a length of
`2 ^ 32 - 1`, where nothing remains and nothing is kept. -/
lemma sendInternal_failed (data : Mem) {e : Errno} (hd : h.sendsDirectly = true) :
    h.sendInternal true data dataLen (.failed e) =
      if dataLen.toNat = 2 ^ 32 - 1 then .ok (h, []) else .error .dcheck := by
  have hlt := dataLen.toNat_lt
  have hrem : (dataLen + 1).toNat = (dataLen.toNat + 1) % 2 ^ 32 := UInt32.toNat_add _ _
  simp only [sendInternal, afterSend_failed hd, hrem, hd, if_true, SendResult.taken, Mem.bytes_zero]
  by_cases hmax : dataLen.toNat = 2 ^ 32 - 1
  · have h0 : (dataLen.toNat + 1) % 2 ^ 32 = 0 := by omega
    rw [h0, dcheck_true (fun _ => Nat.zero_le _), if_pos hmax]
    rfl
  · rw [dcheck_false (by simp; omega), if_neg hmax]
    rfl

/-- **`OnWrite` keeps the stream**, if the result of its `send` is an `int`; a `send` that fails changes nothing. -/
theorem onWrite_spec (hok : h.writeBuf.Ok) (hr : h.isWriting = true → r.Within h.writeBuf.readableBytes)
    (hint : h.isWriting = true → r.taken < 2 ^ 31) :
    ∃ h' out, h.onWrite r = .ok (h', out) ∧ h'.writeBuf.Ok ∧
      out ++ h'.writeBuf.readable = h.writeBuf.readable ∧ (r.taken = 0 → h' = h) := by
  by_cases hw : h.isWriting = true
  · have htake : h.writeBuf.peek r.taken = h.writeBuf.readable.take r.taken := by
      rw [IOBuffer.readable, IOBuffer.peek, IOBuffer.peek, List.take_take, Nat.min_eq_left (hr hw)]
    rcases r with n | e
    · have hlt : n < 2 ^ 31 := hint hw
      have hn : (n : ℤ).bmod (2 ^ 32) = n := Int.bmod_eq_of_le (by omega) (by omega)
      by_cases hpos : 0 < n
      · obtain ⟨b', hb, e⟩ := IOBuffer.retrieve_spec hok (hr hw)
        have hstream : h.writeBuf.peek n ++ b'.readable = h.writeBuf.readable := by
          rw [e.queue, show h.writeBuf.peek n = _ from htake, SendResult.taken, List.take_append_drop]
        have hpos' : (0 : ℤ) < n := by omega
        have hb' : h.writeBuf.retrieve ((n : ℤ)).toNat = .ok b' := hb
        simp only [onWrite, hw, if_true, SendResult.ret, SendResult.taken, hn, if_pos hpos', hb', ok_bind]
        by_cases h0 : b'.readableBytes = 0
        · exact ⟨_, _, by rw [if_pos h0]; rfl, e.ok, hstream, by omega⟩
        · exact ⟨_, _, by rw [if_neg h0]; rfl, e.ok, hstream, by omega⟩
      · have h0 : n = 0 := by omega
        subst h0
        exact ⟨h, [], by simp [onWrite, hw, SendResult.ret, SendResult.taken, IOBuffer.peek, pure, Except.pure],
          hok, rfl, fun _ => rfl⟩
    · exact ⟨h, [], by simp [onWrite, hw, SendResult.ret, SendResult.taken, IOBuffer.peek, pure, Except.pure],
        hok, rfl, fun _ => rfl⟩
  · exact ⟨h, [], by simp [onWrite, hw, pure, Except.pure], hok, rfl, fun _ => rfl⟩

end IOHandler

end Zutils.Net
