import Zutils.Base.ByteStreamUnwritten
import Zutils.Net.Codec.BodyRoundTrip

/-!
# Reads of streams and packet streams

Any operations on a stream of any of the three kinds: over a buffer, over one that grows, and over the block of a
packet. What they lead to is backed, so that a read keeps to the rule exactly where `ReadsWithin` says
(`reads_written_iff`). The block of a packet may have 8 bytes more than `max_len_` says, and the sum of the size and the
header may wrap; then the block has no bytes, and no write to it returns.
-/

namespace Zutils.Net

open Zutils.Lib Zutils.ByteStream

namespace OutPacketStream

variable {s s' : ByteStream} {heap : Heap} {newLen : UInt32} {p : Bool}

/-- The stream of a packet: what has been written is in the block, and ends 8 bytes behind `max_len_` or before. -/
structure Blocked (s : ByteStream) : Prop where
  written : 0 < s.dataLen.toNat → s.offset + s.dataLen.toNat ≤ (s.block.getD []).length
  dvd : 8 ∣ s.maxLen.toNat
  len : s.dataLen.toNat ≤ s.maxLen.toNat + 8

lemma alloc_cases (hf : s.failed = false) (hgt : s.maxLen < newLen) (h : alloc heap s newLen = .ok (p, s')) :
    ∃ size block, growLoop 8 newLen s.maxLen = .ok size ∧ block.length = (size + 8).toNat ∧ p = true ∧
      s' = { s with block := some block, offset := 8, maxLen := size - 8 } := by
  rw [alloc, if_neg (by simp [hf]), if_pos hgt] at h
  obtain ⟨size, hgrow, h⟩ := bind_eq_ok.1 h
  rcases hr : heap.realloc s.block (size + Packet.kPacketHeaderSize).toNat with _ | block
  · rw [hr] at h
    cases h
  · rw [hr] at h
    obtain ⟨rfl, rfl⟩ := Prod.mk.inj (Except.ok.inj h)
    exact ⟨size, block, hgrow, realloc_length hr, rfl, rfl⟩

lemma sizes_of_grow (hdvd : 8 ∣ s.maxLen.toNat) (hgt : s.maxLen < newLen) {size : UInt32}
    (hgrow : growLoop 8 newLen s.maxLen = .ok size) : newLen.toNat ≤ size.toNat ∧
      s.maxLen.toNat + 8 ≤ size.toNat ∧ size.toNat < newLen.toNat + 8 ∧ 8 ∣ size.toNat ∧
      (size - 8).toNat + 8 = size.toNat := by
  obtain ⟨hle, hmin, hmax, hdvd'⟩ :=
    growLoop_of_ok 8 (Nat.dvd_of_mod_eq_zero rfl) (by decide) hdvd hgt hgrow
  have height : (8 : UInt32).toNat = 8 := rfl
  rw [height] at hmin hmax hdvd'
  refine ⟨hle, hmin, hmax, hdvd', ?_⟩
  rw [UInt32.toNat_sub_of_le _ _ (UInt32.le_iff_toNat_le.2 (by rw [height]; omega)), height]
  omega

/-- What there is when `Alloc` and the `memcpy` behind it return. Since there was something to store, the size of the
block has not wrapped. -/
lemma alloc_put_cases {data : List UInt8} {n : UInt32} {ok : Bool} {s₁ : ByteStream} (hf : s.failed = false)
    (hdvd : 8 ∣ s.maxLen.toNat) (hgt : s.maxLen < newLen) (halloc : alloc heap s newLen = .ok (p, s₁))
    (hput : s₁.putRawData data n = .ok (ok, s')) :
    ∃ block maxLen, s₁ = { s with block := some block, offset := 8, maxLen := maxLen } ∧
      block.length = maxLen.toNat + 16 ∧ block.length < 2 ^ 32 ∧ 8 + s.currentPos.toNat + n.toNat ≤ block.length ∧
      newLen.toNat ≤ maxLen.toNat + 8 ∧ s.maxLen.toNat ≤ maxLen.toNat ∧ maxLen.toNat < newLen.toNat ∧
      8 ∣ maxLen.toNat := by
  obtain ⟨size, block, hgrow, hblock, -, rfl⟩ := alloc_cases hf hgt halloc
  obtain ⟨hle, hmin, hmax, hdvd', hsub⟩ := sizes_of_grow hdvd hgt hgrow
  obtain ⟨-, hfit, -⟩ := putRawData_of_ok hput
  have hfit : 8 + s.currentPos.toNat + n.toNat ≤ block.length := hfit
  have height : (8 : UInt32).toNat = 8 := rfl
  have hadd : block.length = size.toNat + 8 := by
    rw [hblock, UInt32.toNat_add, height] at hfit ⊢
    have := size.toNat_lt
    omega
  have hlt : block.length < 2 ^ 32 := by
    rw [hblock]
    exact UInt32.toNat_lt _
  exact ⟨block, size - 8, rfl, by omega, hlt, hfit, by omega, by omega, by omega, by omega⟩

lemma Blocked.put {data : List UInt8} {n : UInt32} {ok : Bool} (hs : Blocked s)
    (hput : s.putRawData data n = .ok (ok, s')) (hle : (s.currentPos + n).toNat ≤ s.maxLen.toNat + 8) : Blocked s' := by
  obtain ⟨-, hfit, rfl⟩ := putRawData_of_ok hput
  have htake := List.length_take_le n.toNat data
  have hlen := hs.len
  have hwritten := hs.written
  have hsum : (s.currentPos + n).toNat ≤ s.currentPos.toNat + n.toNat := by
    rw [UInt32.toNat_add]
    exact Nat.mod_le _ _
  refine ⟨fun hpos => ?_, hs.dvd, ?_⟩
  · have hpos : 0 < UInt32.toNat (if s.dataLen < s.currentPos + n then s.currentPos + n else s.dataLen) := hpos
    show s.offset + UInt32.toNat (if s.dataLen < s.currentPos + n then s.currentPos + n else s.dataLen) ≤
      (patch _ _ _).length
    rw [toNat_ite_max] at hpos ⊢
    rw [patch_length_of_le (by omega)]
    omega
  · show UInt32.toNat (if s.dataLen < s.currentPos + n then s.currentPos + n else s.dataLen) ≤ s.maxLen.toNat + 8
    rw [toNat_ite_max]
    omega

lemma Blocked.moves (hs : Blocked s) (h : Moves s s') : Blocked s' := by
  obtain ⟨pos, failed, rfl, -⟩ := h
  exact ⟨hs.written, hs.dvd, hs.len⟩

lemma Blocked.backed (hs : Blocked s) : Backed s := fun _ => hs.written

/-- **A write that returns** has found its bytes in the block. -/
lemma Blocked.write {data : List UInt8} {n : UInt32} {ok : Bool} (hs : Blocked s)
    (h : s.writeRawData (alloc heap) data n = .ok (ok, s')) : Blocked s' := by
  rcases writeRawData_cases h with rfl | ⟨-, -, hrej, hput⟩ | ⟨p, s₁, hf, -, hrej, -, halloc, hput⟩
  · exact hs
  · unfold Rejects at hrej
    rw [gt_iff_lt, UInt32.lt_iff_toNat_lt] at hrej
    exact hs.put hput (by omega)
  · rcases hput with ⟨-, hput⟩ | ⟨hp, -⟩
    swap
    · obtain ⟨-, -, -, -, htrue, -⟩ := alloc_cases hf hrej halloc
      rw [hp] at htrue
      cases htrue
    obtain ⟨block, maxLen, rfl, hsize, -, -, hroom, hle, -, hdvd⟩ := alloc_put_cases hf hs.dvd hrej halloc hput
    have hlen := hs.len
    refine Blocked.put (s := { s with block := some block, offset := 8, maxLen := maxLen }) ⟨fun _ => ?_, hdvd, ?_⟩
      hput hroom
    · show 8 + s.dataLen.toNat ≤ block.length
      omega
    · show s.dataLen.toNat ≤ maxLen.toNat + 8
      omega

lemma blocked_of_alloc (hs : Blocked s) (h0 : s.dataLen = 0) (hf : s.failed = false)
    (h : alloc heap s newLen = .ok (p, s')) : Blocked s' := by
  by_cases hgt : s.maxLen < newLen
  · obtain ⟨size, block, hgrow, -, rfl, rfl⟩ := alloc_cases hf hgt h
    obtain ⟨-, -, -, hdvd, hsub⟩ := sizes_of_grow hs.dvd hgt hgrow
    refine ⟨fun hpos => ?_, ?_, ?_⟩
    · have hpos : 0 < s.dataLen.toNat := hpos
      rw [h0] at hpos
      cases hpos
    · show 8 ∣ (size - 8).toNat
      omega
    · show s.dataLen.toNat ≤ (size - 8).toNat + 8
      rw [h0, UInt32.toNat_zero]
      omega
  · rw [alloc_of_le hf (UInt32.not_lt.1 hgt)] at h
    obtain ⟨-, rfl⟩ := Prod.mk.inj (Except.ok.inj h)
    exact hs

lemma blocked_start : Blocked ByteStream.new := ⟨fun h => (by cases h), Nat.dvd_zero 8, Nat.zero_le _⟩

end OutPacketStream

/-! ### Runs -/

/-- The streams there are at first, and their `Alloc`: over a buffer of somebody else's, over one that grows, and over
the block of a packet, of either constructor. -/
inductive Starts : (Heap → Alloc) → ByteStream → Prop
  | ofBuffer (bytes : List UInt8) (hlen : bytes.length < 2 ^ 32) :
      Starts ByteStream.alloc (.ofBuffer (some bytes) 0 (UInt32.ofNat bytes.length))
  | new : Starts ByteStream.alloc .new
  | packet {heap : Heap} {cmdType : UInt16} {out : OutPacketStream} (h : OutPacketStream.new heap cmdType = .ok out) :
      Starts OutPacketStream.alloc out.toByteStream
  | packetWithLen {heap : Heap} {cmdType : UInt16} {dataLen : UInt32} {out : OutPacketStream}
      (h : OutPacketStream.newWithLen heap cmdType dataLen = .ok out) : Starts OutPacketStream.alloc out.toByteStream

section Runs

variable {alloc : Heap → Alloc} {s₀ s : ByteStream} {ops : List (Heap × StreamOp)}

lemma backed_of_sound (hs : Sound s) : Backed s := by
  intro hb _
  rcases hs with hs | ⟨hs, -⟩
  · rw [hs.len]
    exact hs.size
  · have hsize : (s.block.getD []).length = s.maxLen.toNat := hs.size hb
    have hlen := hs.len
    rw [hs.offset, hsize]
    omega

/-- **What has been written is in the block**, after any operations on any stream. -/
theorem backed_of_run (h₀ : Starts alloc s₀) (h : Run (Operates alloc) s₀ ops s) : Backed s := by
  have hpacket : ∀ {s₀ s ops}, OutPacketStream.Blocked s₀ → Run (Operates OutPacketStream.alloc) s₀ ops s → Backed s :=
    fun h₀ h => OutPacketStream.Blocked.backed (h.inv (P := fun _ s => OutPacketStream.Blocked s) h₀
      fun _ _ _ _ hs hstep => exec_keeps (fun _ _ _ _ _ hs h => hs.write h) (fun _ _ hs h => hs.moves h) hs hstep)
  cases h₀ with
  | ofBuffer bytes hlen => exact backed_of_sound (sound_of_run (.inl (fixed_ofBuffer hlen)) h)
  | new => exact backed_of_sound (sound_of_run sound_new h)
  | packet hnew =>
    obtain ⟨⟨p, s₁⟩, halloc, hout⟩ := bind_eq_ok.1 hnew
    obtain rfl := Except.ok.inj hout
    exact hpacket (OutPacketStream.blocked_of_alloc OutPacketStream.blocked_start rfl rfl halloc) h
  | packetWithLen hnew =>
    obtain ⟨⟨p, s₁⟩, halloc, hout⟩ := bind_eq_ok.1 hnew
    obtain rfl := Except.ok.inj hout
    exact hpacket (OutPacketStream.blocked_of_alloc OutPacketStream.blocked_start rfl rfl halloc) h

/-- **A read returns only what has been written exactly where `ReadsWithin` says**, after any operations on any
stream. -/
theorem reads_written_iff (h₀ : Starts alloc s₀) (h : Run (Operates alloc) s₀ ops s) (call : ReadCall) :
    s.ReadsOnlyWritten call ↔ s.ReadsWithin call :=
  readsOnlyWritten_iff (backed_of_run h₀ h) call

/-- The second of two bytes that have been written, after a `Skip` over the first. -/
theorem reads_written_iff_two :
    let s₀ : ByteStream := .ofBuffer (some [1, 2]) 0 2
    Starts ByteStream.alloc s₀ ∧
      Run (Operates ByteStream.alloc) s₀ [(fun _ _ => none, .read (.skip 1))] (s₀.skip 1).2 ∧
      ((s₀.skip 1).2.ReadsOnlyWritten (.extract .uint8) ↔ (s₀.skip 1).2.ReadsWithin (.extract .uint8)) := by
  have hstart : Starts ByteStream.alloc (.ofBuffer (some [1, 2]) 0 2) := .ofBuffer [1, 2] (by decide)
  have hrun : Run (Operates ByteStream.alloc) (.ofBuffer (some [1, 2]) 0 2)
      [(fun _ _ => none, .read (.skip 1))] (ByteStream.skip (.ofBuffer (some [1, 2]) 0 2) 1).2 :=
    Run.nil.snoc rfl
  exact ⟨hstart, hrun, reads_written_iff hstart hrun (.extract .uint8)⟩

/-- A stream for packets of 16 bytes, to which nothing has been written, gives a byte of the memory that it got. -/
theorem unwritten_byte_read :
    let heap : Heap := fun _ _ => some fun _ => 0xCD
    ∃ out s, OutPacketStream.newWithLen heap 5 16 = .ok out ∧ out.length = 0 ∧
      out.extract ⟨.uint8, (7 : UInt8)⟩ = .ok (⟨.uint8, (0xCD : UInt8)⟩, s) ∧ s.fail = false ∧
      ¬ out.toByteStream.ReadsOnlyWritten (.extract .uint8) := by
  refine ⟨_, _, rfl, rfl, rfl, rfl, fun h => ?_⟩
  obtain ⟨v, s', hread, hno⟩ := h (7 : UInt8)
  obtain ⟨-, hfail⟩ := hno (by unfold WithinLength wanted; decide)
  obtain ⟨-, rfl⟩ := Prod.mk.inj (Except.ok.inj hread)
  cases hfail

end Runs

end Zutils.Net
