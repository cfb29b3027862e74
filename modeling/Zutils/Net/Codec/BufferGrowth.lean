import Zutils.Base.ByteStreamAtomic
import Zutils.Net.Codec.PacketReads

/-!
# How buffers grow

`Alloc` of a byte stream goes up in steps of 4096, and that of a packet stream in steps of 8. The size wraps. For a length above
the last multiple of the step the loop does not end; and a packet stream asks for 8 bytes more than the size, and for none at
all when that sum wraps.

`growth_iff` says for which lengths a call of `Alloc` is as it should be (`Suffices`), after any operations and calls of
`Alloc` before it, and with any memory.
-/

namespace Zutils.Net

open Zutils.Lib Zutils.ByteStream

/-- The streams that allocate their buffers. -/
inductive BufferKind where
  | byteStream
  | outPacketStream
  deriving DecidableEq, Repr

namespace BufferKind

/-- The `Alloc` of the class. -/
def alloc : BufferKind → Heap → Alloc
  | byteStream => ByteStream.alloc
  | outPacketStream => OutPacketStream.alloc

/-- The bytes in front of `buffer_`. -/
def reserve : BufferKind → ℕ
  | byteStream => 0
  | outPacketStream => Packet.kPacketHeaderSize.toNat

end BufferKind

/-- What is done to a stream, a call of `Alloc` included. -/
inductive GrowthOp where
  | stream (op : StreamOp)
  | alloc (newLen : UInt32)

/-- An operation with the memory that it meets, which may be refused. -/
def Grows (kind : BufferKind) (s : ByteStream) : Heap × GrowthOp → ByteStream → Prop
  | (heap, .stream op), s' => op.exec (kind.alloc heap) s = .ok s'
  | (heap, .alloc newLen), s' => ∃ p, kind.alloc heap s newLen = .ok (p, s')

/-- **`Alloc(new_len)` as it should be**: it ends, and the block that it returns holds `new_len` bytes behind the header;
`max_len_` of a byte stream is not less. -/
structure Suffices (kind : BufferKind) (heap : Heap) (s : ByteStream) (newLen : UInt32) : Prop where
  ends : kind.alloc heap s newLen ≠ .error .diverges
  holds : ∀ s', kind.alloc heap s newLen = .ok (true, s') → kind.reserve + newLen.toNat ≤ s'.size
  max : kind = .byteStream → ∀ s', kind.alloc heap s newLen = .ok (true, s') → newLen ≤ s'.maxLen

/-- Where it is: the stream has failed; or, of a byte stream, the length is not above the last multiple of 4096. Of a packet
stream, the header can be added to the next multiple of 8, and could be before; or their sum wraps, and there is no block for
it. -/
def Grants (kind : BufferKind) (heap : Heap) (s : ByteStream) (newLen : UInt32) : Prop :=
  s.failed = true ∨
  match kind with
  | .byteStream => newLen.toNat ≤ 2 ^ 32 - 4096
  | .outPacketStream =>
    newLen.toNat ≤ 2 ^ 32 - 16 ∧ s.maxLen.toNat < 2 ^ 32 - 16 ∨
    2 ^ 32 - 16 < newLen.toNat ∧ newLen.toNat ≤ 2 ^ 32 - 8 ∧ heap s.block 0 = none

/-! ### What the operations keep -/

/-- The block is of the same size. -/
structure SameBlock (s s' : ByteStream) : Prop where
  isNew : s'.isNew = s.isNew
  max : s'.maxLen = s.maxLen
  size : s'.size = s.size
  block : s'.block.isSome = s.block.isSome

section Keeps

variable {kind : BufferKind} {inv : ByteStream → Prop} {s s' : ByteStream} {data : List UInt8} {n : UInt32} {ok : Bool}

lemma sameBlock_of_moves (h : Moves s s') : SameBlock s s' := by
  obtain ⟨pos, failed, rfl, -⟩ := h
  exact ⟨rfl, rfl, rfl, rfl⟩

lemma sameBlock_of_put (h0 : n ≠ 0) (h : s.putRawData data n = .ok (ok, s')) : SameBlock s s' := by
  obtain ⟨-, hfit, rfl⟩ := putRawData_of_ok h
  have hn := toNat_pos h0
  have htake := List.length_take_le n.toNat data
  refine ⟨rfl, rfl, patch_length_of_le (by omega), ?_⟩
  cases hb : s.block with
  | none =>
    rw [hb, Option.getD_none, List.length_nil] at hfit
    omega
  | some block => rfl

/-- **A property that `Alloc` keeps**, and that does not change with the contents, is kept by every operation. -/
lemma grows_keeps {op : Heap × GrowthOp}
    (halloc : ∀ heap s newLen p s', inv s → kind.alloc heap s newLen = .ok (p, s') → inv s')
    (hsame : ∀ s s', inv s → SameBlock s s' → inv s') (hs : inv s) (h : Grows kind s op s') : inv s' := by
  obtain ⟨heap, op | newLen⟩ := op
  · refine exec_keeps (fun s s' data n ok hs h => ?_) (fun s s' hs h => hsame s s' hs (sameBlock_of_moves h)) hs h
    rcases writeRawData_cases h with rfl | ⟨-, h0, -, hput⟩ | ⟨p, s₁, -, h0, -, -, hcall, ⟨-, hput⟩ | ⟨-, rfl⟩⟩
    · exact hs
    · exact hsame _ _ hs (sameBlock_of_put h0 hput)
    · exact hsame _ _ (halloc _ _ _ _ _ hs hcall) (sameBlock_of_put h0 hput)
    · exact halloc _ _ _ _ _ hs hcall
  · obtain ⟨p, h⟩ := h
    exact halloc _ _ _ _ _ hs h

end Keeps

section Calls

variable {kind : BufferKind} {heap : Heap} {s s' : ByteStream} {newLen : UInt32} {p : Bool} {e : StreamFault}

lemma suffices_of_ok (h : kind.alloc heap s newLen = .ok (p, s')) : Suffices kind heap s newLen ↔
    (p = true → kind.reserve + newLen.toNat ≤ s'.size ∧ (kind = .byteStream → newLen ≤ s'.maxLen)) := by
  constructor
  · rintro hs rfl
    exact ⟨hs.holds s' h, fun hkind => hs.max hkind s' h⟩
  · intro hs
    refine ⟨by rw [h]; simp, fun s'' h'' => ?_, fun hkind s'' h'' => ?_⟩
    all_goals obtain ⟨rfl, rfl⟩ := Prod.mk.inj (Except.ok.inj (h.symm.trans h''))
    · exact (hs rfl).1
    · exact (hs rfl).2 hkind

lemma suffices_of_error (h : kind.alloc heap s newLen = .error e) : Suffices kind heap s newLen ↔ e ≠ .diverges := by
  constructor
  · rintro hs rfl
    exact hs.ends h
  · intro he
    refine ⟨?_, fun s' h' => ?_, fun _ s' h' => ?_⟩
    · rw [h]
      simpa using he
    · rw [h] at h'
      cases h'
    · rw [h] at h'
      cases h'

lemma suffices_of_failed (hf : s.failed = true) : Suffices kind heap s newLen := by
  have hcall : kind.alloc heap s newLen = .ok (false, s) := by
    cases kind with
    | byteStream => exact alloc_of_failed hf
    | outPacketStream => exact OutPacketStream.alloc_of_failed hf
  exact (suffices_of_ok hcall).2 fun h => by cases h

end Calls

/-! ### Byte streams -/

/-- What a byte stream has been grown to. -/
structure Grown (s : ByteStream) : Prop where
  isNew : s.isNew = true
  dvd : 4096 ∣ s.maxLen.toNat
  size : s.block.isSome = true → s.size = s.maxLen.toNat

section Bytes

variable {heap : Heap} {s s' : ByteStream} {newLen : UInt32} {p : Bool} {ops : List (Heap × GrowthOp)}

lemma Grown.same (hs : Grown s) (h : SameBlock s s') : Grown s' :=
  ⟨h.isNew.trans hs.isNew, by rw [h.max]; exact hs.dvd, fun hb => by rw [h.size, h.max, hs.size (h.block ▸ hb)]⟩

lemma Grown.le (hs : Grown s) : s.maxLen.toNat ≤ 2 ^ 32 - 4096 := by
  have hlt := s.maxLen.toNat_lt
  obtain ⟨k, hk⟩ := hs.dvd
  omega

lemma Grown.alloc (hs : Grown s) (h : ByteStream.alloc heap s newLen = .ok (p, s')) : Grown s' := by
  rcases hf : s.failed with _ | _
  swap
  · rw [alloc_of_failed hf] at h
    obtain ⟨-, rfl⟩ := Prod.mk.inj (Except.ok.inj h)
    exact hs
  by_cases hgt : s.maxLen < newLen
  · obtain ⟨size, hgrow, ⟨-, -, rfl⟩ | ⟨block, -, hr, rfl⟩⟩ := alloc_cases hf hs.isNew hgt h
    · exact ⟨hs.isNew, hs.dvd, fun hb => by cases hb⟩
    · obtain ⟨-, -, -, hdvd⟩ := growLoop_of_ok 4096 (Nat.dvd_of_mod_eq_zero rfl) (by decide) hs.dvd hgt hgrow
      exact ⟨hs.isNew, hdvd, fun _ => realloc_length hr⟩
  · rw [alloc_of_le hf hs.isNew (UInt32.not_lt.1 hgt)] at h
    obtain ⟨-, rfl⟩ := Prod.mk.inj (Except.ok.inj h)
    exact hs

/-- **A byte stream** can grow to the last multiple of 4096. -/
lemma Grown.suffices_iff (hs : Grown s) (hf : s.failed = false) :
    Suffices .byteStream heap s newLen ↔ newLen.toNat ≤ 2 ^ 32 - 4096 := by
  have hmax := hs.le
  have hstep : (4096 : UInt32).toNat = 4096 := rfl
  by_cases hgt : s.maxLen < newLen
  · obtain ⟨hdiverges, hends⟩ := growLoop_eq 4096 (Nat.dvd_of_mod_eq_zero rfl) (by decide) hs.dvd hgt
    by_cases hle : newLen.toNat ≤ 2 ^ 32 - 4096
    · obtain ⟨size, hgrow, hsize, -⟩ := hends (by omega)
      refine iff_of_true ?_ hle
      cases hr : heap.realloc s.block size.toNat with
      | none =>
        have hcall : BufferKind.byteStream.alloc heap s newLen = _ := alloc_of_refusal hf hs.isNew hgt hgrow hr
        exact (suffices_of_ok hcall).2 fun h => by cases h
      | some block =>
        have hcall : BufferKind.byteStream.alloc heap s newLen = _ := alloc_of_realloc hf hs.isNew hgt hgrow hr
        refine (suffices_of_ok hcall).2 fun _ => ⟨?_, fun _ => UInt32.le_iff_toNat_le.2 hsize⟩
        show 0 + newLen.toNat ≤ block.length
        rw [realloc_length hr]
        omega
    · have hcall : BufferKind.byteStream.alloc heap s newLen = _ :=
        alloc_of_diverges hf hs.isNew hgt (hdiverges (by omega))
      rw [suffices_of_error hcall]
      exact iff_of_false (fun h => h rfl) hle
  · have hle : newLen ≤ s.maxLen := UInt32.not_lt.1 hgt
    have hle' : newLen.toNat ≤ s.maxLen.toNat := hle
    have hcall : BufferKind.byteStream.alloc heap s newLen = .ok (s.block.isSome, s) := alloc_of_le hf hs.isNew hle
    refine iff_of_true ((suffices_of_ok hcall).2 fun hb => ⟨?_, fun _ => hle⟩) (by omega)
    show 0 + newLen.toNat ≤ s.size
    rw [hs.size hb]
    omega

lemma Grown.step {op : Heap × GrowthOp} (hs : Grown s) (h : Grows .byteStream s op s') : Grown s' := by
  refine grows_keeps ?_ (fun _ _ hs h => hs.same h) hs h
  exact fun heap s newLen p s' hs h => hs.alloc h

lemma grown_new : Grown .new := ⟨rfl, Nat.dvd_zero _, fun h => by cases h⟩

end Bytes

/-! ### Packet streams -/

namespace OutPacketStream

/-- What a packet stream has been grown to. The block has 16 bytes more than `max_len_` says, or none when that wraps. -/
structure Grown (s : ByteStream) : Prop where
  dvd : 8 ∣ s.maxLen.toNat
  le : s.maxLen.toNat ≤ 2 ^ 32 - 16
  size : s.block.isSome = true ∧ s.size = (s.maxLen + 16).toNat ∨ s.block.isSome = false ∧ s.maxLen = 0

variable {heap : Heap} {s s' : ByteStream} {newLen : UInt32} {p : Bool}

lemma Grown.same (hs : Grown s) (h : SameBlock s s') : Grown s' :=
  ⟨by rw [h.max]; exact hs.dvd, by rw [h.max]; exact hs.le, by rw [h.block, h.size, h.max]; exact hs.size⟩

lemma Grown.sizes (hs : Grown s) (hgt : s.maxLen < newLen) {size : UInt32} (hgrow : growLoop 8 newLen s.maxLen = .ok size) :
    newLen.toNat ≤ size.toNat ∧ size.toNat < newLen.toNat + 8 ∧ 8 ∣ size.toNat ∧ (size - 8).toNat + 8 = size.toNat ∧
      size - 8 + 16 = size + 8 := by
  obtain ⟨hle, -, hlt, hdvd, hsub⟩ := sizes_of_grow hs.dvd hgt hgrow
  exact ⟨hle, hlt, hdvd, hsub, by grind⟩

lemma Grown.alloc (hs : Grown s) (h : alloc heap s newLen = .ok (p, s')) : Grown s' := by
  rcases hf : s.failed with _ | _
  swap
  · rw [alloc_of_failed hf] at h
    obtain ⟨-, rfl⟩ := Prod.mk.inj (Except.ok.inj h)
    exact hs
  by_cases hgt : s.maxLen < newLen
  · obtain ⟨size, block, hgrow, hlength, -, rfl⟩ := alloc_cases hf hgt h
    obtain ⟨-, -, hdvd, hsub, hadd⟩ := hs.sizes hgt hgrow
    have hlt := size.toNat_lt
    refine ⟨?_, ?_, .inl ⟨rfl, ?_⟩⟩
    · show 8 ∣ (size - 8).toNat
      omega
    · show (size - 8).toNat ≤ 2 ^ 32 - 16
      omega
    · show block.length = (size - 8 + 16).toNat
      rw [hadd, hlength]
  · rw [alloc_of_le hf (UInt32.not_lt.1 hgt)] at h
    obtain ⟨-, rfl⟩ := Prod.mk.inj (Except.ok.inj h)
    exact hs

/-- The block when 16 bytes can be added to `max_len_`, and when they cannot. -/
lemma Grown.size_eq (hs : Grown s) (hb : s.block.isSome = true) :
    s.size = if s.maxLen.toNat < 2 ^ 32 - 16 then s.maxLen.toNat + 16 else 0 := by
  obtain ⟨-, hsize⟩ := hs.size.resolve_right fun h => by simp [h.1] at hb
  have hle := hs.le
  have hsixteen : (16 : UInt32).toNat = 16 := rfl
  rw [hsize, UInt32.toNat_add, hsixteen]
  split
  · exact Nat.mod_eq_of_lt (by omega)
  · rw [show s.maxLen.toNat + 16 = 2 ^ 32 by omega, Nat.mod_self]

lemma suffices_of_gt (hf : s.failed = false) (hs : Grown s) (hgt : s.maxLen < newLen) (hle : newLen.toNat ≤ 2 ^ 32 - 16) :
    Suffices .outPacketStream heap s newLen := by
  have hstep : (8 : UInt32).toNat = 8 := rfl
  obtain ⟨size, hgrow, -⟩ := (growLoop_eq 8 (Nat.dvd_of_mod_eq_zero rfl) (by decide) hs.dvd hgt).2 (by omega)
  obtain ⟨hsize, hlt, hdvd, -⟩ := hs.sizes hgt hgrow
  cases hr : heap.realloc s.block (size + 8).toNat with
  | none =>
    have hcall : BufferKind.outPacketStream.alloc heap s newLen = _ := alloc_of_refusal hf hgt hgrow hr
    rw [suffices_of_error hcall]
    simp
  | some block =>
    have hcall : BufferKind.outPacketStream.alloc heap s newLen = _ := alloc_of_realloc hf hgt hgrow hr
    refine (suffices_of_ok hcall).2 fun _ => ⟨?_, fun h => by cases h⟩
    show 8 + newLen.toNat ≤ block.length
    rw [realloc_length hr, toNat_add_of_lt (by omega), hstep]
    omega

/-- A request for which the sum of the size and the header wraps. -/
lemma suffices_of_wrap (hf : s.failed = false) (hs : Grown s) (hgt : 2 ^ 32 - 16 < newLen.toNat)
    (hle : newLen.toNat ≤ 2 ^ 32 - 8) : Suffices .outPacketStream heap s newLen ↔ heap s.block 0 = none := by
  have hstep : (8 : UInt32).toNat = 8 := rfl
  have hmax := hs.le
  have hlt : s.maxLen < newLen := UInt32.lt_iff_toNat_lt.2 (by omega)
  obtain ⟨size, hgrow, -⟩ := (growLoop_eq 8 (Nat.dvd_of_mod_eq_zero rfl) (by decide) hs.dvd hlt).2 (by omega)
  obtain ⟨hsize, -, hdvd, -⟩ := hs.sizes hlt hgrow
  have hwrap : (size + 8).toNat = 0 := by
    have := size.toNat_lt
    rw [UInt32.toNat_add, hstep, show size.toNat + 8 = 2 ^ 32 by omega, Nat.mod_self]
  cases hnone : heap s.block 0 with
  | none =>
    have hr : heap.realloc s.block (size + 8).toNat = none := by rw [hwrap, Heap.realloc, hnone]; rfl
    have hcall : BufferKind.outPacketStream.alloc heap s newLen = _ := alloc_of_refusal hf hlt hgrow hr
    rw [suffices_of_error hcall]
    simp
  | some fresh =>
    obtain ⟨block, hr⟩ : ∃ block, heap.realloc s.block (size + 8).toNat = some block := by
      rw [hwrap, Heap.realloc, hnone]
      exact ⟨_, rfl⟩
    have hcall : BufferKind.outPacketStream.alloc heap s newLen = _ := alloc_of_realloc hf hlt hgrow hr
    rw [suffices_of_ok hcall]
    refine iff_of_false (fun h => ?_) (by simp)
    have hfit : 8 + newLen.toNat ≤ block.length := (h rfl).1
    rw [realloc_length hr, hwrap] at hfit
    omega

/-- **A packet stream** can grow to the last multiple of 8 but one. For the last one no block is asked for, and when one of no
bytes has been given, every length is said to be there. -/
lemma Grown.suffices_iff (hs : Grown s) (hf : s.failed = false) : Suffices .outPacketStream heap s newLen ↔
    newLen.toNat ≤ 2 ^ 32 - 16 ∧ s.maxLen.toNat < 2 ^ 32 - 16 ∨
      2 ^ 32 - 16 < newLen.toNat ∧ newLen.toNat ≤ 2 ^ 32 - 8 ∧ heap s.block 0 = none := by
  have hmax := hs.le
  have hstep : (8 : UInt32).toNat = 8 := rfl
  by_cases hgt : s.maxLen < newLen
  · have hgt' : s.maxLen.toNat < newLen.toNat := hgt
    rcases Nat.lt_or_ge (2 ^ 32 - 8) newLen.toNat with hbig | hle
    · have hcall : BufferKind.outPacketStream.alloc heap s newLen = _ := alloc_of_diverges hf hgt
        ((growLoop_eq 8 (Nat.dvd_of_mod_eq_zero rfl) (by decide) hs.dvd hgt).1 (by omega))
      rw [suffices_of_error hcall]
      exact iff_of_false (fun h => h rfl) (by omega)
    · rcases Nat.lt_or_ge (2 ^ 32 - 16) newLen.toNat with hwrap | hfit
      · rw [suffices_of_wrap hf hs hwrap hle]
        constructor
        · exact fun h => .inr ⟨hwrap, hle, h⟩
        · rintro (⟨h, -⟩ | ⟨-, -, h⟩)
          · omega
          · exact h
      · exact iff_of_true (suffices_of_gt hf hs hgt hfit) (.inl ⟨hfit, by omega⟩)
  · have hle : newLen ≤ s.maxLen := UInt32.not_lt.1 hgt
    have hle' : newLen.toNat ≤ s.maxLen.toNat := hle
    have hcall : BufferKind.outPacketStream.alloc heap s newLen = .ok (s.block.isSome, s) := alloc_of_le hf hle
    rw [suffices_of_ok hcall]
    by_cases hlt : s.maxLen.toNat < 2 ^ 32 - 16
    · refine iff_of_true (fun hb => ⟨?_, fun h => by cases h⟩) (.inl ⟨by omega, hlt⟩)
      show 8 + newLen.toNat ≤ s.size
      rw [hs.size_eq hb, if_pos hlt]
      omega
    · have hb : s.block.isSome = true := by
        rcases hs.size with ⟨hb, -⟩ | ⟨-, hzero⟩
        · exact hb
        · rw [hzero] at hlt
          exact absurd (by decide) hlt
      refine iff_of_false (fun h => ?_) (by omega)
      have hfit : 8 + newLen.toNat ≤ s.size := (h hb).1
      rw [hs.size_eq hb, if_neg hlt] at hfit
      omega

lemma Grown.step {op : Heap × GrowthOp} (hs : Grown s) (h : Grows .outPacketStream s op s') : Grown s' := by
  refine grows_keeps ?_ (fun _ _ hs h => hs.same h) hs h
  exact fun heap s newLen p s' hs h => hs.alloc h

lemma grown_new : Grown .new := ⟨Nat.dvd_zero _, Nat.zero_le _, .inr ⟨rfl, rfl⟩⟩

end OutPacketStream

/-! ### Runs -/

section Runs

variable {kind : BufferKind} {s : ByteStream} {ops : List (Heap × GrowthOp)}

/-- **How far buffers grow**: after any operations and calls of `Alloc`, with any memory for each, `Alloc` ends and returns
enough exactly where `Grants` says. -/
theorem growth_iff (h : Run (Grows kind) .new ops s) (heap : Heap) (newLen : UInt32) :
    Suffices kind heap s newLen ↔ Grants kind heap s newLen := by
  rcases hf : s.failed with _ | _
  swap
  · exact iff_of_true (suffices_of_failed hf) (.inl hf)
  have hgrants : ∀ P : Prop, s.failed = true ∨ P ↔ P := fun P => or_iff_right (by simp [hf])
  cases kind with
  | byteStream =>
    have hs : Grown s := h.inv (P := fun _ s => Grown s) grown_new fun _ _ _ _ hs hstep => hs.step hstep
    exact (hs.suffices_iff hf).trans (hgrants _).symm
  | outPacketStream =>
    have hs : OutPacketStream.Grown s := h.inv (P := fun _ s => OutPacketStream.Grown s) OutPacketStream.grown_new
      fun _ _ _ _ hs hstep => hs.step hstep
    exact (hs.suffices_iff hf).trans (hgrants _).symm

/-- A packet stream for 16 bytes can be enlarged to 100. -/
theorem growth_iff_hundred : ∃ s, Run (Grows .outPacketStream) .new ([] ++ [(fun _ _ => some fun _ => 0xCD, .alloc 16)]) s ∧
    s.maxLen = 8 ∧ Suffices .outPacketStream noMemory s 100 := by
  obtain ⟨s, hstep, hmax⟩ : ∃ s, Grows .outPacketStream .new (fun _ _ => some fun _ => 0xCD, .alloc 16) s ∧ s.maxLen = 8 :=
    ⟨_, ⟨_, rfl⟩, rfl⟩
  have hrun := Run.nil.snoc hstep
  refine ⟨s, hrun, hmax, (growth_iff hrun noMemory 100).2 (.inr (.inl ⟨by decide, ?_⟩))⟩
  rw [hmax]
  decide

/-- `Alloc(4294967295)` on a new stream does not end, in either class. -/
lemma endless_of_new (kind : BufferKind) : kind.alloc noMemory .new 4294967295 = .error .diverges := by
  have hgt : ByteStream.new.maxLen < 4294967295 := by decide
  have hdvd : ∀ k, k ∣ ByteStream.new.maxLen.toNat := fun k => Nat.dvd_zero k
  cases kind with
  | byteStream =>
    have hgrow : growLoop 4096 4294967295 ByteStream.new.maxLen = .error .diverges :=
      (growLoop_eq 4096 (Nat.dvd_of_mod_eq_zero rfl) (by decide) (hdvd _) hgt).1 (by decide)
    rw [BufferKind.alloc, alloc_of_diverges rfl rfl hgt hgrow]
  | outPacketStream =>
    have hgrow : growLoop 8 4294967295 ByteStream.new.maxLen = .error .diverges :=
      (growLoop_eq 8 (Nat.dvd_of_mod_eq_zero rfl) (by decide) (hdvd _) hgt).1 (by decide)
    rw [BufferKind.alloc, OutPacketStream.alloc_of_diverges rfl hgt hgrow]

/-- So `Alloc` is not always as it should be, in either class. -/
theorem growth_endless :
    (¬ ∀ (ops : List (Heap × GrowthOp)) (s : ByteStream), Run (Grows .byteStream) .new ops s →
      ∀ heap newLen, Suffices .byteStream heap s newLen) ∧
    ¬ ∀ (ops : List (Heap × GrowthOp)) (s : ByteStream), Run (Grows .outPacketStream) .new ops s →
      ∀ heap newLen, Suffices .outPacketStream heap s newLen := by
  have hnot : ∀ kind, ¬ ∀ (ops : List (Heap × GrowthOp)) (s : ByteStream), Run (Grows kind) .new ops s →
      ∀ heap newLen, Suffices kind heap s newLen :=
    fun kind h => (h [] .new Run.nil noMemory 4294967295).ends (endless_of_new kind)
  exact ⟨hnot .byteStream, hnot .outPacketStream⟩

end Runs

end Zutils.Net
