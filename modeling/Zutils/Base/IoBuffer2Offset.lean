import Zutils.Base.IoBuffer2Runs

/-!
# Reading at an offset

`ReadOffsetUint8` and the like should peek at an offset from the cursor, and `ReadOffsetString` should do what
`ReadString` does from there. They pass the size of the integer for the offset and the offset for the size, and the
length of the string is read at the cursor. So an integer is read only if the offset is its size, and a string only if
the same length stands at the cursor (`offset_reads_iff`).

The buffers are those that any calls leave, with negative positions too, which `seek_read_pos` accepts. `Bounded` is
what remains of the invariant then.
-/

namespace Zutils

open Lib

namespace IOBuffer2

/-! ### The buffers that there are -/

/-- The `int` among the arguments. -/
def BufferOp.intArg : BufferOp → ℤ
  | .readOffsetUint _ _ x | .readOffsetString _ x | .writeOffsetUint _ _ x | .writeOffsetString _ x => x
  | .skipReadPos x | .seekReadPos x | .skipWritePos x | .seekWritePos x | .resize x => x
  | .readUint _ _ | .readPeekUint _ _ | .readString _ | .readPeekString _ | .writeUint _ _ | .writeString _ => 0

/-- A call that returns, and leaves a buffer whose `readable_size()` is an `int`. -/
def ReturnStep (b : IOBuffer2) (a : BufferOp × (ℕ → UInt8)) (b' : IOBuffer2) : Prop :=
  IsInt a.1.intArg ∧ b.exec a.2 a.1 = .ok b' ∧ IsInt b'.readableSize

/-- The block has its size, and the read cursor is not behind it. -/
structure Bounded (b : IOBuffer2) : Prop where
  size_nonneg : 0 ≤ b.size
  size_lt : b.size < 2 ^ 31
  size_le : b.size ≤ b.data.length
  readPos_le : b.readPos ≤ b.size

/-- The buffer is as it was, or has the size that the raw writes ask for. -/
def Asked (b b₁ : IOBuffer2) (total : ℤ) : Prop :=
  b₁ = b ∨ b.size - b.writePos < total ∧ b.size - b.writePos + total < 2 ^ 31 ∧
    b₁.size = b.size - b.writePos + total ∧ b₁.readPos = b.readPos ∧ b₁.writePos = b.writePos ∧
    (b₁.data.length : ℤ) = b₁.size.toNat

section Returned

variable {b b' b₁ : IOBuffer2} {mem : ℕ → UInt8} {buf data : List UInt8} {val val' : Option (List UInt8)}
  {n k : ℤ} {offset newSize : ℤ} {isNew ret : Bool} {op : BufferOp}

lemma of_move_ok (h : b.move mem newSize isNew = .ok b') : b'.size = newSize ∧ b'.readPos = b.readPos := by
  rw [IOBuffer2.move] at h
  split at h
  · rw [← Except.ok.inj h]
    exact ⟨rfl, rfl⟩
  · obtain ⟨data, -, hb⟩ := bind_eq_ok.1 h
    rw [← Except.ok.inj hb]
    exact ⟨rfl, rfl⟩

lemma asked_of_move (hlt : b.size - b.writePos < n) (hint : newSize < 2 ^ 31) (hsize : newSize = b.size - b.writePos + n)
    (hmove : b.move mem newSize isNew = .ok b₁) : Asked b b₁ n := by
  obtain ⟨hlen, hwrite⟩ := move_length hmove
  obtain ⟨hnew, hread⟩ := of_move_ok hmove
  exact .inr ⟨hlt, by omega, by omega, hread, hwrite, by rw [hlen, hnew]⟩

lemma asked_of_makeRoom (h : b.makeRoom mem n = .ok b₁) : Asked b b₁ (n + 0) := by
  obtain ⟨room, hint, h⟩ := bind_eq_ok.1 h
  obtain ⟨-, rfl⟩ := int_ok hint
  split at h
  · rename_i hlt
    obtain ⟨newSize, hint, hmove⟩ := bind_eq_ok.1 h
    obtain ⟨hsum, rfl⟩ := int_ok hint
    exact asked_of_move (by omega) hsum.2 (by omega) hmove
  · exact .inl (Except.ok.inj h).symm

lemma asked_of_makeOffsetRoom (h : b.makeOffsetRoom mem n offset = .ok b₁) : Asked b b₁ (n + offset) := by
  obtain ⟨room, hint, h⟩ := bind_eq_ok.1 h
  obtain ⟨-, rfl⟩ := int_ok hint
  obtain ⟨need, hint, h⟩ := bind_eq_ok.1 h
  obtain ⟨-, rfl⟩ := int_ok hint
  split at h
  · rename_i hlt
    obtain ⟨newSize, hint, h⟩ := bind_eq_ok.1 h
    obtain ⟨-, rfl⟩ := int_ok hint
    obtain ⟨newSize, hint, hmove⟩ := bind_eq_ok.1 h
    obtain ⟨hsum, rfl⟩ := int_ok hint
    exact asked_of_move hlt hsum.2 (by omega) hmove
  · exact .inl (Except.ok.inj h).symm

/-- A block into which the bytes can be stored is not smaller than it was, although the size that was asked for may
be. -/
lemma Asked.bounded (ha : Asked b b₁ (n + offset)) (h : Bounded b)
    (hcopy : memcpy b₁.data (b₁.writePos + offset) buf 0 n = .ok data) : Bounded { b₁ with data } := by
  obtain ⟨⟨hn, hpos, hle, -, -⟩, hlen⟩ := memcpy_ok hcopy
  obtain ⟨h0, hlt, hsize, hread⟩ := h
  rcases ha with rfl | ⟨hroom, hnew, hsize₁, hread₁, hwrite₁, hdata₁⟩
  · exact ⟨h0, hlt, by rw [hlen]; exact hsize, hread⟩
  · have hgrow : b.size ≤ b₁.size := by omega
    refine ⟨h0.trans hgrow, ?_, ?_, ?_⟩
    · show b₁.size < 2 ^ 31
      omega
    · show b₁.size ≤ data.length
      omega
    · show b₁.readPos ≤ b₁.size
      omega

lemma Bounded.writeRaw (h : Bounded b) (hok : b.writeRaw mem buf n = .ok b') : Bounded b' := by
  obtain ⟨b₁, hmake, hok⟩ := bind_eq_ok.1 hok
  obtain ⟨data, hcopy, hok⟩ := bind_eq_ok.1 hok
  obtain ⟨writePos, -, hok⟩ := bind_eq_ok.1 hok
  rw [← Int.add_zero b₁.writePos] at hcopy
  obtain ⟨h0, hlt, hsize, hread⟩ := (asked_of_makeRoom hmake).bounded h hcopy
  rw [← Except.ok.inj hok]
  exact ⟨h0, hlt, hsize, hread⟩

lemma Bounded.writeOffsetRaw (h : Bounded b) (hok : b.writeOffsetRaw mem buf n offset = .ok b') : Bounded b' := by
  obtain ⟨b₁, hmake, hok⟩ := bind_eq_ok.1 hok
  obtain ⟨data, hcopy, hok⟩ := bind_eq_ok.1 hok
  rw [← Except.ok.inj hok]
  exact (asked_of_makeOffsetRoom hmake).bounded h hcopy

lemma readUint_bounded {k : ℕ} {isPeek : Bool} (h : Bounded b) (hr : b.readableSize < 2 ^ 31)
    (hok : b.readUint k isPeek val = .ok (ret, val', b')) : Bounded b' := by
  obtain ⟨h0, hlt, hsize, hread⟩ := h
  cases val with
  | none =>
    cases hok
    exact ⟨h0, hlt, hsize, hread⟩
  | some buf =>
    rw [IOBuffer2.readUint] at hok
    dsimp only at hok
    rw [toSizeT_eq (by rw [readableSize]; omega) (by omega)] at hok
    split at hok
    · cases hok
      exact ⟨h0, hlt, hsize, hread⟩
    · rename_i hk
      obtain ⟨⟨data, b₁⟩, hraw, hok⟩ := bind_eq_ok.1 hok
      obtain ⟨copied, -, hraw⟩ := bind_eq_ok.1 hraw
      cases hok
      cases isPeek with
      | true =>
        cases hraw
        exact ⟨h0, hlt, hsize, hread⟩
      | false =>
        obtain ⟨readPos, hint, hraw⟩ := bind_eq_ok.1 hraw
        obtain ⟨-, rfl⟩ := int_ok hint
        cases hraw
        rw [readableSize] at hk
        refine ⟨h0, hlt, hsize, ?_⟩
        show b.readPos + k ≤ b.size
        omega

lemma Bounded.skipReadPos (h : Bounded b) (hok : b.skipReadPos n = .ok (ret, b')) : Bounded b' := by
  obtain ⟨readPos, -, hok⟩ := bind_eq_ok.1 hok
  split at hok
  · cases hok
    exact h
  · rename_i hin
    cases hok
    refine ⟨h.size_nonneg, h.size_lt, h.size_le, ?_⟩
    show readPos ≤ b.size
    omega

lemma Bounded.readString (h : Bounded b) (hok : b.readString val = .ok (ret, val', b')) : Bounded b' := by
  cases val with
  | none =>
    cases hok
    exact h
  | some buf =>
    rw [IOBuffer2.readString] at hok
    dsimp only at hok
    split at hok
    · cases hok
      exact h
    · obtain ⟨n, -, hok⟩ := bind_eq_ok.1 hok
      split at hok
      · cases hok
        exact h
      · obtain ⟨data, -, hok⟩ := bind_eq_ok.1 hok
        obtain ⟨⟨moved, b₁⟩, hskip, hok⟩ := bind_eq_ok.1 hok
        cases hok
        exact h.skipReadPos hskip

/-- **A call that returns** leaves the block bounded. -/
lemma Bounded.exec (h : Bounded b) (hr : b.readableSize < 2 ^ 31) (hint : IsInt op.intArg)
    (hok : b.exec mem op = .ok b') : Bounded b' := by
  cases op with
  | readUint w val =>
    obtain ⟨⟨ret, val', b₁⟩, hread, hok⟩ := bind_eq_ok.1 hok
    cases hok
    rw [readUintOf_eq] at hread
    exact readUint_bounded h hr hread
  | readPeekUint w val =>
    obtain ⟨⟨ret, val', b₁⟩, hread, hok⟩ := bind_eq_ok.1 hok
    cases hok
    rw [readPeekUintOf_eq] at hread
    exact readUint_bounded h hr hread
  | readOffsetUint w val offset =>
    obtain ⟨r, -, hok⟩ := bind_eq_ok.1 hok
    cases hok
    exact h
  | readString val =>
    obtain ⟨⟨ret, val', b₁⟩, hread, hok⟩ := bind_eq_ok.1 hok
    cases hok
    exact h.readString hread
  | readPeekString val =>
    obtain ⟨r, -, hok⟩ := bind_eq_ok.1 hok
    cases hok
    exact h
  | readOffsetString val offset =>
    obtain ⟨r, -, hok⟩ := bind_eq_ok.1 hok
    cases hok
    exact h
  | writeUint w val =>
    rw [IOBuffer2.exec, writeUintOf_eq] at hok
    exact h.writeRaw hok
  | writeOffsetUint w val offset =>
    rw [IOBuffer2.exec, writeOffsetUintOf_eq] at hok
    exact h.writeOffsetRaw hok
  | writeString val =>
    obtain ⟨b₁, hfirst, hsecond⟩ := bind_eq_ok.1 hok
    exact (h.writeRaw hfirst).writeRaw hsecond
  | writeOffsetString val offset =>
    obtain ⟨b₁, hfirst, hsecond⟩ := bind_eq_ok.1 hok
    exact (h.writeOffsetRaw hfirst).writeOffsetRaw hsecond
  | skipReadPos size =>
    obtain ⟨⟨ret, b₁⟩, hskip, hok⟩ := bind_eq_ok.1 hok
    cases hok
    exact h.skipReadPos hskip
  | seekReadPos size =>
    rw [← Except.ok.inj hok, IOBuffer2.seekReadPos]
    split
    · exact h
    · rename_i hin
      refine ⟨h.size_nonneg, h.size_lt, h.size_le, ?_⟩
      show size ≤ b.size
      omega
  | skipWritePos size =>
    obtain ⟨⟨ret, b₁⟩, hskip, hok⟩ := bind_eq_ok.1 hok
    obtain ⟨writePos, -, hskip⟩ := bind_eq_ok.1 hskip
    cases hok
    split at hskip
    · cases hskip
      exact h
    · cases hskip
      exact ⟨h.size_nonneg, h.size_lt, h.size_le, h.readPos_le⟩
  | seekWritePos size =>
    rw [← Except.ok.inj hok, IOBuffer2.seekWritePos]
    split
    · exact h
    · exact ⟨h.size_nonneg, h.size_lt, h.size_le, h.readPos_le⟩
  | resize size =>
    rw [IOBuffer2.exec, IOBuffer2.resize] at hok
    split at hok
    · rename_i hlt
      obtain ⟨hlen, -⟩ := move_length hok
      obtain ⟨hsize, hread⟩ := of_move_ok hok
      have h0 := h.size_nonneg
      have hle := h.readPos_le
      exact ⟨by omega, by rw [hsize]; exact hint.2, by omega, by omega⟩
    · rw [← Except.ok.inj hok]
      exact h

/-- **Every buffer that calls leave** is bounded. -/
theorem bounded_of_run {b₀ : IOBuffer2} {m₀ : ℕ → Option UInt8} (h₀ : Created b₀ m₀)
    {as : List (BufferOp × (ℕ → UInt8))} (hrun : Run ReturnStep b₀ as b) :
    Bounded b ∧ b.readableSize < 2 ^ 31 := by
  refine hrun.inv (P := fun _ b => Bounded b ∧ b.readableSize < 2 ^ 31) ?_ ?_
  · have hinv := h₀.inv
    have hr := hinv.readPos_nonneg
    have hlt := hinv.size_lt
    refine ⟨⟨?_, hlt, hinv.size_le, hinv.readPos_le⟩, ?_⟩
    · exact hr.trans hinv.readPos_le
    · rw [readableSize]
      omega
  · rintro - b ⟨op, mem⟩ b' ⟨h, hr⟩ ⟨hint, hok, hreadable⟩
    exact ⟨h.exec hr hint hok, hreadable.2⟩

end Returned

/-! ### What a read at an offset should do -/

/-- The bytes `bs` are in the block at the position `i`. -/
def Has (b : IOBuffer2) (i : ℤ) (bs : List UInt8) : Prop := 0 ≤ i ∧ (b.data.drop i.toNat).take bs.length = bs

/-- **`ReadOffsetUint8` and the like peek at an offset.** Whatever is in `*val`, the call returns whether the integer
is in the readable part, and then `*val` has its bytes. The buffer is as it was. -/
def ReadsAt (b : IOBuffer2) (w : Width) (offset : ℤ) : Prop :=
  ∀ buf : List UInt8, buf.length = w.bytes → ∃ ret val,
    b.readOffsetUintOf w (some buf) offset = .ok (ret, some val) ∧
    (ret = true ↔ offset + w.bytes ≤ b.readableSize) ∧
    (ret = true → val.length = w.bytes ∧ b.Has (b.readPos + offset) val) ∧ (ret = false → val = buf) ∧
    ∀ mem, b.exec mem (.readOffsetUint w (some buf) offset) = .ok b

/-- **`ReadOffsetString` is `ReadString` from an offset.** Whatever is in `*val`, the call returns and stores what
`ReadString` does with the cursor at the offset, and refuses an offset behind the block. The buffer is as it was. -/
def ReadsStringAt (b : IOBuffer2) (offset : ℤ) : Prop :=
  ∀ buf : List UInt8, ∃ ret val, b.readOffsetString (some buf) offset = .ok (ret, some val) ∧
    (b.readPos + offset ≤ b.size →
      ∃ b', { b with readPos := b.readPos + offset }.readString (some buf) = .ok (ret, some val, b')) ∧
    (b.size < b.readPos + offset → ret = false ∧ val = buf) ∧
    ∀ mem, b.exec mem (.readOffsetString (some buf) offset) = .ok b

/-- The length of a string that stands at the position `i`. -/
def lengthAt (b : IOBuffer2) (i : ℤ) : ℕ := hostNat ((b.data.drop i.toNat).take 4)

/-- The same length stands at the cursor, in the block, and at the offset, or both strings would be too long. -/
def SameLength (b : IOBuffer2) (offset : ℤ) : Prop :=
  0 ≤ b.readPos ∧ (b.lengthAt b.readPos = b.lengthAt (b.readPos + offset) ∨
    b.readableSize < b.lengthAt b.readPos + 4 + offset ∧
      b.readableSize < b.lengthAt (b.readPos + offset) + 4 + offset)

section Offsets

variable {b : IOBuffer2} {buf : List UInt8} {offset : ℤ} {w : Width}

lemma Has.getElem? {i : ℤ} (h : b.Has i buf) {p : ℕ} (hp : p < buf.length) : buf[p]? = b.data[i.toNat + p]? := by
  rw [← h.2, List.getElem?_take_of_lt hp, List.getElem?_drop]

lemma memcpy_behind {dst src out : List UInt8} {j n : ℤ} {p : ℕ} (h : memcpy dst 0 src j n = .ok out) (hp : n ≤ p) :
    out[p]? = dst[p]? := by
  obtain ⟨⟨hn, hi, hdst, hj, hsrc⟩, -⟩ := memcpy_ok h
  rw [memcpy_eq hn hi hdst hj hsrc] at h
  have hlen : ((src.drop j.toNat).take n.toNat).length = n.toNat := by
    rw [List.length_take, List.length_drop]
    omega
  rw [← Except.ok.inj h, Int.toNat_zero, List.take_zero, List.nil_append, Nat.zero_add,
    List.getElem?_append_right (by omega), hlen, List.getElem?_drop, Nat.add_sub_cancel' (by omega)]

lemma memcpy_whole {dst src : List UInt8} {j n : ℤ} (hn : n = dst.length) (hj : 0 ≤ j) (hsrc : j + n ≤ src.length) :
    memcpy dst 0 src j n = .ok ((src.drop j.toNat).take dst.length) := by
  have hnone : dst.drop dst.length = [] := List.drop_length
  rw [memcpy_eq (by omega) le_rfl (by omega) hj hsrc, Int.toNat_zero, List.take_zero, List.nil_append, Nat.zero_add, hn,
    Int.toNat_natCast, hnone, List.append_nil]

lemma exec_readOffsetUint {val : Option (List UInt8)} {r : Bool × Option (List UInt8)}
    (hcall : b.readOffsetUintOf w val offset = .ok r) (mem : ℕ → UInt8) :
    b.exec mem (.readOffsetUint w val offset) = .ok b := by
  rw [exec, hcall]
  rfl

lemma exec_readOffsetString {val : Option (List UInt8)} {r : Bool × Option (List UInt8)}
    (hcall : b.readOffsetString val offset = .ok r) (mem : ℕ → UInt8) :
    b.exec mem (.readOffsetString val offset) = .ok b := by
  rw [exec, hcall]
  rfl

lemma Bounded.toSizeT_readable (h : Bounded b) (hr : b.readableSize < 2 ^ 31) :
    toSizeT b.readableSize = b.readableSize := by
  have hle := h.readPos_le
  exact toSizeT_eq (by rw [readableSize]; omega) (by omega)

lemma Bounded.toSizeT_gt (h : Bounded b) (hr : b.readableSize < 2 ^ 31) {x : ℤ} (h0 : 0 ≤ x) (hx : x < 2 ^ 63) :
    toSizeT x > toSizeT b.readableSize ↔ b.readableSize < x := by
  rw [toSizeT_eq h0 (by omega), h.toSizeT_readable hr]

/-! ### Integers -/

/-- The arguments of the copy are in the wrong order. -/
lemma readOffsetUintOf_accepted (h : Bounded b) (hr : b.readableSize < 2 ^ 31) (h0 : 0 ≤ offset)
    (hle : offset + w.bytes ≤ b.readableSize) : b.readOffsetUintOf w (some buf) offset =
      (memcpy buf 0 b.data (b.readPos + w.bytes) offset >>= fun val => .ok (true, some val)) := by
  have hcheck := h.toSizeT_gt hr (show 0 ≤ offset + w.bytes by omega) (by omega)
  rw [readOffsetUintOf_eq, IOBuffer2.readOffsetUint, if_neg (fun hgt => Int.not_lt.2 hle (hcheck.1 hgt))]
  rfl

lemma readsAt_refused (h : Bounded b) (hr : b.readableSize < 2 ^ 31) (h0 : 0 ≤ offset) (hint : IsInt offset)
    (hlt : b.readableSize < offset + w.bytes) : b.ReadsAt w offset := by
  intro buf hlen
  have hw := w.bytes_le
  have hhigh := hint.2
  have hcheck := h.toSizeT_gt hr (show 0 ≤ offset + w.bytes by omega) (by omega)
  have hcall : b.readOffsetUintOf w (some buf) offset = .ok (false, some buf) := by
    rw [readOffsetUintOf_eq, IOBuffer2.readOffsetUint]
    exact if_pos (hcheck.2 hlt)
  refine ⟨false, buf, hcall, ?_, ?_, fun _ => rfl, exec_readOffsetUint hcall⟩
  · exact iff_of_false Bool.false_ne_true (Int.not_le.2 hlt)
  · intro hret
    cases hret

/-- The size is the offset. -/
lemma readsAt_size (h : Bounded b) (hr : b.readableSize < 2 ^ 31) (hpos : 0 ≤ b.readPos + offset)
    (hsize : offset = w.bytes) : b.ReadsAt w offset := by
  by_cases hle : offset + w.bytes ≤ b.readableSize
  · intro buf hlen
    have hdata := h.size_le
    rw [readableSize] at hle
    have hcopy : memcpy buf 0 b.data (b.readPos + offset) offset = _ := memcpy_whole (by omega) hpos (by omega)
    have htaken : ((b.data.drop (b.readPos + offset).toNat).take buf.length).length = w.bytes := by
      rw [List.length_take, List.length_drop]
      omega
    have hcall : b.readOffsetUintOf w (some buf) offset = _ :=
      readOffsetUintOf_accepted h hr (by omega) (by rw [readableSize]; exact hle)
    rw [← hsize, hcopy] at hcall
    refine ⟨true, _, hcall, ?_, fun _ => ⟨htaken, hpos, ?_⟩, ?_, exec_readOffsetUint hcall⟩
    · exact iff_of_true rfl (by rw [readableSize]; exact hle)
    · rw [htaken, hlen]
    · intro hret
      cases hret
  · exact readsAt_refused h hr (by omega) ⟨by omega, by have := w.bytes_le; omega⟩ (Int.not_le.1 hle)

/-- **An integer is read at an offset exactly where the offset is its size**, if the call does not refuse. With a
larger offset the copy leaves `*val`, with a smaller one the last byte of `*val` stays. -/
theorem readsAt_iff (h : Bounded b) (hr : b.readableSize < 2 ^ 31) (h0 : 0 ≤ offset) (hint : IsInt offset) :
    b.ReadsAt w offset ↔
      b.readableSize < offset + w.bytes ∨ offset = w.bytes ∧ 0 ≤ b.readPos + offset := by
  constructor
  · intro hreads
    by_cases hle : offset + w.bytes ≤ b.readableSize
    · right
      have hpos : 0 < w.bytes := by cases w <;> decide
      have hcopied : ∀ c : UInt8, ∃ val, memcpy (List.replicate w.bytes c) 0 b.data (b.readPos + w.bytes) offset =
          .ok val ∧ val.length = w.bytes ∧ b.Has (b.readPos + offset) val := by
        intro c
        obtain ⟨ret, val, hcall, hret, hval, -, -⟩ := hreads (List.replicate w.bytes c) List.length_replicate
        rw [readOffsetUintOf_accepted h hr h0 hle] at hcall
        obtain ⟨copied, hcopy, heq⟩ := bind_eq_ok.1 hcall
        cases heq
        exact ⟨val, hcopy, hval rfl⟩
      obtain ⟨val₀, hcopy₀, -, hhas₀⟩ := hcopied 0
      obtain ⟨⟨-, -, hin, -⟩, -⟩ := memcpy_ok hcopy₀
      rw [List.length_replicate] at hin
      refine ⟨?_, hhas₀.1⟩
      by_contra hne
      -- the last byte is that of the block, whatever it was in `*val`
      have hlast : ∀ c : UInt8, b.data[(b.readPos + offset).toNat + (w.bytes - 1)]? = some c := by
        intro c
        obtain ⟨val, hcopy, hlen, hhas⟩ := hcopied c
        rw [← hhas.getElem? (by omega), memcpy_behind hcopy (by omega),
          List.getElem?_replicate_of_lt (by omega)]
      cases (hlast 0).symm.trans (hlast 1)
    · exact .inl (Int.not_le.1 hle)
  · rintro (hlt | ⟨hsize, hpos⟩)
    · exact readsAt_refused h hr h0 hint hlt
    · exact readsAt_size h hr hpos hsize

/-! ### Strings -/

lemma peekStringSize_eq (h : Bounded b) (hr : b.readableSize < 2 ^ 31) (h4 : 4 ≤ b.readableSize) :
    b.peekStringSize = if 0 ≤ b.readPos then .ok (b.lengthAt b.readPos) else .error .outOfBlock := by
  have hdata := h.size_le
  have hnot : ¬ ((4 : ℕ) : ℤ) > toSizeT b.readableSize := by
    rw [h.toSizeT_readable hr]
    omega
  rw [readableSize] at h4
  rw [IOBuffer2.peekStringSize, readPeekUint32, IOBuffer2.readUint, if_neg hnot, readRaw]
  by_cases hpos : 0 ≤ b.readPos
  · have hlen : (hostBytes 4 0).length = 4 := hostBytes_length 4 0
    have hcopy : memcpy (hostBytes 4 0) 0 b.data b.readPos (4 : ℕ) = _ := memcpy_whole (by omega) hpos (by omega)
    rw [hlen] at hcopy
    rw [if_pos hpos, hcopy]
    rfl
  · have hcopy : memcpy (hostBytes 4 0) 0 b.data b.readPos (4 : ℕ) = .error .outOfBlock :=
      if_neg (fun hin => hpos hin.2.2.2.1)
    rw [if_neg hpos, hcopy]
    rfl

lemma readText_eq (h : Bounded b) {n : ℕ} {i : ℤ} (hpos : 0 ≤ b.readPos + i) (hn : (n : ℤ) < 2 ^ 31)
    (hle : n + i ≤ b.readableSize) : b.readOffsetRaw (Zutils.resize buf n) i (toInt32 n) =
      .ok ((b.data.drop (b.readPos + i).toNat).take n) := by
  have hdata := h.size_le
  rw [readableSize] at hle
  have hlen := resize_length buf n
  have hcopy : memcpy (Zutils.resize buf n) 0 b.data (b.readPos + i) n = _ :=
    memcpy_whole (by omega) hpos (by omega)
  rw [hlen] at hcopy
  rw [toInt32_eq ⟨by omega, hn⟩, readOffsetRaw, hcopy]

/-- A string of the length `n` at the position `i` as far as it is readable, and what is stored of it. -/
def textAt (b : IOBuffer2) (i : ℤ) (n : ℕ) (buf : List UInt8) : Bool × List UInt8 :=
  if b.size < i + 4 + n then (false, buf) else (true, (b.data.drop (i + 4).toNat).take n)

lemma lengthAt_lt (b : IOBuffer2) (i : ℤ) : b.lengthAt i < 2 ^ 32 := by
  have hlen : ((b.data.drop i.toNat).take 4).length ≤ 4 := by
    rw [List.length_take]
    exact Nat.min_le_left _ _
  have hpow : 256 ^ ((b.data.drop i.toNat).take 4).length ≤ 256 ^ 4 := Nat.pow_le_pow_right (by decide) hlen
  exact Nat.lt_of_lt_of_le (hostNat_lt _) hpow

lemma readString_eq (h : Bounded b) (hr : b.readableSize < 2 ^ 31) (hpos : 0 ≤ b.readPos) (h4 : 4 ≤ b.readableSize) :
    ∃ b', b.readString (some buf) = .ok ((b.textAt b.readPos (b.lengthAt b.readPos) buf).1,
      some (b.textAt b.readPos (b.lengthAt b.readPos) buf).2, b') := by
  have hsize := h.size_lt
  have hlength := b.lengthAt_lt b.readPos
  rw [IOBuffer2.readString, h.toSizeT_readable hr, peekStringSize_eq h hr h4, if_pos hpos, if_neg (Int.not_lt.2 h4),
    ok_bind, toSizeT_eq (by omega) (by omega)]
  generalize b.lengthAt b.readPos = n at hlength ⊢
  rw [textAt]
  by_cases hlt : b.size < b.readPos + 4 + n
  · rw [if_pos (show (n : ℤ) + 4 > b.readableSize by rw [readableSize]; omega), if_pos hlt]
    exact ⟨_, rfl⟩
  · rw [if_neg (show ¬ (n : ℤ) + 4 > b.readableSize by rw [readableSize]; omega), if_neg hlt]
    have hskip : ∃ r, b.skipReadPos (toInt32 (n + 4)) = .ok r := by
      rw [toInt32_eq ⟨by omega, by omega⟩, IOBuffer2.skipReadPos, int_eq ⟨by omega, by omega⟩, ok_bind]
      split
      · exact ⟨_, rfl⟩
      · exact ⟨_, rfl⟩
    obtain ⟨⟨moved, b'⟩, hskip⟩ := hskip
    rw [readText_eq h (by omega) (by omega) (by rw [readableSize]; omega), ok_bind, hskip]
    exact ⟨b', rfl⟩

/-- The text is read at the offset, and its length at the cursor. -/
lemma readOffsetString_eq (h : Bounded b) (hr : b.readableSize < 2 ^ 31) (hpos : 0 ≤ b.readPos) (h0 : 0 ≤ offset)
    (h4 : 4 + offset ≤ b.readableSize) : b.readOffsetString (some buf) offset =
      .ok ((b.textAt (b.readPos + offset) (b.lengthAt b.readPos) buf).1,
        some (b.textAt (b.readPos + offset) (b.lengthAt b.readPos) buf).2) := by
  have hsize := h.size_lt
  have hlength := b.lengthAt_lt b.readPos
  rw [IOBuffer2.readOffsetString, h.toSizeT_readable hr, peekStringSize_eq h hr (by omega), if_pos hpos,
    toSizeT_eq (by omega) (by omega), if_neg (Int.not_lt.2 h4), ok_bind, toSizeT_eq (by omega) (by omega)]
  generalize b.lengthAt b.readPos = n at hlength ⊢
  rw [textAt]
  by_cases hlt : b.size < b.readPos + offset + 4 + n
  · rw [if_pos (show (n : ℤ) + 4 + offset > b.readableSize by rw [readableSize]; omega), if_pos hlt]
    rfl
  · rw [readableSize] at h4
    rw [if_neg (show ¬ (n : ℤ) + 4 + offset > b.readableSize by rw [readableSize]; omega), if_neg hlt,
      toInt32_eq ⟨by omega, by omega⟩, readText_eq h (by omega) (by omega) (by rw [readableSize]; omega), ok_bind,
      show b.readPos + (4 + offset) = b.readPos + offset + 4 by omega]
    rfl

lemma textAt_eq_iff (h : Bounded b) {i : ℤ} (hpos : 0 ≤ i) {n n' : ℕ} :
    b.textAt i n buf = b.textAt i n' buf ↔ n = n' ∨ b.size < i + 4 + n ∧ b.size < i + 4 + n' := by
  have hdata := h.size_le
  have hlen : ∀ k : ℕ, ¬ b.size < i + 4 + k → ((b.data.drop (i + 4).toNat).take k).length = k := by
    intro k hk
    rw [List.length_take, List.length_drop]
    omega
  rw [textAt, textAt]
  by_cases hlt : b.size < i + 4 + n
  · by_cases hlt' : b.size < i + 4 + n'
    · rw [if_pos hlt, if_pos hlt']
      exact iff_of_true rfl (.inr ⟨hlt, hlt'⟩)
    · rw [if_pos hlt, if_neg hlt']
      refine iff_of_false (fun heq => by cases heq) ?_
      rintro (rfl | ⟨-, hboth⟩)
      · exact hlt' hlt
      · exact hlt' hboth
  · by_cases hlt' : b.size < i + 4 + n'
    · rw [if_neg hlt, if_pos hlt']
      refine iff_of_false (fun heq => by cases heq) ?_
      rintro (rfl | ⟨hboth, -⟩)
      · exact hlt hlt'
      · exact hlt hboth
    · rw [if_neg hlt, if_neg hlt']
      constructor
      · intro heq
        have hlengths := congrArg List.length (Prod.mk.inj heq).2
        rw [hlen n hlt, hlen n' hlt'] at hlengths
        exact .inl hlengths
      · rintro (rfl | ⟨hboth, -⟩)
        · rfl
        · exact absurd hboth hlt

lemma readsStringAt_refused (h : Bounded b) (hr : b.readableSize < 2 ^ 31) (h0 : 0 ≤ offset) (hint : IsInt offset)
    (hlt : b.readableSize < offset + 4) : b.ReadsStringAt offset := by
  intro buf
  have hhigh := hint.2
  have hcall : b.readOffsetString (some buf) offset = .ok (false, some buf) := by
    rw [IOBuffer2.readOffsetString]
    exact if_pos ((h.toSizeT_gt hr (by omega) (by omega)).2 (by omega))
  refine ⟨false, buf, hcall, ?_, fun _ => ⟨rfl, rfl⟩, exec_readOffsetString hcall⟩
  intro hle
  rw [readableSize] at hlt hr
  have hadvanced : (4 : ℤ) > toSizeT (b.size - (b.readPos + offset)) := by
    rw [toSizeT_eq (by omega) (by omega)]
    omega
  exact ⟨_, if_pos hadvanced⟩

/-- **A string is read at an offset exactly where its length stands at the cursor as well**, if the call does not
refuse. -/
theorem readsStringAt_iff (h : Bounded b) (hr : b.readableSize < 2 ^ 31) (h0 : 0 ≤ offset) (hint : IsInt offset) :
    b.ReadsStringAt offset ↔ b.readableSize < offset + 4 ∨ b.SameLength offset := by
  by_cases hlt : b.readableSize < offset + 4
  · exact iff_of_true (readsStringAt_refused h hr h0 hint hlt) (.inl hlt)
  have h4 : 4 + offset ≤ b.readableSize := by omega
  rw [or_iff_right hlt]
  by_cases hpos : 0 ≤ b.readPos
  · have hcall : ∀ buf, b.readOffsetString (some buf) offset = _ := fun buf => readOffsetString_eq h hr hpos h0 h4
    -- the buffer with the cursor at the offset
    have hend : b.readPos + offset ≤ b.size := by
      rw [readableSize] at h4
      omega
    have h' : Bounded { b with readPos := b.readPos + offset } := ⟨h.size_nonneg, h.size_lt, h.size_le, hend⟩
    have hread : ∀ buf, ∃ b', { b with readPos := b.readPos + offset }.readString (some buf) =
        .ok ((b.textAt (b.readPos + offset) (b.lengthAt (b.readPos + offset)) buf).1,
          some (b.textAt (b.readPos + offset) (b.lengthAt (b.readPos + offset)) buf).2, b') := by
      intro buf
      rw [readableSize] at hr h4
      refine readString_eq h' ?_ (Int.add_nonneg hpos h0) ?_
      · show b.size - (b.readPos + offset) < 2 ^ 31
        omega
      · show 4 ≤ b.size - (b.readPos + offset)
        omega
    have hsame : ∀ buf, b.textAt (b.readPos + offset) (b.lengthAt b.readPos) buf =
        b.textAt (b.readPos + offset) (b.lengthAt (b.readPos + offset)) buf ↔ b.SameLength offset := by
      intro buf
      rw [textAt_eq_iff h (Int.add_nonneg hpos h0), SameLength, readableSize, and_iff_right hpos]
      refine or_congr_right (and_congr ?_ ?_)
      · constructor <;> intro hlong <;> omega
      · constructor <;> intro hlong <;> omega
    constructor
    · intro hreads
      obtain ⟨ret, val, hoffset, hadvanced, -, -⟩ := hreads []
      obtain ⟨b', hstring⟩ := hadvanced hend
      obtain ⟨b'', hstring'⟩ := hread []
      rw [hcall] at hoffset
      rw [hstring] at hstring'
      cases hoffset
      obtain ⟨hret, hrest⟩ := Prod.mk.inj (Except.ok.inj hstring')
      exact (hsame []).1 (Prod.ext hret (Option.some.inj (Prod.mk.inj hrest).1))
    · intro hlength buf
      obtain ⟨b', hstring⟩ := hread buf
      rw [← (hsame buf).2 hlength] at hstring
      exact ⟨_, _, hcall buf, fun _ => ⟨b', hstring⟩, fun hgt => absurd hend (Int.not_le.2 hgt),
        exec_readOffsetString (hcall buf)⟩
  · refine iff_of_false ?_ (fun hlength => hpos hlength.1)
    intro hreads
    obtain ⟨ret, val, hoffset, -⟩ := hreads []
    have hsize := h.size_lt
    rw [IOBuffer2.readOffsetString, peekStringSize_eq h hr (by omega), if_neg hpos, h.toSizeT_readable hr,
      toSizeT_eq (by omega) (by omega), if_neg (Int.not_lt.2 h4)] at hoffset
    cases hoffset

/-- **Reads at an offset are peeks** from there exactly where they refuse, or the offset is the size of the integer and
the same length stands at the cursor and at the offset. -/
theorem offset_reads_iff {b₀ : IOBuffer2} {m₀ : ℕ → Option UInt8} (h₀ : Created b₀ m₀)
    {as : List (BufferOp × (ℕ → UInt8))} (hrun : Run ReturnStep b₀ as b) (h0 : 0 ≤ offset) (hint : IsInt offset) :
    (∀ w, b.ReadsAt w offset ↔
      b.readableSize < offset + w.bytes ∨ offset = w.bytes ∧ 0 ≤ b.readPos + offset) ∧
    (b.ReadsStringAt offset ↔ b.readableSize < offset + 4 ∨ b.SameLength offset) := by
  obtain ⟨h, hr⟩ := bounded_of_run h₀ hrun
  exact ⟨fun w => readsAt_iff h hr h0 hint, readsStringAt_iff h hr h0 hint⟩

/-- The offset is the size of the integer, and the length 2 stands at the cursor and behind. -/
theorem offset_reads_four : (ofData [2, 0, 0, 0, 2, 0, 0, 0, 7, 7] 10).ReadsAt .w32 4 ∧
    (ofData [2, 0, 0, 0, 2, 0, 0, 0, 7, 7] 10).ReadsStringAt 4 := by
  have hcreated : Created (ofData [2, 0, 0, 0, 2, 0, 0, 0, 7, 7] 10) _ := .ofData le_rfl (by decide)
  have hiff := offset_reads_iff hcreated .nil (show (0 : ℤ) ≤ 4 by decide) ⟨by decide, by decide⟩
  exact ⟨(hiff.1 .w32).2 (.inr ⟨rfl, by decide⟩), hiff.2.2 (.inr ⟨by decide, .inl rfl⟩)⟩

/-- Nothing is read of an integer at the cursor. -/
theorem offset_zero_stale : Created (ofData [1, 2, 3, 4] 4) (fun i => ([1, 2, 3, 4].take 4)[i]?) ∧
    ¬ (ofData [1, 2, 3, 4] 4).ReadsAt .w32 0 := by
  refine ⟨.ofData le_rfl (by decide), ?_⟩
  intro hreads
  obtain ⟨ret, val, hcall, -, hval, -, -⟩ := hreads [0, 0, 0, 0] rfl
  cases hcall
  have hbytes := (hval rfl).2.2
  revert hbytes
  decide

end Offsets

end IOBuffer2

end Zutils
