import Zutils.Base.ByteStreamOps

/-!
# A write that fails may be half done

A `<<` should store the whole encoding of its value, or fail visibly and change nothing. A stream over a buffer of
somebody else's that is too short is not marked as failed, and of a string it can store the length without the
characters. A stream that grows loses its buffer when an allocation fails.

`WritesWhole` says where a write keeps to the rule, of the streams that any operations can lead to (`Sound`). It is
enough for any memory, and it is all there is where the requests of a write are all granted or all refused
(`write_atomic_iff`).
-/

namespace Zutils.ByteStream

open Zutils.Lib

/-- The write has failed visibly, and nothing has changed. -/
structure Refused (s s' : ByteStream) : Prop where
  failed : s'.failed = true
  pos : s'.currentPos = s.currentPos
  len : s'.dataLen = s.dataLen
  contents : s'.contents = s.contents

/-- All or nothing. -/
def Atomic (s : ByteStream) (bytes : List UInt8) (s' : ByteStream) : Prop := Stored s bytes s' ∨ Refused s s'

/-- All requests are refused. -/
def Refuses (heap : Heap) : Prop := ∀ block n, heap block n = none

/-- How many bytes are written first. -/
def firstPiece (v : Value) : ℕ := ((pieces v).headD []).length

/-- Where a write keeps to the rule: the stream has failed before; or the whole encoding fits; or the buffer grows for it;
or there is no buffer, and no memory for the first piece. -/
def WritesWhole (heap : Heap) (s : ByteStream) (v : Value) : Prop :=
  s.failed = true ∨
  s.block.isSome = true ∧ s.currentPos.toNat + v.encode.length ≤ s.maxLen.toNat ∨
  s.isNew = true ∧ s.maxLen.toNat < s.currentPos.toNat + v.encode.length ∧
    s.currentPos.toNat + v.encode.length ≤ 2 ^ 32 - 4096 ∧ Gives heap ∧
    (s.block.isSome = true ∨ s.maxLen.toNat < s.currentPos.toNat + firstPiece v) ∨
  s.isNew = true ∧ s.block = none ∧ s.maxLen.toNat < s.currentPos.toNat + firstPiece v ∧
    s.currentPos.toNat + firstPiece v ≤ 2 ^ 32 - 4096 ∧ Refuses heap

/-! ### The streams there are -/

/-- A stream over a buffer of somebody else's. -/
structure Fixed (s : ByteStream) : Prop where
  isNew : s.isNew = false
  hasBlock : s.block.isSome = true
  size : s.offset + s.maxLen.toNat ≤ (s.block.getD []).length
  pos : s.currentPos.toNat ≤ s.maxLen.toNat
  len : s.dataLen = s.maxLen

/-- A stream over a buffer, or one that grows; its buffer is made for a write. -/
def Sound (s : ByteStream) : Prop := Fixed s ∨ Growable s ∧ (s.block.isSome = true → 0 < s.dataLen.toNat)

section Sound

variable {s s' : ByteStream} {heap : Heap} {data : List UInt8} {n newLen : UInt32} {ok p : Bool}

lemma fixed_ofBuffer {bytes : List UInt8} (hlen : bytes.length < 2 ^ 32) :
    Fixed (ofBuffer (some bytes) 0 (UInt32.ofNat bytes.length)) := by
  refine ⟨rfl, rfl, ?_, Nat.zero_le _, rfl⟩
  show 0 + (UInt32.ofNat bytes.length).toNat ≤ bytes.length
  rw [UInt32.toNat_ofNat', Nat.mod_eq_of_lt hlen, Nat.zero_add]

lemma sound_new : Sound new := .inr ⟨growable_new, fun h => (by cases h)⟩

lemma Fixed.moves (hs : Fixed s) (h : Moves s s') : Fixed s' := by
  obtain ⟨pos, failed, rfl, rfl | hpos⟩ := h
  · exact ⟨hs.isNew, hs.hasBlock, hs.size, hs.pos, hs.len⟩
  · exact ⟨hs.isNew, hs.hasBlock, hs.size, hpos, hs.len⟩

lemma Growable.moves (hs : Growable s) (h : Moves s s') : Growable s' := by
  obtain ⟨pos, failed, rfl, rfl | hpos⟩ := h
  · exact ⟨hs.isNew, hs.offset, hs.size, hs.dvd, hs.pos, hs.len⟩
  · exact ⟨hs.isNew, hs.offset, hs.size, hs.dvd, hpos, hs.len⟩

lemma Sound.moves (hs : Sound s) (h : Moves s s') : Sound s' := by
  rcases hs with hs | ⟨hs, hlen⟩
  · exact .inl (hs.moves h)
  · refine .inr ⟨hs.moves h, ?_⟩
    obtain ⟨pos, failed, rfl, -⟩ := h
    exact hlen

lemma Fixed.write {alloc : Alloc} (hs : Fixed s) (h : s.writeRawData alloc data n = .ok (ok, s')) :
    Fixed s' ∧ s'.maxLen = s.maxLen ∧ s'.failed = s.failed := by
  rcases writeRawData_cases h with rfl | ⟨-, -, hrej, hput⟩ | ⟨p, s₁, -, -, -, hnew, -⟩
  · exact ⟨hs, rfl, rfl⟩
  · obtain ⟨-, hfit, rfl⟩ := putRawData_of_ok hput
    have hsize := hs.size
    have htake := List.length_take_le n.toNat data
    unfold Rejects at hrej
    rw [gt_iff_lt, UInt32.lt_iff_toNat_lt] at hrej
    refine ⟨⟨hs.isNew, rfl, ?_, by show (s.currentPos + n).toNat ≤ s.maxLen.toNat; omega, ?_⟩, rfl, rfl⟩
    · show s.offset + s.maxLen.toNat ≤ (patch _ _ _).length
      rw [patch_length_of_le (by omega)]
      exact hsize
    · apply UInt32.toNat_inj.1
      show UInt32.toNat (if s.dataLen < s.currentPos + n then s.currentPos + n else s.dataLen) = s.maxLen.toNat
      rw [toNat_ite_max, hs.len]
      omega
  · rw [hs.isNew] at hnew
    cases hnew

lemma alloc_cases (hf : s.failed = false) (hnew : s.isNew = true) (hgt : s.maxLen < newLen)
    (h : alloc heap s newLen = .ok (p, s')) : ∃ size, growLoop 4096 newLen s.maxLen = .ok size ∧
      (p = false ∧ heap.realloc s.block size.toNat = none ∧ s' = { s with block := none, failed := true } ∨
      ∃ block, p = true ∧ heap.realloc s.block size.toNat = some block ∧
        s' = { s with block := some block, maxLen := size }) := by
  rw [alloc, if_neg (by simp [hf]), if_neg (by simp [hnew]), if_pos hgt] at h
  obtain ⟨size, hgrow, h⟩ := bind_eq_ok.1 h
  refine ⟨size, hgrow, ?_⟩
  rcases hr : heap.realloc s.block size.toNat with _ | block
  · rw [hr] at h
    obtain ⟨rfl, rfl⟩ := Prod.mk.inj (Except.ok.inj h)
    exact .inl ⟨rfl, rfl, rfl⟩
  · rw [hr] at h
    obtain ⟨rfl, rfl⟩ := Prod.mk.inj (Except.ok.inj h)
    exact .inr ⟨block, rfl, rfl, rfl⟩

lemma Growable.put (hs : Growable s) (hput : s.putRawData data n = .ok (ok, s')) (h0 : n ≠ 0)
    (hle : (s.currentPos + n).toNat ≤ s.maxLen.toNat) (hb : s.size = s.maxLen.toNat) :
    Growable s' ∧ 0 < s'.dataLen.toNat ∧ s'.maxLen = s.maxLen ∧ s'.failed = s.failed := by
  obtain ⟨-, hfit, rfl⟩ := putRawData_of_ok hput
  have hlen := hs.len
  have htake := List.length_take_le n.toNat data
  have hpos : 0 < (s.currentPos + n).toNat := by
    have hmax := s.maxLen.toNat_lt
    have hn := toNat_pos h0
    rw [← ByteStream.size, hb] at hfit
    rw [toNat_add_of_lt (by omega)]
    omega
  refine ⟨⟨hs.isNew, hs.offset, fun _ => ?_, hs.dvd, hle, ?_⟩, ?_, rfl, rfl⟩
  · show (patch _ _ _).length = s.maxLen.toNat
    rw [patch_length_of_le (by omega)]
    exact hb
  · show UInt32.toNat (if s.dataLen < s.currentPos + n then s.currentPos + n else s.dataLen) ≤ s.maxLen.toNat
    rw [toNat_ite_max]
    omega
  · show 0 < UInt32.toNat (if s.dataLen < s.currentPos + n then s.currentPos + n else s.dataLen)
    rw [toNat_ite_max]
    omega

/-- A stream without a buffer cannot be written to below `max_len_`. -/
lemma putRawData_null (hb : s.block = none) (h0 : n ≠ 0) : s.putRawData data n = .error .outOfRange := by
  refine putRawData_out ?_
  have hn := toNat_pos h0
  rw [hb, Option.getD_none, List.length_nil]
  omega

/-- **A write to a stream that grows** keeps it one. It fails only when `realloc` does, and then the buffer is lost; it
enlarges the buffer only when `realloc` does not fail. -/
lemma Growable.write (hs : Growable s) (hlen : s.block.isSome = true → 0 < s.dataLen.toNat)
    (h : s.writeRawData (alloc heap) data n = .ok (ok, s')) :
    Growable s' ∧ (s'.block.isSome = true → 0 < s'.dataLen.toNat) ∧ (Gives heap → s'.failed = s.failed) ∧
      (Refuses heap → s'.maxLen = s.maxLen) ∧ (s'.failed = true → s' = s ∨ s'.block = none) := by
  rcases writeRawData_cases h with rfl | ⟨hf, h0, hrej, hput⟩ | ⟨p, s₁, hf, h0, hrej, hnew, halloc, hput⟩
  · exact ⟨hs, hlen, fun _ => rfl, fun _ => rfl, fun _ => .inl rfl⟩
  · have hb : s.block.isSome = true := by
      rcases hb : s.block with _ | block
      · rw [putRawData_null hb h0] at hput
        cases hput
      · rfl
    unfold Rejects at hrej
    rw [gt_iff_lt, UInt32.lt_iff_toNat_lt] at hrej
    obtain ⟨hs', hlen', hmax, hfailed⟩ := hs.put hput h0 (by omega) (hs.size hb)
    refine ⟨hs', fun _ => hlen', fun _ => hfailed, fun _ => hmax, fun hf' => ?_⟩
    rw [hfailed, hf] at hf'
    cases hf'
  · obtain ⟨size, hgrow, h | ⟨block, rfl, hr, rfl⟩⟩ := alloc_cases hf hnew hrej halloc
    · obtain ⟨rfl, hr, rfl⟩ := h
      rcases hput with ⟨h, -⟩ | ⟨-, rfl⟩
      · cases h
      refine ⟨⟨hs.isNew, hs.offset, fun h => (by cases h), hs.dvd, hs.pos, hs.len⟩, fun h => (by cases h), ?_,
        fun _ => rfl, fun _ => .inr rfl⟩
      intro hgives
      obtain ⟨fresh, hfresh⟩ := Option.isSome_iff_exists.1 (hgives s.block size.toNat)
      rw [Heap.realloc, hfresh] at hr
      cases hr
    · rcases hput with ⟨-, hput⟩ | ⟨h, -⟩
      swap
      · cases h
      obtain ⟨hle, hmin, -, hdvd⟩ :=
        growLoop_of_ok 4096 (Nat.dvd_of_mod_eq_zero rfl) (by decide) hs.dvd hrej hgrow
      have hpos := hs.pos
      have hdata := hs.len
      have hgrown : Growable { s with block := some block, maxLen := size } :=
        ⟨hs.isNew, hs.offset, fun _ => realloc_length hr, hdvd, by show s.currentPos.toNat ≤ size.toNat; omega,
          by show s.dataLen.toNat ≤ size.toNat; omega⟩
      obtain ⟨hs', hlen', -, hfailed⟩ := hgrown.put hput h0 hle (hgrown.size rfl)
      refine ⟨hs', fun _ => hlen', fun _ => hfailed, fun hrefuses => ?_, fun hf' => ?_⟩
      · rw [Heap.realloc, hrefuses] at hr
        cases hr
      · rw [hfailed] at hf'
        exact absurd (hf.symm.trans hf') Bool.false_ne_true

lemma Sound.write (hs : Sound s) (h : s.writeRawData (alloc heap) data n = .ok (ok, s')) : Sound s' := by
  rcases hs with hs | ⟨hs, hlen⟩
  · exact .inl (hs.write h).1
  · obtain ⟨hs', hlen', -⟩ := hs.write hlen h
    exact .inr ⟨hs', hlen'⟩

/-- **Any operations lead from a sound stream to a sound one.** -/
lemma sound_of_run {s₀ : ByteStream} {ops : List (Heap × StreamOp)} (h₀ : Sound s₀)
    (h : Run (Operates alloc) s₀ ops s) : Sound s :=
  h.inv (P := fun _ s => Sound s) h₀ fun _ _ _ _ hs hstep =>
    exec_keeps (fun _ _ _ _ _ hs h => Sound.write hs h) (fun _ _ hs h => Sound.moves hs h) hs hstep

end Sound

/-! ### All or nothing -/

section Atomic

variable {s s' : ByteStream} {heap : Heap} {v : Value} {ok : Bool}

/-- The pieces of the value are written, all or none. -/
def PiecesAtomic (heap : Heap) (s : ByteStream) (v : Value) : Prop :=
  ∃ ok s', s.writePieces (alloc heap) (pieces v) = .ok (ok, s') ∧ Atomic s v.encode s'

lemma insert_atomic_iff :
    (∃ s', s.insert (alloc heap) v = .ok s' ∧ Atomic s v.encode s') ↔ PiecesAtomic heap s v := by
  rw [insert_eq]
  constructor
  · rintro ⟨s', h, ha⟩
    obtain ⟨⟨ok, s₁⟩, hwrite, h⟩ := bind_eq_ok.1 h
    obtain rfl := Except.ok.inj h
    exact ⟨ok, _, hwrite, ha⟩
  · rintro ⟨ok, s', h, ha⟩
    exact ⟨s', by rw [h]; rfl, ha⟩

lemma pieces_first (v : Value) : ∃ data ds, pieces v = data :: ds ∧ data.length = firstPiece v ∧ data ≠ [] ∧
    data.length ≤ 4 ∧ data.length + ds.flatten.length = v.encode.length := by
  obtain ⟨data, ds, hv, hne, -⟩ := pieces_cons v
  have hflat := flatten_pieces v
  have hfirst : firstPiece v = data.length := by
    unfold firstPiece
    rw [hv, List.headD_cons]
  refine ⟨data, ds, hv, hfirst.symm, hne, ?_, ?_⟩
  · obtain ⟨t, v⟩ := v
    cases t <;> (obtain ⟨rfl, -⟩ := List.cons.inj hv; simp [Value.encode, put16, put32])
  · rw [← hflat, hv, List.flatten_cons, List.length_append]

lemma atomic_of_failed (hf : s.failed = true) : PiecesAtomic heap s v := by
  obtain ⟨data, ds, hv, -⟩ := pieces_first v
  refine ⟨false, s, ?_, .inr ⟨hf, rfl, rfl, rfl⟩⟩
  rw [hv, writePieces, writeRawData_of_failed _ hf]
  rfl

lemma atomic_of_room (hf : s.failed = false) (hle : s.currentPos.toNat + v.encode.length ≤ s.maxLen.toNat)
    (hsize : s.offset + s.maxLen.toNat ≤ (s.block.getD []).length) : PiecesAtomic heap s v := by
  obtain ⟨s', hwrite, hstored, -⟩ := writePieces_stored (alloc heap)
    (fun r => r.offset + s.maxLen.toNat ≤ (r.block.getD []).length ∧ r.maxLen = s.maxLen ∧
      r.currentPos.toNat ≤ s.maxLen.toNat) s.maxLen.toNat
    (fun r hr => by omega)
    (fun r data hr hf hfit => by
      obtain ⟨hsize, hmax, hpos⟩ := hr
      rw [← hmax] at hfit hsize
      obtain ⟨s', hwrite, hstored, hmax'⟩ := writeRawData_room (alloc heap) hf hfit hsize
      obtain ⟨extra, hmem, hin⟩ := hstored.mem
      rw [← hmax]
      refine ⟨s', hwrite, hstored, ?_, hmax', by rw [hstored.pos]; exact hfit⟩
      rw [hmem, patch_length_of_le hin, List.length_append, hstored.offset]
      omega)
    (pieces v) s ⟨hsize, rfl, by omega⟩ hf (by rw [flatten_pieces]; exact hle)
  rw [flatten_pieces] at hstored
  exact ⟨true, s', hwrite, .inl hstored⟩

lemma atomic_of_growth (hs : Growable s) (hf : s.failed = false) (hheap : Gives heap)
    (hroom : s.currentPos.toNat + v.encode.length ≤ 2 ^ 32 - 4096)
    (hb : s.block.isSome = true ∨ s.maxLen.toNat < s.currentPos.toNat + firstPiece v) : PiecesAtomic heap s v := by
  obtain ⟨data, ds, hv, hfirst, hne, -, hlen⟩ := pieces_first v
  obtain ⟨s₁, hwrite, hstored, hs₁, hb₁⟩ := writeRawData_growable data hs hf hheap (by omega)
    (.inr (hb.symm.imp (fun h => by rw [hfirst]; exact h) id)) (fun h => absurd h hne)
  obtain ⟨s', hrest, hstored', -⟩ := writePieces_stored (alloc heap)
    (fun r => Growable r ∧ r.block.isSome = true) (2 ^ 32 - 4096)
    (fun r hr => by
      rw [hr.1.offset, Nat.zero_add, ← ByteStream.size, hr.1.size hr.2]
      exact hr.1.pos)
    (fun r piece hr hf hfit => by
      obtain ⟨s', hwrite, hstored, hs', hb'⟩ := writeRawData_growable piece hr.1 hf hheap hfit (.inr (.inr hr.2))
        (fun _ => by rw [hr.1.size hr.2]; exact hr.1.pos)
      refine ⟨s', hwrite, hstored, hs', ?_⟩
      by_cases hpiece : piece = []
      · subst hpiece
        obtain ⟨-, rfl⟩ := Prod.mk.inj (Except.ok.inj (hwrite.symm.trans (writeRawData_zero _ hf)))
        exact hr.2
      · exact hb' hpiece)
    ds s₁ ⟨hs₁, hb₁ hne⟩ hstored.notFailed (by rw [hstored.pos]; omega)
  have hall := hstored.trans hstored'
  rw [← List.flatten_cons, ← hv, flatten_pieces] at hall
  refine ⟨true, s', ?_, .inl hall⟩
  rw [hv, writePieces, hwrite, ok_bind]
  exact hrest

lemma atomic_of_refusal (hs : Growable s) (hf : s.failed = false) (hheap : Refuses heap) (hb : s.block = none)
    (hgt : s.maxLen.toNat < s.currentPos.toNat + firstPiece v)
    (hroom : s.currentPos.toNat + firstPiece v ≤ 2 ^ 32 - 4096) : PiecesAtomic heap s v := by
  obtain ⟨data, ds, hv, hfirst, hne, hfour, -⟩ := pieces_first v
  obtain ⟨hn, h0, hpos⟩ := piece_length s hne (by omega)
  have hgt : s.currentPos + UInt32.ofNat data.length > s.maxLen := by
    rw [gt_iff_lt, UInt32.lt_iff_toNat_lt, hpos]
    omega
  have hstep : (4096 : UInt32).toNat = 4096 := rfl
  obtain ⟨size, hgrow, -⟩ :=
    (growLoop_eq 4096 (Nat.dvd_of_mod_eq_zero rfl) (by decide) hs.dvd hgt).2 (by rw [hpos]; omega)
  have hr : heap.realloc s.block size.toNat = none := by
    rw [Heap.realloc, hheap]
    rfl
  have halloc := alloc_of_refusal hf hs.isNew hgt hgrow hr
  refine ⟨false, { s with block := none, failed := true }, ?_, .inr ⟨rfl, rfl, rfl, ?_⟩⟩
  · rw [hv, writePieces, writeRawData, if_neg (by simp [hf]), if_neg h0, if_pos hgt, if_pos hs.isNew, halloc]
    rfl
  · unfold contents
    rw [hb]

/-- **The condition is enough**, for any memory. -/
lemma atomic_of_writesWhole (hs : Sound s) (h : WritesWhole heap s v) : PiecesAtomic heap s v := by
  rcases hf : s.failed with _ | _
  swap
  · exact atomic_of_failed hf
  rcases h with h | ⟨hb, hle⟩ | ⟨hnew, -, hroom, hheap, hb⟩ | ⟨hnew, hb, hgt, hroom, hheap⟩
  · rw [h] at hf
    cases hf
  · refine atomic_of_room hf hle ?_
    rcases hs with hs | ⟨hs, -⟩
    · exact hs.size
    · rw [hs.offset, Nat.zero_add, ← ByteStream.size, hs.size hb]
  · rcases hs with hs | ⟨hs, -⟩
    · rw [hs.isNew] at hnew
      cases hnew
    · exact atomic_of_growth hs hf hheap hroom hb
  · rcases hs with hs | ⟨hs, -⟩
    · rw [hs.isNew] at hnew
      cases hnew
    · exact atomic_of_refusal hs hf hheap hb hgt hroom

/-- **Without a buffer**, a write returns only if its first piece ends above `max_len_`, and the buffer can be made. -/
lemma null_needs (hs : Growable s) (hf : s.failed = false) (hb : s.block = none)
    (h : s.writePieces (alloc heap) (pieces v) = .ok (ok, s')) :
    s.maxLen.toNat < s.currentPos.toNat + firstPiece v ∧ s.currentPos.toNat + firstPiece v ≤ 2 ^ 32 - 4096 := by
  obtain ⟨data, ds, hv, hfirst, hne, hfour, -⟩ := pieces_first v
  have hmax := s.maxLen.toNat_lt
  have hpos := hs.pos
  have hn : (UInt32.ofNat data.length).toNat = data.length := by
    rw [UInt32.toNat_ofNat', Nat.mod_eq_of_lt (by omega)]
  have h0 : UInt32.ofNat data.length ≠ 0 := by
    intro h
    rw [h] at hn
    exact hne (List.length_eq_zero_iff.1 hn.symm)
  rw [hv, writePieces] at h
  obtain ⟨⟨ok₁, s₁⟩, hwrite, -⟩ := bind_eq_ok.1 h
  rw [writeRawData, if_neg (by simp [hf]), if_neg h0] at hwrite
  by_cases hgt : s.currentPos + UInt32.ofNat data.length > s.maxLen
  · rw [if_pos hgt, if_pos hs.isNew] at hwrite
    obtain ⟨⟨p, s₂⟩, halloc, -⟩ := bind_eq_ok.1 hwrite
    obtain ⟨size, hgrow, -⟩ := alloc_cases hf hs.isNew hgt halloc
    have hbound : (s.currentPos + UInt32.ofNat data.length).toNat + 4096 ≤ 2 ^ 32 := by
      by_contra hbig
      rw [(growLoop_eq 4096 (Nat.dvd_of_mod_eq_zero rfl) (by decide) hs.dvd hgt).1
        (show 2 ^ 32 < (s.currentPos + UInt32.ofNat data.length).toNat + 4096 by omega)] at hgrow
      cases hgrow
    rw [gt_iff_lt, UInt32.lt_iff_toNat_lt] at hgt
    rw [UInt32.toNat_add, hn] at hgt hbound
    omega
  · rw [if_neg hgt, putRawData_null hb h0] at hwrite
    cases hwrite

lemma fixed_needs (hs : Fixed s) (hf : s.failed = false) (h : PiecesAtomic heap s v) :
    s.currentPos.toNat + v.encode.length ≤ s.maxLen.toNat := by
  obtain ⟨ok, s', hwrite, ha⟩ := h
  obtain ⟨hs', hmax, hf'⟩ := writePieces_keeps
    (fun r => Fixed r ∧ r.maxLen = s.maxLen ∧ r.failed = false)
    (fun r r' data n ok hr hw => by
      obtain ⟨hr', hmax, hfailed⟩ := hr.1.write hw
      exact ⟨hr', hmax.trans hr.2.1, hfailed.trans hr.2.2⟩)
    _ _ _ _ ⟨hs, rfl, hf⟩ hwrite
  rcases ha with hstored | hrefused
  · have hpos := hs'.pos
    rwa [hmax, hstored.pos] at hpos
  · rw [hrefused.failed] at hf'
    cases hf'

/-- Where all memory is granted, a write that keeps to the rule ends at the largest size or before. -/
lemma gives_needs (hs : Growable s) (hlen : s.block.isSome = true → 0 < s.dataLen.toNat) (hf : s.failed = false)
    (hheap : Gives heap) (h : PiecesAtomic heap s v) :
    s.currentPos.toNat + v.encode.length ≤ 2 ^ 32 - 4096 := by
  obtain ⟨ok, s', hwrite, ha⟩ := h
  obtain ⟨hs', -, hf'⟩ := writePieces_keeps
    (fun r => Growable r ∧ (r.block.isSome = true → 0 < r.dataLen.toNat) ∧ r.failed = false)
    (fun r r' data n ok hr hw => by
      obtain ⟨hr', hlen', hfailed, -, -⟩ := hr.1.write hr.2.1 hw
      exact ⟨hr', hlen', (hfailed hheap).trans hr.2.2⟩)
    _ _ _ _ ⟨hs, hlen, hf⟩ hwrite
  rcases ha with hstored | hrefused
  · have hpos := hs'.pos
    have hmax := s'.maxLen.toNat_lt
    obtain ⟨k, hk⟩ := hs'.dvd
    rw [hstored.pos] at hpos
    omega
  · rw [hrefused.failed] at hf'
    cases hf'

/-- Where no memory is granted, a write that keeps to the rule fits, or there is no buffer and its first piece does not
fit. -/
lemma refuses_needs (hs : Growable s) (hlen : s.block.isSome = true → 0 < s.dataLen.toNat) (hf : s.failed = false)
    (hheap : Refuses heap) (h : PiecesAtomic heap s v) :
    s.currentPos.toNat + v.encode.length ≤ s.maxLen.toNat ∨
      s.block = none ∧ s.currentPos.toNat + firstPiece v ≤ 2 ^ 32 - 4096 := by
  obtain ⟨ok, s', hwrite, ha⟩ := h
  obtain ⟨hs', -, hmax, hlost⟩ := writePieces_keeps
    (fun r => Growable r ∧ (r.block.isSome = true → 0 < r.dataLen.toNat) ∧ r.maxLen = s.maxLen ∧
      (r.failed = true → r.block = none))
    (fun r r' data n ok hr hw => by
      obtain ⟨hr', hlen', -, hkept, hlost⟩ := hr.1.write hr.2.1 hw
      refine ⟨hr', hlen', (hkept hheap).trans hr.2.2.1, fun hf' => ?_⟩
      rcases hlost hf' with rfl | hnone
      · exact hr.2.2.2 hf'
      · exact hnone)
    _ _ _ _ ⟨hs, hlen, rfl, fun h => by rw [hf] at h; cases h⟩ hwrite
  rcases ha with hstored | hrefused
  · have hpos := hs'.pos
    rw [hmax, hstored.pos] at hpos
    exact .inl hpos
  -- the buffer is lost, so there was none
  have hempty : s.contents = [] := by
    rw [← hrefused.contents, contents, hlost hrefused.failed, Option.getD_none, List.drop_nil, List.take_nil]
  rcases hb : s.block with _ | block
  · exact .inr ⟨rfl, (null_needs hs hf hb hwrite).2⟩
  · have hsome : s.block.isSome = true := by rw [hb]; rfl
    have hsize : (s.block.getD []).length = s.maxLen.toNat := hs.size hsome
    have hdata := hlen hsome
    have hle := hs.len
    have hnil := congrArg List.length hempty
    rw [contents, List.length_take, List.length_drop, hsize, hs.offset, List.length_nil] at hnil
    omega

/-- **The condition is all there is**, where the requests are all granted or all refused. -/
lemma writesWhole_of_atomic (hs : Sound s) (hheap : Gives heap ∨ Refuses heap) (h : PiecesAtomic heap s v) :
    WritesWhole heap s v := by
  rcases hf : s.failed with _ | _
  swap
  · exact .inl hf
  right
  rcases hs with hs | ⟨hs, hlen⟩
  · exact .inl ⟨hs.hasBlock, fixed_needs hs hf h⟩
  have hfirst : s.block.isSome = true ∨ s.maxLen.toNat < s.currentPos.toNat + firstPiece v := by
    obtain ⟨ok, s', hwrite, -⟩ := h
    rcases hb : s.block with _ | block
    · exact .inr (null_needs hs hf hb hwrite).1
    · exact .inl rfl
  obtain ⟨data, ds, -, hpiece, -, -, hsum⟩ := pieces_first v
  by_cases hle : s.currentPos.toNat + v.encode.length ≤ s.maxLen.toNat
  · exact .inl ⟨hfirst.resolve_right (by omega), hle⟩
  right
  rcases hheap with hheap | hheap
  · exact .inl ⟨hs.isNew, by omega, gives_needs hs hlen hf hheap h, hheap, hfirst⟩
  · rcases refuses_needs hs hlen hf hheap h with hle' | ⟨hb, hroom⟩
    · omega
    · refine .inr ⟨hs.isNew, hb, hfirst.resolve_left ?_, hroom, hheap⟩
      rw [hb]
      exact Bool.false_ne_true

end Atomic

/-- **A write keeps to the rule where `WritesWhole` says**, after any operations on a stream over a buffer or on one that
grows, with any memory for each of them. Where the requests of the write are all granted or all refused, it does
nowhere else. -/
theorem write_atomic_iff {s₀ s : ByteStream} {ops : List (Heap × StreamOp)}
    (h₀ : s₀ = new ∨ ∃ bytes : List UInt8, bytes.length < 2 ^ 32 ∧
      s₀ = ofBuffer (some bytes) 0 (UInt32.ofNat bytes.length))
    (h : Run (Operates alloc) s₀ ops s) (heap : Heap) (v : Value) :
    (WritesWhole heap s v →
      (∃ s', s.insert (alloc heap) v = .ok s' ∧ Atomic s v.encode s') ∧
      ∀ str, v = ⟨.string, str⟩ → ∃ ok s', s.writeString (alloc heap) str = .ok (ok, s') ∧ Atomic s v.encode s') ∧
    (Gives heap ∨ Refuses heap → (∃ s', s.insert (alloc heap) v = .ok s' ∧ Atomic s v.encode s') →
      WritesWhole heap s v) := by
  have hs : Sound s := by
    refine sound_of_run ?_ h
    rcases h₀ with rfl | ⟨bytes, hlen, rfl⟩
    · exact sound_new
    · exact .inl (fixed_ofBuffer hlen)
  rw [insert_atomic_iff]
  refine ⟨fun hw => ⟨atomic_of_writesWhole hs hw, ?_⟩, fun hheap ha => writesWhole_of_atomic hs hheap ha⟩
  rintro str rfl
  rw [writeString_eq]
  exact atomic_of_writesWhole hs hw

/-- There is no memory. -/
def noMemory : Heap := fun _ _ => none

/-- The cursor is moved behind the first of three bytes, and a number of two bytes is written. -/
theorem write_atomic_iff_two :
    ∃ s', ({ ofBuffer (some [1, 2, 3]) 0 3 with currentPos := 1 } : ByteStream).insert (alloc noMemory) ⟨.uint16, 7⟩ =
        .ok s' ∧ Atomic { ofBuffer (some [1, 2, 3]) 0 3 with currentPos := 1 } [0, 7] s' := by
  have hstep : Operates alloc (ofBuffer (some [1, 2, 3]) 0 3) (noMemory, .read (.seek 1))
      { ofBuffer (some [1, 2, 3]) 0 3 with currentPos := 1 } := rfl
  exact ((write_atomic_iff (.inr ⟨[1, 2, 3], by decide, rfl⟩) (Run.nil.snoc hstep) noMemory ⟨.uint16, 7⟩).1
    (.inr (.inl ⟨rfl, by decide⟩))).1

/-- **A buffer that is too short hides the failure.** A number of two bytes does not fit into one, and the stream has not
failed. Of a string of two bytes in a buffer of five, the length is stored and the cursor is behind it. -/
theorem short_buffer_hides_failure :
    (¬ ∃ s', (ofBuffer (some [9]) 0 1).insert (alloc noMemory) ⟨.uint16, 7⟩ = .ok s' ∧
      Atomic (ofBuffer (some [9]) 0 1) [0, 7] s') ∧
    ¬ ∃ s', (ofBuffer (some [9, 9, 9, 9, 9]) 0 5).insert (alloc noMemory) ⟨.string, [104, 105]⟩ = .ok s' ∧
      Atomic (ofBuffer (some [9, 9, 9, 9, 9]) 0 5) [0, 0, 0, 2, 104, 105] s' := by
  constructor
  · rintro ⟨s', h, hstored | hrefused⟩
    · obtain rfl := Except.ok.inj h
      exact absurd hstored.pos (by decide)
    · obtain rfl := Except.ok.inj h
      cases hrefused.failed
  · rintro ⟨s', h, hstored | hrefused⟩
    · obtain rfl := Except.ok.inj h
      exact absurd hstored.pos (by decide)
    · obtain rfl := Except.ok.inj h
      cases hrefused.failed

end Zutils.ByteStream
