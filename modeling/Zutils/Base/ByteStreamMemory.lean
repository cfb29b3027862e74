import Zutils.Base.ByteStreamChecks
import Zutils.Lib.Tape

/-!
# The memory of a byte stream that is written to

What a write does to the block: `Stored` says it for any stream, whether the block has grown on the way or not. A value
is written in one piece, and a string in two (`pieces`); where every piece is stored, so is the whole
(`writePieces_stored`), and where a stream has been written to from its start, `<<` appends the encoding of the value
(`insert_written`).

`Growable` holds of a stream that allocates its buffer. The sizes that the loop of `Alloc` goes through are multiples
of 4096, so it ends exactly for what is not more than the largest of them (`growLoop_eq`).
-/

namespace Zutils.ByteStream

open Zutils.Lib

/-! ### The loop of `Alloc` -/

section Grow

variable {step newLen size size' : UInt32}

lemma dvd_add_step (hstep : step.toNat ∣ 2 ^ 32) (hsize : step.toNat ∣ size.toNat) :
    step.toNat ∣ (size + step).toNat := by
  rw [UInt32.toNat_add]
  exact (Nat.dvd_mod_iff hstep).2 (Nat.dvd_add hsize (Nat.dvd_refl _))

lemma grow_dvd (hstep : step.toNat ∣ 2 ^ 32) {fuel : ℕ} (hsize : step.toNat ∣ size.toNat)
    (h : grow step newLen fuel size = some size') : step.toNat ∣ size'.toNat := by
  induction fuel generalizing size with
  | zero => cases h
  | succ fuel ih =>
    unfold grow at h
    split at h
    · exact ih (dvd_add_step hstep hsize) h
    · obtain rfl := Option.some.inj h
      exact hsize

/-- No multiple of the step below `2 ^ 32` suffices. -/
lemma grow_none (hstep : step.toNat ∣ 2 ^ 32) (hnew : 2 ^ 32 < newLen.toNat + step.toNat) (fuel : ℕ)
    (hsize : step.toNat ∣ size.toNat) : grow step newLen fuel size = none := by
  induction fuel generalizing size with
  | zero => rfl
  | succ fuel ih =>
    have hle : size.toNat + step.toNat ≤ 2 ^ 32 := by
      obtain ⟨k, hk⟩ := hstep
      obtain ⟨j, hj⟩ := hsize
      have hlt : step.toNat * j < step.toNat * k := by
        rw [← hj, ← hk]
        exact size.toNat_lt
      have hjk : j + 1 ≤ k := Nat.lt_of_mul_lt_mul_left hlt
      calc size.toNat + step.toNat = step.toNat * (j + 1) := by rw [hj, Nat.mul_succ]
        _ ≤ step.toNat * k := Nat.mul_le_mul_left _ hjk
        _ = 2 ^ 32 := hk.symm
    have hlt : size < newLen := by
      rw [UInt32.lt_iff_toNat_lt]
      omega
    rw [grow, if_pos hlt]
    exact ih (dvd_add_step hstep hsize)

/-- **The loop ends exactly if a multiple of the step suffices**, and then with the first one. -/
theorem growLoop_eq (step : UInt32) (hstep : step.toNat ∣ 2 ^ 32) (hpos : 0 < step.toNat)
    (hsize : step.toNat ∣ size.toNat) (hlt : size < newLen) :
    (2 ^ 32 < newLen.toNat + step.toNat → growLoop step newLen size = .error .diverges) ∧
    (newLen.toNat + step.toNat ≤ 2 ^ 32 → ∃ size', growLoop step newLen size = .ok size' ∧
      newLen.toNat ≤ size'.toNat ∧ size.toNat + step.toNat ≤ size'.toNat ∧
      size'.toNat < newLen.toNat + step.toNat ∧ step.toNat ∣ size'.toNat) := by
  constructor
  · intro hnew
    rw [growLoop, grow_none hstep hnew _ hsize]
  · intro hnew
    obtain ⟨size', hgrow, hle, hmin, hmax⟩ := growLoop_ok hnew hpos hlt
    refine ⟨size', hgrow, hle, hmin, hmax, ?_⟩
    unfold growLoop at hgrow
    split at hgrow
    · rename_i hsome
      obtain rfl := Except.ok.inj hgrow
      exact grow_dvd hstep hsize hsome
    · cases hgrow

lemma growLoop_of_ok (step : UInt32) (hstep : step.toNat ∣ 2 ^ 32) (hpos : 0 < step.toNat)
    (hsize : step.toNat ∣ size.toNat) (hlt : size < newLen) (h : growLoop step newLen size = .ok size') :
    newLen.toNat ≤ size'.toNat ∧ size.toNat + step.toNat ≤ size'.toNat ∧ size'.toNat < newLen.toNat + step.toNat ∧
      step.toNat ∣ size'.toNat := by
  obtain ⟨hdiv, hok⟩ := growLoop_eq step hstep hpos hsize hlt
  by_cases hnew : newLen.toNat + step.toNat ≤ 2 ^ 32
  · obtain ⟨size'', hgrow, hall⟩ := hok hnew
    obtain rfl := Except.ok.inj (h.symm.trans hgrow)
    exact hall
  · rw [hdiv (by omega)] at h
    cases h

end Grow

lemma realloc_length {heap : Heap} {block : Option (List UInt8)} {n : ℕ} {new : List UInt8}
    (h : heap.realloc block n = some new) : new.length = n := by
  unfold Heap.realloc at h
  obtain ⟨fresh, -, rfl⟩ := Option.map_eq_some_iff.1 h
  rw [List.length_append, List.length_take, List.length_map, List.length_range']
  omega

/-! ### What `Alloc` returns -/

section Alloc

variable {heap : Heap} {s : ByteStream} {newLen size : UInt32} {block : List UInt8}

lemma alloc_of_failed (hf : s.failed = true) : alloc heap s newLen = .ok (false, s) := if_pos hf

lemma alloc_of_le (hf : s.failed = false) (hnew : s.isNew = true) (hle : newLen ≤ s.maxLen) :
    alloc heap s newLen = .ok (s.block.isSome, s) := by
  rw [alloc, if_neg (by simp [hf]), if_neg (by simp [hnew]), if_neg (UInt32.not_lt.2 hle)]

variable (hf : s.failed = false) (hnew : s.isNew = true) (hgt : s.maxLen < newLen)

include hf hnew hgt

lemma alloc_of_diverges (hgrow : growLoop 4096 newLen s.maxLen = .error .diverges) :
    alloc heap s newLen = .error .diverges := by
  rw [alloc, if_neg (by simp [hf]), if_neg (by simp [hnew]), if_pos hgt, hgrow]
  rfl

lemma alloc_of_realloc (hgrow : growLoop 4096 newLen s.maxLen = .ok size)
    (hr : heap.realloc s.block size.toNat = some block) :
    alloc heap s newLen = .ok (true, { s with block := some block, maxLen := size }) := by
  rw [alloc, if_neg (by simp [hf]), if_neg (by simp [hnew]), if_pos hgt, hgrow, ok_bind, hr]
  rfl

/-- When `realloc` gives nothing, the block is lost. -/
lemma alloc_of_refusal (hgrow : growLoop 4096 newLen s.maxLen = .ok size) (hr : heap.realloc s.block size.toNat = none) :
    alloc heap s newLen = .ok (false, { s with block := none, failed := true }) := by
  rw [alloc, if_neg (by simp [hf]), if_neg (by simp [hnew]), if_pos hgt, hgrow, ok_bind, hr]
  rfl

end Alloc

/-! ### Storing -/

section Store

variable {s s' s'' : ByteStream} {data more : List UInt8} {n : UInt32} {ok : Bool}

/-- The position that a `Seek` answers with -1. -/
lemma eq_of_toInt32 {a : UInt32} (h : a.toInt32 = -1) : a = 4294967295 := by
  rw [← UInt32.toUInt32_toInt32 a, h]
  rfl

lemma toNat_ite_max (a b : UInt32) : (if a < b then b else a).toNat = max a.toNat b.toNat := by
  split
  · rename_i hlt
    rw [UInt32.lt_iff_toNat_lt] at hlt
    omega
  · rename_i hge
    rw [UInt32.lt_iff_toNat_lt] at hge
    omega

lemma piece_length (s : ByteStream) (hdata : data ≠ []) (hlt : s.currentPos.toNat + data.length < 2 ^ 32) :
    (UInt32.ofNat data.length).toNat = data.length ∧ UInt32.ofNat data.length ≠ 0 ∧
      (s.currentPos + UInt32.ofNat data.length).toNat = s.currentPos.toNat + data.length := by
  have hn : (UInt32.ofNat data.length).toNat = data.length := UInt32.toNat_ofNat_of_lt' (Nat.lt_of_add_left_lt hlt)
  refine ⟨hn, fun h => hdata ?_, ?_⟩
  · rw [h] at hn
    exact List.length_eq_zero_iff.1 hn.symm
  · rw [toNat_add_of_lt (by rw [hn]; exact hlt), hn]

lemma putRawData_eq (hn : n.toNat = data.length)
    (hfit : s.offset + s.currentPos.toNat + data.length ≤ (s.block.getD []).length) :
    s.putRawData data n = .ok (true, { s with
      block := some (patch (s.block.getD []) (s.offset + s.currentPos.toNat) data)
      currentPos := s.currentPos + n
      dataLen := if s.dataLen < s.currentPos + n then s.currentPos + n else s.dataLen }) := by
  rw [putRawData, store, hn, if_pos ⟨Nat.le_refl _, hfit⟩, List.take_length]
  rfl

lemma putRawData_out (h : (s.block.getD []).length < s.offset + s.currentPos.toNat + n.toNat) :
    s.putRawData data n = .error .outOfRange := by
  rw [putRawData, ByteStream.store, if_neg (by omega)]
  rfl

lemma putRawData_of_ok (h : s.putRawData data n = .ok (ok, s')) : ok = true ∧
    s.offset + s.currentPos.toNat + n.toNat ≤ (s.block.getD []).length ∧
    s' = { s with
      block := some (patch (s.block.getD []) (s.offset + s.currentPos.toNat) (data.take n.toNat))
      currentPos := s.currentPos + n
      dataLen := if s.dataLen < s.currentPos + n then s.currentPos + n else s.dataLen } := by
  rw [putRawData, ByteStream.store] at h
  split at h
  · rename_i hfit
    obtain ⟨rfl, rfl⟩ := Prod.mk.inj (Except.ok.inj h)
    have htake : (data.take n.toNat).length = n.toNat := by
      rw [List.length_take]
      omega
    refine ⟨rfl, hfit.2, ?_⟩
    unfold patch
    rw [htake]
  · cases h

lemma writeRawData_zero (alloc : Alloc) (hf : s.failed = false) : s.writeRawData alloc data 0 = .ok (true, s) := by
  rw [writeRawData, if_neg (by simp [hf]), if_pos rfl]

lemma writeRawData_of_failed (alloc : Alloc) (hf : s.failed = true) : s.writeRawData alloc data n = .ok (false, s) := by
  rw [writeRawData, if_pos hf]

lemma readRawData_of_le (hf : s.failed = false) (hle : s.currentPos.toNat + n.toNat ≤ s.maxLen.toNat)
    (hmem : s.Holds n.toNat) : s.readRawData n = .ok (some (s.front n.toNat), s.advance n) := by
  have hmax := s.maxLen.toNat_lt
  have hrej : ¬ s.Rejects n := by
    rw [Rejects, gt_iff_lt, UInt32.lt_iff_toNat_lt, toNat_add_of_lt (by omega)]
    omega
  by_cases h0 : n = 0
  · subst h0
    rw [readRawData_zero hf hrej, advance_zero]
    rfl
  · exact readRawData_held hf hrej h0 hmem

/-- The data has been stored at the cursor, which is behind it now. The block may have grown before. -/
structure Stored (s : ByteStream) (data : List UInt8) (s' : ByteStream) : Prop where
  notFailed : s'.failed = false
  pos : s'.currentPos.toNat = s.currentPos.toNat + data.length
  len : s'.dataLen.toNat =
    if data = [] then s.dataLen.toNat else max s.dataLen.toNat (s.currentPos.toNat + data.length)
  offset : s'.offset = s.offset
  mem : ∃ extra, s'.block.getD [] = patch (s.block.getD [] ++ extra) (s.offset + s.currentPos.toNat) data ∧
    s.offset + s.currentPos.toNat + data.length ≤ (s.block.getD [] ++ extra).length

lemma stored_of_put (hf : s.failed = false) (hdata : data ≠ []) (hn : n.toNat = data.length)
    (hpos : (s.currentPos + n).toNat = s.currentPos.toNat + data.length) (extra : List UInt8) (maxLen : UInt32)
    (hfit : s.offset + s.currentPos.toNat + data.length ≤ (s.block.getD [] ++ extra).length) :
    ∃ s', ({ s with block := some (s.block.getD [] ++ extra), maxLen := maxLen } : ByteStream).putRawData data n =
        .ok (true, s') ∧ Stored s data s' := by
  refine ⟨_, putRawData_eq hn hfit, hf, hpos, ?_, rfl, extra, rfl, hfit⟩
  rw [if_neg hdata, toNat_ite_max, hpos]

/-- What has been written: the bytes up to `Length()`. -/
def contents (s : ByteStream) : List UInt8 := ((s.block.getD []).drop s.offset).take s.dataLen.toNat

lemma contents_length (h : s.offset + s.dataLen.toNat ≤ (s.block.getD []).length) :
    s.contents.length = s.dataLen.toNat := by
  unfold contents
  rw [List.length_take, List.length_drop]
  omega

lemma contents_of_stored (hroom : s.offset + s.dataLen.toNat ≤ (s.block.getD []).length) (hstored : Stored s data s')
    (hlen : s'.dataLen = s.dataLen) (hfit : s.currentPos.toNat + data.length ≤ s.dataLen.toNat) :
    s'.contents = patch s.contents s.currentPos.toNat data := by
  have hcontents := contents_length hroom
  have hoff := hstored.offset
  obtain ⟨extra, hmem, -⟩ := hstored.mem
  have hhead : ((s.block.getD []).take s.offset).length = s.offset := by
    rw [List.length_take]
    omega
  have hsplit : s.block.getD [] = (s.block.getD []).take s.offset ++ s.contents ++
      ((s.block.getD []).drop s.offset).drop s.dataLen.toNat := by
    unfold contents
    rw [List.append_assoc, List.take_append_drop, List.take_append_drop]
  have hpatch : (patch s.contents s.currentPos.toNat data).length = s.dataLen.toNat := by
    rw [patch_length_of_le (by omega), hcontents]
  have hblock : s'.block.getD [] = (s.block.getD []).take s.offset ++
      (patch s.contents s.currentPos.toNat data ++
        (((s.block.getD []).drop s.offset).drop s.dataLen.toNat ++ extra).drop
          (s.currentPos.toNat + data.length - s.contents.length)) := by
    rw [hmem, ← List.append_assoc, ← patch_append _ _ _ (by omega), hhead]
    congr 1
    rw [← List.append_assoc, ← hsplit]
  unfold contents
  rw [hblock, hoff, List.drop_left' hhead, hlen, List.take_left' hpatch]
  rfl

lemma stored_nil (hf : s.failed = false) (hpos : s.offset + s.currentPos.toNat ≤ (s.block.getD []).length) :
    Stored s [] s where
  notFailed := hf
  pos := rfl
  len := (if_pos rfl).symm
  offset := rfl
  mem := ⟨[], by rw [patch_nil, List.append_nil], by rwa [List.append_nil]⟩

lemma writeRawData_room (alloc : Alloc) (hf : s.failed = false)
    (hle : s.currentPos.toNat + data.length ≤ s.maxLen.toNat)
    (hsize : s.offset + s.maxLen.toNat ≤ (s.block.getD []).length) :
    ∃ s', s.writeRawData alloc data (UInt32.ofNat data.length) = .ok (true, s') ∧ Stored s data s' ∧
      s'.maxLen = s.maxLen := by
  have hmax := s.maxLen.toNat_lt
  by_cases hdata : data = []
  · subst hdata
    exact ⟨s, writeRawData_zero _ hf, stored_nil hf (by omega), rfl⟩
  obtain ⟨hn, h0, hpos⟩ := piece_length s hdata (by omega)
  have hcheck : ¬ s.currentPos + UInt32.ofNat data.length > s.maxLen := by
    rw [gt_iff_lt, UInt32.lt_iff_toNat_lt, hpos]
    omega
  have hwrite : s.writeRawData alloc data (UInt32.ofNat data.length) = s.putRawData data (UInt32.ofNat data.length) := by
    rw [writeRawData, if_neg (by simp [hf]), if_neg h0, if_neg hcheck]
  rw [putRawData_eq hn (by omega)] at hwrite
  refine ⟨_, hwrite, ⟨hf, hpos, ?_, rfl, [], ?_, ?_⟩, rfl⟩
  · rw [if_neg hdata, toNat_ite_max, hpos]
  · rw [List.append_nil]
    rfl
  · rw [List.append_nil]
    omega

/-- **Two pieces in a row** are one. -/
theorem Stored.trans (h : Stored s data s') (h' : Stored s' more s'') : Stored s (data ++ more) s'' := by
  obtain ⟨extra, hmem, hfit⟩ := h.mem
  obtain ⟨extra', hmem', hfit'⟩ := h'.mem
  have hlen : (s'.block.getD []).length = (s.block.getD [] ++ extra).length := by
    rw [hmem, patch_length_of_le hfit]
  have hpos : s'.offset + s'.currentPos.toNat = s.offset + s.currentPos.toNat + data.length := by
    rw [h.offset, h.pos, Nat.add_assoc]
  refine ⟨h'.notFailed, ?_, ?_, h'.offset.trans h.offset, extra ++ extra', ?_, ?_⟩
  · rw [h'.pos, h.pos, List.length_append, Nat.add_assoc]
  · rw [h'.len, h.len, h.pos]
    rcases data with _ | ⟨a, data⟩
    · rfl
    · rcases more with _ | ⟨b, more⟩
      · simp
      · simp only [if_neg (List.cons_ne_nil _ _), List.cons_append, List.length_cons, List.length_append]
        omega
  · rw [hmem', hmem, hpos, patch_patch _ hfit, List.append_assoc]
  · rw [List.length_append, hlen] at hfit'
    rw [List.length_append, ← List.append_assoc, List.length_append]
    omega

end Store

/-! ### Values in pieces -/

/-- What `<<` passes to `WriteRawData`: a string is written behind its length. -/
def pieces : Value → List (List UInt8)
  | ⟨.string, str⟩ => [put32 (UInt32.ofNat str.length), str]
  | v => [v.encode]

lemma flatten_pieces (v : Value) : (pieces v).flatten = v.encode := by
  obtain ⟨t, v⟩ := v
  cases t <;> simp [pieces, Value.encode]

section Pieces

variable (alloc : Alloc)

/-- Some pieces, until one is not written. -/
def writePieces : ByteStream → List (List UInt8) → Except StreamFault (Bool × ByteStream)
  | s, [] => .ok (true, s)
  | s, data :: ds => do
    let (ok, s) ← s.writeRawData alloc data (UInt32.ofNat data.length)
    if ok then writePieces s ds else return (false, s)

variable {alloc} {s : ByteStream}

lemma writePieces_singleton (data : List UInt8) :
    s.writePieces alloc [data] = s.writeRawData alloc data (UInt32.ofNat data.length) := by
  rw [writePieces]
  rcases s.writeRawData alloc data (UInt32.ofNat data.length) with e | ⟨ok, s'⟩
  · rfl
  · cases ok <;> rfl

lemma writeString_eq (str : List UInt8) :
    s.writeString alloc str = s.writePieces alloc [put32 (UInt32.ofNat str.length), str] := by
  rw [writePieces]
  simp only [writePieces_singleton]
  rfl

/-- **A value is written in its pieces.** -/
theorem insert_eq (v : Value) :
    s.insert alloc v = (do let (_, s) ← s.writePieces alloc (pieces v); return s) := by
  have hone : ∀ data, pieces v = [data] → s.writePieces alloc (pieces v) =
      s.writeRawData alloc data (UInt32.ofNat data.length) := by
    intro data hv
    rw [hv, writePieces_singleton]
  obtain ⟨t, v⟩ := v
  cases t with
  | string => rw [insert, writeString_eq]; rfl
  | bool => rw [hone _ rfl]; rfl
  | char => rw [hone _ rfl]; rfl
  | uint8 => rw [hone _ rfl]; rfl
  | int16 => rw [hone _ (by rw [pieces, Value.encode, ← putInt16_eq]; simp)]; rfl
  | uint16 => rw [hone _ rfl]; rfl
  | int32 => rw [hone _ (by rw [pieces, Value.encode, ← putInt32_eq]; simp)]; rfl
  | uint32 => rw [hone _ rfl]; rfl

lemma pieces_cons (v : Value) : ∃ data ds, pieces v = data :: ds ∧ data ≠ [] ∧ data.length ≤ 4 := by
  obtain ⟨t, v⟩ := v
  cases t <;> exact ⟨_, _, rfl, by simp [Value.encode, put32, put16]⟩

/-- **If every piece is stored, so is the whole.** The invariant is that of the streams in which a piece is stored if it
ends at `limit` or before. -/
theorem writePieces_stored (alloc : Alloc) (inv : ByteStream → Prop) (limit : ℕ)
    (hbound : ∀ s, inv s → s.offset + s.currentPos.toNat ≤ (s.block.getD []).length)
    (hraw : ∀ s data, inv s → s.failed = false → s.currentPos.toNat + data.length ≤ limit →
      ∃ s', s.writeRawData alloc data (UInt32.ofNat data.length) = .ok (true, s') ∧ Stored s data s' ∧ inv s')
    (ds : List (List UInt8)) :
    ∀ s, inv s → s.failed = false → s.currentPos.toNat + ds.flatten.length ≤ limit →
      ∃ s', s.writePieces alloc ds = .ok (true, s') ∧ Stored s ds.flatten s' ∧ inv s' := by
  induction ds with
  | nil => exact fun s hs hf _ => ⟨s, rfl, stored_nil hf (hbound s hs), hs⟩
  | cons data ds ih =>
    intro s hs hf hfit
    rw [List.flatten_cons, List.length_append] at hfit
    obtain ⟨s', hwrite, hstored, hs'⟩ := hraw s data hs hf (by omega)
    obtain ⟨s'', hrest, hstored', hs''⟩ := ih s' hs' hstored.notFailed (by rw [hstored.pos]; omega)
    refine ⟨s'', ?_, hstored.trans hstored', hs''⟩
    rw [writePieces, hwrite, ok_bind]
    exact hrest

/-- **Pieces are appended** one by one. -/
theorem writePieces_written {inv : ℕ → ℕ → UInt32 → Prop} {alloc : Alloc} {limit : ℕ}
    (halloc : MakesRoom alloc inv limit) (hlimit : limit ≤ 2 ^ 32) (ds : List (List UInt8)) :
    ∀ s bytes, Written inv s bytes → (bytes ++ ds.flatten).length < limit →
      ∃ s', s.writePieces alloc ds = .ok (true, s') ∧ Written inv s' (bytes ++ ds.flatten) := by
  induction ds with
  | nil =>
    intro s bytes hs _
    exact ⟨s, rfl, by rwa [List.flatten_nil, List.append_nil]⟩
  | cons data ds ih =>
    intro s bytes hs hfit
    rw [List.flatten_cons, ← List.append_assoc] at hfit ⊢
    have hlen : bytes.length + data.length < limit := by
      rw [List.length_append, List.length_append] at hfit
      omega
    have hn : (UInt32.ofNat data.length).toNat = data.length := by
      rw [UInt32.toNat_ofNat', Nat.mod_eq_of_lt (by omega)]
    obtain ⟨s₁, hwrite, hs₁⟩ := writeRawData_written halloc hlimit hs hn hlen
    obtain ⟨s₂, hrest, hs₂⟩ := ih s₁ _ hs₁ hfit
    refine ⟨s₂, ?_, hs₂⟩
    rw [writePieces, hwrite, ok_bind]
    exact hrest

/-- **`<<` appends the encoding of the value.** -/
theorem insert_written {inv : ℕ → ℕ → UInt32 → Prop} {alloc : Alloc} {limit : ℕ} {bytes : List UInt8} {v : Value}
    (halloc : MakesRoom alloc inv limit) (hlimit : limit ≤ 2 ^ 32) (hw : Written inv s bytes)
    (hfit : (bytes ++ v.encode).length < limit) :
    ∃ s', s.insert alloc v = .ok s' ∧ Written inv s' (bytes ++ v.encode) := by
  rw [← flatten_pieces v] at hfit ⊢
  obtain ⟨s', hwrite, hs'⟩ := writePieces_written halloc hlimit (pieces v) s bytes hw hfit
  refine ⟨s', ?_, hs'⟩
  rw [insert_eq, hwrite]
  rfl

end Pieces

/-! ### Streams that grow -/

/-- The stream allocates its buffer. After an allocation that failed it has none, and `max_len_` is still the size of
the one it had. -/
structure Growable (s : ByteStream) : Prop where
  isNew : s.isNew = true
  offset : s.offset = 0
  size : s.block.isSome → s.size = s.maxLen.toNat
  dvd : 4096 ∣ s.maxLen.toNat
  pos : s.currentPos.toNat ≤ s.maxLen.toNat
  len : s.dataLen.toNat ≤ s.maxLen.toNat

section Growable

variable {s : ByteStream} {heap : Heap} {data : List UInt8} {newLen : UInt32}

lemma growable_new : Growable new := by
  refine ⟨rfl, rfl, fun h => (by cases h), ?_, Nat.le_refl _, Nat.le_refl _⟩
  exact Nat.dvd_zero _

lemma Growable.size_le (hs : Growable s) : s.size ≤ s.maxLen.toNat := by
  rcases hb : s.block with _ | block
  · rw [ByteStream.size, hb]
    exact Nat.zero_le _
  · rw [hs.size (by rw [hb]; rfl)]

/-- **`Alloc` enlarges the block**, if it gets the memory. -/
lemma alloc_granted (hs : Growable s) (hf : s.failed = false) (hlt : s.maxLen < newLen)
    (hroom : newLen.toNat + 4096 ≤ 2 ^ 32) (hheap : Gives heap) :
    ∃ extra maxLen, alloc heap s newLen =
        .ok (true, { s with block := some (s.block.getD [] ++ extra), maxLen := maxLen }) ∧
      s.size + extra.length = maxLen.toNat ∧ newLen.toNat ≤ maxLen.toNat ∧ 4096 ∣ maxLen.toNat := by
  obtain ⟨maxLen, hgrow, hle, hmin, -, hdvd⟩ :=
    (growLoop_eq 4096 (Nat.dvd_of_mod_eq_zero rfl) (by decide) hs.dvd hlt).2 hroom
  have hsize : (s.block.getD []).length ≤ maxLen.toNat := by
    have := hs.size_le
    rw [ByteStream.size] at this
    omega
  obtain ⟨extra, hrealloc, hlen⟩ := realloc_gives hheap hsize
  exact ⟨extra, maxLen, alloc_of_realloc hf hs.isNew hlt hgrow hrealloc, hlen, hle, hdvd⟩

lemma Growable.store (hs : Growable s) (hf : s.failed = false) (hdata : data ≠ []) {extra : List UInt8} {maxLen : UInt32}
    (hfit : s.currentPos.toNat + data.length ≤ maxLen.toNat)
    (hsize : (s.block.getD [] ++ extra).length = maxLen.toNat) (hdvd : 4096 ∣ maxLen.toNat)
    (hle : s.maxLen.toNat ≤ maxLen.toNat) :
    ∃ s', ({ s with block := some (s.block.getD [] ++ extra), maxLen := maxLen } : ByteStream).putRawData data
        (UInt32.ofNat data.length) = .ok (true, s') ∧ Stored s data s' ∧ Growable s' ∧ s'.block.isSome = true := by
  have hmax := maxLen.toNat_lt
  have hoff := hs.offset
  have hlen := hs.len
  obtain ⟨hn, -, hpos⟩ := piece_length s hdata (by omega)
  refine ⟨_, putRawData_eq hn ?_, ⟨hf, hpos, ?_, rfl, extra, rfl, ?_⟩, ⟨hs.isNew, hoff, fun _ => ?_, hdvd, ?_, ?_⟩, rfl⟩
  · show s.offset + s.currentPos.toNat + data.length ≤ (s.block.getD [] ++ extra).length
    omega
  · rw [if_neg hdata, toNat_ite_max, hpos]
  · omega
  · rw [ByteStream.size]
    simp only [Option.getD_some]
    rw [patch_length_of_le (by omega), hsize]
  · show (s.currentPos + UInt32.ofNat data.length).toNat ≤ maxLen.toNat
    omega
  · show UInt32.toNat (if s.dataLen < s.currentPos + UInt32.ofNat data.length then
        s.currentPos + UInt32.ofNat data.length else s.dataLen) ≤ maxLen.toNat
    rw [toNat_ite_max, hpos]
    omega

/-- **A write to a stream that grows** is stored, if there is memory for it below `2 ^ 32 - 4096`. -/
theorem writeRawData_growable (data : List UInt8) (hs : Growable s) (hf : s.failed = false) (hheap : Gives heap)
    (hroom : s.currentPos.toNat + data.length ≤ 2 ^ 32 - 4096)
    (hblock : data = [] ∨ s.maxLen.toNat < s.currentPos.toNat + data.length ∨ s.block.isSome = true)
    (hstart : data = [] → s.currentPos.toNat ≤ s.size) :
    ∃ s', s.writeRawData (alloc heap) data (UInt32.ofNat data.length) = .ok (true, s') ∧ Stored s data s' ∧
      Growable s' ∧ (data ≠ [] → s'.block.isSome = true) := by
  by_cases hdata : data = []
  · subst hdata
    refine ⟨s, writeRawData_zero _ hf, stored_nil hf ?_, hs, fun h => absurd rfl h⟩
    rw [hs.offset, Nat.zero_add]
    exact hstart rfl
  obtain ⟨-, h0, hpos⟩ := piece_length s hdata (by omega)
  rw [writeRawData, if_neg (by simp [hf]), if_neg h0]
  by_cases hgt : s.currentPos + UInt32.ofNat data.length > s.maxLen
  · obtain ⟨extra, maxLen, halloc, hsize, hle, hdvd⟩ := alloc_granted hs hf hgt (by rw [hpos]; omega) hheap
    rw [if_pos hgt, if_pos hs.isNew, halloc]
    rw [gt_iff_lt, UInt32.lt_iff_toNat_lt] at hgt
    obtain ⟨s', hput, hstored, hs', hb⟩ := hs.store hf hdata (by omega)
      (show (s.block.getD [] ++ extra).length = maxLen.toNat by rw [List.length_append]; exact hsize) hdvd (by omega)
    exact ⟨s', hput, hstored, hs', fun _ => hb⟩
  · rw [if_neg hgt]
    rw [gt_iff_lt, UInt32.lt_iff_toNat_lt, hpos] at hgt
    obtain ⟨block, hb⟩ : ∃ block, s.block = some block := by
      rcases hblock with h | h | h
      · exact absurd h hdata
      · omega
      · exact Option.isSome_iff_exists.1 h
    have hsame : s = { s with block := some (s.block.getD [] ++ []), maxLen := s.maxLen } := by
      rw [List.append_nil, hb, Option.getD_some, ← hb]
    have hsize := hs.size (by rw [hb]; rfl)
    obtain ⟨s', hput, hstored, hs', hb'⟩ := hs.store hf hdata (by omega) (by rw [List.append_nil]; exact hsize) hs.dvd
      (Nat.le_refl _)
    rw [← hsame] at hput
    exact ⟨s', hput, hstored, hs', fun _ => hb'⟩

end Growable

end Zutils.ByteStream
