import Zutils.Base.ByteStream
import Zutils.Base.Checked
import Zutils.Lib.Wire

/-!
# What the byte stream writes and reads

`Value.encode` is the wire format: integers with the most significant byte first, a string behind its length.

`Written` is a stream that has been written to from its start, and a write appends to what it stands for
(`writeRawData_written`). This rests on one property of `Alloc`, `MakesRoom`, which an overrider can have as well.
`Ahead` is a stream with some bytes between its cursor and its end, and a read consumes them
(`readRawData_ahead`). So `>>` with the encoding of a value in front of it gives the value (`extract_ahead`).
-/

namespace Zutils.ByteStream

open Zutils.Lib

/-! ### The wire format -/

/-- The encoding of a value. -/
def Value.encode : Value → List UInt8
  | ⟨.bool, b⟩ => [if b then 1 else 0]
  | ⟨.char, ch⟩ => [ch.toUInt8]
  | ⟨.uint8, ch⟩ => [ch]
  | ⟨.int16, v⟩ => put16 v.toUInt16
  | ⟨.uint16, v⟩ => put16 v
  | ⟨.int32, v⟩ => put32 v.toUInt32
  | ⟨.uint32, v⟩ => put32 v
  | ⟨.string, str⟩ => put32 (UInt32.ofNat str.length) ++ str

/-- The last byte of a shifted number does not depend on what is shifted in. -/
lemma sshiftRight_and_byte {w k : ℕ} (x : BitVec w) (h : k + 8 ≤ w) :
    x.sshiftRight k &&& 255#w = x >>> k &&& 255#w := by
  apply BitVec.eq_of_getLsbD_eq
  intro i hi
  have hmask : (255#w).getLsbD i = (decide (i < w) && Nat.testBit (2 ^ 8 - 1) i) := BitVec.getLsbD_ofNat _ _ _
  rw [Nat.testBit_two_pow_sub_one] at hmask
  rw [BitVec.getLsbD_and, BitVec.getLsbD_and, hmask, BitVec.getLsbD_sshiftRight, BitVec.getLsbD_ushiftRight]
  by_cases h8 : i < 8
  · simp [h8, hi, show k + i < w by omega, show ¬ w ≤ i by omega]
  · simp [h8]

lemma putInt16_eq (v : Int16) : putInt16 v = put16 v.toUInt16 := by
  have hshift : (v >>> 8 &&& 0xff).toUInt16 = v.toUInt16 >>> 8 &&& 0xff :=
    UInt16.toBitVec_inj.1 (sshiftRight_and_byte (k := 8) v.toBitVec (by omega))
  rw [putInt16, put16, hshift]
  rfl

lemma putInt32_eq (v : Int32) : putInt32 v = put32 v.toUInt32 := by
  have hshift : ∀ k, k + 8 ≤ 32 → v.toBitVec.sshiftRight k &&& 255#32 = v.toBitVec >>> k &&& 255#32 :=
    fun k hk => sshiftRight_and_byte v.toBitVec hk
  have h8 : (v >>> 8 &&& 0xff).toUInt32 = v.toUInt32 >>> 8 &&& 0xff := UInt32.toBitVec_inj.1 (hshift 8 (by omega))
  have h16 : (v >>> 16 &&& 0xff).toUInt32 = v.toUInt32 >>> 16 &&& 0xff :=
    UInt32.toBitVec_inj.1 (hshift 16 (by omega))
  have h24 : (v >>> 24 &&& 0xff).toUInt32 = v.toUInt32 >>> 24 &&& 0xff :=
    UInt32.toBitVec_inj.1 (hshift 24 (by omega))
  rw [putInt32, put32, h8, h16, h24]
  rfl

lemma get16_put16_nil (v : UInt16) : get16 (put16 v) 0 = v := by
  have hput := get16_put16 [] [] v
  rwa [List.nil_append, List.append_nil, List.length_nil] at hput

lemma getInt16_put16 (v : Int16) : getInt16 (put16 v.toUInt16) = v := by
  have hget : getInt16 (put16 v.toUInt16) = (get16 (put16 v.toUInt16) 0).toInt16 := by
    simp [getInt16, get16]
  rw [hget, get16_put16_nil, Int16.toInt16_toUInt16]

lemma get32_put32_nil (v : UInt32) : get32 (put32 v) 0 = v := by
  have hput := get32_put32 [] [] v
  rwa [List.nil_append, List.append_nil, List.length_nil] at hput

lemma getInt32_put32 (v : Int32) : getInt32 (put32 v.toUInt32) = v := by
  have hget : getInt32 (put32 v.toUInt32) = (get32 (put32 v.toUInt32) 0).toInt32 := by
    simp [getInt32, get32]
  rw [hget, get32_put32_nil, Int32.toInt32_toUInt32]

/-! ### Growing -/

lemma toNat_add_of_lt {a b : UInt32} (h : a.toNat + b.toNat < 2 ^ 32) : (a + b).toNat = a.toNat + b.toNat := by
  rw [UInt32.toNat_add, Nat.mod_eq_of_lt h]

lemma toNat_pos {n : UInt32} (h0 : n ≠ 0) : 0 < n.toNat := by
  rw [Nat.pos_iff_ne_zero]
  intro h
  exact h0 (UInt32.toNat_inj.1 h)

section Grow

variable {step newLen : UInt32} {heap : Heap} {block : Option (List UInt8)} {n : ℕ}

/-- All allocations succeed. -/
def Gives (heap : Heap) : Prop := ∀ block n, (heap block n).isSome

lemma realloc_gives (hheap : Gives heap) (hle : (block.getD []).length ≤ n) :
    ∃ extra, heap.realloc block n = some (block.getD [] ++ extra) ∧ (block.getD []).length + extra.length = n := by
  obtain ⟨fresh, hfresh⟩ := Option.isSome_iff_exists.1 (hheap block n)
  refine ⟨(List.range' (block.getD []).length (n - (block.getD []).length)).map fresh, ?_, ?_⟩
  · rw [Heap.realloc, hfresh, Option.map_some, List.take_of_length_le hle]
  · rw [List.length_map, List.length_range']
    omega

/-- The loop stops at the first size that suffices, unless the size wraps. -/
lemma grow_ok (h : newLen.toNat + step.toNat ≤ 2 ^ 32) (fuel : ℕ) :
    ∀ size : UInt32, newLen.toNat ≤ size.toNat + fuel * step.toNat → ∃ size', grow step newLen (fuel + 1) size = some size' ∧
      newLen.toNat ≤ size'.toNat ∧ (size < newLen → size.toNat + step.toNat ≤ size'.toNat ∧
        size'.toNat < newLen.toNat + step.toNat) := by
  induction fuel with
  | zero =>
    intro size hsize
    have hle : ¬ size < newLen := by
      rw [UInt32.lt_iff_toNat_lt]
      omega
    exact ⟨size, by rw [grow, if_neg hle], by omega, fun hlt => absurd hlt hle⟩
  | succ fuel ih =>
    intro size hsize
    rw [grow]
    split
    · rename_i hlt
      rw [UInt32.lt_iff_toNat_lt] at hlt
      have hadd : (size + step).toNat = size.toNat + step.toNat := toNat_add_of_lt (by omega)
      obtain ⟨size', hgrow, hnew, hless⟩ := ih (size + step) (by rw [hadd]; rw [Nat.succ_mul] at hsize; omega)
      refine ⟨size', hgrow, hnew, fun _ => ?_⟩
      by_cases hlt' : size + step < newLen
      · have := hless hlt'
        omega
      · have hsize' : size' = size + step := by
          rw [grow, if_neg hlt'] at hgrow
          exact (Option.some.inj hgrow).symm
        rw [UInt32.lt_iff_toNat_lt] at hlt'
        rw [hsize']
        omega
    · rename_i hle
      refine ⟨size, rfl, ?_, fun hlt => absurd hlt hle⟩
      rw [UInt32.lt_iff_toNat_lt] at hle
      omega

lemma growLoop_ok (h : newLen.toNat + step.toNat ≤ 2 ^ 32) (hstep : 0 < step.toNat) {size : UInt32}
    (hlt : size < newLen) : ∃ size', growLoop step newLen size = .ok size' ∧ newLen.toNat ≤ size'.toNat ∧
      size.toNat + step.toNat ≤ size'.toNat ∧ size'.toNat < newLen.toNat + step.toNat := by
  have hfuel : newLen.toNat ≤ size.toNat + (2 ^ 32 - 1) * step.toNat := by
    have := newLen.toNat_lt
    have := Nat.le_mul_of_pos_right (2 ^ 32 - 1) hstep
    omega
  obtain ⟨size', hgrow, hnew, hless⟩ := grow_ok h (2 ^ 32 - 1) size hfuel
  refine ⟨size', ?_, hnew, hless hlt⟩
  rw [growLoop, show 2 ^ 32 = 2 ^ 32 - 1 + 1 from rfl, hgrow]

end Grow

/-! ### Writing -/

/-- The bytes of the block behind `buffer_`, the `offset` bytes in front of them included. -/
def size (s : ByteStream) : ℕ := (s.block.getD []).length

/-- `Alloc` finds room for fewer than `limit` bytes, and keeps what is in the block. The relation `inv` between the
offset of `buffer_`, the size of the block and `max_len_` is what it rests on. -/
structure MakesRoom (alloc : Alloc) (inv : ℕ → ℕ → UInt32 → Prop) (limit : ℕ) : Prop where
  room : ∀ offset size maxLen, inv offset size maxLen → offset + maxLen.toNat ≤ size
  grows : ∀ s newLen, s.failed = false → s.isNew = true → inv s.offset s.size s.maxLen → s.maxLen < newLen →
    newLen.toNat < limit → ∃ extra maxLen,
      alloc s newLen = .ok (true, { s with block := some (s.block.getD [] ++ extra), maxLen := maxLen }) ∧
      inv s.offset (s.size + extra.length) maxLen ∧ s.offset + newLen.toNat ≤ s.size + extra.length

/-- The stream has been written to from its start, and holds these bytes. -/
structure Written (inv : ℕ → ℕ → UInt32 → Prop) (s : ByteStream) (bytes : List UInt8) : Prop where
  notFailed : s.failed = false
  isNew : s.isNew = true
  pos : s.currentPos.toNat = bytes.length
  len : s.dataLen = s.currentPos
  inv : inv s.offset s.size s.maxLen
  mem : ∃ head rest, s.block.getD [] = head ++ bytes ++ rest ∧ head.length = s.offset

section Write

variable {s : ByteStream} {data head bytes rest : List UInt8} {n : UInt32} {inv : ℕ → ℕ → UInt32 → Prop}
  {alloc : Alloc} {limit : ℕ}

lemma store_append (hmem : s.block.getD [] = head ++ rest) (hpos : head.length = s.offset + s.currentPos.toNat)
    (hn : n.toNat = data.length) (hle : data.length ≤ rest.length) :
    s.store data n.toNat = .ok { s with block := some (head ++ data ++ rest.drop data.length) } := by
  rw [store, hmem, hn, ← hpos]
  have hfit : data.length ≤ data.length ∧ head.length + data.length ≤ (head ++ rest).length := by
    rw [List.length_append]
    omega
  rw [if_pos hfit, List.take_left' rfl, List.take_length, List.drop_append, Nat.add_sub_cancel_left,
    List.drop_eq_nil_of_le (Nat.le_add_right _ _), List.nil_append]

lemma putRawData_written (hw : Written inv s bytes) (hn : n.toNat = data.length)
    (hroom : s.offset + bytes.length + data.length ≤ s.size) (h32 : bytes.length + data.length < 2 ^ 32) :
    ∃ s', s.putRawData data n = .ok (true, s') ∧ Written inv s' (bytes ++ data) := by
  obtain ⟨head, rest, hmem, hhead⟩ := hw.mem
  have hsize : s.size = head.length + bytes.length + rest.length := by
    rw [size, hmem, List.length_append, List.length_append]
  have hpos : (s.currentPos + n).toNat = bytes.length + data.length := by
    rw [toNat_add_of_lt (by rw [hw.pos, hn]; exact h32), hw.pos, hn]
  have hle : data.length ≤ rest.length := by omega
  have hstore := store_append hmem (by rw [List.length_append, hhead, hw.pos]) hn hle
  have hlen : (if s.dataLen < s.currentPos + n then s.currentPos + n else s.dataLen) =
      s.currentPos + n := by
    rw [hw.len]
    split
    · rfl
    · rename_i hnot
      rw [UInt32.lt_iff_toNat_lt, hpos, hw.pos] at hnot
      apply UInt32.toNat_inj.1
      rw [hpos, hw.pos]
      omega
  refine ⟨_, by rw [putRawData, hstore, ok_bind]; rfl, ?_⟩
  constructor
  · exact hw.notFailed
  · exact hw.isNew
  · rw [hpos, List.length_append]
  · exact hlen
  · rw [size]
    simp only [Option.getD_some, List.length_append, List.length_drop]
    rw [show head.length + bytes.length + data.length + (rest.length - data.length) = s.size by omega]
    exact hw.inv
  · exact ⟨head, rest.drop data.length, by simp, hhead⟩

/-- **A write appends its bytes.** -/
theorem writeRawData_written (halloc : MakesRoom alloc inv limit) (hlimit : limit ≤ 2 ^ 32)
    (hw : Written inv s bytes) (hn : n.toNat = data.length) (hfit : bytes.length + data.length < limit) :
    ∃ s', s.writeRawData alloc data n = .ok (true, s') ∧ Written inv s' (bytes ++ data) := by
  have hnew : (s.currentPos + n).toNat = bytes.length + data.length := by
    rw [toNat_add_of_lt (by rw [hw.pos, hn]; omega), hw.pos, hn]
  rw [writeRawData, hw.notFailed, if_neg Bool.false_ne_true]
  by_cases h0 : n = 0
  · obtain rfl : data = [] := List.length_eq_zero_iff.1 (by rw [← hn, h0]; rfl)
    rw [if_pos h0, List.append_nil]
    exact ⟨s, rfl, hw⟩
  rw [if_neg h0]
  split
  · rename_i hgt
    obtain ⟨extra, maxLen, hgrow, hinv, hroom⟩ :=
      halloc.grows s _ hw.notFailed hw.isNew hw.inv hgt (by rw [hnew]; exact hfit)
    obtain ⟨head, rest, hmem, hhead⟩ := hw.mem
    rw [if_pos hw.isNew, hgrow, ok_bind]
    have hw' : Written inv { s with block := some (s.block.getD [] ++ extra), maxLen := maxLen } bytes := by
      refine ⟨hw.notFailed, hw.isNew, hw.pos, hw.len, ?_, head, rest ++ extra, ?_, hhead⟩
      · simpa only [size, Option.getD_some, List.length_append] using hinv
      · simp [hmem]
    refine putRawData_written hw' hn ?_ (by omega)
    rw [size]
    simp only [Option.getD_some, List.length_append]
    rw [hnew] at hroom
    exact Nat.le_trans (by omega) hroom
  · rename_i hle
    have hmax : bytes.length + data.length ≤ s.maxLen.toNat := by
      rw [gt_iff_lt, UInt32.lt_iff_toNat_lt, hnew] at hle
      omega
    have hroom := halloc.room _ _ _ hw.inv
    exact putRawData_written hw hn (by omega) (by omega)

end Write

/-! ### Reading -/

/-- The bytes from the cursor to the end of the buffer, which is `m` bytes long, are `rest`. -/
structure Ahead (m : UInt32) (s : ByteStream) (rest : List UInt8) : Prop where
  notFailed : s.failed = false
  max : s.maxLen = m
  pos : s.currentPos.toNat + rest.length = s.maxLen.toNat
  mem : ∃ before behind, s.block.getD [] = before ++ rest ++ behind ∧
    before.length = s.offset + s.currentPos.toNat

section Read

variable {s : ByteStream} {data rest : List UInt8} {m n : UInt32}

lemma load_ahead (ha : Ahead m s (data ++ rest)) : s.load data.length = .ok data := by
  obtain ⟨before, behind, hmem, hlen⟩ := ha.mem
  rw [load, hmem, ← hlen, if_pos (by simp), List.append_assoc, List.drop_left' rfl, List.append_assoc,
    List.take_left' rfl]

lemma ahead_advance (ha : Ahead m s (data ++ rest)) (hn : n.toNat = data.length) :
    (s.currentPos + n).toNat = s.currentPos.toNat + data.length ∧
      Ahead m { s with currentPos := s.currentPos + n } rest := by
  have hpos := ha.pos
  have hmax := s.maxLen.toNat_lt
  rw [List.length_append] at hpos
  have hadd : (s.currentPos + n).toNat = s.currentPos.toNat + data.length := by
    rw [toNat_add_of_lt (by omega), hn]
  obtain ⟨before, behind, hmem, hlen⟩ := ha.mem
  refine ⟨hadd, ha.notFailed, ha.max, ?_, before ++ data, behind, ?_, ?_⟩
  · show (s.currentPos + n).toNat + rest.length = s.maxLen.toNat
    omega
  · show s.block.getD [] = _
    rw [hmem, List.append_assoc before data rest]
  · show (before ++ data).length = s.offset + (s.currentPos + n).toNat
    rw [List.length_append]
    omega

lemma not_gt_of_ahead (ha : Ahead m s (data ++ rest)) (hn : n.toNat = data.length) :
    ¬ s.currentPos + n > s.maxLen := by
  have hpos := ha.pos
  rw [List.length_append] at hpos
  rw [gt_iff_lt, UInt32.lt_iff_toNat_lt, (ahead_advance ha hn).1]
  omega

/-- **A read consumes the bytes in front of it.** -/
theorem readRawData_ahead (ha : Ahead m s (data ++ rest)) (hn : n.toNat = data.length) :
    ∃ s', s.readRawData n = .ok (some data, s') ∧ Ahead m s' rest := by
  rw [readRawData, if_neg (by simp [ha.notFailed]), if_neg (not_gt_of_ahead ha hn)]
  by_cases h0 : n = 0
  · obtain rfl : data = [] := List.length_eq_zero_iff.1 (by rw [← hn, h0]; rfl)
    rw [if_pos h0]
    exact ⟨s, rfl, ha⟩
  · rw [if_neg h0, hn, load_ahead ha]
    exact ⟨_, rfl, (ahead_advance ha hn).2⟩

lemma readByte_ahead {ch : UInt8} (ha : Ahead m s (ch :: rest)) :
    ∃ s', s.readByte = .ok (some ch, s') ∧ Ahead m s' rest := by
  have ha' : Ahead m s ([ch] ++ rest) := ha
  have hpos := ha.pos
  rw [List.length_cons] at hpos
  have hload : s.load 1 = .ok [ch] := load_ahead ha'
  rw [readByte, if_neg (by omega), hload]
  exact ⟨_, rfl, (ahead_advance (n := 1) ha' rfl).2⟩

lemma readString_ahead {str : List UInt8} (ha : Ahead m s (put32 (UInt32.ofNat str.length) ++ str ++ rest)) :
    ∃ s', s.readString = .ok (some str, s') ∧ Ahead m s' rest := by
  have hmax := s.maxLen.toNat_lt
  have hpos := ha.pos
  rw [List.length_append, List.length_append] at hpos
  rw [List.append_assoc] at ha
  have hlen : (UInt32.ofNat str.length).toNat = str.length := by
    rw [UInt32.toNat_ofNat', Nat.mod_eq_of_lt (by omega)]
  obtain ⟨s', hs', ha'⟩ := readRawData_ahead (n := 4) ha rfl
  rw [readString, hs', ok_bind]
  dsimp only
  rw [get32_put32_nil, readChars, if_neg (not_gt_of_ahead ha' hlen), hlen, load_ahead ha']
  exact ⟨_, rfl, (ahead_advance ha' hlen).2⟩

lemma extract_of_read {t : FieldType} {dest v : t.Val} {s' : ByteStream} (h : s.read t dest = .ok (v, s')) :
    s.extract ⟨t, dest⟩ = .ok (⟨t, v⟩, s') := by
  rw [extract, h]
  rfl

lemma extract_raw {t : FieldType} {dest v : t.Val} {get : List UInt8 → t.Val}
    (hdef : s.read t dest = (do let (ch, s) ← s.readRawData n; return ((ch.map get).getD dest, s)))
    (ha : Ahead m s (data ++ rest)) (hn : n.toNat = data.length) (hget : get data = v) :
    ∃ s', s.extract ⟨t, dest⟩ = .ok (⟨t, v⟩, s') ∧ Ahead m s' rest := by
  obtain ⟨s', hs', ha'⟩ := readRawData_ahead ha hn
  refine ⟨s', extract_of_read ?_, ha'⟩
  rw [hdef, hs', ← hget]
  rfl

lemma extract_byte {t : FieldType} {dest v : t.Val} {get : UInt8 → t.Val} {ch : UInt8}
    (hdef : s.read t dest = (do let (ch, s) ← s.readByte; return ((ch.map get).getD dest, s)))
    (ha : Ahead m s (ch :: rest)) (hget : get ch = v) :
    ∃ s', s.extract ⟨t, dest⟩ = .ok (⟨t, v⟩, s') ∧ Ahead m s' rest := by
  obtain ⟨s', hs', ha'⟩ := readByte_ahead ha
  refine ⟨s', extract_of_read ?_, ha'⟩
  rw [hdef, hs', ← hget]
  rfl

/-- **`>>` consumes the encoding of a value of its type, and stores the value.** -/
theorem extract_ahead {v dest : Value} (ha : Ahead m s (v.encode ++ rest)) (hd : dest.1 = v.1) :
    ∃ s', s.extract dest = .ok (v, s') ∧ Ahead m s' rest := by
  obtain ⟨t, v⟩ := v
  obtain ⟨t', dest⟩ := dest
  obtain rfl : t' = t := hd
  cases t' with
  | bool => exact extract_byte rfl ha (by cases v <;> rfl)
  | char => exact extract_byte rfl ha (Int8.toInt8_toUInt8 v)
  | uint8 =>
    have hdef : s.read .uint8 dest = (do let (ch, s) ← s.readByte; return ((ch.map id).getD dest, s)) := by
      simp only [read, readUInt8, Option.map_id, id]
    exact extract_byte hdef ha rfl
  | int16 => exact extract_raw rfl ha rfl (getInt16_put16 v)
  | uint16 => exact extract_raw rfl ha rfl (get16_put16_nil v)
  | int32 => exact extract_raw rfl ha rfl (getInt32_put32 v)
  | uint32 => exact extract_raw rfl ha rfl (get32_put32_nil v)
  | string =>
    obtain ⟨s', hs', ha'⟩ := readString_ahead ha
    refine ⟨s', extract_of_read ?_, ha'⟩
    show s.readStr dest = _
    rw [readStr, hs']
    rfl

end Read

end Zutils.ByteStream
