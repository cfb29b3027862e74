import Zutils.Base.IoBuffer2Offset
import Zutils.Lib.Wire
import Mathlib.Data.List.Forall2

/-!
# Values that are written and read back

Each `Read*` should give what the `Write*` of its name wrote. For integers it does, as long as the writes stay in the
block. The block that `WriteRaw` makes has what is in front of the write cursor only if the cursor is in the first half,
and then no second block of this kind can be made: a list of integers is written if it fits, or if the first integer
that does not is followed by few enough others (`FitList`).

No string comes back. `WriteString` counts the NUL, and `ReadString` leaves it in the string.
-/

namespace Zutils

open Lib

namespace IOBuffer2

/-- What can be written and read. -/
inductive Value where
  | uint (w : Width) (val : Fin (256 ^ w.bytes))
  | string (val : List UInt8)

namespace Value

def IsUint : Value → Prop
  | .uint _ _ => True
  | .string _ => False

def SameType : Value → Value → Prop
  | .uint w _, .uint w' _ => w = w'
  | .string _, .string _ => True
  | _, _ => False

/-- What is in the block of a value. -/
def encode : Value → List UInt8
  | .uint w val => w.encode val
  | .string val => hostBytes 4 (stringSize val).toNat ++ (val ++ [0]).take (stringSize val).toNat

end Value

/-- The integer of the type with these bytes. -/
def Width.decode (w : Width) (bs : List UInt8) : Fin (256 ^ w.bytes) :=
  ⟨hostNat bs % 256 ^ w.bytes, Nat.mod_lt _ (Nat.pow_pos (by decide))⟩

section

variable (b : IOBuffer2)

/-- The `Write*` of the type. -/
def write (mem : ℕ → UInt8) : Value → Except BufferFault IOBuffer2
  | .uint w val => b.writeUintOf mem val w
  | .string val => b.writeString mem val

/-- The `Read*` of the type, into a variable that has a value. What it returns, and the value then. -/
def read : Value → Except BufferFault ((Bool × Value) × IOBuffer2)
  | .uint w old => do
    let (ret, val, b) ← b.readUintOf w (some (w.encode old))
    return ((ret, .uint w (w.decode (val.getD []))), b)
  | .string old => do
    let (ret, val, b) ← b.readString (some old)
    return ((ret, .string (val.getD [])), b)

/-- The values are written, each with what fresh memory holds then. -/
def writeAll (vs : List (Value × (ℕ → UInt8))) : Except BufferFault IOBuffer2 :=
  vs.foldlM (fun b v => b.write v.2 v.1) b

/-- **The values that are written are read back**, whatever is in the variables, and the cursors are at the same
position then. -/
def RoundTrips (vs : List (Value × (ℕ → UInt8))) : Prop :=
  ∃ b₁, b.writeAll vs = .ok b₁ ∧ ∀ olds, List.Forall₂ Value.SameType olds (vs.map Prod.fst) →
    ∃ b₂, readAll read b₁ olds = .ok (vs.map (fun v => (true, v.1)), b₂) ∧ b₂.readPos = b₂.writePos

end

/-- The bytes of some values. -/
def total (vs : List Value) : ℕ := (vs.flatMap Value.encode).length

/-- **When a list of integers can be written** into a block: it fits, or the first integer that does not, which is `v`,
makes a block that has all that is in front of it and behind it. -/
def FitList (size : ℤ) (vs : List Value) : Prop :=
  total vs ≤ size ∨ ∃ us v ws, vs = us ++ v :: ws ∧ total us ≤ size ∧ size < total us + total [v] ∧
    size - total us + total [v] < 2 ^ 31 ∧ 2 * total us + total ws ≤ size

/-- The same write by write, from a position on. -/
def WritesFit : ℤ → ℤ → List Value → Prop
  | _, _, [] => True
  | size, pos, v :: vs =>
    RoomFits size pos v.encode.length 0 ∧ WritesFit (grown size pos v.encode.length) (pos + v.encode.length) vs

/-- `bs` has been written, and nothing has been read. -/
structure Written (b : IOBuffer2) (bs : List UInt8) : Prop where
  inv : Inv (fun i => bs[i]?) b
  writePos_eq : b.writePos = bs.length
  readPos_eq : b.readPos = 0

/-- `bs` is what has been written and not read. -/
structure Ahead (b : IOBuffer2) (bs : List UInt8) : Prop where
  bounded : Bounded b
  writePos_le : b.writePos ≤ b.size
  data_eq : ∃ pre post, b.data = pre ++ (bs ++ post) ∧ b.readPos = pre.length
  writePos_eq : b.writePos = b.readPos + bs.length

/-! ### Writing -/

section Write

variable {b b' : IOBuffer2} {mem : ℕ → UInt8} {bs buf : List UInt8} {n : ℤ} {v : Value}

lemma store_append : (store (fun i => bs[i]?) bs.length buf) = fun i => (bs ++ buf)[i]? := by
  funext i
  rw [store, List.getElem?_append]
  by_cases hlt : i < bs.length
  · rw [if_neg (by omega), if_pos hlt]
  · rw [if_neg hlt]
    split
    · rfl
    · rw [List.getElem?_eq_none (by omega), List.getElem?_eq_none (by omega)]

lemma writeRaw_readPos (hok : b.writeRaw mem buf n = .ok b') : b'.readPos = b.readPos := by
  obtain ⟨b₁, hmake, hok⟩ := bind_eq_ok.1 hok
  obtain ⟨data, -, hok⟩ := bind_eq_ok.1 hok
  obtain ⟨writePos, -, hok⟩ := bind_eq_ok.1 hok
  have hread : b₁.readPos = b.readPos := by
    rcases asked_of_makeRoom hmake with rfl | ⟨-, -, -, hread, -, -⟩
    · rfl
    · exact hread
  rw [← Except.ok.inj hok]
  exact hread

lemma Written.writeRaw (h : Written b bs) (hok : b.writeRaw mem buf n = .ok b') (hbuf : n ≤ buf.length) :
    RoomFits b.size b.writePos n 0 ∧ Written b' (bs ++ buf.take n.toNat) ∧ b'.size = grown b.size b.writePos n := by
  have hfits := writeRaw_ok h.inv hok
  obtain ⟨b₁, hok₁, hinv, hsize, hwrite⟩ := h.inv.writeRaw hfits hbuf mem
  obtain rfl : b' = b₁ := Except.ok.inj (hok.symm.trans hok₁)
  rw [h.writePos_eq, Int.toNat_natCast, store_append] at hinv
  refine ⟨hfits, ⟨hinv, ?_, (writeRaw_readPos hok).trans h.readPos_eq⟩, hsize⟩
  have hn := hfits.1
  rw [hwrite, h.writePos_eq, List.length_append, List.length_take]
  omega

lemma Written.writeString {val : List UInt8} (h : Written b bs) (hok : b.writeString mem val = .ok b') :
    Written b' (bs ++ (Value.string val).encode) := by
  obtain ⟨b₁, hfirst, hsecond⟩ := bind_eq_ok.1 hok
  obtain ⟨-, h₁, -⟩ := h.writeRaw hfirst (le_hostBytes_length (stringSize val).toNat)
  have hn := (writeRaw_ok h₁.inv hsecond).1
  obtain ⟨hn, hbuf⟩ := stringSize_spec hn
  obtain ⟨-, h₂, -⟩ := h₁.writeRaw hsecond (by rw [hn]; exact_mod_cast hbuf)
  rw [hn, Int.toNat_natCast, List.append_assoc, List.take_of_length_le (by rw [hostBytes_length]; decide)] at h₂
  exact h₂

lemma uint_encode_length (w : Width) (val : Fin (256 ^ w.bytes)) : (Value.uint w val).encode.length = w.bytes :=
  encode_length w val

lemma Written.write (h : Written b bs) (hok : b.write mem v = .ok b') : Written b' (bs ++ v.encode) := by
  cases v with
  | uint w val =>
    rw [IOBuffer2.write, writeUintOf_eq] at hok
    obtain ⟨-, h', -⟩ := h.writeRaw hok (le_encode_length w val)
    rwa [take_encode] at h'
  | string val => exact h.writeString hok

/-- **What has been written** is in the block. -/
lemma Written.writeAll (h : Written b bs) {vs : List (Value × (ℕ → UInt8))} (hok : b.writeAll vs = .ok b') :
    Written b' (bs ++ (vs.map Prod.fst).flatMap Value.encode) := by
  induction vs generalizing b bs with
  | nil =>
    rw [← Except.ok.inj hok]
    simpa using h
  | cons v vs ih =>
    obtain ⟨b₁, hwrite, hrest⟩ := bind_eq_ok.1 hok
    have h' := ih (h.write hwrite) hrest
    rwa [List.map_cons, List.flatMap_cons, ← List.append_assoc]

lemma Written.writeAll_iff (h : Written b bs) {vs : List (Value × (ℕ → UInt8))}
    (huint : ∀ v ∈ vs.map Prod.fst, v.IsUint) :
    (∃ b', b.writeAll vs = .ok b') ↔ WritesFit b.size b.writePos (vs.map Prod.fst) := by
  induction vs generalizing b bs with
  | nil => exact iff_of_true ⟨b, rfl⟩ trivial
  | cons v vs ih =>
    obtain ⟨v, mem⟩ := v
    rw [List.map_cons, List.forall_mem_cons] at huint
    obtain ⟨hv, huint⟩ := huint
    cases v with
    | string val => exact hv.elim
    | uint w val =>
      have hbuf : (w.bytes : ℤ) ≤ (w.encode val).length := le_encode_length w val
      rw [List.map_cons, WritesFit, uint_encode_length]
      constructor
      · rintro ⟨b', hok⟩
        obtain ⟨b₁, hwrite, hrest⟩ := bind_eq_ok.1 hok
        have h₁ := h.write hwrite
        have hpos := h₁.writePos_eq
        have hwrite : b.writeUintOf mem val w = .ok b₁ := hwrite
        rw [writeUintOf_eq] at hwrite
        obtain ⟨hfits, -, hsize⟩ := h.writeRaw hwrite hbuf
        have hiff := ih h₁ huint
        rw [List.length_append, uint_encode_length, Nat.cast_add, ← h.writePos_eq] at hpos
        rw [hsize, hpos] at hiff
        exact ⟨hfits, hiff.1 ⟨b', hrest⟩⟩
      · rintro ⟨hfits, hrest⟩
        obtain ⟨b₁, hwrite, -, hsize, hpos⟩ := h.inv.writeRaw hfits hbuf mem
        rw [← writeUintOf_eq] at hwrite
        rw [← hsize, ← hpos] at hrest
        obtain ⟨b', hrest⟩ := (ih (h.write (v := .uint w val) hwrite) huint).2 hrest
        exact ⟨b', bind_eq_ok.2 ⟨b₁, hwrite, hrest⟩⟩

end Write

/-! ### Room for a list -/

section Room

variable {size pos : ℤ} {v : Value} {vs : List Value}

lemma total_cons (v : Value) (vs : List Value) : total (v :: vs) = v.encode.length + total vs := by
  rw [total, total, List.flatMap_cons, List.length_append]

lemma total_nil : total [] = 0 := rfl

lemma exists_split_cons {α : Type*} {P : List α → α → List α → Prop} {a : α} {l : List α} :
    (∃ us v ws, a :: l = us ++ v :: ws ∧ P us v ws) ↔ P [] a l ∨ ∃ us v ws, l = us ++ v :: ws ∧ P (a :: us) v ws := by
  constructor
  · rintro ⟨us, v, ws, heq, hp⟩
    cases us with
    | nil =>
      cases heq
      exact .inl hp
    | cons u us =>
      cases heq
      exact .inr ⟨us, v, ws, rfl, hp⟩
  · rintro (hp | ⟨us, v, ws, rfl, hp⟩)
    · exact ⟨[], a, l, rfl, hp⟩
    · exact ⟨a :: us, v, ws, rfl, hp⟩

/-- A block that has grown does not grow again: at the next growth the cursor would not be in the first half. -/
lemma writesFit_iff (h0 : 0 ≤ pos) (hle : pos ≤ size) (hlt : size < 2 ^ 31) : WritesFit size pos vs ↔
    pos + total vs ≤ size ∨ ∃ us v ws, vs = us ++ v :: ws ∧ pos + total us ≤ size ∧
      size < pos + total us + total [v] ∧ size - (pos + total us) + total [v] < 2 ^ 31 ∧
      2 * (pos + total us) + total ws ≤ size := by
  induction vs generalizing size pos with
  | nil => exact iff_of_true trivial (.inl (by rw [total_nil]; omega))
  | cons v vs ih =>
    rw [WritesFit, exists_split_cons]
    simp only [total_cons, total_nil, Nat.cast_add, Nat.cast_zero, add_zero]
    by_cases hroom : size - pos < v.encode.length
    · -- the block grows here, or not at all
      rw [grown, if_pos hroom, RoomFits]
      constructor
      · rintro ⟨⟨-, -, hgrow⟩, hrest⟩
        obtain ⟨hint, hhalf⟩ := hgrow (by omega)
        rcases (ih (by omega) (by omega) (by omega)).1 hrest with hfit | ⟨us, u, ws, -, hus, hu, -, htwice⟩
        · exact .inr (.inl ⟨by omega, by omega, by omega, by omega⟩)
        · omega
      · rintro (hfit | ⟨-, -, hint, htwice⟩ | ⟨us, u, ws, -, hus, -⟩)
        · omega
        · refine ⟨⟨by omega, by omega, fun _ => ⟨by omega, by omega⟩⟩, ?_⟩
          exact (ih (by omega) (by omega) (by omega)).2 (.inl (by omega))
        · omega
    · rw [grown, if_neg hroom, ih (by omega) (by omega) hlt]
      simp only [total_cons, total_nil, add_zero, add_assoc]
      constructor
      · rintro ⟨-, hfit | hrest⟩
        · exact .inl hfit
        · exact .inr (.inr hrest)
      · have hfits : RoomFits size pos v.encode.length 0 := ⟨by omega, by omega, fun hlt => by omega⟩
        rintro (hfit | ⟨-, hgt, -⟩ | hrest)
        · exact ⟨hfits, .inl hfit⟩
        · omega
        · exact ⟨hfits, .inr hrest⟩

end Room

/-! ### Reading -/

section Read

variable {b : IOBuffer2} {bs rest : List UInt8} {w : Width} {old v : Value}

lemma hostBytes_eq_leBytes (k n : ℕ) : hostBytes k n = leBytes k n := by
  apply List.ext_getElem
  · rw [hostBytes_length, leBytes_length]
  intro i _ hi
  rw [leBytes_getElem]
  simp [hostBytes]

lemma hostNat_hostBytes {k n : ℕ} (h : n < 256 ^ k) : hostNat (hostBytes k n) = n := by
  rw [hostNat_eq_leNat, hostBytes_eq_leBytes, leNat_leBytes h]

lemma decode_encode (val : Fin (256 ^ w.bytes)) : w.decode (w.encode val) = val := by
  have hval := val.isLt
  have hbytes : w.encode val = hostBytes w.bytes val := by
    cases w with
    | w8 => exact congrArg (hostBytes 1) (Nat.mod_eq_of_lt hval)
    | w16 => exact congrArg (hostBytes 2) (Nat.mod_eq_of_lt hval)
    | w32 => exact congrArg (hostBytes 4) (Nat.mod_eq_of_lt hval)
    | w64 => exact congrArg (hostBytes 8) (Nat.mod_eq_of_lt hval)
  apply Fin.ext
  show hostNat (w.encode val) % 256 ^ w.bytes = val
  rw [hbytes, hostNat_hostBytes hval, Nat.mod_eq_of_lt hval]

lemma Written.ahead (h : Written b bs) : Ahead b bs := by
  obtain ⟨hinv, hwrite, hread⟩ := h
  have hprefix : bs <+: b.data := List.prefix_iff_getElem?.2 fun i hi => hinv.agrees i _ (List.getElem?_eq_getElem hi)
  obtain ⟨post, hdata⟩ := hprefix
  have h0 : 0 ≤ b.size := hinv.writePos_nonneg.trans hinv.writePos_le
  exact ⟨⟨h0, hinv.size_lt, hinv.size_le, hinv.readPos_le⟩, hinv.writePos_le, ⟨[], post, hdata.symm, hread⟩,
    by rw [hread, hwrite, zero_add]⟩

lemma Ahead.front (h : Ahead b (bs ++ rest)) : (b.data.drop b.readPos.toNat).take bs.length = bs := by
  obtain ⟨pre, post, hdata, hread⟩ := h.data_eq
  rw [hdata, hread, Int.toNat_natCast, List.drop_left, List.append_assoc, List.take_left]

lemma Ahead.readPos_nonneg (h : Ahead b bs) : 0 ≤ b.readPos := by
  obtain ⟨pre, post, -, hread⟩ := h.data_eq
  rw [hread]
  exact Int.natCast_nonneg _

lemma Ahead.advance (h : Ahead b (bs ++ rest)) : Ahead { b with readPos := b.readPos + bs.length } rest := by
  obtain ⟨⟨h0, hlt, hsize, -⟩, hwrite, ⟨pre, post, hdata, hread⟩, hpos⟩ := h
  rw [List.length_append, Nat.cast_add] at hpos
  refine ⟨⟨h0, hlt, hsize, ?_⟩, hwrite, ⟨pre ++ bs, post, ?_, ?_⟩, ?_⟩
  · show b.readPos + bs.length ≤ b.size
    omega
  · show b.data = _
    rw [hdata, List.append_assoc, List.append_assoc]
  · show b.readPos + bs.length = _
    rw [hread, List.length_append, Nat.cast_add]
  · show b.writePos = b.readPos + bs.length + rest.length
    omega

lemma Bounded.readUint_eq (h : Bounded b) (hpos : 0 ≤ b.readPos) {k : ℕ} (hk : k ≤ b.readableSize) {buf : List UInt8}
    (hbuf : buf.length = k) : b.readUint k false (some buf) =
      .ok (true, some ((b.data.drop b.readPos.toNat).take k), { b with readPos := b.readPos + k }) := by
  have hsize := h.size_lt
  have hdata := h.size_le
  rw [IOBuffer2.readUint, h.toSizeT_readable (by rw [readableSize]; omega)]
  rw [readableSize] at hk ⊢
  have hcopy : memcpy buf 0 b.data b.readPos k = _ := memcpy_whole (by omega) hpos (by omega)
  dsimp only
  rw [if_neg (by omega), readRaw, hcopy, ok_bind, hbuf, int_eq ⟨by omega, by omega⟩]
  rfl

/-- **An integer is consumed.** -/
lemma consumes_uint : Consumes (fun r : Bool × Value => r.2.encode) Ahead
    (fun old r => r.1 = true ∧ r.2.IsUint ∧ old.SameType r.2) read := by
  rintro b rest old ⟨ret, v⟩ h ⟨rfl, huint, hsame⟩
  cases v with
  | string val => exact huint.elim
  | uint w val =>
    cases old with
    | string _ => exact hsame.elim
    | uint w' old =>
      obtain rfl : w' = w := hsame
      have hfront := h.front
      have hadvance := h.advance
      have hpos := h.readPos_nonneg
      have hwrite := h.writePos_eq
      have hle := h.writePos_le
      rw [List.length_append, uint_encode_length] at hwrite
      rw [uint_encode_length] at hfront hadvance
      have hread := h.bounded.readUint_eq hpos (by rw [readableSize]; omega) (encode_length w' old)
      rw [hfront] at hread
      refine ⟨_, ?_, hadvance⟩
      rw [IOBuffer2.read, readUintOf_eq, hread, ok_bind]
      show Except.ok ((true, Value.uint w' (w'.decode (w'.encode val))), _) = _
      rw [decode_encode]

/-- **A string does not come back**: it would have its NUL, or the length would be wrong. -/
lemma read_string_ne {val : List UInt8} (h : Ahead b ((Value.string val).encode ++ rest)) (old : List UInt8)
    (b' : IOBuffer2) : b.read (.string old) ≠ .ok ((true, .string val), b') := by
  intro hread
  have hfront : Ahead b (hostBytes 4 (stringSize val).toNat ++ ((val ++ [0]).take (stringSize val).toNat ++ rest)) := by
    rwa [← List.append_assoc]
  have hpos := h.readPos_nonneg
  have hwrite := h.writePos_eq
  have hle := h.writePos_le
  have hdata := h.bounded.size_le
  have hsize := h.bounded.size_lt
  rw [List.length_append, Value.encode, List.length_append, hostBytes_length] at hwrite
  have hlength : b.lengthAt b.readPos = (stringSize val).toNat := by
    have hbytes := hfront.front
    rw [hostBytes_length] at hbytes
    rw [lengthAt, hbytes, hostNat_hostBytes (stringSize val).toNat_lt]
  obtain ⟨b'', hstring⟩ := @readString_eq b old h.bounded (by rw [readableSize]; omega) hpos
    (by rw [readableSize]; omega)
  rw [IOBuffer2.read, hstring, ok_bind, hlength] at hread
  obtain ⟨hresult, -⟩ := Prod.mk.inj (Except.ok.inj hread)
  obtain ⟨hret, hval⟩ := Prod.mk.inj hresult
  have hval := Value.string.inj hval
  rw [textAt] at hret hval
  split at hret
  · cases hret
  · rename_i hin
    rw [if_neg hin] at hval
    have hcount : (stringSize val).toNat = val.length := by
      rw [← congrArg List.length hval]
      show _ = ((b.data.drop _).take _).length
      rw [List.length_take, List.length_drop]
      omega
    rw [stringSize, UInt32.toNat_ofNat'] at hcount
    omega

end Read

/-! ### The list -/

section List

variable {b b' : IOBuffer2} {rest : List UInt8} {vs : List Value}

lemma Value.SameType.refl (v : Value) : v.SameType v := by
  cases v with
  | uint w val => exact rfl
  | string val => trivial

lemma Created.written {m : ℕ → Option UInt8} (h : Created b m) : Written b [] := by
  obtain ⟨hr, hr', hw, hw', hlt, hle, -, -⟩ := h.inv
  have hpos : b.writePos = 0 ∧ b.readPos = 0 := by
    cases h with
    | new mem => exact ⟨rfl, rfl⟩
    | ofSize mem _ _ => exact ⟨rfl, rfl⟩
    | ofData _ _ => exact ⟨rfl, rfl⟩
  exact ⟨⟨hr, hr', hw, hw', hlt, hle, fun i c h => (by cases h), fun i c h => (by cases h)⟩, hpos.1, hpos.2⟩

/-- **Only integers come back.** -/
lemma Ahead.isUint (h : Ahead b (vs.flatMap Value.encode ++ rest))
    (hread : readAll read b vs = .ok (vs.map fun v => (true, v), b')) : ∀ v ∈ vs, v.IsUint := by
  induction vs generalizing b with
  | nil => exact fun v hv => absurd hv List.not_mem_nil
  | cons v vs ih =>
    rw [List.flatMap_cons, List.append_assoc] at h
    cases v with
    | string val =>
      rw [readAll] at hread
      split at hread
      · cases hread
      · rename_i r b₁ hfirst
        split at hread
        · cases hread
        · cases hread
          exact absurd hfirst (read_string_ne h val b₁)
    | uint w val =>
      obtain ⟨b₁, hfirst, h₁⟩ := consumes_uint b _ (.uint w val) (true, .uint w val) h ⟨rfl, trivial, rfl⟩
      rw [readAll, hfirst] at hread
      dsimp only at hread
      split at hread
      · cases hread
      · rename_i rs b₂ hrest
        obtain ⟨hvals, rfl⟩ := Prod.mk.inj (Except.ok.inj hread)
        rw [List.map_cons] at hvals
        rw [(List.cons.inj hvals).2] at hrest
        exact List.forall_mem_cons.2 ⟨trivial, ih h₁ hrest⟩

lemma Ahead.readAll (h : Ahead b (vs.flatMap Value.encode)) (huint : ∀ v ∈ vs, v.IsUint) {olds : List Value}
    (holds : List.Forall₂ Value.SameType olds vs) :
    ∃ b', Lib.readAll read b olds = .ok (vs.map fun v => (true, v), b') ∧ b'.readPos = b'.writePos := by
  have hanswers : List.Forall₂ (fun old r => r.1 = true ∧ r.2.IsUint ∧ old.SameType r.2) olds
      (vs.map fun v => (true, v)) := by
    clear h
    induction holds with
    | nil => exact .nil
    | cons hsame _ ih =>
      rw [List.forall_mem_cons] at huint
      exact .cons ⟨rfl, huint.1, hsame⟩ (ih huint.2)
  obtain ⟨b', hread, h'⟩ := consumes_uint.list hanswers b [] (by rwa [List.flatMap_map, List.append_nil])
  refine ⟨b', hread, ?_⟩
  have hend := h'.writePos_eq
  rw [List.length_nil, Nat.cast_zero, add_zero] at hend
  exact hend.symm

/-- **A list is written and read back** if and only if it has no strings and its integers fit. -/
theorem round_trip_iff {b₀ : IOBuffer2} {m₀ : ℕ → Option UInt8} (h₀ : Created b₀ m₀)
    (vs : List (Value × (ℕ → UInt8))) :
    b₀.RoundTrips vs ↔ (∀ v ∈ vs.map Prod.fst, v.IsUint) ∧ FitList b₀.size (vs.map Prod.fst) := by
  have hw := h₀.written
  have hfit : WritesFit b₀.size b₀.writePos (vs.map Prod.fst) ↔ FitList b₀.size (vs.map Prod.fst) := by
    have hpos : b₀.writePos = 0 := hw.writePos_eq
    rw [hpos, writesFit_iff le_rfl (hpos ▸ hw.inv.writePos_le) hw.inv.size_lt, FitList]
    simp only [zero_add]
  have hmap : vs.map (fun v => (true, v.1)) = (vs.map Prod.fst).map fun v => (true, v) := by
    rw [List.map_map]
    rfl
  rw [RoundTrips, hmap]
  constructor
  · rintro ⟨b₁, hwrite, hread⟩
    have hahead := (hw.writeAll hwrite).ahead
    rw [List.nil_append, ← List.append_nil ((vs.map Prod.fst).flatMap _)] at hahead
    obtain ⟨b₂, hread, -⟩ := hread (vs.map Prod.fst) (List.forall₂_same.2 fun v _ => .refl v)
    have huint := hahead.isUint hread
    exact ⟨huint, hfit.1 ((hw.writeAll_iff huint).1 ⟨b₁, hwrite⟩)⟩
  · rintro ⟨huint, hlist⟩
    obtain ⟨b₁, hwrite⟩ := (hw.writeAll_iff huint).2 (hfit.2 hlist)
    exact ⟨b₁, hwrite, fun olds holds => (hw.writeAll hwrite).ahead.readAll huint holds⟩

/-- In a block of four bytes a `uint8`, a `uint32` that does not fit, and a `uint16`. -/
theorem round_trip_grown : (ofSize (fun _ => 0) 4).RoundTrips
    [(.uint .w8 7, fun _ => 0), (.uint .w32 258, fun _ => 0), (.uint .w16 65535, fun _ => 0)] := by
  refine (round_trip_iff (.ofSize _ (by decide) (by decide)) _).2 ⟨?_, .inr ⟨[.uint .w8 7], .uint .w32 258,
    [.uint .w16 65535], rfl, by decide, by decide, by decide, by decide⟩⟩
  intro v hv
  simp only [List.map_cons, List.map_nil, List.mem_cons, List.not_mem_nil, or_false] at hv
  rcases hv with rfl | rfl | rfl <;> trivial

/-- A string of one character comes back with its NUL, and two integers are written behind a block. -/
theorem round_trip_fails : Created (ofSize (fun _ => 0) 64) (fun _ => none) ∧
    Created (ofSize (fun _ => 0) 8) (fun _ => none) ∧
    ¬ (ofSize (fun _ => 0) 64).RoundTrips [(.string [97], fun _ => 0)] ∧
    ¬ (ofSize (fun _ => 0) 8).RoundTrips [(.uint .w64 1, fun _ => 0), (.uint .w8 2, fun _ => 0)] := by
  refine ⟨.ofSize _ (by decide) (by decide), .ofSize _ (by decide) (by decide), ?_, ?_⟩
  · rintro ⟨b₁, hwrite, hread⟩
    cases hwrite
    obtain ⟨b₂, hread, -⟩ := hread [.string []] (.cons trivial .nil)
    cases hread
  · rintro ⟨b₁, hwrite, -⟩
    cases hwrite

end List

end IOBuffer2

end Zutils
