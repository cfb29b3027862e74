import Zutils.Base.ByteStreamSpec

/-!
# What the checks of a read let through

A read is refused by its check (`Rejects`), or its bytes are in the block (`Holds`), or it leaves the block. What it does
then is the same for a stream in any state. `fetch` is what an operator `>>` takes from the block, and the operator
decodes it or leaves its variable alone (`extract_eq`).
-/

namespace Zutils.ByteStream

/-- `current_pos_ + n > max_len_`, in 32 bits. -/
def Rejects (s : ByteStream) (n : UInt32) : Prop := s.currentPos + n > s.maxLen

/-- `current_pos_ + sizeof(char) > max_len_`, in 64 bits. -/
def RejectsByte (s : ByteStream) : Prop := s.maxLen.toNat < s.currentPos.toNat + 1

/-- The `n` bytes at the cursor are in the block. -/
def Holds (s : ByteStream) (n : ℕ) : Prop := s.offset + s.currentPos.toNat + n ≤ (s.block.getD []).length

/-- The `n` bytes at the cursor. -/
def front (s : ByteStream) (n : ℕ) : List UInt8 := ((s.block.getD []).drop (s.offset + s.currentPos.toNat)).take n

/-- The stream with its cursor `n` bytes further. -/
def advance (s : ByteStream) (n : UInt32) : ByteStream := { s with currentPos := s.currentPos + n }

/-- The length of the string at the cursor. -/
def stringLength (s : ByteStream) : UInt32 := get32 (s.front 4) 0

@[simp] lemma advance_failed (s : ByteStream) (n : UInt32) : (s.advance n).failed = s.failed := rfl

@[simp] lemma advance_zero (s : ByteStream) : s.advance 0 = s := by rw [advance, UInt32.add_zero]

instance (s : ByteStream) (n : UInt32) : Decidable (s.Rejects n) := by unfold Rejects; infer_instance

instance (s : ByteStream) : Decidable s.RejectsByte := by unfold RejectsByte; infer_instance

instance (s : ByteStream) (n : ℕ) : Decidable (s.Holds n) := by unfold Holds; infer_instance

section Checks

variable {s : ByteStream} {n : UInt32} {k : ℕ}

lemma load_eq (s : ByteStream) (k : ℕ) : s.load k = if s.Holds k then .ok (s.front k) else .error .outOfRange := rfl

lemma load_of_holds (h : s.Holds k) : s.load k = .ok (s.front k) := by rw [load_eq, if_pos h]

lemma load_of_not_holds (h : ¬ s.Holds k) : s.load k = .error .outOfRange := by rw [load_eq, if_neg h]

lemma front_length (h : s.Holds k) : (s.front k).length = k := by
  unfold Holds at h
  unfold front
  rw [List.length_take, List.length_drop]
  omega

lemma advance_ne (h : n ≠ 0) : (s.advance n).currentPos ≠ s.currentPos := by
  unfold advance
  intro heq
  exact h (UInt32.add_eq_left.1 heq)

/-! ### The primitives -/

lemma readRawData_failed (hf : s.failed = true) : s.readRawData n = .ok (none, s) := by
  rw [readRawData, if_pos hf]

lemma readRawData_eq (hf : s.failed = false) (n : UInt32) :
    s.readRawData n = if s.Rejects n then .ok (none, { s with failed := true })
      else if n = 0 then .ok (some [], s)
      else do
        let data ← s.load n.toNat
        return (some data, s.advance n) := by
  rw [readRawData, if_neg (by simp [hf])]
  rfl

lemma readRawData_rejected (hf : s.failed = false) (h : s.Rejects n) :
    s.readRawData n = .ok (none, { s with failed := true }) := by
  rw [readRawData_eq hf, if_pos h]

lemma readRawData_zero (hf : s.failed = false) (h : ¬ s.Rejects 0) : s.readRawData 0 = .ok (some [], s) := by
  rw [readRawData_eq hf, if_neg h, if_pos rfl]

lemma readRawData_held (hf : s.failed = false) (h : ¬ s.Rejects n) (h0 : n ≠ 0) (hmem : s.Holds n.toNat) :
    s.readRawData n = .ok (some (s.front n.toNat), s.advance n) := by
  rw [readRawData_eq hf, if_neg h, if_neg h0, load_of_holds hmem]
  rfl

lemma readRawData_outside (hf : s.failed = false) (h : ¬ s.Rejects n) (h0 : n ≠ 0) (hmem : ¬ s.Holds n.toNat) :
    s.readRawData n = .error .outOfRange := by
  rw [readRawData_eq hf, if_neg h, if_neg h0, load_of_not_holds hmem]
  rfl

lemma readByte_eq (s : ByteStream) :
    s.readByte = if s.RejectsByte then .ok (none, { s with failed := true })
      else do
        let ch ← s.load 1
        return (some (ch.getD 0 0), s.advance 1) := rfl

lemma readByte_rejected (h : s.RejectsByte) : s.readByte = .ok (none, { s with failed := true }) := by
  rw [readByte_eq, if_pos h]

lemma readByte_held (h : ¬ s.RejectsByte) (hmem : s.Holds 1) :
    s.readByte = .ok (some ((s.front 1).getD 0 0), s.advance 1) := by
  rw [readByte_eq, if_neg h, load_of_holds hmem]
  rfl

lemma readByte_outside (h : ¬ s.RejectsByte) (hmem : ¬ s.Holds 1) : s.readByte = .error .outOfRange := by
  rw [readByte_eq, if_neg h, load_of_not_holds hmem]
  rfl

lemma readChars_eq_ite (s : ByteStream) (n : UInt32) :
    s.readChars n = if s.Rejects n then .ok (none, { s with failed := true })
      else do
        let str ← s.load n.toNat
        return (some str, s.advance n) := rfl

lemma readChars_rejected (h : s.Rejects n) : s.readChars n = .ok (none, { s with failed := true }) := by
  rw [readChars_eq_ite, if_pos h]

lemma readChars_held (h : ¬ s.Rejects n) (hmem : s.Holds n.toNat) :
    s.readChars n = .ok (some (s.front n.toNat), s.advance n) := by
  rw [readChars_eq_ite, if_neg h, load_of_holds hmem]
  rfl

lemma readChars_outside (h : ¬ s.Rejects n) (hmem : ¬ s.Holds n.toNat) : s.readChars n = .error .outOfRange := by
  rw [readChars_eq_ite, if_neg h, load_of_not_holds hmem]
  rfl

lemma readString_failed (hf : s.failed = true) : s.readString = .ok (none, s) := by
  rw [readString, readRawData_failed hf]
  rfl

lemma readString_rejected (hf : s.failed = false) (h : s.Rejects 4) :
    s.readString = .ok (none, { s with failed := true }) := by
  rw [readString, readRawData_rejected hf h]
  rfl

lemma readString_outside (hf : s.failed = false) (h : ¬ s.Rejects 4) (hmem : ¬ s.Holds 4) :
    s.readString = .error .outOfRange := by
  rw [readString, readRawData_outside hf h (by decide) hmem]
  rfl

lemma readString_held (hf : s.failed = false) (h : ¬ s.Rejects 4) (hmem : s.Holds 4) :
    s.readString = (s.advance 4).readChars s.stringLength := by
  rw [readString, readRawData_held hf h (by decide) hmem]
  rfl

end Checks

/-! ### The operators -/

/-- What `>>` for a type takes from the block. -/
def fetch (s : ByteStream) : FieldType → Except StreamFault (Option (List UInt8) × ByteStream)
  | .bool | .char | .uint8 => do
    let (ch, s) ← s.readByte
    return (ch.map fun c => [c], s)
  | .int16 | .uint16 => s.readRawData 2
  | .int32 | .uint32 => s.readRawData 4
  | .string => s.readString

/-- The value of what has been taken. -/
def FieldType.decode : (t : FieldType) → List UInt8 → t.Val
  | .bool, bs => bs.getD 0 0 != 0
  | .char, bs => (bs.getD 0 0).toInt8
  | .uint8, bs => bs.getD 0 0
  | .int16, bs => getInt16 bs
  | .uint16, bs => get16 bs 0
  | .int32, bs => getInt32 bs
  | .uint32, bs => get32 bs 0
  | .string, bs => bs

/-- A variable that may have been stored to. -/
def assign (dest : Value) (r : Option (List UInt8)) : Value := ⟨dest.1, (r.map dest.1.decode).getD dest.2⟩

/-- **An operator stores what it has taken**, if it has taken anything. -/
theorem extract_eq (s : ByteStream) (dest : Value) :
    s.extract dest = (do let (r, s) ← s.fetch dest.1; return (assign dest r, s)) := by
  have hbyte : ∀ {t : FieldType} {v : t.Val} (f : UInt8 → t.Val), (∀ c, t.decode [c] = f c) →
      s.fetch t = (do let (ch, s) ← s.readByte; return (ch.map fun c => [c], s)) →
      s.read t v = (do let (c, s) ← s.readByte; return ((c.map f).getD v, s)) →
      s.extract ⟨t, v⟩ = (do let (r, s) ← s.fetch t; return (assign ⟨t, v⟩ r, s)) := by
    intro t v f hdec hfetch hread
    rw [extract, hfetch, hread]
    rcases s.readByte with e | ⟨_ | c, s'⟩
    · rfl
    · rfl
    · have hval : assign ⟨t, v⟩ (some [c]) = ⟨t, f c⟩ := by
        rw [← hdec]
        rfl
      show Except.ok ((⟨t, f c⟩ : Value), s') = Except.ok (assign ⟨t, v⟩ (some [c]), s')
      rw [hval]
  have hraw : ∀ {t : FieldType} {v : t.Val} (x : Except StreamFault (Option (List UInt8) × ByteStream)),
      s.fetch t = x → s.read t v = (do let (r, s) ← x; return ((r.map t.decode).getD v, s)) →
      s.extract ⟨t, v⟩ = (do let (r, s) ← s.fetch t; return (assign ⟨t, v⟩ r, s)) := by
    intro t v x hfetch hread
    rw [extract, hfetch, hread]
    rcases x with e | ⟨r, s'⟩ <;> rfl
  obtain ⟨t, v⟩ := dest
  cases t with
  | bool => exact hbyte (fun c => c != 0) (fun _ => rfl) rfl rfl
  | char => exact hbyte UInt8.toInt8 (fun _ => rfl) rfl rfl
  | uint8 =>
    refine hbyte id (fun _ => rfl) rfl ?_
    rw [read, readUInt8]
    simp only [Option.map_id, id]
  | int16 => exact hraw _ rfl rfl
  | uint16 => exact hraw _ rfl rfl
  | int32 => exact hraw _ rfl rfl
  | uint32 => exact hraw _ rfl rfl
  | string =>
    refine hraw s.readString rfl ?_
    rw [read, readStr]
    rcases s.readString with e | ⟨_ | bs, s'⟩ <;> rfl

/-- A value of one byte. -/
def FieldType.isByte : FieldType → Bool
  | .bool | .char | .uint8 => true
  | _ => false

/-- The bytes of a number of more than one. -/
def FieldType.rawSize : FieldType → Option UInt32
  | .int16 | .uint16 => some 2
  | .int32 | .uint32 => some 4
  | _ => none

lemma FieldType.cases (t : FieldType) : t.isByte = true ∨ (∃ n, t.rawSize = some n) ∨ t = .string := by
  cases t <;> simp [isByte, rawSize]

section Fetch

variable {s : ByteStream} {t : FieldType} {n : UInt32}

lemma fetch_byte (ht : t.isByte = true) :
    s.fetch t = (do let (ch, s) ← s.readByte; return (ch.map fun c => [c], s)) := by
  cases t <;> first | rfl | cases ht

lemma fetch_raw (ht : t.rawSize = some n) : s.fetch t = s.readRawData n := by
  cases t <;> first | (cases ht; rfl) | cases ht

lemma rawSize_ne_zero (ht : t.rawSize = some n) : n ≠ 0 := by
  cases t <;> first | (cases ht; decide) | cases ht

end Fetch

end Zutils.ByteStream
