import Mathlib.Data.List.Induction
import Zutils.Base.ByteStreamChecks

/-!
# The byte stream stays in its buffer unless a check wraps

A stream over a buffer of somebody else's, read and moved about in. The checks of `ReadRawData` and `ReadString`
compare `current_pos_ + data_len` with `max_len_`, and the sum is a `uint32`. Where it stays below `2 ^ 32` the check
is the intended one; where it wraps, what is left of it is smaller than the cursor and passes, and the `memcpy` leaves
the buffer (`exec_of_wraps`). The operators for one byte add a `size_t` and cannot wrap, and a `Skip` that wraps only
moves the cursor back.
-/

namespace Zutils.ByteStream

/-- What is done to a stream that is read from. -/
inductive ReadOp where
  | extract (dest : Value)
  | readRawData (dataLen : UInt32)
  | readString
  | seek (pos : UInt32)
  | skip (pos : UInt32)

/-- The stream after an operation. -/
def exec (s : ByteStream) : ReadOp → Except StreamFault ByteStream
  | .extract dest => do
    let (_, s) ← s.extract dest
    return s
  | .readRawData dataLen => do
    let (_, s) ← s.readRawData dataLen
    return s
  | .readString => do
    let (_, s) ← s.readString
    return s
  | .seek pos => .ok (s.seek pos).2
  | .skip pos => .ok (s.skip pos).2

/-- How many bytes a string asks for: those of its length and, where they are in the buffer, as many as it says. -/
def stringDemand (s : ByteStream) : ℕ :=
  if s.currentPos.toNat + 4 ≤ s.maxLen.toNat then
    4 + (get32 ((s.block.getD []).drop (s.offset + s.currentPos.toNat)) 0).toNat
  else 4

/-- How many bytes a value of the type asks for. -/
def fieldDemand (s : ByteStream) : FieldType → ℕ
  | .bool | .char | .uint8 => 1
  | .int16 | .uint16 => 2
  | .int32 | .uint32 => 4
  | .string => s.stringDemand

/-- How many bytes an operation asks for. -/
def demand (s : ByteStream) : ReadOp → ℕ
  | .extract dest => s.fieldDemand dest.1
  | .readRawData dataLen => dataLen.toNat
  | .readString => s.stringDemand
  | .seek _ | .skip _ => 0

/-- The bytes that the operation asks for are in the buffer. -/
def Fits (s : ByteStream) (op : ReadOp) : Prop := s.currentPos.toNat + s.demand op ≤ s.maxLen.toNat

/-- The operation adds what it asks for to the cursor in 32 bits. -/
def ReadOp.adds32 : ReadOp → Bool
  | .extract ⟨.bool, _⟩ | .extract ⟨.char, _⟩ | .extract ⟨.uint8, _⟩ => false
  | .seek _ | .skip _ => false
  | _ => true

/-- The sum in the check of a read that has not failed before wraps. -/
def Wraps (s : ByteStream) (op : ReadOp) : Prop :=
  s.failed = false ∧ op.adds32 = true ∧ 2 ^ 32 ≤ s.currentPos.toNat + s.demand op

/-- The buffer has `len` bytes, and the cursor is in it or at its end. -/
structure Bounded (len : ℕ) (s : ByteStream) : Prop where
  max : s.maxLen.toNat = len
  mem : (s.block.getD []).length = s.offset + len
  pos : s.currentPos.toNat ≤ len

/-- What an operation should do: it returns, the cursor stays in the buffer, and a read that does not fit fails. -/
def Behaves (len : ℕ) (fits : Prop) (r : Except StreamFault ByteStream) : Prop :=
  ∃ s', r = .ok s' ∧ Bounded len s' ∧ (¬ fits → s'.failed = true)

section Reads

variable {s : ByteStream} {len : ℕ} {n : UInt32}

lemma Bounded.fail (hs : Bounded len s) : Bounded len { s with failed := true } := ⟨hs.max, hs.mem, hs.pos⟩

lemma Bounded.holds_iff (hs : Bounded len s) {k : ℕ} : s.Holds k ↔ s.currentPos.toNat + k ≤ len := by
  rw [Holds, hs.mem]
  omega

lemma Bounded.rejects_iff (hs : Bounded len s) (h : s.currentPos.toNat + n.toNat < 2 ^ 32) :
    s.Rejects n ↔ len < s.currentPos.toNat + n.toNat := by
  rw [Rejects, gt_iff_lt, UInt32.lt_iff_toNat_lt, hs.max, toNat_add_of_lt h]

/-- **Where the sum wraps, the check passes**, and the bytes asked for are not in the buffer. -/
lemma Bounded.not_rejects_of_wraps (hs : Bounded len s) (h : 2 ^ 32 ≤ s.currentPos.toNat + n.toNat) :
    ¬ s.Rejects n ∧ ¬ s.Holds n.toNat := by
  have hmax := hs.max
  have hpos := hs.pos
  have hlt := s.maxLen.toNat_lt
  have hn := n.toNat_lt
  rw [Rejects, gt_iff_lt, UInt32.lt_iff_toNat_lt, UInt32.toNat_add, hs.holds_iff]
  omega

lemma Bounded.advance (hs : Bounded len s) (h : s.currentPos.toNat + n.toNat ≤ len) : Bounded len (s.advance n) := by
  refine ⟨hs.max, hs.mem, ?_⟩
  have hmax := hs.max
  have hlt := s.maxLen.toNat_lt
  show (s.currentPos + n).toNat ≤ len
  rwa [toNat_add_of_lt (by omega)]

lemma readRawData_of_wraps (hs : Bounded len s) (hf : s.failed = false)
    (h : 2 ^ 32 ≤ s.currentPos.toNat + n.toNat) : s.readRawData n = .error .outOfRange := by
  obtain ⟨hrej, hout⟩ := hs.not_rejects_of_wraps h
  have hmax := hs.max
  have hlt := s.maxLen.toNat_lt
  have hpos := hs.pos
  refine readRawData_outside hf hrej ?_ hout
  rintro rfl
  rw [UInt32.toNat_zero] at h
  omega

lemma readRawData_of_not_fits (hs : Bounded len s) (hf : s.failed = false)
    (h : s.currentPos.toNat + n.toNat < 2 ^ 32) (hlen : len < s.currentPos.toNat + n.toNat) :
    s.readRawData n = .ok (none, { s with failed := true }) :=
  readRawData_rejected hf ((hs.rejects_iff h).2 hlen)

lemma readRawData_of_fits (hs : Bounded len s) (hf : s.failed = false)
    (hlen : s.currentPos.toNat + n.toNat ≤ len) :
    s.readRawData n = .ok (some (s.front n.toNat), s.advance n) := by
  have hmax := hs.max
  have hlt := s.maxLen.toNat_lt
  have hrej : ¬ s.Rejects n := by
    rw [hs.rejects_iff (by omega)]
    omega
  by_cases h0 : n = 0
  · subst h0
    rw [readRawData_zero hf hrej, advance_zero]
    rfl
  · exact readRawData_held hf hrej h0 (hs.holds_iff.2 hlen)

lemma adds32_extract (dest : Value) : (ReadOp.extract dest).adds32 = !dest.1.isByte := by
  obtain ⟨t, v⟩ := dest
  cases t <;> rfl

lemma exec_of_failed (hf : s.failed = true) {op : ReadOp} (h32 : op.adds32 = true) : s.exec op = .ok s := by
  cases op with
  | readRawData n =>
    rw [exec, readRawData_failed hf]
    rfl
  | readString =>
    rw [exec, readString_failed hf]
    rfl
  | seek pos => cases h32
  | skip pos => cases h32
  | extract dest =>
    have hfetch : s.fetch dest.1 = .ok (none, s) := by
      rcases dest.1.cases with ht | ⟨n, ht⟩ | ht
      · rw [adds32_extract, ht] at h32
        cases h32
      · rw [fetch_raw ht, readRawData_failed hf]
      · rw [ht]
        exact readString_failed hf
    rw [exec, extract_eq, hfetch]
    rfl

lemma readRawData_behaves (hs : Bounded len s) (hw : ¬ s.Wraps (.readRawData n)) :
    Behaves len (s.Fits (.readRawData n)) (s.exec (.readRawData n)) := by
  rw [exec]
  rcases hf : s.failed with _ | _
  · have h32 : s.currentPos.toNat + n.toNat < 2 ^ 32 := by
      by_contra hge
      exact hw ⟨hf, rfl, Nat.le_of_not_lt hge⟩
    by_cases hlen : s.currentPos.toNat + n.toNat ≤ len
    · rw [readRawData_of_fits hs hf hlen]
      refine ⟨_, rfl, hs.advance hlen, fun hnot => absurd ?_ hnot⟩
      rw [Fits, hs.max]
      exact hlen
    · rw [readRawData_of_not_fits hs hf h32 (Nat.lt_of_not_le hlen)]
      exact ⟨_, rfl, hs.fail, fun _ => rfl⟩
  · rw [readRawData_failed hf]
    exact ⟨s, rfl, hs, fun _ => hf⟩

lemma readChars_eq (hs : Bounded len s) (hf : s.failed = false) : s.readChars n = s.readRawData n := by
  rw [readChars_eq_ite, readRawData_eq hf]
  by_cases h0 : n = 0
  · subst h0
    have hrej : ¬ s.Rejects 0 := by
      rw [Rejects, UInt32.add_zero, gt_iff_lt, UInt32.lt_iff_toNat_lt, hs.max, Nat.not_lt]
      exact hs.pos
    rw [if_neg hrej, if_neg hrej, if_pos rfl, load_of_holds (hs.holds_iff.2 hs.pos), advance_zero]
    rfl
  · rw [if_neg h0]

/-- The operation does on `s` what `ReadRawData(n)` does on `t`. -/
structure Reduces (len : ℕ) (s : ByteStream) (op : ReadOp) (t : ByteStream) (n : UInt32) : Prop where
  bounded : Bounded len t
  exec_eq : s.exec op = t.exec (.readRawData n)
  fits_iff : s.Fits op ↔ t.Fits (.readRawData n)
  wraps_iff : s.Wraps op ↔ t.Wraps (.readRawData n)

/-- **A string is its length and then raw data**, if the stream has not failed. -/
lemma readString_reduces (hs : Bounded len s) (hf : s.failed = false) :
    ∃ t n, Reduces len s .readString t n := by
  have hmax := hs.max
  by_cases hfour : s.currentPos.toNat + 4 ≤ len
  · have hlt := s.maxLen.toNat_lt
    have hadd : (s.advance 4).currentPos.toNat = s.currentPos.toNat + 4 :=
      toNat_add_of_lt (show s.currentPos.toNat + 4 < 2 ^ 32 by omega)
    have hlength : get32 ((s.block.getD []).drop (s.offset + s.currentPos.toNat)) 0 = s.stringLength := by
      simp [stringLength, front, get32, List.getD_eq_getElem?_getD]
    have hdemand : s.stringDemand = 4 + s.stringLength.toNat := by
      rw [stringDemand, hmax, if_pos hfour, hlength]
    have hbounded : Bounded len (s.advance 4) := hs.advance hfour
    refine ⟨s.advance 4, s.stringLength, hbounded, ?_, ?_, ?_⟩
    · have hstring : s.readString = (s.advance 4).readChars s.stringLength := by
        rw [readString, readRawData_of_fits (n := 4) hs hf hfour]
        rfl
      rw [exec, exec, hstring, readChars_eq hbounded hf]
    · rw [Fits, Fits, demand, demand, hdemand, hadd, Nat.add_assoc]
      rfl
    · rw [Wraps, Wraps, demand, demand, hdemand, hadd, Nat.add_assoc]
      rfl
  · have hdemand : s.stringDemand = 4 := by
      rw [stringDemand, hmax, if_neg hfour]
    refine ⟨s, 4, hs, ?_, ?_, ?_⟩
    · rw [exec, exec, readString]
      by_cases h32 : s.currentPos.toNat + 4 < 2 ^ 32
      · rw [readRawData_of_not_fits (n := 4) hs hf h32 (Nat.lt_of_not_le hfour)]
        rfl
      · rw [readRawData_of_wraps (n := 4) hs hf (Nat.le_of_not_lt h32)]
        rfl
    · rw [Fits, Fits, demand, demand, hdemand]
      rfl
    · rw [Wraps, Wraps, demand, demand, hdemand]
      rfl

lemma fieldDemand_raw {t : FieldType} (ht : t.rawSize = some n) : s.fieldDemand t = n.toNat := by
  cases t <;> first | (cases ht; rfl) | cases ht

lemma fieldDemand_byte {t : FieldType} (ht : t.isByte = true) : s.fieldDemand t = 1 := by
  cases t <;> first | rfl | cases ht

lemma extract_reduces (hs : Bounded len s) (hf : s.failed = false) {dest : Value}
    (h32 : (ReadOp.extract dest).adds32 = true) : ∃ t n, Reduces len s (.extract dest) t n := by
  rcases dest.1.cases with ht | ⟨n, ht⟩ | ht
  · rw [adds32_extract, ht] at h32
    cases h32
  · refine ⟨s, n, hs, ?_, ?_, ?_⟩
    · rw [exec, exec, extract_eq, fetch_raw ht]
      cases s.readRawData n <;> rfl
    · rw [Fits, Fits, demand, demand, fieldDemand_raw ht]
    · rw [Wraps, Wraps, demand, demand, fieldDemand_raw ht, h32]
      rfl
  · obtain ⟨t, n, hred⟩ := readString_reduces hs hf
    refine ⟨t, n, hred.bounded, ?_, ?_, ?_⟩
    · rw [← hred.exec_eq, exec, exec, extract_eq, ht]
      show (s.readString >>= _) >>= _ = _
      cases s.readString <;> rfl
    · rw [← hred.fits_iff, Fits, demand, ht]
      rfl
    · rw [← hred.wraps_iff, Wraps, demand, ht, h32]
      rfl

lemma extract_byte_behaves (hs : Bounded len s) {dest : Value} (h32 : (ReadOp.extract dest).adds32 = false) :
    Behaves len (s.Fits (.extract dest)) (s.exec (.extract dest)) := by
  have ht : dest.1.isByte = true := by
    rwa [adds32_extract, Bool.not_eq_false'] at h32
  rw [exec, extract_eq, fetch_byte ht, Fits, demand, fieldDemand_byte ht, hs.max]
  by_cases hfit : s.currentPos.toNat + 1 ≤ len
  · have hrej : ¬ s.RejectsByte := by
      rw [RejectsByte, hs.max]
      omega
    rw [readByte_held hrej (hs.holds_iff.2 hfit)]
    exact ⟨_, rfl, hs.advance hfit, fun hnot => absurd hfit hnot⟩
  · have hrej : s.RejectsByte := by
      rw [RejectsByte, hs.max]
      omega
    rw [readByte_rejected hrej]
    exact ⟨_, rfl, hs.fail, fun _ => rfl⟩

lemma Bounded.fits_zero (hs : Bounded len s) : s.currentPos.toNat + 0 ≤ s.maxLen.toNat := by
  rw [hs.max]
  exact hs.pos

lemma seek_bounded (hs : Bounded len s) (pos : UInt32) : Bounded len (s.seek pos).2 := by
  rw [seek]
  split
  · exact hs
  · rename_i hle
    refine ⟨hs.max, hs.mem, ?_⟩
    rw [gt_iff_lt, UInt32.lt_iff_toNat_lt, hs.max] at hle
    show pos.toNat ≤ len
    omega

lemma skip_bounded (hs : Bounded len s) (pos : UInt32) : Bounded len (s.skip pos).2 := by
  rw [skip]
  split
  · exact hs
  · rename_i hle
    refine ⟨hs.max, hs.mem, ?_⟩
    rw [gt_iff_lt, UInt32.lt_iff_toNat_lt, hs.max] at hle
    show (s.currentPos + pos).toNat ≤ len
    omega

lemma reduces (hs : Bounded len s) (hf : s.failed = false) {op : ReadOp} (h32 : op.adds32 = true) :
    ∃ t n, Reduces len s op t n := by
  cases op with
  | extract dest => exact extract_reduces hs hf h32
  | readRawData n => exact ⟨s, n, hs, rfl, Iff.rfl, Iff.rfl⟩
  | readString => exact readString_reduces hs hf
  | seek pos => cases h32
  | skip pos => cases h32

/-- **Where the sum wraps, the read leaves the buffer.** -/
theorem exec_of_wraps (hs : Bounded len s) {op : ReadOp} (hw : s.Wraps op) : s.exec op = .error .outOfRange := by
  obtain ⟨t, n, hred⟩ := reduces hs hw.1 hw.2.1
  obtain ⟨hf, -, hge⟩ := hred.wraps_iff.1 hw
  rw [hred.exec_eq, exec, readRawData_of_wraps hred.bounded hf hge]
  rfl

/-- **Where it does not, the operation behaves.** -/
theorem exec_behaves (hs : Bounded len s) {op : ReadOp} (hw : ¬ s.Wraps op) :
    Behaves len (s.Fits op) (s.exec op) := by
  rcases h32 : op.adds32 with _ | _
  · cases op with
    | extract dest => exact extract_byte_behaves hs h32
    | readRawData n => cases h32
    | readString => cases h32
    | seek pos => exact ⟨_, rfl, seek_bounded hs pos, fun hnot => absurd hs.fits_zero hnot⟩
    | skip pos => exact ⟨_, rfl, skip_bounded hs pos, fun hnot => absurd hs.fits_zero hnot⟩
  · rcases hf : s.failed with _ | _
    · obtain ⟨t, n, hred⟩ := reduces hs hf h32
      rw [hred.wraps_iff] at hw
      obtain ⟨s', hs', hbounded, hfail⟩ := readRawData_behaves hred.bounded hw
      exact ⟨s', by rw [hred.exec_eq, hs'], hbounded, fun hnot => hfail (fun hfit => hnot (hred.fits_iff.2 hfit))⟩
    · exact ⟨s, exec_of_failed hf h32, hs, fun _ => hf⟩

end Reads

/-! ### Runs -/

section Runs

variable {s₀ s : ByteStream} {len : ℕ} {ops : List ReadOp}

lemma bounded_of_exec (hs : Bounded len s₀) {op : ReadOp} (h : s₀.exec op = .ok s) : Bounded len s := by
  by_cases hw : s₀.Wraps op
  · rw [exec_of_wraps hs hw] at h
    cases h
  · obtain ⟨s', hs', hbounded, -⟩ := exec_behaves hs hw
    obtain rfl : s = s' := Except.ok.inj (h.symm.trans hs')
    exact hbounded

lemma bounded_of_run (hs : Bounded len s₀) (h : ops.foldlM exec s₀ = .ok s) : Bounded len s := by
  induction ops generalizing s₀ with
  | nil =>
    obtain rfl : s₀ = s := Except.ok.inj h
    exact hs
  | cons op ops ih =>
    rw [List.foldlM_cons] at h
    obtain ⟨s₁, h₁, h₂⟩ := bind_eq_ok.1 h
    exact ih (bounded_of_exec hs h₁) h₂

lemma run_of_not_wraps (hs : Bounded len s₀)
    (hw : ∀ pre op s, pre ++ [op] <+: ops → pre.foldlM exec s₀ = .ok s → ¬ s.Wraps op) :
    ∀ pre, pre <+: ops → ∃ s, pre.foldlM exec s₀ = .ok s := by
  intro pre
  induction pre using List.reverseRec with
  | nil => exact fun _ => ⟨s₀, rfl⟩
  | append_singleton pre op ih =>
    intro hpre
    obtain ⟨s, hrun⟩ := ih ((List.prefix_append pre [op]).trans hpre)
    obtain ⟨s', hs', -⟩ := exec_behaves (bounded_of_run hs hrun) (hw pre op s hpre hrun)
    refine ⟨s', ?_⟩
    rw [List.foldlM_append, hrun, ok_bind, List.foldlM_cons, hs']
    rfl

end Runs

lemma bounded_ofBuffer {bytes : List UInt8} (hlen : bytes.length < 2 ^ 32) :
    Bounded bytes.length (ofBuffer (some bytes) 0 (UInt32.ofNat bytes.length)) := by
  refine ⟨?_, (Nat.zero_add _).symm, Nat.zero_le _⟩
  show (UInt32.ofNat bytes.length).toNat = bytes.length
  rw [UInt32.toNat_ofNat', Nat.mod_eq_of_lt hlen]

/-- **Reads stay in the buffer exactly as long as no check wraps.** Over any bytes and for any operations, each of them
stays in the buffer, leaves the cursor in it and fails if it asks for more than there is, if and only if for none of
them the sum of the cursor and what it asks for reaches `2 ^ 32`. -/
theorem reads_in_bounds_iff (bytes : List UInt8) (hlen : bytes.length < 2 ^ 32) (ops : List ReadOp) :
    (∀ pre op, pre ++ [op] <+: ops →
      ∃ s s', pre.foldlM exec (ofBuffer (some bytes) 0 (UInt32.ofNat bytes.length)) = .ok s ∧ s.exec op = .ok s' ∧
        s'.currentPos.toNat ≤ bytes.length ∧ (¬ s.Fits op → s'.failed = true)) ↔
    ∀ pre op s, pre ++ [op] <+: ops →
      pre.foldlM exec (ofBuffer (some bytes) 0 (UInt32.ofNat bytes.length)) = .ok s → ¬ s.Wraps op := by
  have hs₀ := bounded_ofBuffer hlen
  constructor
  · intro h pre op s hpre hrun hw
    obtain ⟨s₁, s', hrun₁, hexec, -⟩ := h pre op hpre
    obtain rfl : s = s₁ := Except.ok.inj (hrun.symm.trans hrun₁)
    rw [exec_of_wraps (bounded_of_run hs₀ hrun) hw] at hexec
    cases hexec
  · intro h pre op hpre
    obtain ⟨s, hrun⟩ := run_of_not_wraps hs₀ h pre ((List.prefix_append pre [op]).trans hpre)
    obtain ⟨s', hexec, hbounded, hfail⟩ := exec_behaves (bounded_of_run hs₀ hrun) (h pre op s hpre hrun)
    exact ⟨s, s', hrun, hexec, hbounded.pos, hfail⟩

/-- A byte is read, and then the rest. -/
theorem reads_in_bounds_iff_two :
    (∀ pre op, pre ++ [op] <+: [ReadOp.extract ⟨.uint8, 0⟩, .readRawData 1] →
      ∃ s s', pre.foldlM exec (ofBuffer (some [7, 8]) 0 2) = .ok s ∧ s.exec op = .ok s' ∧
        s'.currentPos.toNat ≤ 2 ∧ (¬ s.Fits op → s'.failed = true)) ↔
    ∀ pre op s, pre ++ [op] <+: [ReadOp.extract ⟨.uint8, 0⟩, .readRawData 1] →
      pre.foldlM exec (ofBuffer (some [7, 8]) 0 2) = .ok s → ¬ s.Wraps op :=
  reads_in_bounds_iff [7, 8] (by decide) [.extract ⟨.uint8, 0⟩, .readRawData 1]

/-- **A packet can make the stream read outside its buffer**: the body is the length `0xFFFFFFFF` of a string, and its
sum with the cursor is 3. -/
theorem string_leaves_buffer :
    (ofBuffer (some [0xFF, 0xFF, 0xFF, 0xFF]) 0 4).exec (.extract ⟨.string, []⟩) = .error .outOfRange ∧
    ¬ ∀ pre op, pre ++ [op] <+: [ReadOp.extract ⟨.string, []⟩] →
      ∃ s s', pre.foldlM exec (ofBuffer (some [0xFF, 0xFF, 0xFF, 0xFF]) 0 4) = .ok s ∧ s.exec op = .ok s' ∧
        s'.currentPos.toNat ≤ 4 ∧ (¬ s.Fits op → s'.failed = true) := by
  have hout : (ofBuffer (some [0xFF, 0xFF, 0xFF, 0xFF]) 0 4).exec (.extract ⟨.string, []⟩) = .error .outOfRange := rfl
  refine ⟨hout, fun h => ?_⟩
  obtain ⟨s, s', hrun, hexec, -⟩ := h [] (.extract ⟨.string, []⟩) (List.prefix_refl _)
  obtain rfl := Except.ok.inj hrun
  rw [hout] at hexec
  cases hexec

end Zutils.ByteStream
