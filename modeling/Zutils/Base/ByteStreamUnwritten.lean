import Zutils.Base.ByteStreamAtomic

/-!
# A read can return what has not been written

A read should succeed only if its bytes end at `Length()` or before, and otherwise fail and leave its variable alone.
The checks of the reads compare with `max_len_`, which is the capacity, and not with `data_len_`. `ReadsWithin` says
where a read keeps to the rule all the same: its check refuses it, or what it asks for has been written
(`readsOnlyWritten_iff`). That holds of a stream in any state in which what has been written is in the block
(`Backed`).
-/

namespace Zutils.ByteStream

/-- A read, without the variable that it stores to. -/
inductive ReadCall where
  | extract (t : FieldType)
  | readRawData (dataLen : UInt32)
  | readString
  | readCString (dataLen : UInt32)

/-- The `n` bytes at the cursor end at `Length()` or before. -/
def WithinLength (s : ByteStream) (n : ℕ) : Prop := s.currentPos.toNat + n ≤ s.dataLen.toNat

/-- How many bytes a string asks for, of which at most `cap` are read behind its length. -/
def wantedString (s : ByteStream) (cap : UInt32) : ℕ :=
  if ¬ s.Rejects 4 ∧ s.Holds 4 then 4 + min s.stringLength.toNat cap.toNat else 4

/-- How many bytes a read asks for. -/
def wanted (s : ByteStream) : ReadCall → ℕ
  | .extract .string | .readString => s.wantedString 4294967295
  | .extract t => (t.rawSize.getD 1).toNat
  | .readRawData dataLen => dataLen.toNat
  | .readCString dataLen => s.wantedString dataLen

/-- **The rule**: the read returns, and if what it asks for has not been written it fails and leaves its variable alone,
whatever is in it. -/
def ReadsOnlyWritten (s : ByteStream) (call : ReadCall) : Prop :=
  match call with
  | .extract t => ∀ dest : t.Val, ∃ v s', s.extract ⟨t, dest⟩ = .ok (v, s') ∧
      (¬ s.WithinLength (s.wanted call) → v = ⟨t, dest⟩ ∧ s'.failed = true)
  | .readRawData dataLen => ∃ r s', s.readRawData dataLen = .ok (r, s') ∧
      (¬ s.WithinLength (s.wanted call) → r = none ∧ s'.failed = true)
  | .readString => ∃ r s', s.readString = .ok (r, s') ∧
      (¬ s.WithinLength (s.wanted call) → r = none ∧ s'.failed = true)
  | .readCString dataLen => ∀ str : List UInt8, str.length = dataLen.toNat →
      ∃ ok str' s', s.readCString str dataLen = .ok (ok, str', s') ∧
        (¬ s.WithinLength (s.wanted call) → ok = false ∧ str' = str ∧ s'.failed = true)

/-- Where `ReadRawData` keeps to the rule. -/
def RawWithin (s : ByteStream) (n : UInt32) : Prop :=
  s.failed = true ∨ s.Rejects n ∨ s.WithinLength n.toNat ∧ (n = 0 ∨ s.block.isSome = true)

/-- Where a string of any length does. -/
def StringWithin (s : ByteStream) : Prop :=
  s.failed = true ∨ s.Rejects 4 ∨ s.Holds 4 ∧ (s.advance 4).Rejects s.stringLength ∨
    s.block.isSome = true ∧ s.WithinLength (4 + s.stringLength.toNat)

/-- Where a string does that is cut: when that has been done, its last byte is set already. -/
def CStringWithin (s : ByteStream) (n : UInt32) : Prop :=
  s.failed = true ∨ s.Rejects 4 ∨
    s.Holds 4 ∧ s.stringLength.toNat ≤ n.toNat ∧ (s.advance 4).Rejects s.stringLength ∨
    s.block.isSome = true ∧ (s.stringLength.toNat ≤ n.toNat ∨ n ≠ 0) ∧
      s.WithinLength (4 + min s.stringLength.toNat n.toNat)

/-- **Where a read keeps to the rule**: it is refused, because the stream has failed (of which a read of one byte takes
no notice) or by its check; or there is a buffer, and what it asks for has been written to it. -/
def ReadsWithin (s : ByteStream) : ReadCall → Prop
  | .extract .bool | .extract .char | .extract .uint8 => s.RejectsByte ∨ s.WithinLength 1 ∧ s.block.isSome = true
  | .extract .int16 | .extract .uint16 => s.RawWithin 2
  | .extract .int32 | .extract .uint32 => s.RawWithin 4
  | .extract .string | .readString => s.StringWithin
  | .readRawData dataLen => s.RawWithin dataLen
  | .readCString dataLen => s.CStringWithin dataLen

/-- What has been written is in the block. -/
def Backed (s : ByteStream) : Prop :=
  s.block.isSome = true → 0 < s.dataLen.toNat → s.offset + s.dataLen.toNat ≤ (s.block.getD []).length

section Rule

variable {s : ByteStream} {t : FieldType} {n : UInt32}

lemma Backed.holds (hs : Backed s) (hb : s.block.isSome = true) {k : ℕ} (hk : 0 < k) (h : s.WithinLength k) :
    s.Holds k := by
  unfold WithinLength at h
  have := hs hb (by omega)
  unfold Holds
  omega

/-- The read returns, and takes nothing unless `fits`. -/
def RefusesUnless (fits : Prop) (x : Except StreamFault (Option (List UInt8) × ByteStream)) : Prop :=
  ∃ r s', x = .ok (r, s') ∧ (¬ fits → r = none ∧ s'.failed = true)

variable {fits : Prop} {x : Except StreamFault (Option (List UInt8) × ByteStream)}

lemma refusesUnless_none {s' : ByteStream} (hx : x = .ok (none, s')) (hf : s'.failed = true) : RefusesUnless fits x :=
  ⟨none, s', hx, fun _ => ⟨rfl, hf⟩⟩

lemma refusesUnless_some {bs : List UInt8} {s' : ByteStream} (hx : x = .ok (some bs, s')) :
    RefusesUnless fits x ↔ fits := by
  constructor
  · rintro ⟨r, s'', h, hno⟩
    by_contra hfits
    obtain ⟨rfl, -⟩ := hno hfits
    rw [hx] at h
    obtain ⟨h, -⟩ := Prod.mk.inj (Except.ok.inj h)
    cases h
  · exact fun h => ⟨_, _, hx, fun hno => absurd h hno⟩

lemma not_refusesUnless_error {e : StreamFault} (hx : x = .error e) : ¬ RefusesUnless fits x := by
  rintro ⟨r, s', h, -⟩
  rw [hx] at h
  cases h

lemma readRawData_refuses_iff (hs : Backed s) (n : UInt32) :
    RefusesUnless (s.WithinLength n.toNat) (s.readRawData n) ↔ s.RawWithin n := by
  unfold RawWithin
  rcases hf : s.failed with _ | _
  swap
  · exact iff_of_true (refusesUnless_none (readRawData_failed hf) hf) (.inl rfl)
  by_cases hrej : s.Rejects n
  · exact iff_of_true (refusesUnless_none (readRawData_rejected hf hrej) rfl) (.inr (.inl hrej))
  simp only [hrej, Bool.false_eq_true, false_or]
  by_cases h0 : n = 0
  · subst h0
    rw [refusesUnless_some (readRawData_zero hf hrej)]
    exact ⟨fun h => ⟨h, .inl rfl⟩, And.left⟩
  have hpos := toNat_pos h0
  by_cases hmem : s.Holds n.toNat
  · rw [refusesUnless_some (readRawData_held hf hrej h0 hmem)]
    refine ⟨fun h => ⟨h, .inr ?_⟩, And.left⟩
    rcases hb : s.block with _ | block
    · unfold Holds at hmem
      rw [hb, Option.getD_none, List.length_nil] at hmem
      omega
    · rfl
  · refine iff_of_false (not_refusesUnless_error (readRawData_outside hf hrej h0 hmem)) ?_
    rintro ⟨h, h' | hb⟩
    · exact h0 h'
    · exact hmem (hs.holds hb hpos h)

lemma readByte_refuses_iff (hs : Backed s) (ht : t.isByte = true) :
    RefusesUnless (s.WithinLength 1) (s.fetch t) ↔ s.RejectsByte ∨ s.WithinLength 1 ∧ s.block.isSome = true := by
  rw [fetch_byte ht]
  by_cases hrej : s.RejectsByte
  · rw [readByte_rejected hrej]
    exact iff_of_true (refusesUnless_none rfl rfl) (.inl hrej)
  simp only [hrej, false_or]
  by_cases hmem : s.Holds 1
  · rw [readByte_held hrej hmem]
    refine (refusesUnless_some rfl).trans ?_
    refine ⟨fun h => ⟨h, ?_⟩, And.left⟩
    rcases hb : s.block with _ | block
    · unfold Holds at hmem
      rw [hb, Option.getD_none, List.length_nil] at hmem
      omega
    · rfl
  · refine iff_of_false (not_refusesUnless_error (e := .outOfRange) ?_) ?_
    · rw [readByte_outside hrej hmem]
      rfl
    · rintro ⟨h, hb⟩
      exact hmem (hs.holds hb Nat.one_pos h)

lemma wantedString_held (hrej : ¬ s.Rejects 4) (hmem : s.Holds 4) (cap : UInt32) :
    s.wantedString cap = 4 + min s.stringLength.toNat cap.toNat := by
  unfold wantedString
  rw [if_pos ⟨hrej, hmem⟩]

lemma wantedString_all (hrej : ¬ s.Rejects 4) (hmem : s.Holds 4) :
    s.wantedString 4294967295 = 4 + s.stringLength.toNat := by
  have hlt := s.stringLength.toNat_lt
  have hcap : (4294967295 : UInt32).toNat = 4294967295 := rfl
  rw [wantedString_held hrej hmem, hcap]
  omega

lemma isSome_of_holds {k : ℕ} (hk : 0 < k) (hmem : s.Holds k) : s.block.isSome = true := by
  rcases hb : s.block with _ | block
  · unfold Holds at hmem
    rw [hb, Option.getD_none, List.length_nil] at hmem
    omega
  · rfl

lemma Backed.holds_behind (hs : Backed s) (hb : s.block.isSome = true) {k : ℕ} (h : s.WithinLength (4 + k)) :
    (s.advance 4).Holds k := by
  unfold WithinLength at h
  have hlt := s.dataLen.toNat_lt
  have hfour : (4 : UInt32).toNat = 4 := rfl
  have hadd : (s.currentPos + 4).toNat = s.currentPos.toNat + 4 := by
    rw [toNat_add_of_lt (by rw [hfour]; omega), hfour]
  have hback := hs hb (by omega)
  unfold Holds ByteStream.advance
  rw [hadd]
  show s.offset + (s.currentPos.toNat + 4) + k ≤ (s.block.getD []).length
  omega

lemma readString_refuses_iff (hs : Backed s) :
    RefusesUnless (s.WithinLength (s.wantedString 4294967295)) s.readString ↔ s.StringWithin := by
  unfold StringWithin
  rcases hf : s.failed with _ | _
  swap
  · exact iff_of_true (refusesUnless_none (readString_failed hf) hf) (.inl rfl)
  by_cases hrej : s.Rejects 4
  · exact iff_of_true (refusesUnless_none (readString_rejected hf hrej) rfl) (.inr (.inl hrej))
  by_cases hmem : s.Holds 4
  swap
  · refine iff_of_false (not_refusesUnless_error (readString_outside hf hrej hmem)) ?_
    rintro (h | h | ⟨h, -⟩ | ⟨hb, h⟩)
    · cases h
    · exact hrej h
    · exact hmem h
    · exact hmem (hs.holds hb (by omega) (show s.WithinLength 4 by unfold WithinLength at *; omega))
  have hread := readString_held hf hrej hmem
  rw [wantedString_all hrej hmem]
  by_cases hrej' : (s.advance 4).Rejects s.stringLength
  · rw [readChars_rejected hrej'] at hread
    exact iff_of_true (refusesUnless_none hread rfl) (.inr (.inr (.inl ⟨hmem, hrej'⟩)))
  simp only [hrej, hrej', Bool.false_eq_true, false_or, and_false]
  by_cases hmem' : (s.advance 4).Holds s.stringLength.toNat
  · rw [readChars_held hrej' hmem'] at hread
    rw [refusesUnless_some hread]
    exact ⟨fun h => ⟨isSome_of_holds (by omega) hmem, h⟩, And.right⟩
  · rw [readChars_outside hrej' hmem'] at hread
    exact iff_of_false (not_refusesUnless_error hread) fun h => hmem' (hs.holds_behind h.1 h.2)

/-! ### A string that is cut -/

/-- The memory of the caller after a read that has been refused, of a string that may have been cut. -/
def CutRule (fits : Prop) (str : List UInt8) (x : Except StreamFault (Bool × List UInt8 × ByteStream)) : Prop :=
  ∃ ok str' s', x = .ok (ok, str', s') ∧ (¬ fits → ok = false ∧ str' = str ∧ s'.failed = true)

variable {str str' : List UInt8} {y : Except StreamFault (Bool × List UInt8 × ByteStream)}

lemma cutRule_refused {s' : ByteStream} (hy : y = .ok (false, str', s')) (hf : s'.failed = true) :
    CutRule fits str y ↔ fits ∨ str' = str := by
  constructor
  · rintro ⟨ok, str'', s'', h, hno⟩
    by_cases hfits : fits
    · exact .inl hfits
    · rw [hy] at h
      obtain ⟨-, h⟩ := Prod.mk.inj (Except.ok.inj h)
      obtain ⟨hstr, -⟩ := Prod.mk.inj h
      exact .inr (hstr.trans (hno hfits).2.1)
  · rintro (h | rfl)
    · exact ⟨_, _, _, hy, fun hno => absurd h hno⟩
    · exact ⟨_, _, _, hy, fun _ => ⟨rfl, rfl, hf⟩⟩

lemma cutRule_read {s' : ByteStream} (hy : y = .ok (true, str', s')) : CutRule fits str y ↔ fits := by
  constructor
  · rintro ⟨ok, str'', s'', h, hno⟩
    by_contra hfits
    obtain ⟨rfl, -⟩ := hno hfits
    rw [hy] at h
    obtain ⟨h, -⟩ := Prod.mk.inj (Except.ok.inj h)
    cases h
  · exact fun h => ⟨_, _, _, hy, fun hno => absurd h hno⟩

lemma not_cutRule_error {e : StreamFault} (hy : y = .error e) : ¬ CutRule fits str y := by
  rintro ⟨ok, str', s', h, -⟩
  rw [hy] at h
  cases h

lemma readInto_cutRule_iff (hf : s.failed = false) (hlen : n.toNat ≤ str'.length) :
    CutRule fits str (s.readInto str' n) ↔
      s.Rejects n ∧ (fits ∨ str' = str) ∨ ¬ s.Rejects n ∧ (n = 0 ∨ s.Holds n.toNat) ∧ fits := by
  by_cases hrej : s.Rejects n
  · have hread : s.readInto str' n = .ok (false, str', { s with failed := true }) := by
      unfold readInto
      rw [readRawData_rejected hf hrej]
      rfl
    rw [cutRule_refused hread rfl]
    simp only [hrej, true_and, not_true_eq_false, false_and, or_false]
  simp only [hrej, false_and, not_false_eq_true, true_and, false_or]
  by_cases h0 : n = 0
  · subst h0
    have hread : s.readInto str' 0 = .ok (true, str', s) := by
      unfold readInto
      rw [readRawData_zero hf hrej]
      rfl
    rw [cutRule_read hread]
    exact ⟨fun h => ⟨.inl rfl, h⟩, And.right⟩
  by_cases hmem : s.Holds n.toNat
  · have hread : ∃ str'' s', s.readInto str' n = .ok (true, str'', s') := by
      unfold readInto
      rw [readRawData_held hf hrej h0 hmem]
      refine ⟨_, _, if_pos ?_⟩
      rw [front_length hmem]
      exact hlen
    obtain ⟨str'', s', hread⟩ := hread
    rw [cutRule_read hread]
    exact ⟨fun h => ⟨.inr hmem, h⟩, And.right⟩
  · refine iff_of_false (not_cutRule_error (e := .outOfRange) ?_) (fun h => h.1.elim h0 hmem)
    unfold readInto
    rw [readRawData_outside hf hrej h0 hmem]
    rfl

lemma readCString_held (hf : s.failed = false) (hrej : ¬ s.Rejects 4) (hmem : s.Holds 4) (str : List UInt8) :
    s.readCString str n = if s.stringLength > n then
        if (n - 1).toNat < str.length then (s.advance 4).readInto (str.set (n - 1).toNat 0) n else .error .outOfRange
      else (s.advance 4).readInto str s.stringLength := by
  unfold readCString
  rw [readRawData_held hf hrej (by decide) hmem]
  rfl

/-- A string that is cut. There are variables that setting the last byte changes. -/
lemma readCString_cut_iff (hs : Backed s) (hf : s.failed = false) (hrej : ¬ s.Rejects 4) (hmem : s.Holds 4)
    (hcut : s.stringLength > n) :
    (∀ str : List UInt8, str.length = n.toNat → CutRule (s.WithinLength (4 + n.toNat)) str (s.readCString str n)) ↔
      n ≠ 0 ∧ s.WithinLength (4 + n.toNat) := by
  by_cases h0 : n = 0
  · refine iff_of_false (fun h => not_cutRule_error (e := .outOfRange) ?_
      (h (List.replicate n.toNat 1) List.length_replicate)) (fun h => h.1 h0)
    have hout : ¬ ((0 : UInt32) - 1).toNat < (0 : UInt32).toNat := by decide
    rw [readCString_held hf hrej hmem, if_pos hcut, List.length_replicate, h0, if_neg hout]
  have hpos := toNat_pos h0
  have hn : (n - 1).toNat = n.toNat - 1 := by
    rw [UInt32.toNat_sub_of_le _ _ (UInt32.le_iff_toNat_le.2 (show (1 : UInt32).toNat ≤ n.toNat from hpos))]
    rfl
  have hrule : ∀ str : List UInt8, str.length = n.toNat →
      (CutRule (s.WithinLength (4 + n.toNat)) str (s.readCString str n) ↔
        (s.advance 4).Rejects n ∧ (s.WithinLength (4 + n.toNat) ∨ str.set (n - 1).toNat 0 = str) ∨
          ¬ (s.advance 4).Rejects n ∧ (n = 0 ∨ (s.advance 4).Holds n.toNat) ∧ s.WithinLength (4 + n.toNat)) := by
    intro str hstr
    rw [readCString_held hf hrej hmem, if_pos hcut, if_pos (by rw [hn, hstr]; omega)]
    exact readInto_cutRule_iff hf (by rw [List.length_set, hstr])
  constructor
  · intro h
    refine ⟨h0, ?_⟩
    have hlen : (List.replicate n.toNat (1 : UInt8)).length = n.toNat := List.length_replicate
    rcases (hrule _ hlen).1 (h _ hlen) with ⟨-, hfits | hsame⟩ | ⟨-, -, hfits⟩
    · exact hfits
    · have hlast := congrArg (fun l => l[n.toNat - 1]?) hsame
      simp only [hn] at hlast
      rw [List.getElem?_set_self (by omega), List.getElem?_replicate, if_pos (by omega)] at hlast
      cases hlast
    · exact hfits
  · rintro ⟨-, hfits⟩ str hstr
    rw [hrule str hstr]
    by_cases hrej' : (s.advance 4).Rejects n
    · exact .inl ⟨hrej', .inl hfits⟩
    · exact .inr ⟨hrej', .inr (hs.holds_behind (isSome_of_holds (by omega) hmem) hfits), hfits⟩

lemma readCString_whole_iff (hs : Backed s) (hf : s.failed = false) (hrej : ¬ s.Rejects 4) (hmem : s.Holds 4)
    (hcut : ¬ s.stringLength > n) :
    (∀ str : List UInt8, str.length = n.toNat →
      CutRule (s.WithinLength (4 + s.stringLength.toNat)) str (s.readCString str n)) ↔
      (s.advance 4).Rejects s.stringLength ∨ s.WithinLength (4 + s.stringLength.toNat) := by
  have hle : s.stringLength.toNat ≤ n.toNat := by
    rw [gt_iff_lt, UInt32.lt_iff_toNat_lt] at hcut
    omega
  have hrule : ∀ str : List UInt8, str.length = n.toNat →
      (CutRule (s.WithinLength (4 + s.stringLength.toNat)) str (s.readCString str n) ↔
        (s.advance 4).Rejects s.stringLength ∧ (s.WithinLength (4 + s.stringLength.toNat) ∨ str = str) ∨
          ¬ (s.advance 4).Rejects s.stringLength ∧
            (s.stringLength = 0 ∨ (s.advance 4).Holds s.stringLength.toNat) ∧
            s.WithinLength (4 + s.stringLength.toNat)) := by
    intro str hstr
    rw [readCString_held hf hrej hmem, if_neg hcut]
    exact readInto_cutRule_iff hf (by rw [hstr]; exact hle)
  constructor
  · intro h
    have hlen : (List.replicate n.toNat (1 : UInt8)).length = n.toNat := List.length_replicate
    rcases (hrule _ hlen).1 (h _ hlen) with ⟨hrej', -⟩ | ⟨-, -, hfits⟩
    · exact .inl hrej'
    · exact .inr hfits
  · intro h str hstr
    rw [hrule str hstr]
    by_cases hrej' : (s.advance 4).Rejects s.stringLength
    · exact .inl ⟨hrej', .inr rfl⟩
    · have hfits := h.resolve_left hrej'
      exact .inr ⟨hrej', .inr (hs.holds_behind (isSome_of_holds (by omega) hmem) hfits), hfits⟩

lemma readCString_rule_iff (hs : Backed s) (n : UInt32) :
    (∀ str : List UInt8, str.length = n.toNat →
      CutRule (s.WithinLength (s.wantedString n)) str (s.readCString str n)) ↔ s.CStringWithin n := by
  unfold CStringWithin
  rcases hf : s.failed with _ | _
  swap
  · refine iff_of_true (fun str _ => ⟨false, str, s, ?_, fun _ => ⟨rfl, rfl, hf⟩⟩) (.inl rfl)
    unfold readCString
    rw [readRawData_failed hf]
    rfl
  by_cases hrej : s.Rejects 4
  · refine iff_of_true (fun str _ => ⟨false, str, { s with failed := true }, ?_, fun _ => ⟨rfl, rfl, rfl⟩⟩)
      (.inr (.inl hrej))
    unfold readCString
    rw [readRawData_rejected hf hrej]
    rfl
  by_cases hmem : s.Holds 4
  swap
  · refine iff_of_false (fun h => not_cutRule_error (e := .outOfRange) ?_
      (h (List.replicate n.toNat 1) List.length_replicate)) ?_
    · unfold readCString
      rw [readRawData_outside hf hrej (by decide) hmem]
      rfl
    · rintro (h | h | ⟨h, -⟩ | ⟨hb, -, h⟩)
      · cases h
      · exact hrej h
      · exact hmem h
      · exact hmem (hs.holds hb (by omega) (show s.WithinLength 4 by unfold WithinLength at *; omega))
  have hb := isSome_of_holds (by omega) hmem
  rw [wantedString_held hrej hmem]
  simp only [hrej, hmem, hb, true_and, Bool.false_eq_true, false_or]
  by_cases hcut : s.stringLength > n
  · have hlt := UInt32.lt_iff_toNat_lt.1 hcut
    have hmin : min s.stringLength.toNat n.toNat = n.toNat := by omega
    have hnot : ¬ s.stringLength.toNat ≤ n.toNat := by omega
    simp only [hmin, hnot, false_and, false_or]
    exact readCString_cut_iff hs hf hrej hmem hcut
  · have hle : s.stringLength.toNat ≤ n.toNat := by
      rw [gt_iff_lt, UInt32.lt_iff_toNat_lt] at hcut
      omega
    have hmin : min s.stringLength.toNat n.toNat = s.stringLength.toNat := by omega
    simp only [hmin, hle, true_and, true_or]
    exact readCString_whole_iff hs hf hrej hmem hcut

/-! ### All reads -/

lemma exists_ne (t : FieldType) : ∃ a b : t.Val, a ≠ b := by
  cases t with
  | bool => exact ⟨true, false, by decide⟩
  | char => exact ⟨(0 : Int8), (1 : Int8), by decide⟩
  | uint8 => exact ⟨(0 : UInt8), (1 : UInt8), by decide⟩
  | int16 => exact ⟨(0 : Int16), (1 : Int16), by decide⟩
  | uint16 => exact ⟨(0 : UInt16), (1 : UInt16), by decide⟩
  | int32 => exact ⟨(0 : Int32), (1 : Int32), by decide⟩
  | uint32 => exact ⟨(0 : UInt32), (1 : UInt32), by decide⟩
  | string => exact ⟨([] : List UInt8), ([0] : List UInt8), by decide⟩

lemma extract_rule_iff :
    (∀ dest : t.Val, ∃ v s', s.extract ⟨t, dest⟩ = .ok (v, s') ∧ (¬ fits → v = ⟨t, dest⟩ ∧ s'.failed = true)) ↔
      RefusesUnless fits (s.fetch t) := by
  constructor
  · intro h
    obtain ⟨a, b, hne⟩ := exists_ne t
    rcases hfetch : s.fetch t with e | ⟨r, s'⟩
    · obtain ⟨v, s', hex, -⟩ := h a
      rw [extract_eq, hfetch] at hex
      cases hex
    · refine ⟨r, s', rfl, fun hno => ?_⟩
      have hkeep : ∀ dest : t.Val, assign ⟨t, dest⟩ r = ⟨t, dest⟩ ∧ s'.failed = true := by
        intro dest
        obtain ⟨v, s'', hex, hv⟩ := h dest
        rw [extract_eq, hfetch] at hex
        obtain ⟨rfl, rfl⟩ := Prod.mk.inj (Except.ok.inj hex)
        exact hv hno
      refine ⟨?_, (hkeep a).2⟩
      cases r with
      | none => rfl
      | some bs =>
        have ha : t.decode bs = a := eq_of_heq (Sigma.mk.inj (hkeep a).1).2
        have hb : t.decode bs = b := eq_of_heq (Sigma.mk.inj (hkeep b).1).2
        exact absurd (ha.symm.trans hb) hne
  · rintro ⟨r, s', hfetch, hno⟩ dest
    refine ⟨assign ⟨t, dest⟩ r, s', by rw [extract_eq, hfetch]; rfl, fun hfits => ?_⟩
    obtain ⟨rfl, hf⟩ := hno hfits
    exact ⟨rfl, hf⟩

/-- **A read keeps to the rule exactly where `ReadsWithin` says.** -/
theorem readsOnlyWritten_iff (hs : Backed s) (call : ReadCall) : s.ReadsOnlyWritten call ↔ s.ReadsWithin call := by
  cases call with
  | extract t =>
    refine extract_rule_iff.trans ?_
    cases t with
    | bool => exact readByte_refuses_iff (t := .bool) hs rfl
    | char => exact readByte_refuses_iff (t := .char) hs rfl
    | uint8 => exact readByte_refuses_iff (t := .uint8) hs rfl
    | int16 => exact readRawData_refuses_iff hs 2
    | uint16 => exact readRawData_refuses_iff hs 2
    | int32 => exact readRawData_refuses_iff hs 4
    | uint32 => exact readRawData_refuses_iff hs 4
    | string => exact readString_refuses_iff hs
  | readRawData n => exact readRawData_refuses_iff hs n
  | readString => exact readString_refuses_iff hs
  | readCString n => exact readCString_rule_iff hs n

end Rule

end Zutils.ByteStream
