import Zutils.Base.ByteStreamUnwritten
import Zutils.Base.CString

/-!
# Strings that are read into an array

`ReadString(s, data_len)` reads "a string that ends with a NUL", where `data_len` counts the NUL. It sets the last byte
before it reads, so the characters overwrite it, and of a string that is too long it reads `data_len` characters and
leaves the cursor behind them. So the array holds a C string only by chance, and a string that is cut makes the next
read begin inside it (`readsCString_iff`).
-/

namespace Zutils.ByteStream

/-- The string at the cursor: as many bytes behind its length as the length says. -/
def encodedString (s : ByteStream) : List UInt8 := (s.advance 4).front s.stringLength.toNat

/-- What the caller relies on, with `str` in memory from the array on before the call and `str'` after it. -/
structure CStringRead (s : ByteStream) (str : List UInt8) (n : UInt32) (ok : Bool) (str' : List UInt8)
    (s' : ByteStream) : Prop where
  length_eq : str'.length = str.length
  outside : str'.drop n.toNat = str.drop n.toNat
  terminated : ok = true → 0 ∈ str'.take n.toNat
  /-- As C strings, the array holds the string, cut to leave room for the NUL. -/
  text : ok = true → (CString.ofString (str'.take n.toNat)).bytes =
    (CString.ofString (s.encodedString.take (n.toNat - 1))).bytes
  cursor : ok = true → s'.currentPos.toNat = s.currentPos.toNat + 4 + s.stringLength.toNat

/-- `ReadString(s, n)` returns, with what the caller relies on. -/
def ReadsCString (s : ByteStream) (str : List UInt8) (n : UInt32) : Prop :=
  ∃ ok str' s', s.readCString str n = .ok (ok, str', s') ∧ CStringRead s str n ok str' s'

/-- The string is not longer than the array and ends in the block and within the capacity, and there is a NUL in it, or
one behind it in the array already. -/
def TextFits (s : ByteStream) (str : List UInt8) (n : UInt32) : Prop :=
  s.stringLength ≤ n ∧ s.currentPos.toNat + 4 + s.stringLength.toNat ≤ s.maxLen.toNat ∧
    (s.advance 4).Holds s.stringLength.toNat ∧
    (0 ∈ s.encodedString ∨ s.stringLength < n ∧ str[s.stringLength.toNat]? = some 0)

/-- **Where a read into an array does what it should**: it is refused, because the stream has failed or by one of the
checks, or the text fits. -/
def CStringFits (s : ByteStream) (str : List UInt8) (n : UInt32) : Prop :=
  s.failed = true ∨ s.Rejects 4 ∨
    s.Holds 4 ∧ (n < s.stringLength ∧ (s.advance 4).Rejects n ∨
      s.stringLength ≤ n ∧ (s.advance 4).Rejects s.stringLength ∨ s.TextFits str n)

section Text

variable {bs rest : List UInt8} {n : ℕ}

/-- A NUL that is only behind the first characters of an array is its last one. -/
lemma ofString_take (hlen : bs.length ≤ n) (hmem : 0 ∈ bs) :
    (CString.ofString bs).bytes = (CString.ofString (bs.take (n - 1))).bytes := by
  have hsplit := List.take_append_drop (n - 1) bs
  by_cases hfirst : 0 ∈ bs.take (n - 1)
  · rw [← CString.ofString_append_of_mem hfirst (bs.drop (n - 1)), hsplit]
  · have hlast : 0 ∈ bs.drop (n - 1) := by
      rw [← hsplit, List.mem_append] at hmem
      exact hmem.resolve_left hfirst
    have hdrop : bs.drop (n - 1) = [0] := by
      have hone : (bs.drop (n - 1)).length ≤ 1 := by
        rw [List.length_drop]
        omega
      obtain ⟨c, hc⟩ := List.length_eq_one_iff.1 (Nat.le_antisymm hone (List.length_pos_of_mem hlast))
      rw [hc, List.mem_singleton] at hlast
      rw [hc, ← hlast]
    calc (CString.ofString bs).bytes
        = (CString.ofString (bs.take (n - 1) ++ [0])).bytes := by rw [← hdrop, hsplit]
      _ = bs.take (n - 1) := by
        rw [CString.ofString_append_of_not_mem hfirst]
        exact List.append_nil _
      _ = (CString.ofString (bs.take (n - 1))).bytes := (CString.ofString_bytes hfirst).symm

lemma text_iff (hlen : bs.length ≤ n) (hrest : n ≤ bs.length + rest.length) :
    (0 ∈ (bs ++ rest).take n ∧ (CString.ofString ((bs ++ rest).take n)).bytes =
        (CString.ofString (bs.take (n - 1))).bytes) ↔
      0 ∈ bs ∨ bs.length < n ∧ rest[0]? = some 0 := by
  have htake : (bs ++ rest).take n = bs ++ rest.take (n - bs.length) := by
    rw [List.take_append, List.take_of_length_le hlen]
  rw [htake]
  by_cases hmem : 0 ∈ bs
  · refine iff_of_true ⟨List.mem_append_left _ hmem, ?_⟩ (.inl hmem)
    rw [CString.ofString_append_of_mem hmem, ofString_take hlen hmem]
  rw [CString.ofString_append_of_not_mem hmem, List.mem_append]
  simp only [hmem, false_or]
  rcases Nat.lt_or_ge bs.length n with hlt | hge
  · -- there is room behind the characters, and its first byte decides
    obtain ⟨c, cs, rfl⟩ := List.exists_cons_of_length_pos (l := rest) (by omega)
    obtain ⟨k, hk⟩ := Nat.exists_eq_add_of_lt hlt
    have hroom : n - bs.length = k + 1 := by omega
    have hcut : bs.take (n - 1) = bs := List.take_of_length_le (by omega)
    rw [hcut, CString.ofString_bytes hmem, hroom, List.take_succ_cons, List.append_right_eq_self]
    by_cases h0 : c = 0
    · simp [CString.ofString, h0, hlt]
    · simp [CString.ofString, h0]
  · have hnone : n - bs.length = 0 := by omega
    rw [hnone, List.take_zero]
    simp [Nat.not_lt.2 hge]

end Text

section Read

variable {s : ByteStream} {str : List UInt8} {n : UInt32}

lemma readsCString_refused {str' : List UInt8} {s' : ByteStream} (h : s.readCString str n = .ok (false, str', s'))
    (hlen : str'.length = str.length) (hout : str'.drop n.toNat = str.drop n.toNat) : s.ReadsCString str n := by
  refine ⟨false, str', s', h, hlen, hout, ?_, ?_, ?_⟩ <;> exact fun hok => absurd hok Bool.false_ne_true

lemma not_readsCString_error {e : StreamFault} (h : s.readCString str n = .error e) : ¬ s.ReadsCString str n := by
  rintro ⟨ok, str', s', hread, -⟩
  rw [h] at hread
  cases hread

lemma readsCString_read {str' : List UInt8} {s' : ByteStream} (h : s.readCString str n = .ok (true, str', s')) :
    s.ReadsCString str n ↔ CStringRead s str n true str' s' := by
  constructor
  · rintro ⟨ok, str'', s'', hread, hres⟩
    rw [h] at hread
    obtain ⟨rfl, hrest⟩ := Prod.mk.inj (Except.ok.inj hread)
    obtain ⟨rfl, rfl⟩ := Prod.mk.inj hrest
    exact hres
  · exact fun hres => ⟨_, _, _, h, hres⟩

lemma advance_toNat (s : ByteStream) (k : UInt32) :
    (s.advance k).currentPos.toNat = (s.currentPos.toNat + k.toNat) % 2 ^ 32 := UInt32.toNat_add _ _

lemma readInto_held {k : UInt32} (hf : s.failed = false) (hrej : ¬ s.Rejects k)
    (hmem : k = 0 ∨ s.Holds k.toNat) (hlen : k.toNat ≤ str.length) :
    s.readInto str k = .ok (true, s.front k.toNat ++ str.drop k.toNat, s.advance k) := by
  unfold readInto
  by_cases h0 : k = 0
  · subst h0
    rw [readRawData_zero hf hrej, advance_zero]
    rfl
  · have hmem := hmem.resolve_left h0
    rw [readRawData_held hf hrej h0 hmem, ok_bind]
    dsimp only
    rw [front_length hmem, if_pos hlen]
    rfl

lemma readInto_rejected {k : UInt32} (hf : s.failed = false) (hrej : s.Rejects k) :
    s.readInto str k = .ok (false, str, { s with failed := true }) := by
  unfold readInto
  rw [readRawData_rejected hf hrej]
  rfl

lemma readInto_outside {k : UInt32} (hf : s.failed = false) (hrej : ¬ s.Rejects k) (h0 : k ≠ 0)
    (hmem : ¬ s.Holds k.toNat) : s.readInto str k = .error .outOfRange := by
  unfold readInto
  rw [readRawData_outside hf hrej h0 hmem]
  rfl

/-- A string that is longer than the array is read right only where it is refused: otherwise the cursor stays in it. -/
lemma readsCString_long (hf : s.failed = false) (hrej : ¬ s.Rejects 4) (hmem : s.Holds 4) (hn : 0 < n)
    (hstr : n.toNat ≤ str.length) (hlong : n < s.stringLength) :
    s.ReadsCString str n ↔ (s.advance 4).Rejects n := by
  have hpos : 0 < n.toNat := UInt32.lt_iff_toNat_lt.1 hn
  have hlast : (n - 1).toNat = n.toNat - 1 := by
    rw [UInt32.toNat_sub_of_le _ _ (UInt32.le_iff_toNat_le.2 (show (1 : UInt32).toNat ≤ n.toNat from hpos))]
    rfl
  have hf' : (s.advance 4).failed = false := hf
  have hread := readCString_held (n := n) hf hrej hmem str
  rw [if_pos hlong, if_pos (by rw [hlast]; omega)] at hread
  by_cases hrej' : (s.advance 4).Rejects n
  · rw [readInto_rejected hf' hrej'] at hread
    refine iff_of_true (readsCString_refused hread (List.length_set ..) ?_) hrej'
    rw [List.drop_set_of_lt (by omega)]
  · refine iff_of_false ?_ hrej'
    by_cases hmem' : (s.advance 4).Holds n.toNat
    · rw [readInto_held hf' hrej' (.inr hmem') (by rw [List.length_set]; exact hstr)] at hread
      rw [readsCString_read hread]
      intro hres
      -- the cursor is behind `n` characters
      have hcursor := hres.cursor rfl
      have hfour : (4 : UInt32).toNat = 4 := rfl
      rw [advance_toNat, advance_toNat, hfour] at hcursor
      have hlt := UInt32.lt_iff_toNat_lt.1 hlong
      have hle := Nat.mod_le ((s.currentPos.toNat + 4) % 2 ^ 32 + n.toNat) (2 ^ 32)
      have hle' := Nat.mod_le (s.currentPos.toNat + 4) (2 ^ 32)
      omega
    · have h0 : n ≠ 0 := fun h0 => by
        rw [h0] at hpos
        exact absurd hpos (by decide)
      rw [readInto_outside hf' hrej' h0 hmem'] at hread
      exact not_readsCString_error hread

lemma holds_zero (hmem : s.Holds 4) : (s.advance 4).Holds 0 := by
  have hle := Nat.mod_le (s.currentPos.toNat + (4 : UInt32).toNat) (2 ^ 32)
  have hfour : (4 : UInt32).toNat = 4 := rfl
  unfold Holds at hmem ⊢
  rw [advance_toNat]
  show s.offset + _ + 0 ≤ (s.block.getD []).length
  omega

lemma cursor_iff (hrej : ¬ (s.advance 4).Rejects n) :
    ((s.advance 4).advance n).currentPos.toNat = s.currentPos.toNat + 4 + n.toNat ↔
      s.currentPos.toNat + 4 + n.toNat ≤ s.maxLen.toNat := by
  have hle : ((s.advance 4).advance n).currentPos.toNat ≤ s.maxLen.toNat :=
    UInt32.le_iff_toNat_le.1 (UInt32.not_lt.1 hrej)
  have hmax := s.maxLen.toNat_lt
  have hfour : (4 : UInt32).toNat = 4 := rfl
  rw [advance_toNat, advance_toNat, hfour] at hle ⊢
  omega

lemma readsCString_short (hf : s.failed = false) (hrej : ¬ s.Rejects 4) (hmem : s.Holds 4)
    (hstr : n.toNat ≤ str.length) (hshort : s.stringLength ≤ n) :
    s.ReadsCString str n ↔ (s.advance 4).Rejects s.stringLength ∨ s.TextFits str n := by
  have hf' : (s.advance 4).failed = false := hf
  have hle := UInt32.le_iff_toNat_le.1 hshort
  have hread := readCString_held (n := n) hf hrej hmem str
  rw [if_neg (UInt32.not_lt.2 hshort)] at hread
  by_cases hrej' : (s.advance 4).Rejects s.stringLength
  · rw [readInto_rejected hf' hrej'] at hread
    exact iff_of_true (readsCString_refused hread rfl rfl) (.inl hrej')
  simp only [hrej', false_or]
  by_cases hmem' : (s.advance 4).Holds s.stringLength.toNat
  swap
  · have h0 : s.stringLength ≠ 0 := fun h0 => hmem' (h0 ▸ holds_zero hmem)
    rw [readInto_outside hf' hrej' h0 hmem'] at hread
    exact iff_of_false (not_readsCString_error hread) fun h => hmem' h.2.2.1
  rw [readInto_held hf' hrej' (.inr hmem') (by omega)] at hread
  have hlen : s.encodedString.length = s.stringLength.toNat := front_length hmem'
  have htext := @text_iff s.encodedString (str.drop s.stringLength.toNat) n.toNat (by omega)
    (by rw [List.length_drop]; omega)
  rw [hlen, List.getElem?_drop, Nat.add_zero] at htext
  rw [readsCString_read hread]
  constructor
  · rintro ⟨-, -, hterm, htxt, hcursor⟩
    refine ⟨hshort, (cursor_iff hrej').1 (hcursor rfl), hmem', ?_⟩
    rw [UInt32.lt_iff_toNat_lt]
    exact htext.1 ⟨hterm rfl, htxt rfl⟩
  · rintro ⟨-, hend, -, hnul⟩
    rw [UInt32.lt_iff_toNat_lt] at hnul
    obtain ⟨hterm, htxt⟩ := htext.2 hnul
    refine ⟨?_, ?_, fun _ => hterm, fun _ => htxt, fun _ => (cursor_iff hrej').2 hend⟩
    · show (s.encodedString ++ str.drop s.stringLength.toNat).length = str.length
      rw [List.length_append, List.length_drop, hlen]
      omega
    · show (s.encodedString ++ str.drop s.stringLength.toNat).drop n.toNat = str.drop n.toNat
      rw [List.drop_append, List.drop_eq_nil_of_le (by omega), List.nil_append, List.drop_drop, hlen]
      congr 1
      omega

/-- **A read into an array does what it should exactly where `CStringFits` says**, for a stream in any state and an
array that holds anything. -/
theorem readsCString_iff (s : ByteStream) {str : List UInt8} {n : UInt32} (hn : 0 < n) (hstr : n.toNat ≤ str.length) :
    s.ReadsCString str n ↔ s.CStringFits str n := by
  unfold CStringFits
  rcases hf : s.failed with _ | _
  swap
  · have hread : s.readCString str n = .ok (false, str, s) := by
      unfold readCString
      rw [readRawData_failed hf]
      rfl
    exact iff_of_true (readsCString_refused hread rfl rfl) (.inl rfl)
  by_cases hrej : s.Rejects 4
  · have hread : s.readCString str n = .ok (false, str, { s with failed := true }) := by
      unfold readCString
      rw [readRawData_rejected hf hrej]
      rfl
    exact iff_of_true (readsCString_refused hread rfl rfl) (.inr (.inl hrej))
  by_cases hmem : s.Holds 4
  swap
  · refine iff_of_false (not_readsCString_error (e := .outOfRange) ?_) ?_
    · unfold readCString
      rw [readRawData_outside hf hrej (by decide) hmem]
      rfl
    · simp [hrej, hmem]
  simp only [hrej, hmem, Bool.false_eq_true, false_or, true_and]
  rcases UInt32.lt_or_le n s.stringLength with hlong | hshort
  · have hnot : ¬ s.stringLength ≤ n := UInt32.not_le.2 hlong
    rw [readsCString_long hf hrej hmem hn hstr hlong, TextFits]
    simp [hlong, hnot]
  · have hnot : ¬ n < s.stringLength := UInt32.not_lt.2 hshort
    rw [readsCString_short hf hrej hmem hstr hshort]
    simp [hshort, hnot]

end Read

/-- The string `a` with its NUL, read into two bytes. -/
theorem readsCString_iff_one : (ofBuffer (some [0, 0, 0, 2, 97, 0]) 0 6).ReadsCString [120, 120] 2 :=
  (readsCString_iff _ (by decide) (by decide)).2
    (.inr (.inr ⟨by decide, .inr (.inr ⟨by decide, by decide, by decide, .inl (by decide)⟩)⟩))

/-- **Two characters without a NUL fill an array of two bytes**, and of three characters the third is left to the next
read. -/
theorem array_without_nul :
    (ofBuffer (some [0, 0, 0, 2, 97, 98]) 0 6).readCString [120, 120] 2 =
      .ok (true, [97, 98], ⟨some [0, 0, 0, 2, 97, 98], 0, false, 6, 6, 6, false⟩) ∧
    (ofBuffer (some [0, 0, 0, 3, 97, 98, 99]) 0 7).readCString [120, 120] 2 =
      .ok (true, [97, 98], ⟨some [0, 0, 0, 3, 97, 98, 99], 0, false, 7, 7, 6, false⟩) ∧
    ¬ ∀ (s : ByteStream) (str : List UInt8) (n : UInt32), 0 < n → n.toNat ≤ str.length → s.ReadsCString str n := by
  have hread : (ofBuffer (some [0, 0, 0, 2, 97, 98]) 0 6).readCString [120, 120] 2 =
      .ok (true, [97, 98], ⟨some [0, 0, 0, 2, 97, 98], 0, false, 6, 6, 6, false⟩) := rfl
  refine ⟨hread, rfl, fun h => ?_⟩
  have hnul := ((readsCString_read hread).1 (h _ _ 2 (by decide) (by decide))).terminated rfl
  simp at hnul

end Zutils.ByteStream
