import Mathlib.Data.List.DropRight
import Mathlib.Data.List.TakeWhile

/-!
# Strings (`base/strings/string_util.cc`, `base/strings/string_util.h`)

`TrimWhitespaceASCII` with `TRIM_ALL` takes the part of a string between the first and the last character that is not
white space. What is left when white space is dropped at both ends is the same (`trimWhitespaceASCII_eq`). `StringToLowerASCII` changes
the letters of ASCII only, so doing it twice is doing it once.
-/

namespace Zutils

/-- `kWhitespaceASCII`. -/
def kWhitespaceASCII : List UInt8 := [0x09, 0x0A, 0x0B, 0x0C, 0x0D, 0x20]

section Find

variable (input chars : List UInt8)

/-- `input.find_first_not_of(chars)`. -/
def findFirstNotOf : Option ℕ := input.findIdx? fun c => c ∉ chars

/-- `input.find_last_not_of(chars)`. -/
def findLastNotOf : Option ℕ := (input.reverse.findIdx? fun c => c ∉ chars).map fun i => input.length - 1 - i

/-- `TrimStringT(input, chars, TRIM_ALL, &output)`. -/
def trimString : List UInt8 :=
  match findFirstNotOf input chars, findLastNotOf input chars with
  | some first, some last => (input.drop first).take (last - first + 1)
  | _, _ => []

end Find

/-- `TrimWhitespaceASCII(text, TRIM_ALL, &output)`. -/
def trimWhitespaceASCII (text : List UInt8) : List UInt8 := trimString text kWhitespaceASCII

/-- A text without the white space at its ends. -/
def asciiTrimmed (text : List UInt8) : List UInt8 :=
  (text.dropWhile (· ∈ kWhitespaceASCII)).rdropWhile (· ∈ kWhitespaceASCII)

section Trim

variable {chars : List UInt8}

lemma exists_of_dropWhile_ne_nil {p : UInt8 → Bool} {l : List UInt8} (h : l.dropWhile p ≠ []) :
    ∃ pre c rest, l = pre ++ c :: rest ∧ (∀ x ∈ pre, p x = true) ∧ p c = false ∧ l.dropWhile p = c :: rest := by
  induction l with
  | nil => exact absurd rfl h
  | cons x l ih =>
    cases hx : p x with
    | true =>
      rw [List.dropWhile_cons_of_pos hx] at h ⊢
      obtain ⟨pre, c, rest, hl, hpre, hc, hdrop⟩ := ih h
      refine ⟨x :: pre, c, rest, by rw [hl]; rfl, ?_, hc, hdrop⟩
      intro y hy
      rcases List.mem_cons.1 hy with rfl | hy
      · exact hx
      · exact hpre y hy
    | false => exact ⟨[], x, l, rfl, by simp, hx, List.dropWhile_cons_of_neg (by rw [hx]; simp)⟩

lemma findIdx_of_dropped {p : UInt8 → Bool} {pre rest : List UInt8} {c : UInt8} (hpre : ∀ x ∈ pre, p x = true)
    (hc : p c = false) : (pre ++ c :: rest).findIdx? (fun x => !p x) = some pre.length := by
  induction pre with
  | nil => simp [List.findIdx?_cons, hc]
  | cons x pre ih =>
    have hx := hpre x List.mem_cons_self
    rw [List.cons_append, List.findIdx?_cons, hx, ih fun y hy => hpre y (List.mem_cons_of_mem _ hy)]
    simp

/-- **Trimming** drops white space at both ends. -/
theorem trimWhitespaceASCII_eq (text : List UInt8) : trimWhitespaceASCII text = asciiTrimmed text := by
  have hnot : (fun c => decide (c ∉ kWhitespaceASCII)) = fun c => !decide (c ∈ kWhitespaceASCII) := by
    funext c
    exact decide_not
  rw [trimWhitespaceASCII, trimString, findFirstNotOf, findLastNotOf, asciiTrimmed, hnot]
  by_cases hnil : text.dropWhile (· ∈ kWhitespaceASCII) = []
  · have hall := List.dropWhile_eq_nil_iff.1 hnil
    have hnone : text.findIdx? (fun c => !decide (c ∈ kWhitespaceASCII)) = none := by
      rw [List.findIdx?_eq_none_iff]
      intro c hc
      rw [hall c hc]
      rfl
    rw [hnil, hnone]
    rfl
  · obtain ⟨pre, c, rest, htext, hpre, hc, hdrop⟩ := exists_of_dropWhile_ne_nil hnil
    -- the last character that stays
    have hrev : (c :: rest).reverse.dropWhile (· ∈ kWhitespaceASCII) ≠ [] := by
      intro h
      have := List.dropWhile_eq_nil_iff.1 h c (List.mem_reverse.2 List.mem_cons_self)
      rw [hc] at this
      cases this
    obtain ⟨post, d, mid, hmid, hpost, hd, hdropRev⟩ := exists_of_dropWhile_ne_nil hrev
    have hfirst : text.findIdx? (fun c => !decide (c ∈ kWhitespaceASCII)) = some pre.length := by
      rw [htext]
      exact findIdx_of_dropped hpre hc
    have hlast : text.reverse.findIdx? (fun c => !decide (c ∈ kWhitespaceASCII)) = some post.length := by
      rw [htext, List.reverse_append, hmid, List.append_assoc]
      exact findIdx_of_dropped hpost hd
    have hlen : text.length = pre.length + (post.length + (mid.length + 1)) := by
      have hlen := congrArg List.length hmid
      rw [List.length_reverse, List.length_append] at hlen
      rw [htext, List.length_append, hlen, List.length_cons]
    have hkeep : text.drop pre.length = (d :: mid).reverse ++ post.reverse := by
      rw [htext, List.drop_left' rfl, ← List.reverse_append, ← hmid, List.reverse_reverse]
    rw [List.rdropWhile, hdrop, hdropRev, hfirst, hlast]
    simp only [Option.map_some]
    rw [hkeep, List.take_left']
    rw [List.length_reverse, List.length_cons]
    omega

/-- Only what has the property is dropped. -/
lemma filter_not_dropWhile (p : UInt8 → Bool) (l : List UInt8) :
    (l.dropWhile p).filter (fun c => !p c) = l.filter fun c => !p c := by
  induction l with
  | nil => rfl
  | cons c l ih => cases hc : p c <;> simp [hc, ih]

lemma filter_asciiTrimmed (text : List UInt8) :
    (asciiTrimmed text).filter (fun c => !decide (c ∈ kWhitespaceASCII)) =
      text.filter fun c => !decide (c ∈ kWhitespaceASCII) := by
  rw [asciiTrimmed, List.rdropWhile, List.filter_reverse, filter_not_dropWhile, List.filter_reverse,
    List.reverse_reverse, filter_not_dropWhile]

/-- Only white space in front of a text makes no difference. -/
lemma asciiTrimmed_append_eq_iff (front text : List UInt8) :
    asciiTrimmed (front ++ text) = asciiTrimmed text ↔ ∀ c ∈ front, c ∈ kWhitespaceASCII := by
  constructor
  · intro h c hc
    have hfilter := congrArg (List.filter fun c => !decide (c ∈ kWhitespaceASCII)) h
    rw [filter_asciiTrimmed, filter_asciiTrimmed, List.filter_append] at hfilter
    have hfront := List.append_left_eq_self.1 hfilter
    simpa using List.filter_eq_nil_iff.1 hfront c hc
  · intro h
    rw [asciiTrimmed, List.dropWhile_append_of_pos (by simpa using h), asciiTrimmed]

end Trim

/-! ### Lower case -/

/-- `ToLowerASCII(c)`. -/
def toLowerASCII (c : UInt8) : UInt8 := if 0x41 ≤ c ∧ c ≤ 0x5A then c + (0x61 - 0x41) else c

/-- `StringToLowerASCII(s)`. -/
def stringToLowerASCII (s : List UInt8) : List UInt8 := s.map toLowerASCII

lemma toLowerASCII_idem (c : UInt8) : toLowerASCII (toLowerASCII c) = toLowerASCII c := by
  unfold toLowerASCII
  split
  · rename_i h
    obtain ⟨h1, h2⟩ := h
    have h1 : 0x41 ≤ c.toNat := UInt8.le_iff_toNat_le.1 h1
    have h2 : c.toNat ≤ 0x5A := UInt8.le_iff_toNat_le.1 h2
    have hsum : (c + (0x61 - 0x41)).toNat = c.toNat + 0x20 := by
      rw [UInt8.toNat_add]
      exact Nat.mod_eq_of_lt (by show c.toNat + 0x20 < 2 ^ 8; omega)
    refine if_neg fun h => ?_
    have hle : (c + (0x61 - 0x41)).toNat ≤ 0x5A := UInt8.le_iff_toNat_le.1 h.2
    omega
  · rfl

@[simp] lemma stringToLowerASCII_idem (s : List UInt8) :
    stringToLowerASCII (stringToLowerASCII s) = stringToLowerASCII s := by
  unfold stringToLowerASCII
  rw [List.map_map]
  exact List.map_congr_left fun c _ => toLowerASCII_idem c

end Zutils
