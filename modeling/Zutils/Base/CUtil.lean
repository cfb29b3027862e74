import Zutils.Base.CString
import Mathlib.Algebra.Group.Nat.Defs
import Mathlib.Data.List.Infix
import Mathlib.Data.Nat.Find

/-!
# Searching a string (`base2/cutil.cc`)

`strnstr` looks for `small` at each position of `big` that is below `n`. The loop that compares the two does not know `n`, and
it goes on to the end of `small`: when the characters in front of `n` are a proper beginning of `small`, `big[n]` is read.

A search says what it returns and which indices of `big` it has read. Indices are `unsigned` and wrap.
-/

namespace Zutils

/-- Why a search does not return: a read behind a NUL, or a loop that does not end. -/
inductive SearchFault where
  | outOfRange
  | endless
  deriving DecidableEq, Repr

/-- What a search returns, and the indices of `big` it reads. -/
structure Search (α : Type) where
  result : Except SearchFault α
  reads : List UInt32

variable {α β : Type}

namespace Search

/-- What is done with `big[k]`. -/
def read (big : CString) (k : UInt32) (f : UInt8 → Search α) : Search α :=
  match big.get k.toNat with
  | .ok c => ⟨(f c).result, k :: (f c).reads⟩
  | .error _ => ⟨.error .outOfRange, [k]⟩

/-- What is done with the result of a search. -/
def andThen (s : Search α) (f : α → Search β) : Search β :=
  match s.result with
  | .ok a => ⟨(f a).result, s.reads ++ (f a).reads⟩
  | .error e => ⟨.error e, s.reads⟩

end Search

section Strnstr

variable (big small : CString)

/-- `for (j = 0; small[j] != 0; j++)` at `j`: whether it comes to the end of `small`. -/
def compareLoop (i : UInt32) : ℕ → UInt32 → Search Bool
  | 0, _ => ⟨.error .endless, []⟩
  | fuel + 1, j =>
    match small.get j.toNat with
    | .error _ => ⟨.error .outOfRange, []⟩
    | .ok c =>
      if c = 0 then ⟨.ok true, []⟩
      else .read big (i + j) fun b => if b ≠ c then ⟨.ok false, []⟩ else compareLoop i fuel (j + 1)

/-- `for (i = 0; i < n && big[i] != '\0'; i++)` at `i`: where `small` has been found. -/
def searchLoop (n : UInt32) : ℕ → UInt32 → Search (Option UInt32)
  | 0, _ => ⟨.error .endless, []⟩
  | fuel + 1, i =>
    if i < n then
      .read big i fun b =>
        if b = 0 then ⟨.ok none, []⟩
        else (compareLoop big small i (2 ^ 32) 0).andThen fun found =>
          if found then ⟨.ok (some i), []⟩ else searchLoop n fuel (i + 1)
    else ⟨.ok none, []⟩

/-- `strnstr(big, small, n)`: the index of the character it points to. A loop that has not ended after as many turns as its
variable has values never does. -/
def strnstr (n : UInt32) : Search (Option UInt32) := searchLoop big small n (2 ^ 32) 0

/-- The beginning of `big` that may be searched. -/
def searched (n : UInt32) : List UInt8 := big.bytes.take n.toNat

/-- `small` occurs at `i`, before `n`. -/
def OccursAt (n : UInt32) (i : ℕ) : Prop := small.bytes <+: (searched big n).drop i

/-- The first position at which `small` occurs before `n`. -/
def IsFirst (n : UInt32) : Option UInt32 → Prop
  | some i => OccursAt big small n i.toNat ∧ ∀ k < i.toNat, ¬ OccursAt big small n k
  | none => ∀ k, ¬ OccursAt big small n k

/-- The characters of `big` from `i` up to `n` are a proper beginning of `small`. -/
def Straddles (n : UInt32) (i : ℕ) : Prop :=
  i < n.toNat ∧ n.toNat ≤ big.bytes.length ∧ ∃ c more, small.bytes = (searched big n).drop i ++ c :: more

/-- It returns `a`, and what it reads is in front of `n`. -/
def Search.Ends (s : Search α) (n : UInt32) (a : α) : Prop := s.result = .ok a ∧ ∀ k ∈ s.reads, k < n

/-- **A bounded search**: the first position at which `small` occurs before `n` is returned, and nothing is read at `n` or
behind. -/
def SearchesBefore (n : UInt32) : Prop := ∃ found, IsFirst big small n found ∧ (strnstr big small n).Ends n found

end Strnstr

namespace CString

variable {s : CString} {pre rest : List UInt8} {c : UInt8} {i : ℕ}

lemma get_of_getElem? (h : s.bytes[i]? = some c) : s.get i = .ok c := by
  obtain ⟨hlt, rfl⟩ := List.getElem?_eq_some_iff.1 h
  exact get_of_lt hlt

lemma get_of_append (h : s.bytes = pre ++ c :: rest) : s.get pre.length = .ok c :=
  get_of_getElem? (by simp [h])

lemma ne_zero_of_append (h : s.bytes = pre ++ c :: rest) : c ≠ 0 := by
  rintro rfl
  exact s.nul_free (h ▸ List.mem_append_right _ List.mem_cons_self)

end CString

namespace Search

variable {big : CString} {n k : UInt32} {c : UInt8} {f : UInt8 → Search α} {s : Search α} {g : α → Search β} {a : α} {b : β}

lemma read_of_get (hget : big.get k.toNat = .ok c) : read big k f = ⟨(f c).result, k :: (f c).reads⟩ := by
  rw [read, hget]

lemma mem_read : k ∈ (read big k f).reads := by
  rw [read]
  cases big.get k.toNat <;> simp

lemma Ends.read (hk : k < n) (hget : big.get k.toNat = .ok c) (h : (f c).Ends n a) : (read big k f).Ends n a := by
  rw [read_of_get hget]
  refine ⟨h.1, fun x hx => ?_⟩
  rcases List.mem_cons.1 hx with rfl | hx
  · exact hk
  · exact h.2 x hx

lemma andThen_of_ok (h : s.result = .ok a) : s.andThen g = ⟨(g a).result, s.reads ++ (g a).reads⟩ := by
  rw [andThen, h]

lemma mem_andThen (h : k ∈ s.reads) : k ∈ (s.andThen g).reads := by
  rw [andThen]
  cases s.result with
  | ok a => exact List.mem_append_left _ h
  | error e => exact h

lemma Ends.andThen (hs : s.Ends n a) (hg : (g a).Ends n b) : (s.andThen g).Ends n b := by
  rw [andThen_of_ok hs.1]
  refine ⟨hg.1, fun x hx => ?_⟩
  rcases List.mem_append.1 hx with hx | hx
  · exact hs.2 x hx
  · exact hg.2 x hx

end Search

variable {big small : CString} {n i j : UInt32} {pre rest tail : List UInt8} {fuel : ℕ}

lemma get_of_searched {c : UInt8} {i : ℕ} (h : (searched big n).drop i = pre ++ c :: rest) :
    i + pre.length < n.toNat ∧ big.get (i + pre.length) = .ok c := by
  have hget : (searched big n)[i + pre.length]? = some c := by
    rw [← List.getElem?_drop, h]
    simp
  obtain ⟨hlt, hbig⟩ : i + pre.length < n.toNat ∧ big.bytes[i + pre.length]? = some c := by
    simpa [searched, List.getElem?_take] using hget
  exact ⟨hlt, CString.get_of_getElem? hbig⟩

lemma toNat_add_of_le {a b k : ℕ} (hi : i.toNat = a) (hj : j.toNat = b) (h : a + b ≤ k) (hk : k < 2 ^ 32) :
    (i + j).toNat = a + b := by
  rw [UInt32.toNat_add, hi, hj]
  exact Nat.mod_eq_of_lt (by omega)

lemma toNat_succ (h : i < n) : (i + 1).toNat = i.toNat + 1 := by
  have hlt : i.toNat < n.toNat := h
  exact toNat_add_of_le (b := 1) rfl rfl hlt n.toNat_lt

/-! ### The loop that compares -/

/-- How far the loop has come: `pre` stands in `big` at `i` and in front of `n`. -/
lemma index_of_searched (hi : i < n) (hlt : i.toNat < big.bytes.length) (hbig : (searched big n).drop i.toNat = pre ++ tail)
    (hj : j.toNat = pre.length) :
    i.toNat + pre.length + tail.length = min n.toNat big.bytes.length ∧ (i + j).toNat = i.toNat + pre.length := by
  have hin : i.toNat < n.toNat := hi
  have hlength := congrArg List.length hbig
  simp only [searched, List.length_drop, List.length_take, List.length_append] at hlength
  exact ⟨by omega, toNat_add_of_le rfl hj (k := n.toNat) (by omega) n.toNat_lt⟩

lemma toNat_succ_length {c : UInt8} (hj : j.toNat = pre.length) (hlt : pre.length + 1 < 2 ^ 32) :
    (j + 1).toNat = (pre ++ [c]).length := by
  rw [List.length_append]
  exact toNat_add_of_le hj (b := 1) rfl (le_refl _) hlt

lemma compareLoop_end (hj : j.toNat = small.bytes.length) : compareLoop big small i (fuel + 1) j = ⟨.ok true, []⟩ := by
  rw [compareLoop, hj, CString.get_length]
  rfl

lemma compareLoop_next {c : UInt8} (hsmall : small.bytes = pre ++ c :: rest) (hj : j.toNat = pre.length) :
    compareLoop big small i (fuel + 1) j =
      .read big (i + j) fun b => if b ≠ c then ⟨.ok false, []⟩ else compareLoop big small i fuel (j + 1) := by
  rw [compareLoop, hj, CString.get_of_append hsmall]
  exact if_neg (CString.ne_zero_of_append hsmall)

/-- It has come as far as `pre`; behind it `small` goes on with `rest`, and what is searched with `tail`. -/
lemma compareLoop_ends (hno : ¬ Straddles big small n i.toNat) (hi : i < n) (hlt : i.toNat < big.bytes.length)
    (hsmall : small.bytes = pre ++ rest) (hbig : (searched big n).drop i.toNat = pre ++ tail) (hj : j.toNat = pre.length)
    (hfuel : fuel + pre.length = 2 ^ 32) : (compareLoop big small i fuel j).Ends n (rest.isPrefixOf tail) := by
  have hin : i.toNat < n.toNat := hi
  have hn := n.toNat_lt
  induction fuel generalizing pre rest tail j with
  | zero =>
    have hindex := index_of_searched hi hlt hbig hj
    omega
  | succ fuel ih =>
    obtain ⟨hlength, hij⟩ := index_of_searched hi hlt hbig hj
    cases rest with
    | nil =>
      rw [compareLoop_end (by rw [hj, hsmall, List.append_nil])]
      exact ⟨rfl, by simp⟩
    | cons c rest =>
      rw [compareLoop_next hsmall hj]
      cases tail with
      | nil =>
        -- what is searched ends here, and as `small` goes on it is the whole of `big`
        have hbytes : big.bytes.length < n.toNat := by
          by_contra hge
          exact hno ⟨hin, by omega, c, rest, by rw [hbig, List.append_nil, hsmall]⟩
        have hpos : (i + j).toNat = big.bytes.length := by
          simp only [List.length_nil] at hlength
          omega
        refine .read (c := 0) (UInt32.lt_iff_toNat_lt.2 (by omega)) (by rw [hpos, CString.get_length]) ?_
        rw [if_pos (CString.ne_zero_of_append hsmall).symm]
        exact ⟨rfl, by simp⟩
      | cons b tail =>
        obtain ⟨hread, hget⟩ := get_of_searched hbig
        refine .read (UInt32.lt_iff_toNat_lt.2 (by omega)) (by rw [hij, hget]) ?_
        by_cases hbc : b = c
        · subst hbc
          have hsmall' : small.bytes = (pre ++ [b]) ++ rest := by simp [hsmall]
          rw [if_neg (by simp), List.isPrefixOf_cons_cons_self]
          exact ih hsmall' (by simp [hbig]) (toNat_succ_length hj (by omega)) (by simp; omega)
        · rw [if_pos hbc]
          exact ⟨by simp [List.isPrefixOf, Ne.symm hbc], by simp⟩

/-- Where the characters up to `n` are a proper beginning of `small`, the loop reads `big[n]`. -/
lemma mem_compareLoop {mid more : List UInt8} {c : UInt8} (hi : i < n) (hlt : i.toNat < big.bytes.length)
    (hle : n.toNat ≤ big.bytes.length) (hsmall : small.bytes = pre ++ mid ++ c :: more)
    (hbig : (searched big n).drop i.toNat = pre ++ mid) (hj : j.toNat = pre.length) (hfuel : fuel + pre.length = 2 ^ 32) :
    n ∈ (compareLoop big small i fuel j).reads := by
  have hn := n.toNat_lt
  induction fuel generalizing pre mid j with
  | zero =>
    have hindex := index_of_searched hi hlt hbig hj
    omega
  | succ fuel ih =>
    obtain ⟨hlength, hij⟩ := index_of_searched hi hlt hbig hj
    cases mid with
    | nil =>
      have hnext : small.bytes = pre ++ c :: more := by rw [hsmall, List.append_nil]
      have hpos : i + j = n := UInt32.toNat_inj.1 (by simp only [List.length_nil] at hlength; omega)
      rw [compareLoop_next hnext hj, hpos]
      exact Search.mem_read
    | cons b mid =>
      have hnext : small.bytes = pre ++ b :: (mid ++ c :: more) := by simp [hsmall]
      have hsmall' : small.bytes = (pre ++ [b]) ++ mid ++ c :: more := by simp [hsmall]
      obtain ⟨hread, hget⟩ := get_of_searched hbig
      rw [compareLoop_next hnext hj, Search.read_of_get (hij ▸ hget), if_neg (by simp)]
      exact List.mem_cons_of_mem _ (ih hsmall' (by simp [hbig]) (toNat_succ_length hj (by omega)) (by simp; omega))

/-! ### The loop over the positions -/

lemma not_occursAt_of_le {k : ℕ} (hne : small.bytes ≠ []) (h : min n.toNat big.bytes.length ≤ k) : ¬ OccursAt big small n k := by
  intro hoccurs
  rw [OccursAt, searched, List.drop_eq_nil_of_le (by rw [List.length_take]; exact h)] at hoccurs
  exact hne (List.prefix_nil.1 hoccurs)

lemma compare_ends (hno : ¬ Straddles big small n i.toNat) (hi : i < n) (hlt : i.toNat < big.bytes.length) :
    (compareLoop big small i (2 ^ 32) 0).Ends n (small.bytes.isPrefixOf ((searched big n).drop i.toNat)) :=
  compareLoop_ends hno hi hlt (show small.bytes = [] ++ small.bytes from rfl) rfl rfl rfl

lemma searchLoop_next (hi : i < n) (hlt : i.toNat < big.bytes.length) :
    searchLoop big small n (fuel + 1) i = .read big i fun _ => (compareLoop big small i (2 ^ 32) 0).andThen fun found =>
      if found then ⟨.ok (some i), []⟩ else searchLoop big small n fuel (i + 1) := by
  have hget := CString.get_of_lt hlt
  rw [searchLoop, if_pos hi, Search.read_of_get hget, Search.read_of_get hget, if_neg (CString.getElem_ne_zero hlt)]

lemma searchLoop_end (hi : ¬ (i < n ∧ i.toNat < big.bytes.length)) (hle : i.toNat ≤ big.bytes.length) :
    (searchLoop big small n (fuel + 1) i).Ends n none := by
  rw [searchLoop]
  by_cases hin : i < n
  · have hpos : i.toNat = big.bytes.length := Nat.le_antisymm hle (Nat.not_lt.1 fun hlt => hi ⟨hin, hlt⟩)
    rw [if_pos hin]
    exact .read (c := 0) hin (by rw [hpos, CString.get_length]) ⟨rfl, by simp⟩
  · rw [if_neg hin]
    exact ⟨rfl, by simp⟩

lemma searchLoop_ends (hne : small.bytes ≠ []) (hno : ∀ i, Straddles big small n i → ∃ k < i, OccursAt big small n k)
    (hbefore : ∀ k < i.toNat, ¬ OccursAt big small n k) (hle : i.toNat ≤ big.bytes.length) (hfuel : fuel + i.toNat = 2 ^ 32) :
    ∃ found, IsFirst big small n found ∧ (searchLoop big small n fuel i).Ends n found := by
  induction fuel generalizing i with
  | zero =>
    have hlt := i.toNat_lt
    omega
  | succ fuel ih =>
    by_cases hin : i < n ∧ i.toNat < big.bytes.length
    · obtain ⟨hi, hlt⟩ := hin
      have hstraddles : ¬ Straddles big small n i.toNat := fun h => by
        obtain ⟨k, hk, hoccurs⟩ := hno _ h
        exact hbefore k hk hoccurs
      have hget := CString.get_of_lt hlt
      have hends := compare_ends hstraddles hi hlt
      rw [searchLoop_next hi hlt]
      cases hoccurs : small.bytes.isPrefixOf ((searched big n).drop i.toNat) with
      | true =>
        rw [hoccurs] at hends
        exact ⟨some i, ⟨List.isPrefixOf_iff_prefix.1 hoccurs, hbefore⟩, .read hi hget (hends.andThen ⟨rfl, by simp⟩)⟩
      | false =>
        rw [hoccurs] at hends
        have hnot : ¬ OccursAt big small n i.toNat := fun h => by
          rw [List.isPrefixOf_iff_prefix.2 h] at hoccurs
          cases hoccurs
        have hnext := toNat_succ hi
        have hbefore' : ∀ k < (i + 1).toNat, ¬ OccursAt big small n k := fun k hk => by
          rcases Nat.lt_succ_iff_lt_or_eq.1 (hnext ▸ hk) with hk | rfl
          · exact hbefore k hk
          · exact hnot
        obtain ⟨found, hfirst, hloop⟩ := ih hbefore' (by omega) (by omega)
        exact ⟨found, hfirst, .read hi hget (hends.andThen hloop)⟩
    · refine ⟨none, fun k => ?_, searchLoop_end hin hle⟩
      rw [UInt32.lt_iff_toNat_lt] at hin
      rcases Nat.lt_or_ge k i.toNat with hk | hk
      · exact hbefore k hk
      · exact not_occursAt_of_le hne (by omega)

/-- A position at which the loop goes on past `n` is come to when `small` does not occur before it. -/
lemma mem_searchLoop {p : ℕ} (hp : Straddles big small n p)
    (hbefore : ∀ k < p, ¬ Straddles big small n k ∧ ¬ OccursAt big small n k) (hi : i.toNat ≤ p)
    (hfuel : fuel + i.toNat = 2 ^ 32) : n ∈ (searchLoop big small n fuel i).reads := by
  obtain ⟨hpn, hle, c, more, hsmall⟩ := hp
  induction fuel generalizing i with
  | zero =>
    have hlt := i.toNat_lt
    omega
  | succ fuel ih =>
    have hin : i < n := UInt32.lt_iff_toNat_lt.2 (by omega)
    have hlt : i.toNat < big.bytes.length := by omega
    rw [searchLoop_next hin hlt, Search.read_of_get (CString.get_of_lt hlt)]
    refine List.mem_cons_of_mem _ ?_
    rcases Nat.lt_or_eq_of_le hi with hi | rfl
    · obtain ⟨hstraddles, hoccurs⟩ := hbefore _ hi
      have hends := compare_ends hstraddles hin hlt
      have hfalse : small.bytes.isPrefixOf ((searched big n).drop i.toNat) = false := by
        rw [Bool.eq_false_iff]
        exact fun h => hoccurs (List.isPrefixOf_iff_prefix.1 h)
      have hnext := toNat_succ hin
      rw [Search.andThen_of_ok (hends.1.trans (by rw [hfalse]))]
      exact List.mem_append_right _ (ih (by omega) (by omega))
    · refine Search.mem_andThen ?_
      exact mem_compareLoop hin hlt hle (show small.bytes = [] ++ _ ++ c :: more from hsmall) rfl rfl rfl

/-- **What `strnstr` finds**: it is a bounded search if and only if there is no position at which the characters up to `n` are
a proper beginning of `small`, unless `small` occurs before that position. -/
theorem strnstr_iff (hne : small.bytes ≠ []) : SearchesBefore big small n ↔
    ¬ ∃ i, Straddles big small n i ∧ ∀ k < i, ¬ OccursAt big small n k := by
  constructor
  · rintro ⟨found, -, hends⟩ ⟨i, hstraddles, hbefore⟩
    classical
    have hex : ∃ i, Straddles big small n i := ⟨i, hstraddles⟩
    have hmin : Nat.find hex ≤ i := Nat.find_min' hex hstraddles
    have hmem : n ∈ (strnstr big small n).reads :=
      mem_searchLoop (Nat.find_spec hex) (fun k hk => ⟨Nat.find_min hex hk, hbefore k (by omega)⟩) (Nat.zero_le _) rfl
    exact absurd (hends.2 n hmem) (UInt32.lt_irrefl n)
  · intro hno
    refine searchLoop_ends hne (fun i hi => ?_) (by simp) (Nat.zero_le _) rfl
    by_contra hnone
    exact hno ⟨i, hi, fun k hk hoccurs => hnone ⟨k, hk, hoccurs⟩⟩

/-- `"ab"` is found in `"cab"`. -/
theorem strnstr_iff_cab : SearchesBefore (.ofString (ascii ['c', 'a', 'b'])) (.ofString (ascii ['a', 'b'])) 3 := by
  refine (strnstr_iff (by decide)).2 ?_
  rintro ⟨i, ⟨hi, -, c, more, hsmall⟩, -⟩
  have hlt : i < 3 := hi
  obtain rfl | rfl | rfl : i = 0 ∨ i = 1 ∨ i = 2 := by omega
  all_goals simp [searched, ascii, CString.ofString] at hsmall

/-- `strnstr("ab", "ab", 1)` finds `"ab"`, which does not end in front of 1, and it reads `big[1]`. -/
theorem strnstr_past_n : ¬ ∀ (big small : CString) (n : UInt32), small.bytes ≠ [] → SearchesBefore big small n := by
  intro h
  obtain ⟨found, -, hends⟩ := h (.ofString (ascii ['a', 'b'])) (.ofString (ascii ['a', 'b'])) 1 (by decide)
  have hrun : strnstr (.ofString (ascii ['a', 'b'])) (.ofString (ascii ['a', 'b'])) 1 = ⟨.ok (some 0), [0, 0, 1]⟩ := rfl
  rw [hrun] at hends
  exact absurd (hends.2 1 (by simp)) (UInt32.lt_irrefl 1)

end Zutils
