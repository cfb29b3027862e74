import Zutils.Base.CString
import Zutils.Base.StringUtil
import Mathlib.Tactic.Ring

/-!
# Numbers in strings (`base/strings/string_number_conversions.cc`)

`IteratorRangeToNumber::Invoke` in base 10 reads digits into `*output` as long as the bounds of the type allow, and
leaves the bound there when they do not. So what is returned and what is in `*output` are told apart here: the number
does not always change, and when false is returned it may have (`invoke_decimalInt`).
-/

namespace Zutils

/-- `std::numeric_limits`. -/
structure NumericLimits where
  min : ℤ
  max : ℤ
  isSigned : Bool

def intLimits : NumericLimits := ⟨-2 ^ 31, 2 ^ 31 - 1, true⟩

def uintLimits : NumericLimits := ⟨0, 2 ^ 32 - 1, false⟩

def int64Limits : NumericLimits := ⟨-2 ^ 63, 2 ^ 63 - 1, true⟩

/-- `isspace` in the locale `"C"`. -/
def isspace (c : UInt8) : Bool := c ∈ kWhitespaceASCII

/-- `CharToDigit` in base 10. -/
def charToDigit (c : UInt8) : Option ℕ := if 0x30 ≤ c ∧ c < 0x3A then some (c.toNat - 0x30) else none

/-- `Positive` and `Negative`. -/
inductive Sign where
  | positive
  | negative

namespace NumericLimits

variable (t : NumericLimits)

/-- `Sign::CheckBounds`: what it leaves in `*output` when it returns false. -/
def checkBounds (output : ℤ) (newDigit : ℕ) : Sign → Option ℤ
  | .positive =>
    if output > t.max.tdiv 10 ∨ output = t.max.tdiv 10 ∧ newDigit > t.max.tmod 10 then some t.max else none
  | .negative =>
    if output < t.min.tdiv 10 ∨ output = t.min.tdiv 10 ∧ newDigit > 0 - t.min.tmod 10 then some t.min else none

/-- `Sign::Increment`. -/
def increment (newDigit : ℕ) (output : ℤ) : Sign → ℤ
  | .positive => output + newDigit
  | .negative => output - newDigit

/-- The loop of `Base::Invoke`; `first` is `current == begin`. -/
def readDigits (sign : Sign) (first : Bool) (output : ℤ) : List UInt8 → Bool × ℤ
  | [] => (true, output)
  | c :: rest =>
    match charToDigit c with
    | none => (false, output)
    | some newDigit =>
      if first then readDigits sign false (increment newDigit output sign) rest
      else match t.checkBounds output newDigit sign with
        | some bound => (false, bound)
        | none => readDigits sign false (increment newDigit (output * 10) sign) rest

/-- `Base::Invoke`. -/
def baseInvoke (sign : Sign) (input : List UInt8) : Bool × ℤ :=
  if input = [] then (false, 0) else t.readDigits sign true 0 input

/-- `IteratorRangeToNumber::Invoke`: what is returned, and `*output` then. -/
def invoke (input : List UInt8) (output : ℤ) : Bool × ℤ :=
  let range := input.dropWhile isspace
  -- leading white space is passed over, but is not valid
  let valid := decide (range = input)
  match range with
  | 0x2D :: rest =>
    if t.isSigned then ((t.baseInvoke .negative rest).1 && valid, (t.baseInvoke .negative rest).2) else (false, output)
  | 0x2B :: rest => ((t.baseInvoke .positive rest).1 && valid, (t.baseInvoke .positive rest).2)
  | range => ((t.baseInvoke .positive range).1 && valid, (t.baseInvoke .positive range).2)

end NumericLimits

/-- `StringToInt`. -/
def stringToInt (input : List UInt8) (output : ℤ) : Bool × ℤ := intLimits.invoke input output

/-- `StringToUint`. -/
def stringToUint (input : List UInt8) (output : ℤ) : Bool × ℤ := uintLimits.invoke input output

/-- `StringToInt64`. -/
def stringToInt64 (input : List UInt8) (output : ℤ) : Bool × ℤ := int64Limits.invoke input output

example : stringToInt (decimalInt (-12)) 7 = (true, -12) := by decide

/-! ### Decimal numbers -/

lemma decimal_eq (n : ℕ) : decimal n = if n < 10 then [UInt8.ofNat (0x30 + n)]
    else decimal (n / 10) ++ [UInt8.ofNat (0x30 + n % 10)] := by
  have hdigit : ∀ d < 10, ascii [Nat.digitChar d] = [UInt8.ofNat (0x30 + d)] := by decide
  rw [decimal, Nat.toDigits_eq_if (by decide)]
  split
  · rename_i hn
    exact hdigit n hn
  · rw [ascii, List.map_append]
    exact congrArg (decimal (n / 10) ++ ·) (hdigit (n % 10) (Nat.mod_lt n (by decide)))

lemma charToDigit_digit {d : ℕ} (hd : d < 10) : charToDigit (UInt8.ofNat (0x30 + d)) = some d := by
  revert d
  decide

lemma decimal_ne_nil (n : ℕ) : decimal n ≠ [] := by
  rw [decimal_eq]
  split <;> simp

namespace NumericLimits

variable {t : NumericLimits} {sign : Sign}

/-- How far the numbers of the type go in the direction of a sign. -/
def limit (t : NumericLimits) : Sign → ℤ
  | .positive => t.max
  | .negative => -t.min

/-- The number with the sign. -/
def signed (n : ℤ) : Sign → ℤ
  | .positive => n
  | .negative => -n

/-- One more digit is refused if and only if the number is beyond the limit. -/
lemma checkBounds_signed (hlimit : 0 ≤ t.limit sign) (n d : ℕ) (hd : d < 10) :
    t.checkBounds (signed n sign) d sign =
      if t.limit sign < 10 * n + d then some (signed (t.limit sign) sign) else none := by
  cases sign with
  | positive =>
    have hmax : 0 ≤ t.max := hlimit
    rw [checkBounds, Int.tdiv_eq_ediv_of_nonneg hmax, Int.tmod_eq_emod_of_nonneg hmax]
    refine if_congr ?_ rfl rfl
    show _ ↔ t.max < 10 * n + d
    simp only [signed]
    omega
  | negative =>
    have hmin : 0 ≤ -t.min := hlimit
    have hneg : t.min = -(-t.min) := (neg_neg t.min).symm
    rw [checkBounds, hneg, Int.neg_tdiv, Int.neg_tmod, Int.tdiv_eq_ediv_of_nonneg hmin,
      Int.tmod_eq_emod_of_nonneg hmin]
    have hiff : (signed n .negative < -(-t.min / 10) ∨
        signed n .negative = -(-t.min / 10) ∧ (d : ℤ) > 0 - -(-t.min % 10)) ↔ -t.min < 10 * n + d := by
      simp only [signed]
      omega
    exact if_congr hiff rfl rfl

lemma increment_signed (n d : ℕ) : increment d (signed n sign * 10) sign = signed ((10 * n + d : ℕ) : ℤ) sign := by
  cases sign <;> simp only [increment, signed] <;> push_cast <;> ring

lemma readDigits_append (first : Bool) (output : ℤ) (digits rest : List UInt8) :
    t.readDigits sign first output (digits ++ rest) =
      if (t.readDigits sign first output digits).1 then
        t.readDigits sign (first && digits.isEmpty) (t.readDigits sign first output digits).2 rest
      else t.readDigits sign first output digits := by
  induction digits generalizing first output with
  | nil => simp [readDigits]
  | cons c digits ih =>
    rw [List.cons_append, readDigits, readDigits]
    cases charToDigit c with
    | none => rfl
    | some d =>
      cases first with
      | true =>
        simp only [if_true]
        exact ih false (increment d output sign)
      | false =>
        simp only [Bool.false_eq_true, if_false]
        cases t.checkBounds output d sign with
        | some bound => rfl
        | none => exact ih false (increment d (output * 10) sign)

/-- A decimal number is read if it is within the limit, and else the limit is left. -/
lemma readDigits_decimal (hlimit : 9 ≤ t.limit sign) (n : ℕ) : t.readDigits sign true 0 (decimal n) =
    if n ≤ t.limit sign then (true, signed n sign) else (false, signed (t.limit sign) sign) := by
  induction n using Nat.strongRecOn with
  | ind n ih =>
    rw [decimal_eq]
    by_cases hn : n < 10
    · have hone : increment n 0 sign = signed n sign := by cases sign <;> simp [increment, signed]
      rw [if_pos hn, if_pos (by omega), readDigits, charToDigit_digit hn]
      simp only [if_true, readDigits, hone]
    · have hdigit : n % 10 < 10 := Nat.mod_lt n (by decide)
      rw [if_neg hn, readDigits_append, ih (n / 10) (by omega)]
      by_cases htenth : ((n / 10 : ℕ) : ℤ) ≤ t.limit sign
      · have hvalue : ((10 * (n / 10) + n % 10 : ℕ) : ℤ) = n := by omega
        have hempty : (decimal (n / 10)).isEmpty = false := by simpa using decimal_ne_nil (n / 10)
        rw [if_pos htenth, if_pos rfl, hempty, Bool.and_false, readDigits, charToDigit_digit hdigit]
        simp only [Bool.false_eq_true, if_false]
        rw [checkBounds_signed (by omega) _ _ hdigit, increment_signed, hvalue]
        by_cases hle : (n : ℤ) ≤ t.limit sign
        · have hin : ¬ t.limit sign < 10 * ((n / 10 : ℕ) : ℤ) + ((n % 10 : ℕ) : ℤ) := by omega
          rw [if_pos hle, if_neg hin]
          rfl
        · have hout : t.limit sign < 10 * ((n / 10 : ℕ) : ℤ) + ((n % 10 : ℕ) : ℤ) := by omega
          rw [if_neg hle, if_pos hout]
      · have hout : ¬ (n : ℤ) ≤ t.limit sign := by omega
        rw [if_neg htenth, if_neg hout, if_neg Bool.false_ne_true]

lemma decimal_digit {n : ℕ} {c : UInt8} (h : c ∈ decimal n) : 0x30 ≤ c ∧ c < 0x3A := by
  have hdigit : ∀ d < 10, 0x30 ≤ UInt8.ofNat (0x30 + d) ∧ UInt8.ofNat (0x30 + d) < 0x3A := by decide
  induction n using Nat.strongRecOn with
  | ind n ih =>
    rw [decimal_eq] at h
    split at h
    · rename_i hn
      rw [List.mem_singleton.1 h]
      exact hdigit n hn
    · rename_i hn
      rcases List.mem_append.1 h with h | h
      · exact ih (n / 10) (by omega) h
      · rw [List.mem_singleton.1 h]
        exact hdigit (n % 10) (Nat.mod_lt n (by decide))

lemma digit_not_space {c : UInt8} (hc : 0x30 ≤ c) : isspace c = false := by
  have hspace : ∀ s ∈ kWhitespaceASCII, ¬ 0x30 ≤ s := by simp [kWhitespaceASCII]
  exact decide_eq_false fun hmem => hspace c hmem hc

lemma invoke_decimal (t : NumericLimits) (n : ℕ) (output : ℤ) :
    t.invoke (decimal n) output = t.baseInvoke .positive (decimal n) := by
  obtain ⟨c, rest, hcons⟩ := List.exists_cons_of_ne_nil (decimal_ne_nil n)
  have hc : 0x30 ≤ c ∧ c < 0x3A := decimal_digit (n := n) (by rw [hcons]; exact List.mem_cons_self)
  have hspace : isspace c = false := digit_not_space hc.1
  have hplus : c ≠ 0x2B := by
    rintro rfl
    exact absurd hc.1 (by decide)
  have hminus : c ≠ 0x2D := by
    rintro rfl
    exact absurd hc.1 (by decide)
  rw [invoke, hcons, List.dropWhile_cons_of_neg (by simp [hspace])]
  simp [hplus, hminus]

lemma baseInvoke_decimal (hlimit : 9 ≤ t.limit sign) (n : ℕ) : t.baseInvoke sign (decimal n) =
    if n ≤ t.limit sign then (true, signed n sign) else (false, signed (t.limit sign) sign) := by
  rw [baseInvoke, if_neg (decimal_ne_nil n), readDigits_decimal hlimit]

lemma baseInvoke_positive (hmax : 9 ≤ t.max) (n : ℕ) : t.baseInvoke .positive (decimal n) =
    if n ≤ t.max then (true, (n : ℤ)) else (false, t.max) :=
  baseInvoke_decimal (show 9 ≤ t.limit .positive from hmax) n

lemma baseInvoke_negative (hmin : 9 ≤ -t.min) (n : ℕ) : t.baseInvoke .negative (decimal n) =
    if n ≤ -t.min then (true, -(n : ℤ)) else (false, t.min) := by
  rw [baseInvoke_decimal (show 9 ≤ t.limit .negative from hmin)]
  simp only [limit, signed, neg_neg]

/-- **Canonical numerals**: a number of the type is read, and of any other the bound is left. -/
lemma invoke_decimalInt (hmin : 9 ≤ -t.min) (hmax : 9 ≤ t.max) (hsigned : t.isSigned = true) (n output : ℤ) :
    t.invoke (decimalInt n) output =
      if n < t.min then (false, t.min) else if t.max < n then (false, t.max) else (true, n) := by
  by_cases hn : n < 0
  · have hspace : ¬ isspace 0x2D = true := by decide
    rw [decimalInt, if_pos hn, invoke, List.dropWhile_cons_of_neg hspace]
    simp only [hsigned, if_true, decide_true, Bool.and_true, Prod.mk.eta]
    rw [baseInvoke_negative hmin]
    by_cases hlow : n < t.min
    · rw [if_pos hlow, if_neg (by omega)]
    · rw [if_neg hlow, if_pos (by omega), if_neg (by omega)]
      congr
      omega
  · have hlow : ¬ n < t.min := by omega
    rw [decimalInt, if_neg hn, invoke_decimal, baseInvoke_positive hmax, if_neg hlow]
    by_cases hhigh : t.max < n
    · rw [if_pos hhigh, if_neg (by omega)]
    · rw [if_neg hhigh, if_pos (by omega)]
      congr
      omega

/-- A type without a sign leaves `*output` alone when the number has one. -/
lemma invoke_decimalInt_unsigned (hmin : t.min = 0) (hmax : 9 ≤ t.max) (hsigned : t.isSigned = false) (n output : ℤ) :
    t.invoke (decimalInt n) output =
      if n < t.min then (false, output) else if t.max < n then (false, t.max) else (true, n) := by
  by_cases hn : n < 0
  · have hspace : ¬ isspace 0x2D = true := by decide
    rw [decimalInt, if_pos hn, invoke, List.dropWhile_cons_of_neg hspace, hmin, if_pos hn]
    simp only [hsigned, Bool.false_eq_true, if_false]
  · rw [decimalInt, if_neg hn, invoke_decimal, baseInvoke_positive hmax, hmin, if_neg hn]
    by_cases hhigh : t.max < n
    · rw [if_pos hhigh, if_neg (by omega)]
    · rw [if_neg hhigh, if_pos (by omega)]
      congr
      omega

end NumericLimits

lemma stringToInt64_decimalInt (n val : ℤ) : stringToInt64 (decimalInt n) val =
    if n < -2 ^ 63 then (false, -2 ^ 63) else if 2 ^ 63 - 1 < n then (false, 2 ^ 63 - 1) else (true, n) :=
  NumericLimits.invoke_decimalInt (t := int64Limits) (by decide) (by decide) rfl n val

lemma stringToInt_decimalInt (n val : ℤ) : stringToInt (decimalInt n) val =
    if n < -2 ^ 31 then (false, -2 ^ 31) else if 2 ^ 31 - 1 < n then (false, 2 ^ 31 - 1) else (true, n) :=
  NumericLimits.invoke_decimalInt (t := intLimits) (by decide) (by decide) rfl n val

lemma stringToUint_decimalInt (n val : ℤ) : stringToUint (decimalInt n) val =
    if n < 0 then (false, val) else if 2 ^ 32 - 1 < n then (false, 2 ^ 32 - 1) else (true, n) :=
  NumericLimits.invoke_decimalInt_unsigned (t := uintLimits) rfl (by decide) rfl n val

lemma decimalInt_mem {n : ℤ} {c : UInt8} (h : c ∈ decimalInt n) : c = 0x2D ∨ 0x30 ≤ c ∧ c < 0x3A := by
  rw [decimalInt] at h
  split at h
  · exact (List.mem_cons.1 h).imp_right NumericLimits.decimal_digit
  · exact .inr (NumericLimits.decimal_digit h)

lemma decimalInt_nul_free (n : ℤ) : 0 ∉ decimalInt n := by
  intro h
  rcases decimalInt_mem h with h0 | h0
  · cases h0
  · exact absurd h0.1 (by decide)

end Zutils
