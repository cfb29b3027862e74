import Zutils.Db.MySqlAnswer

/-!
# Integers in columns

Each integral overload of `GetColumn` converts the text of a column by a function of `base`. A `uint64` goes through an
`int64`, so that its upper half is refused and negative numbers are taken. The others hand `val` to the function, which
leaves a bound of the type there when the number is beyond it (`integer_columns_iff`).
-/

namespace Zutils.Db

/-- The integral overloads. -/
inductive IntOverload where
  | uint64
  | int64
  | uint32
  | int
  deriving DecidableEq

namespace IntOverload

def min : IntOverload → ℤ
  | uint64 | uint32 => 0
  | int64 => -2 ^ 63
  | int => -2 ^ 31

def max : IntOverload → ℤ
  | uint64 => 2 ^ 64 - 1
  | int64 => 2 ^ 63 - 1
  | uint32 => 2 ^ 32 - 1
  | int => 2 ^ 31 - 1

/-- The call of `GetColumn`. -/
def getColumn (a : MySQLAnswer) (clm : ℕ) (val : ℤ) : IntOverload → Except AnswerFault (Bool × ℤ)
  | uint64 => a.getColumnUint64 clm val
  | int64 => a.getColumnInt64 clm val
  | uint32 => a.getColumnUint32 clm val
  | int => a.getColumnInt clm val

/-- The function that converts the text. -/
def convert : IntOverload → List UInt8 → ℤ → Bool × ℤ
  | uint64 => MySQLAnswer.toUint64
  | int64 => stringToInt64
  | uint32 => stringToUint
  | int => stringToInt

/-- **An integer is read exactly**: one of the type is stored, and any other refused with `*val` as it was. -/
def ReadsExactly (o : IntOverload) (a : MySQLAnswer) (clm : ℕ) (n val : ℤ) : Prop :=
  o.getColumn a clm val = .ok (if o.min ≤ n ∧ n ≤ o.max then (true, n) else (false, val))

/-- The integers that are: for `uint64` those that are out of reach of an `int64`, or of both types; for the others
those of the type, and those beyond a bound that `*val` happens to be already. -/
def ReadableFrom (n val : ℤ) : IntOverload → Prop
  | uint64 => n < -2 ^ 63 ∨ 0 ≤ n ∧ n < 2 ^ 63 ∨ 2 ^ 64 ≤ n
  | int64 => (-2 ^ 63 ≤ n ∨ val = -2 ^ 63) ∧ (n < 2 ^ 63 ∨ val = 2 ^ 63 - 1)
  | uint32 => n < 2 ^ 32 ∨ val = 2 ^ 32 - 1
  | int => (-2 ^ 31 ≤ n ∨ val = -2 ^ 31) ∧ (n < 2 ^ 31 ∨ val = 2 ^ 31 - 1)

end IntOverload

section Columns

variable {a : MySQLAnswer} {clm : ℕ} {n : ℤ}

lemma getColumn_numeral (hfetched : a.isFetched = true) (hclm : clm < a.res.columnCount)
    (hcolumn : a.rowAt clm = .ok (some (decimalInt n))) (o : IntOverload) (val : ℤ) :
    o.getColumn a clm val = .ok (o.convert (decimalInt n) val) := by
  have hconvert : ∀ f : List UInt8 → ℤ → Bool × ℤ, a.getColumnAs clm f 0 val = .ok (f (decimalInt n) val) := by
    intro f
    rw [MySQLAnswer.getColumnAs, MySQLAnswer.checkIsFetch, if_pos hfetched, check, if_pos hclm, hcolumn]
    show Except.ok _ = _
    rw [CString.ofString_bytes (decimalInt_nul_free n)]
  cases o <;> exact hconvert _

lemma toUint64_decimalInt (n val : ℤ) : MySQLAnswer.toUint64 (decimalInt n) val =
    if -2 ^ 63 ≤ n ∧ n < 2 ^ 63 then (true, n % 2 ^ 64) else (false, val) := by
  rw [MySQLAnswer.toUint64, stringToInt64_decimalInt]
  by_cases hlow : n < -2 ^ 63
  · have hout : ¬ (-2 ^ 63 ≤ n ∧ n < 2 ^ 63) := by omega
    rw [if_pos hlow, if_neg hout]
    rfl
  · by_cases hhigh : 2 ^ 63 - 1 < n
    · have hout : ¬ (-2 ^ 63 ≤ n ∧ n < 2 ^ 63) := by omega
      rw [if_neg hlow, if_pos hhigh, if_neg hout]
      rfl
    · have hin : -2 ^ 63 ≤ n ∧ n < 2 ^ 63 := by omega
      rw [if_neg hlow, if_neg hhigh, if_pos hin]
      rfl

lemma readsExactly_iff (hfetched : a.isFetched = true) (hclm : clm < a.res.columnCount)
    (hcolumn : a.rowAt clm = .ok (some (decimalInt n))) (o : IntOverload) (val : ℤ) :
    o.ReadsExactly a clm n val ↔ (o.min ≤ n ∧ n ≤ o.max → o.convert (decimalInt n) val = (true, n)) ∧
      (n < o.min ∨ o.max < n → o.convert (decimalInt n) val = (false, val)) := by
  rw [IntOverload.ReadsExactly, getColumn_numeral hfetched hclm hcolumn, Except.ok.injEq]
  by_cases hin : o.min ≤ n ∧ n ≤ o.max
  · have hnot : ¬ (n < o.min ∨ o.max < n) := by omega
    simp [hin, hnot]
  · have hout : n < o.min ∨ o.max < n := by omega
    simp [hin, hout]

/-- **Which integers each overload reads exactly.** -/
theorem integer_columns_iff (hfetched : a.isFetched = true) (hclm : clm < a.res.columnCount)
    (hcolumn : a.rowAt clm = .ok (some (decimalInt n))) (o : IntOverload) (val : ℤ) :
    o.ReadsExactly a clm n val ↔ o.ReadableFrom n val := by
  rw [readsExactly_iff hfetched hclm hcolumn]
  cases o with
  | uint64 =>
    simp only [IntOverload.convert, IntOverload.ReadableFrom, IntOverload.min, IntOverload.max, toUint64_decimalInt]
    split_ifs <;> simp <;> omega
  | int64 =>
    simp only [IntOverload.convert, IntOverload.ReadableFrom, IntOverload.min, IntOverload.max,
      stringToInt64_decimalInt]
    split_ifs <;> simp <;> omega
  | uint32 =>
    simp only [IntOverload.convert, IntOverload.ReadableFrom, IntOverload.min, IntOverload.max,
      stringToUint_decimalInt]
    split_ifs <;> simp <;> omega
  | int =>
    simp only [IntOverload.convert, IntOverload.ReadableFrom, IntOverload.min, IntOverload.max, stringToInt_decimalInt]
    split_ifs <;> simp <;> omega

/-- A row with one numeral, as the current row. -/
def numeralRow (n : ℤ) : MySQLAnswer :=
  (MySQLAnswer.fetchRow { res := ⟨1, [[some (decimalInt n)]], by simp⟩ }).1

/-- The largest `int64` is read as a `uint64`. -/
theorem integer_columns_maxInt64 : IntOverload.uint64.ReadsExactly (numeralRow (2 ^ 63 - 1)) 0 (2 ^ 63 - 1) 0 :=
  (integer_columns_iff rfl (by decide) rfl .uint64 0).2 (by simp only [IntOverload.ReadableFrom]; omega)

/-- The largest `uint64` is refused. -/
theorem integer_columns_maxUint64 : ¬ ∀ o n val, IntOverload.ReadsExactly o (numeralRow n) 0 n val := by
  intro hall
  have hread := hall .uint64 (2 ^ 64 - 1) 0
  have hrefused : IntOverload.uint64.getColumn (numeralRow (2 ^ 64 - 1)) 0 0 = .ok (false, 0) := by
    show Except.ok (MySQLAnswer.toUint64 (CString.ofString (decimalInt (2 ^ 64 - 1))).bytes 0) = _
    rw [CString.ofString_bytes (decimalInt_nul_free _), toUint64_decimalInt]
    rfl
  rw [IntOverload.ReadsExactly, hrefused] at hread
  revert hread
  decide

end Columns

end Zutils.Db
