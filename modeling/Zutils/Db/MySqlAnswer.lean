import Zutils.Base.StringNumber

/-!
# The rows of an answer (`MySQLAnswer` in `db/mysql/mysql_database.cc`)

`mysql_fetch_row` returns the rows of a result set one after the other and null at its end, and `mysql_fetch_lengths`
the lengths of the row that was returned last. A column that is NULL is `none`. The pointers `row_` and `lengths_` are
the number of the row that they point to, or that they have the lengths of.

`StringToDouble`, with the cast to a float, is a parameter.
-/

namespace Zutils.Db

/-- The columns of a row. -/
abbrev ResultRow := List (Option (List UInt8))

/-- `MYSQL_RES`. -/
structure ResultSet where
  columnCount : ℕ
  rows : List ResultRow
  width : ∀ row ∈ rows, row.length = columnCount

/-- Why an accessor does not return: `CHECK` is fatal, or memory is used that is not there or of another row. -/
inductive AnswerFault where
  | check
  | nullRow
  | otherLengths
  | outOfRange
  deriving DecidableEq, Repr

/-- `CHECK(c)`. -/
def check (c : Prop) [Decidable c] : Except AnswerFault Unit :=
  if c then .ok () else .error .check

/-- `class MySQLAnswer`. -/
structure MySQLAnswer where
  res : ResultSet
  /-- The row that `mysql_fetch_row` returns next. -/
  dataCursor : ℕ := 0
  row : Option ℕ := none
  lengths : Option ℕ := none
  isFetched : Bool := false

/-- What `StringToDouble` and the cast to a float make of a string. -/
structure FloatParser (F : Type) where
  parse : List UInt8 → Option F
  zero : F

namespace MySQLAnswer

variable {α F : Type} (a : MySQLAnswer) (clm : ℕ)

/-- `FetchRow`. -/
def fetchRow : MySQLAnswer × Bool :=
  let a := { a with isFetched := true }
  if a.dataCursor < a.res.rows.length then
    ({ a with row := some a.dataCursor, lengths := some a.dataCursor, dataCursor := a.dataCursor + 1 }, true)
  else ({ a with row := none }, false)

/-- `row_[clm]`. -/
def rowAt : Except AnswerFault (Option (List UInt8)) :=
  match a.row.bind (a.res.rows[·]?) with
  | none => .error .nullRow
  | some row =>
    match row[clm]? with
    | none => .error .outOfRange
    | some column => .ok column

/-- `lengths_[clm]`, which is only of use for the row that `row_` points to. -/
def lengthAt : Except AnswerFault ℕ :=
  if a.lengths.isSome ∧ a.lengths = a.row then (a.rowAt clm).map fun column => (column.map List.length).getD 0
  else .error .otherLengths

/-- `CHECK_IS_FETCH`: what is returned before the first call of `FetchRow`, and what is done after it. -/
def checkIsFetch (failed : α) (next : Except AnswerFault α) : Except AnswerFault α :=
  if a.isFetched then next else .ok failed

/-- `GetColumn` for a string. -/
def getColumnString (val : List UInt8) : Except AnswerFault (Bool × List UInt8) :=
  a.checkIsFetch (false, val) do
    check (clm < a.res.columnCount)
    let column ← a.rowAt clm
    match column with
    | some text => do
      let length ← a.lengthAt clm
      return (true, text.take length)
    | none => return (true, val)

/-- `GetColumnLength`. -/
def getColumnLength : Except AnswerFault ℕ :=
  a.checkIsFetch 0 do
    check (clm < a.res.columnCount)
    let length ← a.lengthAt clm
    return length % 2 ^ 32

/-- `ColumnIsNull`. -/
def columnIsNull : Except AnswerFault Bool :=
  a.checkIsFetch false do
    let column ← a.rowAt clm
    return column.isNone

/-- `GetColumn` for the other types: the string in front of the first NUL is converted, and `null` is left for a column
that is NULL. -/
def getColumnAs (convert : List UInt8 → α → Bool × α) (null val : α) : Except AnswerFault (Bool × α) :=
  a.checkIsFetch (false, val) do
    check (clm < a.res.columnCount)
    let column ← a.rowAt clm
    match column with
    | some text => return convert (CString.ofString text).bytes val
    | none => return (false, null)

/-- The column is read into an `int64`, and cast when it was read. -/
def toUint64 (text : List UInt8) (val : ℤ) : Bool × ℤ :=
  let ret := stringToInt64 text 0
  if ret.1 then (true, ret.2 % 2 ^ 64) else (false, val)

def toFloat (p : FloatParser F) (text : List UInt8) (val : F) : Bool × F :=
  match p.parse text with
  | some val => (true, val)
  | none => (false, val)

/-- The column is read into an `int`. -/
def toBool (text : List UInt8) (val : Bool) : Bool × Bool :=
  let ret := stringToInt text 0
  if ret.1 then (true, decide (ret.2 ≠ 0)) else (false, val)

/-- `GetColumn` for a `uint64`. -/
def getColumnUint64 (val : ℤ) : Except AnswerFault (Bool × ℤ) := a.getColumnAs clm toUint64 0 val

/-- `GetColumn` for an `int64`. -/
def getColumnInt64 (val : ℤ) : Except AnswerFault (Bool × ℤ) := a.getColumnAs clm stringToInt64 0 val

/-- `GetColumn` for a `uint32`. -/
def getColumnUint32 (val : ℤ) : Except AnswerFault (Bool × ℤ) := a.getColumnAs clm stringToUint 0 val

/-- `GetColumn` for an `int`. -/
def getColumnInt (val : ℤ) : Except AnswerFault (Bool × ℤ) := a.getColumnAs clm stringToInt 0 val

/-- `GetColumn` for a `float`. -/
def getColumnFloat (p : FloatParser F) (val : F) : Except AnswerFault (Bool × F) := a.getColumnAs clm (toFloat p) p.zero val

/-- `GetColumn` for a `bool`. -/
def getColumnBool (val : Bool) : Except AnswerFault (Bool × Bool) := a.getColumnAs clm toBool false val

end MySQLAnswer

end Zutils.Db
