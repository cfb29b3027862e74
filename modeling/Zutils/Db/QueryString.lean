import Zutils.Base.CString
import Zutils.Lib.Loop
import Zutils.Lib.Template
import Mathlib.Algebra.Group.Nat.Defs

/-!
# Query strings (`db/database_util.cc`)

`MakeQueryString` goes through a template with a pointer and puts the parameters in for the placeholders, which begin
with `%` or `:`. Pointers into the template are indices here.

A parameter is a pointer to memory, and how it is read depends on its type. How the bytes of an `int`, a `float` and a
`double` make a number, and what `"%.3f"` prints, are left to the platform.
-/

namespace Zutils.Db

open Zutils.Lib

inductive ColumnType where
  | strEsc | str | int32 | uint32 | blob | str2 | float | double
  deriving DecidableEq, Repr

/-- `struct QueryParamItem`, with the memory that can be read at `param`. -/
structure QueryParamItem where
  type : ColumnType
  len : ℤ
  param : Option (List UInt8)
  deriving DecidableEq, Repr

/-- What depends on the platform. -/
structure Platform where
  /-- The value of the four bytes of a `uint32`. -/
  uint32 : List UInt8 → UInt32
  /-- `"%.3f"` for the bytes of a `float` and of a `double`. -/
  float : List UInt8 → List UInt8
  double : List UInt8 → List UInt8

/-- `'\''`, and what `StringAppendQ` puts a `'\\'` in front of. -/
def kQuote : UInt8 := 0x27

def kBackslash : UInt8 := 0x5C

def isEscaped (c : UInt8) : Bool := c = kQuote ∨ c = 0x22 ∨ c = kBackslash

/-- `StringAppendQ`. -/
def stringAppendQ (dest : List UInt8) : List UInt8 → ℕ → Except Fault (List UInt8)
  | _, 0 => .ok dest
  | [], _ + 1 => .error .outOfRange
  | c :: src, count + 1 => stringAppendQ ((if isEscaped c then dest ++ [kBackslash] else dest) ++ [c]) src count

/-- `if (len) StringAppendQ(query_string, param, count)`. -/
def appendText (queryString param : List UInt8) (len count : ℤ) : Except Fault (List UInt8) :=
  if len ≠ 0 then stringAppendQ queryString param count.toNat else .ok queryString

/-- `*p` for an object of `n` bytes. -/
def readObject (p : List UInt8) (n : ℕ) : Except Fault (List UInt8) :=
  if n ≤ p.length then .ok (p.take n) else .error .outOfRange

/-- `len << 1`, in 32 bits. -/
def twice (len : ℤ) : ℤ := (2 * len).bmod (2 ^ 32)

section

variable (platform : Platform)

/-- The value of the four bytes of an `int`. -/
def Platform.int32 (p : List UInt8) : ℤ := ((platform.uint32 p).toNat : ℤ).bmod (2 ^ 32)

/-- What is appended for a parameter. `next` is the byte behind the marker. -/
def appendParam (next : UInt8) (item : QueryParamItem) (queryString : List UInt8) : Except Fault (List UInt8) :=
  match item.param with
  | none => .ok (queryString ++ ascii ['N', 'U', 'L', 'L'])
  | some param =>
    match item.type with
    | .str2 => do
      let queryString := queryString ++ [kQuote]
      let queryString ← appendText queryString param item.len (twice item.len)
      return queryString ++ [kQuote]
    | .strEsc | .blob => do
      let queryString := queryString ++ [kQuote]
      let queryString ← appendText queryString param item.len item.len
      return queryString ++ [kQuote]
    | .str => do
      let queryString := if next ≠ 0x73 then queryString ++ [kQuote] else queryString
      let queryString ← appendText queryString param item.len item.len
      return if next ≠ 0x73 then queryString ++ [kQuote] else queryString
    | .int32 => do return queryString ++ decimalInt (platform.int32 (← readObject param 4))
    | .uint32 => do return queryString ++ decimal (platform.uint32 (← readObject param 4)).toNat
    | .float => do return queryString ++ platform.float (← readObject param 4)
    | .double => do return queryString ++ platform.double (← readObject param 8)

/-- `*sp == '%' || *sp == ':'`. -/
def isMarker (c : UInt8) : Bool := c = 0x25 ∨ c = 0x3A

/-- `*sp == 's' || (*sp >= 0x30 && *sp <= 0x39)`. -/
def isRun (c : UInt8) : Bool := c = 0x73 ∨ 0x30 ≤ c ∧ c ≤ 0x39

/-- The number of steps of the inner loop, which ends at the NUL as well. -/
def runLength : List UInt8 → ℕ
  | [] => 0
  | c :: cs => if isRun c then runLength cs + 1 else 0

/-- `param->size() - 1`, in 64 bits. -/
def lastIndex (params : List QueryParamItem) : ℕ := if params.length = 0 then 2 ^ 64 - 1 else params.length - 1

/-- `(*param)[i]`. -/
def paramAt (params : List QueryParamItem) (i : UInt32) : Except Fault QueryParamItem :=
  match params[i.toNat]? with
  | some item => .ok item
  | none => .error .outOfRange

/-- The variables of `MakeQueryString`. -/
structure QueryScan where
  sp : ℕ
  pprev : ℕ
  i : UInt32
  queryString : List UInt8

/-- A turn of the outer loop. It leaves the loop when it reads the NUL, and for `return false`, which is `none`. -/
def scanRound (query : CString) (params : List QueryParamItem) (s : QueryScan) :
    Except Fault (QueryScan ⊕ Option QueryScan) := do
  let c ← query.get s.sp
  let sp := s.sp + 1
  if c = 0 then return .inr (some { s with sp })
  else
    let c ← query.get sp
    if isMarker c then
      let spT := sp
      let sp := spT + 1 + runLength (← query.offset (spT + 1))
      if spT = sp then return .inl { s with sp }
      else if s.i.toNat > lastIndex params then return .inr none
      else
        let item ← paramAt params s.i
        let queryString := s.queryString ++ (← query.slice s.pprev spT)
        let queryString ← appendParam platform (← query.get (spT + 1)) item queryString
        return .inl ⟨sp, sp, s.i + 1, queryString⟩
    else return .inl { s with sp }

/-- `if (lmt) base::StringAppendF(query_string, " LIMIT %lu", lmt)`. -/
def limitClause (lmt : UInt32) : List UInt8 :=
  if lmt ≠ 0 then ascii [' ', 'L', 'I', 'M', 'I', 'T', ' '] ++ decimal lmt.toNat else []

/-- `MakeQueryString(query, param, lmt, query_string)`, with at most `fuel` turns of its loop: what it returns and
leaves in `*query_string`. -/
def makeQueryString (fuel : ℕ) (query : Option CString) (param : Option (List QueryParamItem)) (lmt : UInt32)
    (queryString : Option (List UInt8)) : Option (Except Fault (Bool × Option (List UInt8))) :=
  match query, queryString with
  | some query, some _ =>
    match param with
    | none => some (.ok (true, some (query.bytes ++ limitClause lmt)))
    | some params =>
      (rounds (scanRound platform query params) fuel ⟨0, 0, 0, []⟩).map fun res => do
        match ← res with
        | none => return (false, some [])
        | some s =>
          let queryString := s.queryString ++ (← query.offset s.pprev)
          if s.i.toNat ≠ params.length then return (false, some [])
          else return (true, some (queryString ++ limitClause lmt))
  | _, _ => some (.ok (false, queryString))

end

end Zutils.Db
