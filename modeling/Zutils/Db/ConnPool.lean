import Zutils.Base.Checked
import Mathlib.Data.Int.Notation
import Mathlib.Tactic.Common

/-!
# The pool of database connections (`db/conn_pool_manager.cc`)

`CdbConnPoolManager` creates `max_conn_count` database objects in the slots of `conn_pool_` and connects the first
`min_conn_count`. `conned_pointer_` is a watermark: behind it no slot has been connected, and only the slots in front of
it are searched.

What the database does is an input: `create` is `fn_create_database_object`, which is null when the library could not be
loaded, and `opens` says whether an `Open` returns true. The state of a database object is kept in its slot.
-/

namespace Zutils.Db

/-- `DBAddrInfo`. -/
structure DBAddrInfo where
  host : String := ""
  port : ℤ := 0
  user : String := ""
  passwd : String := ""
  dbName : String := ""
  dbType : String := ""
  minConnCount : ℤ := 2
  maxConnCount : ℤ := 5
  deriving DecidableEq, Repr

/-- `DBConnState`. -/
inductive DBConnState where
  | null
  | created
  | idle
  | busy
  deriving DecidableEq, Repr

/-- `DatabaseConnection`, a slot of the pool. -/
structure DatabaseConnection (β : Type) where
  state : DBConnState := .null
  conn : Option β := none
  /-- An `Open` of the object has returned true. -/
  opened : Bool := false
  deriving DecidableEq, Repr

/-- Why a call does not return: an index into `conn_pool_` that is not below its size, a call of a null object, or what
`resize` throws when the count is negative. -/
inductive PoolFault where
  | outOfRange
  | nullPointer
  | lengthError
  deriving DecidableEq, Repr

/-- `CdbConnPoolManager`. -/
structure CdbConnPoolManager (β : Type) where
  dbAddr : DBAddrInfo := {}
  connPool : List (DatabaseConnection β) := []
  connedPointer : ℕ := 0
  autoCommit : Bool := true
  deriving DecidableEq, Repr

section

variable {β : Type}

/-- `conn_pool_.resize(n)`. -/
def resizePool (v : List (DatabaseConnection β)) (n : ℕ) : List (DatabaseConnection β) :=
  v.take n ++ List.replicate (n - v.length) ({} : DatabaseConnection β)

/-- A loop over the indexes below `n` that stops at the first slot that passes the test. -/
def firstBelow (test : DatabaseConnection β → Bool) :
    List (DatabaseConnection β) → ℕ → Except PoolFault (Option ℕ)
  | _, 0 => .ok none
  | [], _ + 1 => .error .outOfRange
  | slot :: slots, n + 1 =>
    if test slot then .ok (some 0) else (firstBelow test slots n).map (Option.map (· + 1))

namespace CdbConnPoolManager

/-- After the constructor. -/
def new : CdbConnPoolManager β := {}

/-- The round `i` of the loop in `Initialize`. -/
def initSlot (create : Option (ℕ → Option β)) (opens : ℕ → Bool) (p : CdbConnPoolManager β) (i : ℕ) :
    Except PoolFault (CdbConnPoolManager β) :=
  match create with
  | none => .ok p
  | some create =>
    if p.connPool.length ≤ i then .error .outOfRange
    else if (i : ℤ) < p.dbAddr.minConnCount then
      match create i with
      | none => .error .nullPointer
      | some c =>
        .ok { p with
          connPool := p.connPool.set i ⟨if opens i then .idle else .created, some c, opens i⟩
          connedPointer := p.connedPointer + 1 }
    else .ok { p with connPool := p.connPool.set i ⟨.created, create i, false⟩ }

/-- `Initialize`. -/
def initializePool (dbAddr : DBAddrInfo) (autoCommit : Bool) (create : Option (ℕ → Option β)) (opens : ℕ → Bool)
    (p : CdbConnPoolManager β) : Except PoolFault (CdbConnPoolManager β × ℕ) :=
  if dbAddr.maxConnCount < 0 then .error .lengthError
  else do
    let n := dbAddr.maxConnCount.toNat
    let p ← (List.range n).foldlM (initSlot create opens)
      { p with autoCommit, dbAddr, connPool := resizePool p.connPool n }
    return (p, p.connedPointer)

/-- `Shutdown`, which destroys the objects. -/
def shutdown (p : CdbConnPoolManager β) : CdbConnPoolManager β := { p with connPool := [] }

/-- The loop in `GetFreeConnection`. -/
def takeIdle (p : CdbConnPoolManager β) : Except PoolFault (CdbConnPoolManager β × Option β) := do
  let i ← firstBelow (·.state = .idle) p.connPool p.connedPointer
  match i with
  | none => .ok (p, none)
  | some i =>
    .ok ({ p with connPool := p.connPool.modify i ({ · with state := .busy }) }, p.connPool[i]?.bind (·.conn))

/-- The end of `GetFreeConnection`, when `conned_pointer_` is below `max_conn_count`. -/
def connectNext (opens : Bool) (p : CdbConnPoolManager β) : Except PoolFault (CdbConnPoolManager β × Option β) :=
  match p.connPool[p.connedPointer]? with
  | none => .error .outOfRange
  | some slot =>
    if slot.state ≠ .created then .ok (p, none)
    else match slot.conn with
      | none => .error .nullPointer
      | some c =>
        if opens then
          .ok ({ p with
            connPool := p.connPool.set p.connedPointer { slot with state := .busy, opened := true }
            connedPointer := p.connedPointer + 1 }, some c)
        else .ok (p, none)

/-- `GetFreeConnection`; `opens` is for the `Open` that it may call. -/
def getFreeConnection (opens : Bool) (p : CdbConnPoolManager β) :
    Except PoolFault (CdbConnPoolManager β × Option β) := do
  let (p, conn) ← p.takeIdle
  if conn = none ∧ (p.connedPointer : ℤ) < p.dbAddr.maxConnCount then p.connectNext opens else .ok (p, conn)

/-- `SetFreeConnection`. -/
def setFreeConnection [DecidableEq β] (conn : Option β) (p : CdbConnPoolManager β) :
    Except PoolFault (CdbConnPoolManager β) := do
  let i ← firstBelow (·.conn = conn) p.connPool p.connedPointer
  match i with
  | none => .ok p
  | some i => .ok { p with connPool := p.connPool.modify i ({ · with state := .idle }) }

end CdbConnPoolManager

end

end Zutils.Db
