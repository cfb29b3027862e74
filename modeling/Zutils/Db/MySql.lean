import Zutils.Base.Checked
import Zutils.Lib.SqlSession
import Mathlib.Algebra.Group.Nat.Defs
import Mathlib.Data.Int.Notation

/-!
# A MySQL connection (`db/mysql/mysql_database.cc`)

`SafeQuery` builds a new connection when a query has failed because the connection is lost, and sends the query once
more. To build a connection sets properties of the new session by queries of its own, which may be lost too, so that
`BuildConnection` and `Execute` call each other.

What the client library answers is an input: lists with an answer for each call of `mysql_real_query` and of
`mysql_real_connect` (or `mysql_init`, whose failure has the same effect). A call with fewer answers than it needs does not return here.
-/

namespace Zutils.Db

open Zutils.Lib

/-- What `mysql_affected_rows`, `mysql_insert_id` and `mysql_store_result` say after a query. -/
structure QueryOk where
  affectedRows : ℕ := 0
  insertId : ℕ := 0
  hasResult : Bool := false
  deriving DecidableEq, Repr

/-- An answer to `mysql_real_query`. -/
inductive QueryAnswer where
  | ok (r : QueryOk)
  /-- It fails with `errno`. A query that was lost may have been executed. -/
  | error (errno : ℕ) (executed : Bool)
  deriving DecidableEq, Repr

/-- An answer to `mysql_real_connect`. -/
inductive ConnectAnswer where
  | connected
  | failed
  deriving DecidableEq, Repr

/-- Why a call does not return: the client library is called with a null handle, or there is no answer for it. -/
inductive MySqlFault where
  | nullHandle
  | noAnswer
  deriving DecidableEq, Repr

/-- `MySQLDatabase`, with the server it talks to. -/
structure MySQLDatabase (σ : Type) where
  /-- `my_` is not null. -/
  my : Bool
  server : Server σ
  /-- The answers to come. -/
  queries : List QueryAnswer
  connects : List ConnectAnswer
  deriving DecidableEq, Repr

/-- The codes that `SafeQuery` takes for a lost connection. -/
def isLost (errno : ℕ) : Bool := errno ∈ [2006, 2008, 2013, 2055, 1053]

/-- `static_cast<int>` of a `my_ulonglong`. -/
def toInt (n : ℕ) : ℤ := (n : ℤ).bmod (2 ^ 32)

namespace MySQLDatabase

variable {σ : Type}

/-- `CloseDb`. -/
def closeDb (d : MySQLDatabase σ) : MySQLDatabase σ :=
  if d.my then { d with my := false, server := d.server.disconnect } else d

/-- `mysql_real_query`, with what `mysql_errno` says when it fails. Nothing can be asked of a session that is gone. -/
def realQuery (q : Query σ) (d : MySQLDatabase σ) : Except MySqlFault (MySQLDatabase σ × Except ℕ QueryOk) :=
  if d.my = false then .error .nullHandle
  else match d.queries with
    | [] => .error .noAnswer
    | answer :: queries =>
      if d.server.session = none then .ok ({ d with queries }, .error 2006)
      else match answer with
        | .ok r => .ok ({ d with queries, server := d.server.run q }, .ok r)
        | .error errno executed =>
          if isLost errno then
            .ok ({ d with queries, server := (if executed then d.server.run q else d.server).disconnect }, .error errno)
          else .ok ({ d with queries }, .error errno)

section

variable (buildConnection : MySQLDatabase σ → Except MySqlFault (MySQLDatabase σ × Bool))

/-- `CheckConnection`. -/
def checkConnection (d : MySQLDatabase σ) : Except MySqlFault (MySQLDatabase σ × Bool) :=
  if d.my then .ok (d, true) else buildConnection d

/-- `SafeQuery`. -/
def safeQuery (q : Query σ) (d : MySQLDatabase σ) : Except MySqlFault (MySQLDatabase σ × Except ℕ QueryOk) := do
  let (d, res) ← d.realQuery q
  match res with
  | .ok r => .ok (d, .ok r)
  | .error errno =>
    if isLost errno then do
      let (d, built) ← buildConnection d
      if built then d.realQuery q else .ok (d, .error errno)
    else .ok (d, .error errno)

/-- What `Query`, `ExecuteInsertID` and `Execute` have in common; `none` when `CheckConnection` returns false. -/
def checkedQuery (q : Query σ) (d : MySQLDatabase σ) :
    Except MySqlFault (MySQLDatabase σ × Option (Except ℕ QueryOk)) := do
  let (d, connected) ← d.checkConnection buildConnection
  if connected then do
    let (d, res) ← d.safeQuery buildConnection q
    return (d, some res)
  else return (d, none)

/-- `Execute`; `mysql_real_query` returns 1 when it fails. -/
def executeWith (q : Query σ) (d : MySQLDatabase σ) : Except MySqlFault (MySQLDatabase σ × ℤ) := do
  let (d, res) ← d.checkedQuery buildConnection q
  return (d, match res with
    | none => -2000
    | some (.error _) => -1
    | some (.ok r) => toInt r.affectedRows)

end

/-- `BuildConnection`, which calls itself at most `n` times deep. -/
def buildConnectionWithin : ℕ → MySQLDatabase σ → Except MySqlFault (MySQLDatabase σ × Bool)
  | 0, _ => .error .noAnswer
  | n + 1, d =>
    let d := d.closeDb
    match d.connects with
    | [] => .error .noAnswer
    | .failed :: connects => .ok ({ d with connects }, false)
    | .connected :: connects => do
      let d := { d with connects, my := true, server := d.server.connect }
      let (d, _) ← d.executeWith (buildConnectionWithin n) .setNames
      let (d, _) ← d.executeWith (buildConnectionWithin n) .setCharacterSet
      -- `mysql_options(my_, MYSQL_OPT_RECONNECT, &my_true)`
      if d.my = false then .error .nullHandle else .ok (d, true)

/-- `BuildConnection`: each call of it takes an answer to `mysql_real_connect`. -/
def buildConnection (d : MySQLDatabase σ) : Except MySqlFault (MySQLDatabase σ × Bool) :=
  buildConnectionWithin (d.connects.length + 1) d

/-- `Execute`. -/
def execute (q : Query σ) (d : MySQLDatabase σ) : Except MySqlFault (MySQLDatabase σ × ℤ) :=
  d.executeWith buildConnection q

/-- `ExecuteInsertID`. -/
def executeInsertID (q : Query σ) (d : MySQLDatabase σ) : Except MySqlFault (MySQLDatabase σ × ℕ) := do
  let (d, res) ← d.checkedQuery buildConnection q
  return (d, match res with
    | some (.ok r) => r.insertId
    | some (.error _) | none => 0)

/-- `Query`, which returns an answer or null. -/
def query (q : Query σ) (d : MySQLDatabase σ) : Except MySqlFault (MySQLDatabase σ × Bool) := do
  let (d, res) ← d.checkedQuery buildConnection q
  return (d, match res with
    | some (.ok r) => r.hasResult
    | some (.error _) | none => false)

/-- `BeginTransaction`. -/
def beginTransaction (d : MySQLDatabase σ) : Except MySqlFault (MySQLDatabase σ × Bool) := do
  let (d, r) ← d.execute .startTransaction
  return (d, decide (0 = r))

/-- `CommitTransaction`. -/
def commitTransaction (d : MySQLDatabase σ) : Except MySqlFault (MySQLDatabase σ × Bool) := do
  let (d, r) ← d.execute .commit
  return (d, decide (0 = r))

/-- `RollbackTransaction`. -/
def rollbackTransaction (d : MySQLDatabase σ) : Except MySqlFault (MySQLDatabase σ × Bool) := do
  let (d, r) ← d.execute .rollback
  return (d, decide (0 = r))

end MySQLDatabase

end Zutils.Db
