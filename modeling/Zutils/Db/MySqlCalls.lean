import Zutils.Db.MySql
import Zutils.Lib.Ensures

/-!
# The calls of the client library (`db/mysql/mysql_database.cc`)

What `MySQLDatabase` calls of the client library, and with which handle: `my_`, which is null or points to `mysql_`, or
`my_temp`, which points to it while a connection is set up.

How the calls come out is given by two infinite sequences, one for the connections and one for `mysql_real_query`. No
outcome is excluded: a query may succeed after one that was lost, as `MYSQL_OPT_RECONNECT` has the library connect again
by itself.

A null handle ends the process, but `mysql_errno` and `mysql_error` take it. `BuildConnection` and `Execute` call each
other; a run is stopped where `BuildConnection` is called within itself more than so many times, and the calls up to
there are known.
-/

namespace Zutils.Db

open Zutils.Lib

/-- How a connection comes out: `mysql_init` returns null, or `mysql_real_connect` does, or there is a connection. -/
inductive ConnectOutcome where
  | noMemory
  | failed
  | connected
  deriving DecidableEq, Repr

/-- How the calls come out, in the order in which they are made. -/
structure Outcomes where
  connects : ℕ → ConnectOutcome
  /-- `mysql_real_query`, with what `mysql_errno` says when it fails. -/
  queries : ℕ → Except ℕ QueryOk

/-- The functions of the client library that take a handle. -/
inductive ClientFn (σ : Type) where
  | init
  | options
  | realConnect
  | autocommit
  | realQuery (q : Query σ) (outcome : Except ℕ QueryOk)
  | errno
  | error
  | storeResult
  | affectedRows
  | fieldCount
  | insertId
  | ping
  | close

/-- What a handle is. -/
inductive Handle where
  | null
  | unused
  | initialized
  | failed
  | connected
  | closed
  deriving DecidableEq, Repr

/-- Where the handle is taken from. -/
inductive HandleVar where
  | my
  | myTemp
  deriving DecidableEq, Repr

/-- A call, with the handle that is passed. -/
structure ClientCall (σ : Type) where
  fn : ClientFn σ
  var : HandleVar
  handle : Handle

/-- `MySQLDatabase`, with the number of outcomes that have been used, and the calls that have been made. -/
structure ClientState (σ : Type) where
  /-- `my_` is not null. -/
  my : Bool
  /-- What `mysql_` is. -/
  mysql : Handle
  connects : ℕ
  queries : ℕ
  calls : List (ClientCall σ)

/-- Why a call of the database does not return: the process ends, or `BuildConnection` is too deep in itself. -/
inductive ClientStop where
  | nullHandle
  | tooDeep
  deriving DecidableEq, Repr

/-- What is done with the client library. -/
abbrev Client (σ α : Type) := EStateM ClientStop (ClientState σ) α

/-- `MySQLDatabase()`. -/
def ClientState.new {σ : Type} : ClientState σ := ⟨false, .unused, 0, 0, []⟩

/-- `my_`. -/
def ClientState.handle {σ : Type} (s : ClientState σ) : Handle := if s.my then s.mysql else .null

/-- A null handle does not end the process. -/
def ClientFn.TakesNull {σ : Type} : ClientFn σ → Bool
  | .errno | .error => true
  | _ => false

namespace Client

variable {σ : Type}

/-- A call with `my_`. -/
def onMy (fn : ClientFn σ) : Client σ Unit := do
  let s ← get
  modify fun s => { s with calls := s.calls ++ [⟨fn, .my, s.handle⟩] }
  if s.my || fn.TakesNull then pure () else throw .nullHandle

/-- A call with `my_temp`. -/
def onMyTemp (fn : ClientFn σ) : Client σ Unit :=
  modify fun s => { s with calls := s.calls ++ [⟨fn, .myTemp, s.mysql⟩] }

variable (o : Outcomes)

/-- How the next connection comes out. -/
def nextConnect : Client σ ConnectOutcome := do
  let s ← get
  modify fun s => { s with connects := s.connects + 1 }
  return o.connects s.connects

/-- `mysql_real_query(my_, ...)`. -/
def realQuery (q : Query σ) : Client σ (Except ℕ QueryOk) := do
  let s ← get
  modify fun s => { s with queries := s.queries + 1 }
  onMy (.realQuery q (o.queries s.queries))
  return o.queries s.queries

/-- What `SafeQuery` does once or twice: `mysql_errno` is asked where the query fails. -/
def send (q : Query σ) : Client σ (Except ℕ QueryOk) := do
  let res ← realQuery o q
  match res with
  | .ok r => return .ok r
  | .error errno => do
    onMy .errno
    return .error errno

/-- `CloseDb`. -/
def closeDb : Client σ Unit := do
  let s ← get
  if s.my then do
    onMy .close
    modify fun s => { s with my := false, mysql := .closed }
  else pure ()

section

variable (buildConnection : Client σ Bool)

/-- `CheckConnection`. -/
def checkConnection : Client σ Bool := do
  let s ← get
  if s.my then return true else buildConnection

/-- `SafeQuery`. -/
def safeQuery (q : Query σ) : Client σ (Except ℕ QueryOk) := do
  let res ← send o q
  match res with
  | .ok r => return .ok r
  | .error errno =>
    if isLost errno then do
      let built ← buildConnection
      if built then send o q else return .error errno
    else return .error errno

/-- What `Query`, `ExecuteInsertID` and `Execute` do on a connection: what they return when the query fails, and what
they do when it succeeds. -/
def statementOn {α : Type} (failed : α) (next : QueryOk → Client σ α) (q : Query σ) : Client σ α := do
  let res ← safeQuery o buildConnection q
  match res with
  | .error _ => do
    onMy .error
    return failed
  | .ok r => next r

/-- What they have in common, with what they return without a connection. -/
def statement {α : Type} (absent failed : α) (next : QueryOk → Client σ α) (q : Query σ) : Client σ α := do
  let connected ← checkConnection buildConnection
  if connected then statementOn o buildConnection failed next q else return absent

/-- `Query`, which returns an answer or null. -/
def queryWith : Query σ → Client σ Bool :=
  statement o buildConnection false false fun r => do
    onMy .storeResult
    onMy .affectedRows
    onMy .fieldCount
    return r.hasResult

/-- `ExecuteInsertID`. -/
def executeInsertIDWith : Query σ → Client σ ℕ :=
  statement o buildConnection 0 0 fun r => do
    onMy .insertId
    return r.insertId

/-- `Execute`; `mysql_real_query` returns 1 when it fails. -/
def executeWith : Query σ → Client σ ℤ :=
  statement o buildConnection (-2000) (-1) fun r => do
    onMy .affectedRows
    return toInt r.affectedRows

end

/-- `BuildConnection`, which calls itself less than `n` times deep. -/
def buildConnection : ℕ → Client σ Bool
  | 0 => throw .tooDeep
  | n + 1 => do
    closeDb
    let outcome ← nextConnect o
    onMyTemp .init
    if outcome = .noMemory then return false
    else do
      modify fun s => { s with mysql := .initialized }
      onMyTemp .options
      onMyTemp .realConnect
      if outcome = .connected then do
        modify fun s => { s with my := true, mysql := .connected }
        onMy .autocommit
        let _ ← executeWith o (buildConnection n) .setNames
        let _ ← executeWith o (buildConnection n) .setCharacterSet
        onMy .options
        return true
      else do
        modify fun s => { s with my := false, mysql := .failed }
        onMyTemp .error
        return false

end Client

/-- What is called of a `MySQLDatabase`. -/
inductive DatabaseCall (σ : Type) where
  | query (s : σ)
  | executeInsertID (s : σ)
  | execute (s : σ)
  | getNextID (s : σ)
  | beginTransaction
  | commitTransaction
  | rollbackTransaction
  | ping (er : ℤ)
  deriving DecidableEq, Repr

namespace Client

variable {σ : Type} (o : Outcomes) (n : ℕ)

def query (s : σ) : Client σ Bool := queryWith o (buildConnection o n) (.statement s)

def executeInsertID (s : σ) : Client σ ℕ := executeInsertIDWith o (buildConnection o n) (.statement s)

def execute (s : σ) : Client σ ℤ := executeWith o (buildConnection o n) (.statement s)

/-- `GetNextID`, up to the answer, from which the id is read. -/
def getNextID (s : σ) : Client σ Bool := query o n s

/-- What `BeginTransaction` and the like have in common. -/
def succeeds (q : Query σ) : Client σ Bool := do
  let r ← executeWith o (buildConnection o n) q
  return decide (0 = r)

def beginTransaction : Client σ Bool := succeeds o n .startTransaction

def commitTransaction : Client σ Bool := succeeds o n .commit

def rollbackTransaction : Client σ Bool := succeeds o n .rollback

/-- `Ping`, where `mysql_ping` returns `er`. -/
def ping (er : ℤ) : Client σ Bool := do
  onMy .ping
  return decide (er = 0)

/-- A call of the database, without what it returns. -/
def exec : DatabaseCall σ → Client σ Unit
  | .query s => do let _ ← query o n s
  | .executeInsertID s => do let _ ← executeInsertID o n s
  | .execute s => do let _ ← execute o n s
  | .getNextID s => do let _ ← getNextID o n s
  | .beginTransaction => do let _ ← beginTransaction o n
  | .commitTransaction => do let _ ← commitTransaction o n
  | .rollbackTransaction => do let _ ← rollbackTransaction o n
  | .ping er => do let _ ← ping er

end Client

end Zutils.Db
