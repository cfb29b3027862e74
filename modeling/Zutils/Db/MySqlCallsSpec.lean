import Zutils.Db.MySqlCalls

/-!
# What the calls keep

The rules for the calls of the client library, and for a property that all of them keep (`Stable`): then every call of
the database keeps it, however deep `BuildConnection` is in itself.
-/

namespace Zutils.Db

open Zutils.Lib

variable {σ : Type}

/-- `Query`, `ExecuteInsertID` and `Execute`, and what is done with them. -/
def DatabaseCall.IsStatement : DatabaseCall σ → Prop
  | .ping _ => False
  | _ => True

namespace ClientState

/-- One more call. -/
def add (s : ClientState σ) (c : ClientCall σ) : ClientState σ := { s with calls := s.calls ++ [c] }

@[simp] lemma add_my (s : ClientState σ) (c : ClientCall σ) : (s.add c).my = s.my := rfl

@[simp] lemma add_mysql (s : ClientState σ) (c : ClientCall σ) : (s.add c).mysql = s.mysql := rfl

@[simp] lemma add_connects (s : ClientState σ) (c : ClientCall σ) : (s.add c).connects = s.connects := rfl

@[simp] lemma add_calls (s : ClientState σ) (c : ClientCall σ) : (s.add c).calls = s.calls ++ [c] := rfl

/-- After a query on a connection. -/
def sent (o : Outcomes) (q : Query σ) (s : ClientState σ) : ClientState σ :=
  { s with
    queries := s.queries + 1
    calls := s.calls ++ ⟨.realQuery q (o.queries s.queries), .my, s.mysql⟩ ::
      match o.queries s.queries with
      | .ok _ => []
      | .error _ => [⟨.errno, .my, s.mysql⟩] }

@[simp] lemma sent_my (o : Outcomes) (q : Query σ) (s : ClientState σ) : (s.sent o q).my = s.my := rfl

@[simp] lemma sent_mysql (o : Outcomes) (q : Query σ) (s : ClientState σ) : (s.sent o q).mysql = s.mysql := rfl

@[simp] lemma sent_connects (o : Outcomes) (q : Query σ) (s : ClientState σ) : (s.sent o q).connects = s.connects := rfl

/-! After the steps of `BuildConnection`. -/

def closed (s : ClientState σ) : ClientState σ :=
  if s.my then { s.add ⟨.close, .my, s.mysql⟩ with my := false, mysql := .closed } else s

/-- `mysql_init` has been called. -/
def inited (s : ClientState σ) : ClientState σ :=
  ({ s.closed with connects := s.connects + 1 } : ClientState σ).add ⟨.init, .myTemp, s.closed.mysql⟩

/-- `mysql_real_connect` has been called. -/
def attempted (s : ClientState σ) : ClientState σ :=
  (({ s.inited with mysql := .initialized } : ClientState σ).add ⟨.options, .myTemp, .initialized⟩).add
    ⟨.realConnect, .myTemp, .initialized⟩

/-- It has returned null. -/
def refused (s : ClientState σ) : ClientState σ :=
  ({ s.attempted with my := false, mysql := .failed } : ClientState σ).add ⟨.error, .myTemp, .failed⟩

/-- It has returned a connection. -/
def opened (s : ClientState σ) : ClientState σ :=
  ({ s.attempted with my := true, mysql := .connected } : ClientState σ).add ⟨.autocommit, .my, .connected⟩

section

variable (s : ClientState σ)

@[simp] lemma closed_my : s.closed.my = false := by
  rw [closed]
  split
  · rfl
  · rename_i h
    exact Bool.eq_false_iff.2 h

@[simp] lemma closed_connects : s.closed.connects = s.connects := by
  rw [closed]
  split <;> rfl

lemma closed_calls : s.closed.calls = s.calls ++ if s.my then [⟨.close, .my, s.mysql⟩] else [] := by
  rw [closed]
  split
  · rfl
  · exact (List.append_nil _).symm

@[simp] lemma closed_queries : s.closed.queries = s.queries := by
  rw [closed]
  split <;> rfl

@[simp] lemma inited_my : s.inited.my = false := s.closed_my

@[simp] lemma inited_connects : s.inited.connects = s.connects + 1 := rfl

@[simp] lemma refused_my : s.refused.my = false := rfl

@[simp] lemma refused_connects : s.refused.connects = s.connects + 1 := rfl

@[simp] lemma refused_queries : s.refused.queries = s.queries := s.closed_queries

@[simp] lemma opened_queries : s.opened.queries = s.queries := s.closed_queries

@[simp] lemma opened_my : s.opened.my = true := rfl

@[simp] lemma opened_mysql : s.opened.mysql = .connected := rfl

@[simp] lemma opened_connects : s.opened.connects = s.connects + 1 := rfl

lemma attempted_calls : s.attempted.calls = s.closed.calls ++ [⟨.init, .myTemp, s.closed.mysql⟩,
    ⟨.options, .myTemp, .initialized⟩, ⟨.realConnect, .myTemp, .initialized⟩] := by
  simp [attempted, inited]

end

end ClientState

namespace Client

variable {s : ClientState σ} {fn : ClientFn σ} {o : Outcomes} {q : Query σ}

/-! ### The rules of the calls -/

section Rules

variable {E : ClientStop → ClientState σ → Prop}

lemma ensures_onMy {Q : Unit → ClientState σ → Prop} : Ensures (onMy fn) s Q E ↔
    if s.my || fn.TakesNull then Q () (s.add ⟨fn, .my, s.handle⟩) else E .nullHandle (s.add ⟨fn, .my, s.handle⟩) := by
  simp only [onMy, ensures_bind, ensures_get, ensures_modify]
  split
  · exact ensures_pure
  · exact ensures_throw

lemma ensures_onMy_of_my {Q : Unit → ClientState σ → Prop} (h : s.my = true) :
    Ensures (onMy fn) s Q E ↔ Q () (s.add ⟨fn, .my, s.mysql⟩) := by
  rw [ensures_onMy, ClientState.handle, h]
  exact Iff.rfl

@[simp] lemma ensures_onMyTemp {Q : Unit → ClientState σ → Prop} :
    Ensures (onMyTemp fn) s Q E ↔ Q () (s.add ⟨fn, .myTemp, s.mysql⟩) := Iff.rfl

@[simp] lemma ensures_nextConnect {Q : ConnectOutcome → ClientState σ → Prop} : Ensures (nextConnect o) s Q E ↔
    Q (o.connects s.connects) { s with connects := s.connects + 1 } := Iff.rfl

/-- **On a connection a query** returns the next outcome. -/
lemma ensures_send {Q : Except ℕ QueryOk → ClientState σ → Prop} (h : s.my = true) :
    Ensures (send o q) s Q E ↔ Q (o.queries s.queries) (s.sent o q) := by
  simp only [send, realQuery, ensures_bind, ensures_get, ensures_modify, ensures_pure]
  rw [ensures_onMy_of_my (s := { s with queries := s.queries + 1 }) h, ClientState.sent]
  cases o.queries s.queries with
  | ok r => exact Iff.rfl
  | error errno =>
    simp only [ensures_bind, ensures_pure]
    rw [ensures_onMy_of_my]
    · simp [ClientState.add]
    · exact h

section

variable {build : Client σ Bool} {α : Type} {absent failed : α} {next : QueryOk → Client σ α} {Q : α → ClientState σ → Prop}

/-- **A statement that is called on a connection.** -/
lemma ensures_statement (h : s.my = true) : Ensures (statement o build absent failed next q) s Q E ↔
    Ensures (statementOn o build failed next q) s Q E := by
  rw [statement, ensures_bind, checkConnection, ensures_bind, ensures_get, if_pos h, ensures_pure, if_pos rfl]

/-- **A statement that is called without one.** -/
lemma ensures_statement_absent (h : s.my ≠ true) : Ensures (statement o build absent failed next q) s Q E ↔
    Ensures build s (fun connected s' =>
      Ensures (if connected then statementOn o build failed next q else return absent) s' Q E) E := by
  rw [statement, ensures_bind, checkConnection, ensures_bind, ensures_get, if_neg h]

end

lemma ensures_closeDb {Q : Unit → ClientState σ → Prop} : Ensures closeDb s Q E ↔ Q () s.closed := by
  simp only [closeDb, ensures_bind, ensures_get, ClientState.closed]
  split
  · rename_i h
    rw [ensures_bind, ensures_onMy_of_my h]
    exact ensures_modify
  · exact ensures_pure

/-- What `BuildConnection` does on a connection that it has opened. -/
def setUp (o : Outcomes) (build : Client σ Bool) : Client σ Bool := do
  let _ ← executeWith o build .setNames
  let _ ← executeWith o build .setCharacterSet
  onMy .options
  return true

variable {n : ℕ} {Q : Bool → ClientState σ → Prop}

/-- **`BuildConnection`** without memory. -/
lemma ensures_buildConnection_noMemory (h : o.connects s.connects = .noMemory) :
    Ensures (buildConnection o (n + 1)) s Q E ↔ Q false s.inited := by
  simp only [buildConnection, ensures_bind, ensures_closeDb, ensures_nextConnect, ClientState.closed_connects, h,
    ensures_onMyTemp]
  exact ensures_pure

/-- **`BuildConnection`** where no connection is made. -/
lemma ensures_buildConnection_failed (h : o.connects s.connects = .failed) :
    Ensures (buildConnection o (n + 1)) s Q E ↔ Q false s.refused := by
  simp only [buildConnection, ensures_bind, ensures_closeDb, ensures_nextConnect, ClientState.closed_connects, h,
    ensures_onMyTemp]
  rw [if_neg (by decide)]
  exact Iff.rfl

/-- **`BuildConnection`** where a connection is made. -/
lemma ensures_buildConnection_connected (h : o.connects s.connects = .connected) :
    Ensures (buildConnection o (n + 1)) s Q E ↔ Ensures (setUp o (buildConnection o n)) s.opened Q E := by
  simp only [buildConnection, ensures_bind, ensures_closeDb, ensures_nextConnect, ClientState.closed_connects, h,
    ensures_onMyTemp]
  rw [if_neg (by decide), setUp, ensures_bind]
  exact Iff.rfl

end Rules

/-! ### Properties that are kept -/

/-- What `mysql_real_query` returns is one of the outcomes. -/
def FromOutcomes (o : Outcomes) : ClientFn σ → Prop
  | .realQuery _ r => ∃ i, r = o.queries i
  | _ => True

/-- The property is kept by a call, and does not depend on the handle. -/
structure Stable (o : Outcomes) (P : ClientState σ → Prop) : Prop where
  add : ∀ s c, P s → FromOutcomes o c.fn → P (s.add c)
  handle : ∀ s my mysql, P s → P { s with my, mysql }
  connects : ∀ s, P s → P { s with connects := s.connects + 1 }
  queries : ∀ s, P s → P { s with queries := s.queries + 1 }

/-- What is done with a query that has succeeded: functions without an outcome are called with `my_`. -/
inductive Asks {α : Type} : Client σ α → Prop
  | ret (a : α) : Asks (pure a)
  | ask {fn : ClientFn σ} {x : Client σ α} : (∀ o, FromOutcomes o fn) → Asks x → Asks (do onMy fn; x)

section Stable

variable {P : ClientState σ → Prop} {build : Client σ Bool} {α : Type} {absent failed : α} {next : QueryOk → Client σ α}

lemma Stable.onMy (h : Stable o P) (hfn : FromOutcomes o fn) : Keeps P (onMy fn) := by
  intro s hs
  rw [ensures_onMy]
  split
  · exact h.add s _ hs hfn
  · exact h.add s _ hs hfn

lemma Stable.realQuery (h : Stable o P) : Keeps P (realQuery o q) := by
  intro s hs
  rw [Client.realQuery]
  simp only [ensures_bind, ensures_get, ensures_modify, ensures_pure]
  have hfn : FromOutcomes o (.realQuery q (o.queries s.queries)) := ⟨s.queries, rfl⟩
  exact h.onMy hfn _ (h.queries s hs)

lemma Stable.closeDb (h : Stable o P) : Keeps P closeDb := by
  intro s hs
  rw [ensures_closeDb, ClientState.closed]
  split
  · exact h.handle _ false .closed (h.add s _ hs trivial)
  · exact hs

lemma Stable.checkConnection (hbuild : Keeps P build) : Keeps P (checkConnection build) := by
  intro s hs
  rw [Client.checkConnection, ensures_bind, ensures_get]
  split
  · exact hs
  · exact hbuild s hs

lemma Stable.send (h : Stable o P) : Keeps P (send o q) := by
  refine h.realQuery.bind fun res => ?_
  cases res with
  | ok r => exact keeps_pure _
  | error errno => exact (h.onMy (by trivial)).bind fun _ => keeps_pure _

lemma Stable.safeQuery (h : Stable o P) (hbuild : Keeps P build) : Keeps P (safeQuery o build q) := by
  refine h.send.bind fun res => ?_
  cases res with
  | ok r => exact keeps_pure _
  | error errno => exact .ite (hbuild.bind fun built => .ite h.send (keeps_pure _)) (keeps_pure _)

lemma Stable.asks (h : Stable o P) {x : Client σ α} (hx : Asks x) : Keeps P x := by
  induction hx with
  | ret a => exact keeps_pure a
  | ask hfn _ ih => exact (h.onMy (hfn o)).bind fun _ => ih

lemma Stable.statementOn (h : Stable o P) (hbuild : Keeps P build) (hnext : ∀ r, Asks (next r)) :
    Keeps P (statementOn o build failed next q) := by
  refine (h.safeQuery hbuild).bind fun res => ?_
  cases res with
  | error errno => exact (h.onMy (by trivial)).bind fun _ => keeps_pure _
  | ok r => exact h.asks (hnext r)

lemma Stable.statement (h : Stable o P) (hbuild : Keeps P build) (hnext : ∀ r, Asks (next r)) :
    Keeps P (statement o build absent failed next q) :=
  (checkConnection hbuild).bind fun _ => .ite (h.statementOn hbuild hnext) (keeps_pure _)

lemma asks_execute (r : QueryOk) : Asks (do onMy .affectedRows; return toInt r.affectedRows : Client σ ℤ) :=
  .ask (fun _ => trivial) (.ret _)

lemma Stable.executeWith (h : Stable o P) (hbuild : Keeps P build) : Keeps P (executeWith o build q) :=
  h.statement hbuild asks_execute

lemma Stable.onMyTemp (h : Stable o P) (hfn : FromOutcomes o fn) : Keeps P (onMyTemp fn) := fun s hs => h.add s _ hs hfn

/-- **`BuildConnection` keeps what is stable**, by induction on how deep it may be in itself. -/
lemma Stable.buildConnection (h : Stable o P) (n : ℕ) : Keeps P (buildConnection o n) := by
  induction n with
  | zero => exact keeps_throw _
  | succ n ih =>
    refine h.closeDb.bind fun _ => Keeps.bind (fun s hs => h.connects s hs) fun outcome => ?_
    refine (h.onMyTemp (by trivial)).bind fun _ => .ite (keeps_pure _) ?_
    refine (keeps_modify fun s hs => h.handle s s.my _ hs).bind fun _ => ?_
    refine (h.onMyTemp (by trivial)).bind fun _ => (h.onMyTemp (by trivial)).bind fun _ => .ite ?_ ?_
    · refine (keeps_modify fun s hs => h.handle s true _ hs).bind fun _ => ?_
      refine (h.onMy (by trivial)).bind fun _ => (h.executeWith ih).bind fun _ => (h.executeWith ih).bind fun _ => ?_
      exact (h.onMy (by trivial)).bind fun _ => keeps_pure _
    · refine (keeps_modify fun s hs => h.handle s false _ hs).bind fun _ => ?_
      exact (h.onMyTemp (by trivial)).bind fun _ => keeps_pure _

/-- **The rule for statements**: a property of programs that does not depend on what they return, and that all
statements have, is one of every call but `Ping`. -/
theorem exec_statement {R : (α : Type) → Client σ α → Prop} {n : ℕ} {call : DatabaseCall σ}
    (hreturn : ∀ {α β : Type} {x : Client σ α} (f : α → β), R α x → R β (do let a ← x; return f a))
    (hstatement : ∀ {α : Type} {absent failed : α} {next : QueryOk → Client σ α} {q : Query σ},
      (∀ r, Asks (next r)) → R α (statement o (Client.buildConnection o n) absent failed next q))
    (hcall : call.IsStatement) : R Unit (exec o n call) := by
  have hquery : ∀ a, R Bool (query o n a) := fun a =>
    hstatement fun r => .ask (fun _ => trivial) (.ask (fun _ => trivial) (.ask (fun _ => trivial) (.ret r.hasResult)))
  have hinsert : ∀ a, R ℕ (executeInsertID o n a) := fun a => hstatement fun r => .ask (fun _ => trivial) (.ret r.insertId)
  have hsucceeds : ∀ q, R Bool (succeeds o n q) := fun q => hreturn _ (hstatement asks_execute)
  cases call with
  | query a => exact hreturn _ (hquery a)
  | executeInsertID a => exact hreturn _ (hinsert a)
  | execute a => exact hreturn _ (hstatement asks_execute)
  | getNextID a => exact hreturn _ (hquery a)
  | beginTransaction => exact hreturn _ (hsucceeds _)
  | commitTransaction => exact hreturn _ (hsucceeds _)
  | rollbackTransaction => exact hreturn _ (hsucceeds _)
  | ping er => exact hcall.elim

/-- **Every call of the database keeps what is stable.** -/
theorem Stable.exec (h : Stable o P) (n : ℕ) (call : DatabaseCall σ) : Keeps P (exec o n call) := by
  by_cases hcall : call.IsStatement
  · refine exec_statement (R := fun _ => Keeps P) (fun f hx => hx.bind fun _ => keeps_pure _) ?_ hcall
    exact fun hnext => h.statement (h.buildConnection n) hnext
  · cases call with
    | ping er => exact ((h.onMy (by trivial)).bind fun _ => keeps_pure _).bind fun _ => keeps_pure _
    | _ => exact absurd trivial hcall

end Stable

end Client

end Zutils.Db
