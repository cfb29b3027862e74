import Zutils.Db.ConnPoolSpec
import Zutils.Lib.Holding
import Zutils.Lib.Run

/-!
# Who holds a database connection (`ScopedPtr_DatabaseConnection`)

A `ScopedPtr_DatabaseConnection` calls `GetFreeConnection` in its constructor, and again in `get()`, `*` and `->` as long
as `db_conn_` is null; `release()` and the destructor call `SetFreeConnection`. These two calls are atomic. What the
thread of the object does before and after them is not: the connection that was returned is still to be stored in
`db_conn_`, and after it has been given back `db_conn_` is still to be made null. Between the two any other object may
call the pool.

An object holds the connection that it has got and not given back (`Holder.held`). In every state that is reached the
connections are held exclusively (`PoolUse.Exclusive`), and no call fails.
-/

namespace Zutils.Db

open Zutils.Lib

variable {ι β : Type}

/-- Where the thread of an object is. -/
inductive HolderPhase (β : Type) where
  | ready
  /-- `GetFreeConnection` has returned. -/
  | acquired (conn : Option β)
  /-- `SetFreeConnection` has returned. -/
  | returned
  deriving DecidableEq, Repr

/-- A `ScopedPtr_DatabaseConnection`. -/
structure Holder (β : Type) where
  /-- `db_conn_`. -/
  dbConn : Option β
  phase : HolderPhase β
  deriving DecidableEq, Repr

/-- The connection that an object has got and not given back. -/
def Holder.held (h : Holder β) : Option β :=
  match h.phase with
  | .ready => h.dbConn
  | .acquired conn => conn
  | .returned => none

/-- A pool and the objects that use it. -/
structure PoolUse (ι β : Type) where
  pool : CdbConnPoolManager β
  /-- The objects that are alive. -/
  holders : ι → Option (Holder β)

/-- The connection that the object `i` holds. -/
def PoolUse.held (s : PoolUse ι β) (i : ι) : Option β := (s.holders i).bind Holder.held

/-- What the thread of an object does next. -/
inductive HolderEvent (ι : Type) where
  /-- `GetFreeConnection`, in the constructor or because `db_conn_` is null. -/
  | acquire (i : ι) (opens : Bool)
  /-- `db_conn_` is set to what it returned. -/
  | store (i : ι)
  /-- `SetFreeConnection(db_conn_)`, in `release()`, which the destructor calls too. -/
  | giveBack (i : ι)
  /-- `db_conn_` is set to null. -/
  | clear (i : ι)
  /-- The end of the destructor. -/
  | destroy (i : ι)
  deriving DecidableEq, Repr

section

variable [DecidableEq ι]

namespace PoolUse

/-- The object `i` changes, or is made or destroyed. -/
def setHolder (s : PoolUse ι β) (i : ι) (h : Option (Holder β)) : PoolUse ι β :=
  { s with holders := Function.update s.holders i h }

lemma held_setHolder (s : PoolUse ι β) (i : ι) (h : Option (Holder β)) :
    (s.setHolder i h).held = Function.update s.held i (h.bind Holder.held) := by
  funext j
  by_cases hji : j = i
  · subst hji
    simp [held, setHolder]
  · simp [held, setHolder, hji]

end PoolUse

variable [DecidableEq β]

namespace HolderEvent

/-- When an event can happen. -/
def Enabled : HolderEvent ι → PoolUse ι β → Prop
  | acquire i _, s => s.holders i = none ∨ s.holders i = some ⟨none, .ready⟩
  | store i, s => ∃ dbConn conn, s.holders i = some ⟨dbConn, .acquired conn⟩
  | giveBack i, s => ∃ c, s.holders i = some ⟨some c, .ready⟩
  | clear i, s => ∃ dbConn, s.holders i = some ⟨dbConn, .returned⟩
  | destroy i, s => s.holders i = some ⟨none, .ready⟩

/-- The state after an event. -/
def exec (e : HolderEvent ι) (s : PoolUse ι β) : Except PoolFault (PoolUse ι β) :=
  match e with
  | acquire i opens => do
    let (pool, conn) ← s.pool.getFreeConnection opens
    return { s with pool }.setHolder i (some ⟨none, .acquired conn⟩)
  | store i =>
    match s.holders i with
    | some ⟨_, .acquired conn⟩ => .ok (s.setHolder i (some ⟨conn, .ready⟩))
    | _ => .ok s
  | giveBack i =>
    match s.holders i with
    | some ⟨dbConn, _⟩ => do
      let pool ← s.pool.setFreeConnection dbConn
      return { s with pool }.setHolder i (some ⟨dbConn, .returned⟩)
    | none => .ok s
  | clear i => .ok (s.setHolder i (some ⟨none, .ready⟩))
  | destroy i => .ok (s.setHolder i none)

end HolderEvent

/-- An event happens. -/
def HolderHappens (s : PoolUse ι β) (e : HolderEvent ι) (s' : PoolUse ι β) : Prop := e.Enabled s ∧ e.exec s = .ok s'

end

/-- **Connections are held exclusively.** -/
structure PoolUse.Exclusive (s : PoolUse ι β) (maxConnCount : ℤ) : Prop where
  alone : ∀ i j c, s.held i = some c → s.held j = some c → i = j
  /-- The slots in state `Busy` are those of the connections that are held. -/
  busy_iff : ∀ (k : ℕ) (slot : DatabaseConnection β), s.pool.connPool[k]? = some slot →
    (slot.state = .busy ↔ ∃ i c, slot.conn = some c ∧ s.held i = some c)
  /-- A connection that is held has one slot, and an `Open` of it has returned true. -/
  slot_of_held : ∀ i c, s.held i = some c → ∃! k : ℕ, ∃ slot : DatabaseConnection β,
    s.pool.connPool[k]? = some slot ∧ slot.conn = some c ∧ slot.state = .busy ∧ slot.opened = true
  conned_le : (s.pool.connedPointer : ℤ) ≤ maxConnCount

/-- What the pool lends is what the objects hold. -/
structure PoolUse.Accounted (s : PoolUse ι β) (dbAddr : DBAddrInfo) (lent : List β) : Prop where
  lends : s.pool.Lends lent
  holding : Holding s.held lent
  dbAddr_eq : s.pool.dbAddr = dbAddr

section

variable {s : PoolUse ι β} {dbAddr : DBAddrInfo} {lent : List β}

/-- An account shows that the connections are held exclusively. -/
lemma PoolUse.Accounted.exclusive (h : s.Accounted dbAddr lent) : s.Exclusive dbAddr.maxConnCount := by
  have hpool := h.lends.toWellFormed
  refine ⟨h.holding.alone, ?_, ?_, ?_⟩
  · intro k slot hk
    constructor
    · intro hbusy
      obtain ⟨c, hc⟩ := hpool.exists_conn hk
      obtain ⟨i, hi⟩ := (h.holding.mem_iff c).1 ((h.lends.mem_iff c).2 ⟨k, slot, hk, hbusy, hc⟩)
      exact ⟨i, c, hc, hi⟩
    · rintro ⟨i, c, hc, hi⟩
      obtain ⟨j, slot', hj, hbusy, hc'⟩ := (h.lends.mem_iff c).1 ((h.holding.mem_iff c).2 ⟨i, hi⟩)
      obtain rfl := hpool.index_eq hj hk (hc'.trans hc.symm)
      obtain rfl := Option.some.inj (hj.symm.trans hk)
      exact hbusy
  · intro i c hi
    obtain ⟨k, slot, hk, hbusy, hc⟩ := (h.lends.mem_iff c).1 ((h.holding.mem_iff c).2 ⟨i, hi⟩)
    refine ⟨k, ⟨slot, hk, hc, hbusy, hpool.opened k slot hk (.inr hbusy)⟩, ?_⟩
    rintro j ⟨slot', hj, hc', -⟩
    exact hpool.index_eq hj hk (hc'.trans hc.symm)
  · rw [← h.dbAddr_eq, ← hpool.length_eq]
    exact Int.ofNat_le.2 hpool.conned_le

variable [DecidableEq ι]

/-- An object that changes in what it does not hold leaves the account as it is. -/
lemma PoolUse.Accounted.setHolder (hs : s.Accounted dbAddr lent) {i : ι} {h : Option (Holder β)}
    (hheld : h.bind Holder.held = s.held i) : (s.setHolder i h).Accounted dbAddr lent := by
  refine ⟨hs.lends, ?_, hs.dbAddr_eq⟩
  rw [held_setHolder, hheld, Function.update_eq_self]
  exact hs.holding

variable [DecidableEq β]

/-- **Every event keeps the account**, and none fails. -/
lemma HolderEvent.accounted (h : s.Accounted dbAddr lent) {e : HolderEvent ι} (he : e.Enabled s) :
    ∃ s' lent', e.exec s = .ok s' ∧ s'.Accounted dbAddr lent' := by
  cases e with
  | acquire i opens =>
    have hi : s.held i = none := by
      rcases he with hi | hi
      · simp [PoolUse.held, hi]
      · simp [PoolUse.held, hi, Holder.held]
    obtain ⟨pool, conn, heq, hlends, hdbAddr⟩ := h.lends.getFreeConnection opens
    refine ⟨_, conn.toList ++ lent, by simp only [exec, heq, ok_bind]; rfl, hlends, ?_, hdbAddr.trans h.dbAddr_eq⟩
    rw [PoolUse.held_setHolder]
    cases conn with
    | none => exact h.holding.skip hi
    | some c => exact h.holding.take hi (List.nodup_cons.1 hlends.nodup_lent).1
  | store i =>
    obtain ⟨dbConn, conn, hi⟩ := he
    refine ⟨s.setHolder i (some ⟨conn, .ready⟩), lent, by simp only [exec, hi], h.setHolder ?_⟩
    simp [PoolUse.held, hi, Holder.held]
  | giveBack i =>
    obtain ⟨c, hi⟩ := he
    have hheld : s.held i = some c := by simp [PoolUse.held, hi, Holder.held]
    obtain ⟨pool, heq, hlends, hdbAddr⟩ := h.lends.setFreeConnection ((h.holding.mem_iff c).2 ⟨i, hheld⟩)
    refine ⟨_, lent.erase c, by simp only [exec, hi, heq, ok_bind]; rfl, hlends, ?_, hdbAddr.trans h.dbAddr_eq⟩
    rw [PoolUse.held_setHolder]
    exact h.holding.giveUp h.lends.nodup_lent hheld
  | clear i =>
    obtain ⟨dbConn, hi⟩ := he
    refine ⟨_, lent, rfl, h.setHolder ?_⟩
    simp [PoolUse.held, hi, Holder.held]
  | destroy i =>
    have hi : s.holders i = some ⟨none, .ready⟩ := he
    refine ⟨_, lent, rfl, h.setHolder ?_⟩
    simp [PoolUse.held, hi, Holder.held]

/-- **Connections are exclusive**: `Initialize` succeeds, and in every state of every run from there each connection is
held by one object at most, in a slot of its own that is busy and was opened, and no call that can come next fails. -/
theorem connections_exclusive {dbAddr : DBAddrInfo} {create : ℕ → β} (hmax : 0 ≤ dbAddr.maxConnCount)
    (hcreate : Function.Injective create) (autoCommit : Bool) (opens : ℕ → Bool) :
    ∃ pool n, CdbConnPoolManager.new.initializePool dbAddr autoCommit (some (some ∘ create)) opens = .ok (pool, n) ∧
      ∀ (es : List (HolderEvent ι)) (s : PoolUse ι β), Run HolderHappens ⟨pool, fun _ => none⟩ es s →
        s.Exclusive dbAddr.maxConnCount ∧ ∀ e : HolderEvent ι, e.Enabled s → ∃ s', e.exec s = .ok s' := by
  refine ⟨_, _, CdbConnPoolManager.initializePool_new hmax, ?_⟩
  intro es s h
  have hinv : ∃ lent, s.Accounted dbAddr lent := by
    refine h.inv_of_exec (P := fun _ s => ∃ lent, s.Accounted dbAddr lent) HolderEvent.Enabled HolderEvent.exec
      (fun _ _ _ hstep => hstep) ⟨[], CdbConnPoolManager.lends_filled hmax hcreate, Holding.nil, rfl⟩ ?_
    rintro es s e ⟨lent, hs⟩ he
    obtain ⟨s', lent', heq, hs'⟩ := HolderEvent.accounted hs he
    exact ⟨s', heq, lent', hs'⟩
  obtain ⟨lent, hs⟩ := hinv
  refine ⟨hs.exclusive, ?_⟩
  intro e he
  obtain ⟨s', -, heq, -⟩ := HolderEvent.accounted hs he
  exact ⟨s', heq⟩

end

/-- The only connection is given back, and another object gets it before the `db_conn_` of the first is made null. -/
theorem connections_exclusive_run : ∃ pool n,
    CdbConnPoolManager.new.initializePool { minConnCount := 0, maxConnCount := 1 } true (some (some ∘ id))
      (fun _ => true) = .ok (pool, n) ∧
    ∃ s, Run HolderHappens ⟨pool, fun _ => none⟩ [.acquire 1 false, .store 1, .acquire 1 true, .store 1, .giveBack 1,
      .acquire 2 true] s ∧
    s.held 1 = none ∧ s.held 2 = some 0 ∧ s.Exclusive 1 ∧ ∀ e : HolderEvent ℕ, e.Enabled s → ∃ s', e.exec s = .ok s' := by
  have hmax : 0 ≤ ({ minConnCount := 0, maxConnCount := 1 } : DBAddrInfo).maxConnCount := by decide
  obtain ⟨pool, n, heq, hall⟩ := connections_exclusive (ι := ℕ) hmax Function.injective_id true (fun _ => true)
  have hpool : CdbConnPoolManager.new.initializePool { minConnCount := 0, maxConnCount := 1 } true (some (some ∘ id))
      (fun _ => true) =
      .ok (⟨{ minConnCount := 0, maxConnCount := 1 }, [⟨.created, some 0, false⟩], 0, true⟩, 0) := rfl
  obtain rfl := (Prod.mk.inj (Except.ok.inj (heq.symm.trans hpool))).1
  refine ⟨_, n, heq, ?_⟩
  have h₁ : Run HolderHappens
      (⟨⟨{ minConnCount := 0, maxConnCount := 1 }, [⟨.created, some 0, false⟩], 0, true⟩, fun _ => none⟩ : PoolUse ℕ ℕ)
      [.acquire 1 false] _ := Run.nil.snoc ⟨.inl rfl, rfl⟩
  have h₂ : Run HolderHappens _ [.acquire 1 false, .store 1] _ := h₁.snoc (a := HolderEvent.store 1) ⟨⟨_, _, rfl⟩, rfl⟩
  have h₃ : Run HolderHappens _ [.acquire 1 false, .store 1, .acquire 1 true, .store 1] _ :=
    (h₂.snoc (a := HolderEvent.acquire 1 true) ⟨.inr rfl, rfl⟩).snoc (a := HolderEvent.store 1) ⟨⟨_, _, rfl⟩, rfl⟩
  have h : Run HolderHappens _ [.acquire 1 false, .store 1, .acquire 1 true, .store 1, .giveBack 1, .acquire 2 true] _ :=
    (h₃.snoc (a := HolderEvent.giveBack 1) ⟨⟨_, rfl⟩, rfl⟩).snoc (a := HolderEvent.acquire 2 true) ⟨.inl rfl, rfl⟩
  exact ⟨_, h, rfl, rfl, hall _ _ h⟩

end Zutils.Db
