import Zutils.Db.ConnPoolSpec
import Zutils.Lib.Run
import Mathlib.Data.List.Perm.Subperm

/-!
# How many connections the pool can lend

`Initialize` moves `conned_pointer_` past a slot that it connects whether the `Open` succeeds or not. A slot whose `Open`
fails there stays in `kDBConnState_Created` in front of the watermark, where `GetFreeConnection` looks for idle slots
only: it is lost (`Lost`). When no `Open` of `Initialize` fails no slot is ever lost (`Sound`), and the pool lends as
many connections as it has slots (`available_iff`).
-/

namespace Zutils.Db

open Zutils.Lib

variable {β : Type}

/-- A pool and the connections that are out. -/
structure PoolLoans (β : Type) where
  pool : CdbConnPoolManager β
  lent : List β
  deriving DecidableEq, Repr

/-- A connection is acquired or released. -/
inductive LoanEvent (β : Type) where
  | acquire (opens : Bool)
  | release (c : β)
  deriving DecidableEq, Repr

namespace LoanEvent

variable [DecidableEq β]

/-- Only a connection that is out is released. -/
def Enabled : LoanEvent β → PoolLoans β → Prop
  | acquire _, _ => True
  | release c, s => c ∈ s.lent

/-- The state after an event. -/
def exec (e : LoanEvent β) (s : PoolLoans β) : Except PoolFault (PoolLoans β) :=
  match e with
  | acquire opens => do
    let (pool, conn) ← s.pool.getFreeConnection opens
    return ⟨pool, conn.toList ++ s.lent⟩
  | release c => do
    let pool ← s.pool.setFreeConnection (some c)
    return ⟨pool, s.lent.erase c⟩

end LoanEvent

/-- An event happens. -/
def LoanHappens [DecidableEq β] (s : PoolLoans β) (e : LoanEvent β) (s' : PoolLoans β) : Prop :=
  e.Enabled s ∧ e.exec s = .ok s'

/-- While fewer connections than slots are out, and an `Open` now would succeed, there is one to be had. -/
def PoolLoans.Available (s : PoolLoans β) : Prop :=
  (s.lent.length : ℤ) < s.pool.dbAddr.maxConnCount → ∃ pool c, s.pool.getFreeConnection true = .ok (pool, some c)

/-! ### Counting -/

namespace CdbConnPoolManager

variable {p : CdbConnPoolManager β} {lent : List β}

lemma Lends.map_subset (h : p.Lends lent) : lent.map some ⊆ p.connPool.map (·.conn) := by
  intro conn hconn
  obtain ⟨c, hc, rfl⟩ := List.mem_map.1 hconn
  obtain ⟨k, slot, hk, -, hs⟩ := (h.mem_iff c).1 hc
  rw [← hs]
  exact List.mem_map_of_mem (List.mem_of_getElem? hk)

/-- When every slot is busy, as many are out as there are. -/
lemma Lends.length_le (h : p.Lends lent)
    (hbusy : ∀ (i : ℕ) (slot : DatabaseConnection β), p.connPool[i]? = some slot → slot.state = .busy) :
    p.connPool.length ≤ lent.length := by
  have hsub : p.connPool.map (·.conn) ⊆ lent.map some := by
    intro conn hconn
    obtain ⟨slot, hslot, rfl⟩ := List.mem_map.1 hconn
    obtain ⟨i, hi⟩ := List.mem_iff_getElem?.1 hslot
    obtain ⟨c, hc⟩ := h.exists_conn hi
    rw [hc]
    exact List.mem_map_of_mem ((h.mem_iff c).2 ⟨i, slot, hi, hbusy i slot hi, hc⟩)
  simpa using (List.subperm_of_subset h.nodup hsub).length_le

lemma Lends.length_lt (h : p.Lends lent) {i : ℕ} {slot : DatabaseConnection β} (hi : p.connPool[i]? = some slot)
    (hstate : slot.state ≠ .busy) : lent.length < p.connPool.length := by
  have hnot : slot.conn ∉ lent.map some := by
    intro hmem
    obtain ⟨c, hc, hconn⟩ := List.mem_map.1 hmem
    obtain ⟨k, slot', hk, hbusy, hs⟩ := (h.mem_iff c).1 hc
    obtain rfl := h.index_eq hi hk (hconn.symm.trans hs.symm)
    obtain rfl := Option.some.inj (hi.symm.trans hk)
    exact hstate hbusy
  have hnodup : (slot.conn :: lent.map some).Nodup :=
    List.nodup_cons.2 ⟨hnot, h.nodup_lent.map fun _ _ => Option.some.inj⟩
  have hsub : slot.conn :: lent.map some ⊆ p.connPool.map (·.conn) := by
    apply List.cons_subset.2
    exact ⟨List.mem_map_of_mem (List.mem_of_getElem? hi), h.map_subset⟩
  have hlen := (List.subperm_of_subset hnodup hsub).length_le
  simp only [List.length_cons, List.length_map] at hlen
  exact hlen

/-! ### Slots that are lost -/

/-- The slot `i` is in front of the watermark and was never connected. -/
def Lost (p : CdbConnPoolManager β) (i : ℕ) : Prop :=
  i < p.connedPointer ∧ ∃ slot, p.connPool[i]? = some slot ∧ slot.state = .created

/-- No slot is lost. -/
def Sound (p : CdbConnPoolManager β) : Prop :=
  ∀ (i : ℕ) (slot : DatabaseConnection β), i < p.connedPointer → p.connPool[i]? = some slot →
    slot.state = .idle ∨ slot.state = .busy

variable {k i : ℕ} {slot slot' : DatabaseConnection β}

lemma Sound.setSlot (h : p.Sound) (hk : p.connPool[k]? = some slot) (hle : k ≤ p.connedPointer)
    (hstate : slot'.state = .idle ∨ slot'.state = .busy) : (p.setSlot k slot').Sound := by
  intro j s hj hs
  rcases (getElem?_setSlot hk).1 hs with ⟨-, rfl⟩ | ⟨hjk, hs⟩
  · exact hstate
  · apply h j s _ hs
    have hj' : j < max p.connedPointer (k + 1) := hj
    omega

lemma Lost.setSlot (h : p.Lost i) (hk : p.connPool[k]? = some slot) (hne : i ≠ k) : (p.setSlot k slot').Lost i := by
  obtain ⟨hi, s, hs, hstate⟩ := h
  exact ⟨Nat.lt_of_lt_of_le hi (Nat.le_max_left _ _), s, (getElem?_setSlot hk).2 (.inr ⟨hne, hs⟩), hstate⟩

/-- **A sound pool is available.** -/
lemma Lends.available (h : p.Lends lent) (hsound : p.Sound) : (⟨p, lent⟩ : PoolLoans β).Available := by
  intro hlt
  rcases getFreeConnection_spec h.toWellFormed true with ⟨-, hidle, hall⟩ | ⟨k, slot, c, -, -, -, -, heq⟩
  · exfalso
    have hbusy : ∀ (i : ℕ) (slot : DatabaseConnection β), p.connPool[i]? = some slot → slot.state = .busy := by
      intro i slot hi
      have hi' : i < p.connedPointer := by
        rw [hall rfl]
        exact (List.getElem?_eq_some_iff.1 hi).1
      exact (hsound i slot hi' hi).resolve_left (hidle i slot hi' hi)
    have hle := h.length_le hbusy
    have hlen := h.length_eq
    simp only at hlt
    omega
  · exact ⟨_, c, heq⟩

end CdbConnPoolManager

section Runs

variable [DecidableEq β] {s s' : PoolLoans β} {e : LoanEvent β}

/-- **What an event can do**: nothing, or one slot is used that was used before or is at the watermark. -/
lemma LoanEvent.cases_of_exec (h : s.pool.Lends s.lent) (he : LoanHappens s e s') :
    s'.pool.Lends s'.lent ∧ s'.pool.dbAddr = s.pool.dbAddr ∧ (s' = s ∨
      ∃ k slot slot', s.pool.connPool[k]? = some slot ∧ s'.pool = s.pool.setSlot k slot' ∧
        (slot'.state = .idle ∨ slot'.state = .busy) ∧ k ≤ s.pool.connedPointer ∧
        (slot.state ≠ .created ∨ k = s.pool.connedPointer)) := by
  obtain ⟨he, hx⟩ := he
  cases e with
  | acquire opens =>
    rcases CdbConnPoolManager.getFreeConnection_spec h.toWellFormed opens with
      ⟨heq, -, -⟩ | ⟨k, slot, c, hk, hc, hstate, hwhere, heq⟩
    · simp only [exec, heq, ok_bind] at hx
      obtain rfl := Except.ok.inj hx
      exact ⟨h, rfl, .inl rfl⟩
    · simp only [exec, heq, ok_bind] at hx
      obtain rfl := Except.ok.inj hx
      refine ⟨h.lend hk hc hstate, rfl, .inr ⟨k, slot, _, hk, rfl, .inr rfl, ?_, ?_⟩⟩
      · rcases hwhere with hidle | rfl
        · exact Nat.le_of_lt (h.lt_connedPointer hk (by simp [hidle]))
        · exact Nat.le_refl _
      · exact hwhere.imp_left fun hidle => by simp [hidle]
  | release c =>
    obtain ⟨k, slot, hk, hbusy, hconn⟩ := (h.mem_iff c).1 he
    have hlt := h.lt_connedPointer hk (by simp [hbusy])
    have heq := CdbConnPoolManager.setFreeConnection_spec h.toWellFormed hk hlt
    simp only [exec] at hx
    rw [← hconn, heq, ok_bind] at hx
    obtain rfl := Except.ok.inj hx
    exact ⟨h.takeBack hk hconn hbusy, rfl,
      .inr ⟨k, slot, _, hk, rfl, .inl rfl, Nat.le_of_lt hlt, .inl (by simp [hbusy])⟩⟩

variable {dbAddr : DBAddrInfo} {pool : CdbConnPoolManager β} {es : List (LoanEvent β)}

lemma lends_of_run (h : Run LoanHappens ⟨pool, []⟩ es s) (hpool : pool.Lends []) :
    s.pool.Lends s.lent ∧ s.pool.dbAddr = pool.dbAddr := by
  refine h.inv (P := fun _ s => s.pool.Lends s.lent ∧ s.pool.dbAddr = pool.dbAddr) ⟨hpool, rfl⟩ ?_
  rintro es s e s' ⟨hlends, hdbAddr⟩ he
  obtain ⟨hlends', hdbAddr', -⟩ := LoanEvent.cases_of_exec hlends he
  exact ⟨hlends', hdbAddr'.trans hdbAddr⟩

lemma sound_of_run (h : Run LoanHappens ⟨pool, []⟩ es s) (hpool : pool.Lends []) (hsound : pool.Sound) :
    s.pool.Sound := by
  refine (h.inv (P := fun _ s => s.pool.Lends s.lent ∧ s.pool.Sound) ⟨hpool, hsound⟩ ?_).2
  rintro es s e s' ⟨hlends, hs⟩ he
  obtain ⟨hlends', -, rfl | ⟨k, slot, slot', hk, heq, hstate, hle, -⟩⟩ := LoanEvent.cases_of_exec hlends he
  · exact ⟨hlends, hs⟩
  · refine ⟨hlends', ?_⟩
    rw [heq]
    exact hs.setSlot hk hle hstate

lemma lost_of_run (h : Run LoanHappens ⟨pool, []⟩ es s) (hpool : pool.Lends []) {i : ℕ} (hlost : pool.Lost i) :
    s.pool.Lost i := by
  refine (h.inv (P := fun _ s => s.pool.Lends s.lent ∧ s.pool.Lost i) ⟨hpool, hlost⟩ ?_).2
  rintro es s e s' ⟨hlends, hs⟩ he
  obtain ⟨hlends', -, rfl | ⟨k, slot, slot', hk, heq, -, -, hwhere⟩⟩ := LoanEvent.cases_of_exec hlends he
  · exact ⟨hlends, hs⟩
  · refine ⟨hlends', ?_⟩
    rw [heq]
    refine hs.setSlot hk ?_
    rintro rfl
    obtain ⟨hi, slot₁, hslot₁, hcreated⟩ := hs
    obtain rfl := Option.some.inj (hslot₁.symm.trans hk)
    rcases hwhere with hne | heq
    · exact hne hcreated
    · exact Nat.lt_irrefl _ (heq ▸ hi)

/-- **A pool with a lost slot runs out** before all its slots are lent. -/
lemma not_available_of_lost (hpool : pool.Lends []) {i : ℕ} (hlost : pool.Lost i) :
    ¬ ∀ es s, Run LoanHappens ⟨pool, []⟩ es s → s.Available := by
  intro hall
  have hlt : ∀ {es s}, Run LoanHappens ⟨pool, []⟩ es s → s.lent.length < s.pool.connPool.length := by
    intro es s h
    obtain ⟨-, slot, hslot, hcreated⟩ := lost_of_run h hpool hlost
    exact (lends_of_run h hpool).1.length_lt hslot (by simp [hcreated])
  -- each call lends one more, for ever
  have hmore : ∀ n, ∃ es s, Run LoanHappens ⟨pool, []⟩ es s ∧ s.lent.length = n := by
    intro n
    induction n with
    | zero => exact ⟨[], _, .nil, rfl⟩
    | succ n ih =>
      obtain ⟨es, s, h, hn⟩ := ih
      have hlen := (lends_of_run h hpool).1.length_eq
      have hroom : (s.lent.length : ℤ) < s.pool.dbAddr.maxConnCount := by
        rw [← hlen]
        exact Int.ofNat_lt.2 (hlt h)
      obtain ⟨pool', c, heq⟩ := hall es s h hroom
      refine ⟨_, ⟨pool', c :: s.lent⟩, h.snoc (a := LoanEvent.acquire true) ⟨trivial, ?_⟩, by simp [hn]⟩
      simp only [LoanEvent.exec, heq, ok_bind]
      rfl
  obtain ⟨es, s, h, hn⟩ := hmore pool.connPool.length
  have := hlt h
  have := (lends_of_run h hpool).1.length_eq
  have := hpool.length_eq
  rw [(lends_of_run h hpool).2] at *
  omega

/-- **The capacity of a pool** is never lost if and only if every `Open` of `Initialize` succeeds. -/
theorem available_iff {n : ℕ} {create : ℕ → β} {autoCommit : Bool} {opens : ℕ → Bool}
    (hle : dbAddr.minConnCount ≤ dbAddr.maxConnCount) (hcreate : Function.Injective create)
    (hinit : CdbConnPoolManager.new.initializePool dbAddr autoCommit (some (some ∘ create)) opens = .ok (pool, n)) :
    (∀ es s, Run LoanHappens ⟨pool, []⟩ es s → s.Available) ↔ ∀ i : ℕ, (i : ℤ) < dbAddr.minConnCount → opens i = true := by
  have hmax : 0 ≤ dbAddr.maxConnCount := by
    by_contra hneg
    rw [CdbConnPoolManager.initializePool, if_pos (by omega)] at hinit
    cases hinit
  rw [CdbConnPoolManager.initializePool_new hmax] at hinit
  obtain ⟨rfl, -⟩ := Prod.mk.inj (Except.ok.inj hinit)
  have hpool : (CdbConnPoolManager.filled dbAddr autoCommit create opens).Lends [] :=
    CdbConnPoolManager.lends_filled hmax hcreate
  constructor
  · intro hall i hi
    by_contra hopens
    apply not_available_of_lost (i := i) hpool ?_ hall
    have hopens' : opens i = false := Bool.eq_false_iff.2 hopens
    refine ⟨?_, _, CdbConnPoolManager.getElem?_filled.2 ⟨by omega, rfl⟩, ?_⟩
    · simp only [CdbConnPoolManager.filled]
      omega
    · simp [CdbConnPoolManager.initialSlot, hi, hopens']
  · intro hopens es s h
    apply (lends_of_run h hpool).1.available
    apply sound_of_run h hpool
    intro i slot hi hslot
    obtain ⟨-, rfl⟩ := CdbConnPoolManager.getElem?_filled.1 hslot
    have hi' : (i : ℤ) < dbAddr.minConnCount := by
      simp only [CdbConnPoolManager.filled] at hi
      omega
    left
    simp [CdbConnPoolManager.initialSlot, hi', hopens i hi']

end Runs

/-- Both connections that `Initialize` makes are there. -/
theorem available_iff_two : ∃ pool n,
    CdbConnPoolManager.new.initializePool { minConnCount := 2 } true (some (some ∘ id)) (fun i => decide (i < 2)) =
      .ok (pool, n) ∧
    ∀ es (s : PoolLoans ℕ), Run LoanHappens ⟨pool, []⟩ es s → s.Available := by
  have hmax : (0 : ℤ) ≤ ({ minConnCount := 2 } : DBAddrInfo).maxConnCount := by decide
  have hinit : CdbConnPoolManager.new.initializePool { minConnCount := 2 } true (some (some ∘ id))
      (fun i => decide (i < 2)) = .ok _ := CdbConnPoolManager.initializePool_new hmax
  refine ⟨_, _, hinit, ?_⟩
  apply (available_iff (by decide) Function.injective_id hinit).2
  intro i hi
  have hi' : (i : ℤ) < 2 := hi
  simp
  omega

/-- **One `Open` of `Initialize` fails**, and the only slot is never lent. -/
theorem failed_open_loses_slot : ∃ pool n,
    CdbConnPoolManager.new.initializePool { minConnCount := 1, maxConnCount := 1 } true (some (some ∘ id))
      (fun _ => false) = .ok (pool, n) ∧
    pool.getFreeConnection true = .ok (pool, none) ∧ ¬ (⟨pool, []⟩ : PoolLoans ℕ).Available := by
  refine ⟨⟨{ minConnCount := 1, maxConnCount := 1 }, [⟨.created, some 0, false⟩], 1, true⟩, 1, rfl, rfl, ?_⟩
  intro h
  obtain ⟨pool, c, heq⟩ := h (by decide)
  cases heq

end Zutils.Db
