import Zutils.Db.ConnPoolCapacity

/-!
# The life of a pool

`conned_pointer_` only grows: `Shutdown` clears `conn_pool_` and `Initialize` fills it, and neither makes it 0. So both
are in order only while nothing has been connected, and `GetFreeConnection` only while there are slots, since the
`max_conn_count` that it compares with is 5 before the first `Initialize` and stays what it was after a `Shutdown`
(`LifeEvent.InOrder`). In such a run the watermark stays within the slots, and each event goes well if and only if it is
in order (`in_range_iff`).
-/

namespace Zutils.Db

open Zutils.Lib

variable {β : Type}

/-- What is called. -/
inductive LifeEvent (β : Type) where
  /-- `Initialize`; `create` is null when the library could not be loaded. -/
  | setUp (dbAddr : DBAddrInfo) (autoCommit : Bool) (create : Option (ℕ → β)) (opens : ℕ → Bool)
  | shutdown
  | getFreeConnection (opens : Bool)
  | setFreeConnection (conn : Option β)

namespace LifeEvent

/-- All connections are returned before a `Shutdown`. -/
def Legal : LifeEvent β → PoolLoans β → Prop
  | shutdown, s => s.lent = []
  | setUp _ _ _ _, _ | getFreeConnection _, _ | setFreeConnection _, _ => True

/-- The pool and what is out, after an event. -/
def exec [DecidableEq β] (e : LifeEvent β) (s : PoolLoans β) : Except PoolFault (PoolLoans β) :=
  match e with
  | setUp dbAddr autoCommit create opens => do
    let (pool, _) ← s.pool.initializePool dbAddr autoCommit (create.map (some ∘ ·)) opens
    return { s with pool }
  | shutdown => .ok { s with pool := s.pool.shutdown }
  | getFreeConnection opens => do
    let (pool, conn) ← s.pool.getFreeConnection opens
    return ⟨pool, conn.toList ++ s.lent⟩
  | setFreeConnection conn => do
    let pool ← s.pool.setFreeConnection conn
    return ⟨pool, s.lent.filter (some · ≠ conn)⟩

/-- The pool is as it is when it was constructed right before the event, if that is an `Initialize`. -/
def AsNew : LifeEvent β → CdbConnPoolManager β → Prop
  | setUp dbAddr autoCommit create opens, p => ∃ n,
    CdbConnPoolManager.new.initializePool dbAddr autoCommit (create.map (some ∘ ·)) opens = .ok (p, n)
  | shutdown, _ | getFreeConnection _, _ | setFreeConnection _, _ => True

/-- The event goes well: no index is out of range, `conned_pointer_` stays within the slots, and a pool that is set up
again is like a new one. -/
def GoesWell [DecidableEq β] (e : LifeEvent β) (s : PoolLoans β) : Prop :=
  e.exec s ≠ .error .outOfRange ∧
  ∀ s', e.exec s = .ok s' → s'.pool.connedPointer ≤ s'.pool.connPool.length ∧ e.AsNew s'.pool

/-- When an event is in order: nothing has been connected when a pool is set up or shut down, and there are slots when a
connection is asked for. (A negative count makes `Initialize` throw, and without a library it keeps the slots it finds.) -/
def InOrder : LifeEvent β → PoolLoans β → Prop
  | setUp dbAddr _ create _, s =>
    dbAddr.maxConnCount < 0 ∨ s.pool.connedPointer = 0 ∧
      (create = none → resizePool s.pool.connPool dbAddr.maxConnCount.toNat = resizePool [] dbAddr.maxConnCount.toNat)
  | shutdown, s => s.pool.connedPointer = 0
  | getFreeConnection _, s => s.pool.connPool = [] → s.pool.dbAddr.maxConnCount ≤ 0
  | setFreeConnection _, _ => True

end LifeEvent

/-- An event happens. -/
def LifeHappens [DecidableEq β] (s : PoolLoans β) (e : LifeEvent β) (s' : PoolLoans β) : Prop :=
  e.Legal s ∧ e.exec s = .ok s'

/-- An event happens that is in order. -/
def LifeHappensInOrder [DecidableEq β] (s : PoolLoans β) (e : LifeEvent β) (s' : PoolLoans β) : Prop :=
  LifeHappens s e s' ∧ e.InOrder s

namespace CdbConnPoolManager

variable {p p' : CdbConnPoolManager β}

/-- **The watermark is within the slots**, of which there are `max_conn_count` or none. -/
structure InRange (p : CdbConnPoolManager β) : Prop where
  conned_le : p.connedPointer ≤ p.connPool.length
  length_eq : p.connPool = [] ∨ (p.connPool.length : ℤ) = p.dbAddr.maxConnCount

/-! ### `Initialize` -/

/-- Without a library `Initialize` only resizes the pool. -/
lemma initializePool_none {dbAddr : DBAddrInfo} (autoCommit : Bool) (opens : ℕ → Bool) (p : CdbConnPoolManager β)
    (hmax : 0 ≤ dbAddr.maxConnCount) : initializePool dbAddr autoCommit none opens p = .ok
      (⟨dbAddr, resizePool p.connPool dbAddr.maxConnCount.toNat, p.connedPointer, autoCommit⟩, p.connedPointer) := by
  have hfold : ∀ (is : List ℕ) (q : CdbConnPoolManager β), is.foldlM (initSlot none opens) q = .ok q := by
    intro is q
    induction is with
    | nil => rfl
    | cons i is ih =>
      rw [List.foldlM_cons]
      exact ih
  rw [initializePool, if_neg (by omega)]
  dsimp only
  rw [hfold]
  rfl

/-- With a library `Initialize` fills every slot, and moves the watermark on from where it is. -/
lemma initializePool_some {dbAddr : DBAddrInfo} (autoCommit : Bool) (create : ℕ → β) (opens : ℕ → Bool)
    (p : CdbConnPoolManager β) (hmax : 0 ≤ dbAddr.maxConnCount) :
    initializePool dbAddr autoCommit (some (some ∘ create)) opens p =
      .ok ({ filled dbAddr autoCommit create opens with
        connedPointer := p.connedPointer + min dbAddr.maxConnCount.toNat dbAddr.minConnCount.toNat },
        p.connedPointer + min dbAddr.maxConnCount.toNat dbAddr.minConnCount.toNat) := by
  have hne : ∀ i < dbAddr.maxConnCount.toNat, (i : ℤ) < dbAddr.minConnCount → (some ∘ create) i ≠ none :=
    fun i _ _ => Option.some_ne_none (create i)
  exact initializePool_eq autoCommit opens p hmax hne

lemma initializePool_neg {dbAddr : DBAddrInfo} (autoCommit : Bool) (create : Option (ℕ → Option β)) (opens : ℕ → Bool)
    (p : CdbConnPoolManager β) (hmax : dbAddr.maxConnCount < 0) :
    initializePool dbAddr autoCommit create opens p = .error .lengthError := if_pos hmax

lemma length_of_initializePool {dbAddr : DBAddrInfo} {autoCommit : Bool} {create : Option (ℕ → β)} {opens : ℕ → Bool}
    {n : ℕ} (heq : initializePool dbAddr autoCommit (create.map (some ∘ ·)) opens p = .ok (p', n)) :
    (p'.connPool.length : ℤ) = p'.dbAddr.maxConnCount := by
  by_cases hmax : dbAddr.maxConnCount < 0
  · rw [initializePool_neg _ _ _ _ hmax] at heq
    cases heq
  · have hmax' := Int.not_lt.1 hmax
    cases create with
    | none =>
      rw [Option.map_none, initializePool_none _ _ _ hmax'] at heq
      obtain ⟨rfl, -⟩ := Prod.mk.inj (Except.ok.inj heq)
      simp only [resizePool_length]
      exact Int.toNat_of_nonneg hmax'
    | some create =>
      rw [Option.map_some, initializePool_some _ _ _ _ hmax'] at heq
      obtain ⟨rfl, -⟩ := Prod.mk.inj (Except.ok.inj heq)
      simp only [filled, List.length_map, List.length_range]
      exact Int.toNat_of_nonneg hmax'

/-! ### `GetFreeConnection` -/

lemma InRange.takeIdle (h : p.InRange) : ∃ q conn, p.takeIdle = .ok (q, conn) ∧ q.InRange ∧
    q.dbAddr = p.dbAddr ∧ (q.connPool = [] → p.connPool = []) := by
  obtain ⟨i, hi⟩ := exists_firstBelow (·.state = .idle) h.conned_le
  unfold CdbConnPoolManager.takeIdle
  rw [hi, ok_bind]
  cases i with
  | none => exact ⟨p, none, rfl, h, rfl, id⟩
  | some i =>
    refine ⟨_, _, rfl, ⟨?_, ?_⟩, rfl, ?_⟩
    · simpa using h.conned_le
    · simpa using h.length_eq
    · simp

lemma InRange.connectNext (h : p.InRange) (opens : Bool) (hlt : (p.connedPointer : ℤ) < p.dbAddr.maxConnCount)
    (hslots : p.connPool ≠ []) : p.connectNext opens ≠ .error .outOfRange ∧
      ∀ q conn, p.connectNext opens = .ok (q, conn) → q.InRange := by
  have hlen := h.length_eq.resolve_left hslots
  have hlt' : p.connedPointer < p.connPool.length := by omega
  obtain ⟨slot, hslot⟩ : ∃ slot, p.connPool[p.connedPointer]? = some slot := ⟨_, List.getElem?_eq_getElem hlt'⟩
  unfold CdbConnPoolManager.connectNext
  rw [hslot]
  dsimp only
  by_cases hstate : slot.state = .created
  · rw [if_neg (not_not_intro hstate)]
    cases slot.conn with
    | none => simp
    | some c =>
      cases opens with
      | false =>
        refine ⟨by simp, ?_⟩
        rintro q conn ⟨⟩
        exact h
      | true =>
        refine ⟨by simp, ?_⟩
        rintro q conn ⟨⟩
        refine ⟨?_, .inr ?_⟩
        · simpa using Nat.succ_le_of_lt hlt'
        · simpa using hlen
  · rw [if_pos hstate]
    refine ⟨by simp, ?_⟩
    rintro q conn ⟨⟩
    exact h

lemma InRange.getFreeConnection (h : p.InRange) (opens : Bool) (hslots : p.connPool = [] → p.dbAddr.maxConnCount ≤ 0) :
    p.getFreeConnection opens ≠ .error .outOfRange ∧
      ∀ q conn, p.getFreeConnection opens = .ok (q, conn) → q.InRange := by
  obtain ⟨q, conn, heq, hq, hdbAddr, hnil⟩ := h.takeIdle
  unfold CdbConnPoolManager.getFreeConnection
  simp only [heq, ok_bind]
  by_cases hlt : conn = none ∧ (q.connedPointer : ℤ) < q.dbAddr.maxConnCount
  · rw [if_pos hlt]
    apply hq.connectNext opens hlt.2
    intro hnil'
    have hle := hslots (hnil hnil')
    rw [← hdbAddr] at hle
    have := hlt.2
    omega
  · rw [if_neg hlt]
    refine ⟨by simp, ?_⟩
    rintro _ _ ⟨⟩
    exact hq

end CdbConnPoolManager

section Events

variable [DecidableEq β] {s s' : PoolLoans β}

/-- An `Initialize` with a negative `max_conn_count` throws, and leaves no state that could be out of range. -/
lemma LifeEvent.setUp_neg {dbAddr : DBAddrInfo} (autoCommit : Bool) (create : Option (ℕ → β)) (opens : ℕ → Bool)
    (hmax : dbAddr.maxConnCount < 0) : (setUp dbAddr autoCommit create opens).GoesWell s := by
  have hx : (setUp dbAddr autoCommit create opens).exec s = .error .lengthError := by
    simp only [exec, CdbConnPoolManager.initializePool_neg _ _ _ _ hmax, error_bind]
  rw [GoesWell, hx]
  refine ⟨by simp, ?_⟩
  rintro s' ⟨⟩

/-- An `Initialize` without the library keeps the watermark and the slots. -/
lemma LifeEvent.setUp_none_iff {dbAddr : DBAddrInfo} (autoCommit : Bool) (opens : ℕ → Bool)
    (hmax : 0 ≤ dbAddr.maxConnCount) : (setUp dbAddr autoCommit (none : Option (ℕ → β)) opens).GoesWell s ↔
      s.pool.connedPointer = 0 ∧ resizePool s.pool.connPool dbAddr.maxConnCount.toNat =
        resizePool [] dbAddr.maxConnCount.toNat := by
  have hx : (setUp dbAddr autoCommit none opens).exec s = .ok { s with
      pool := ⟨dbAddr, resizePool s.pool.connPool dbAddr.maxConnCount.toNat, s.pool.connedPointer, autoCommit⟩ } := by
    simp only [exec, Option.map_none, CdbConnPoolManager.initializePool_none _ _ _ hmax, ok_bind]
    rfl
  rw [GoesWell, hx]
  simp only [AsNew, Option.map_none, CdbConnPoolManager.initializePool_none _ _ _ hmax]
  constructor
  · rintro ⟨-, hwell⟩
    obtain ⟨-, n, heq⟩ := hwell _ rfl
    obtain ⟨hpool, -⟩ := Prod.mk.inj (Except.ok.inj heq)
    obtain ⟨-, hslots, hconned, -⟩ := CdbConnPoolManager.mk.inj hpool
    exact ⟨hconned.symm, hslots.symm⟩
  · rintro ⟨hconned, hslots⟩
    refine ⟨by simp, ?_⟩
    rintro s' ⟨⟩
    rw [hconned, hslots]
    exact ⟨Nat.zero_le _, 0, rfl⟩

lemma LifeEvent.setUp_some_iff {dbAddr : DBAddrInfo} (autoCommit : Bool) (create : ℕ → β) (opens : ℕ → Bool)
    (hmax : 0 ≤ dbAddr.maxConnCount) :
    (setUp dbAddr autoCommit (some create) opens).GoesWell s ↔ s.pool.connedPointer = 0 := by
  have hx : (setUp dbAddr autoCommit (some create) opens).exec s = .ok { s with
      pool := { CdbConnPoolManager.filled dbAddr autoCommit create opens with
        connedPointer := s.pool.connedPointer + min dbAddr.maxConnCount.toNat dbAddr.minConnCount.toNat } } := by
    simp only [exec, Option.map_some, CdbConnPoolManager.initializePool_some _ _ _ _ hmax, ok_bind]
    rfl
  rw [GoesWell, hx]
  simp only [AsNew, Option.map_some, CdbConnPoolManager.initializePool_some _ _ _ _ hmax]
  constructor
  · rintro ⟨-, hwell⟩
    obtain ⟨-, n, heq⟩ := hwell _ rfl
    obtain ⟨hpool, -⟩ := Prod.mk.inj (Except.ok.inj heq)
    obtain ⟨-, -, hconned, -⟩ := CdbConnPoolManager.mk.inj hpool
    have hnew : (CdbConnPoolManager.new : CdbConnPoolManager β).connedPointer = 0 := rfl
    omega
  · intro hconned
    refine ⟨by simp, ?_⟩
    rintro s' ⟨⟩
    rw [hconned]
    refine ⟨?_, _, rfl⟩
    simp only [CdbConnPoolManager.filled, List.length_map, List.length_range, Nat.zero_add]
    exact Nat.min_le_left _ _

/-- **A pool that is set up** is in range and like a new one if and only if nothing had been connected. -/
lemma LifeEvent.setUp_iff {dbAddr : DBAddrInfo} {autoCommit : Bool} {create : Option (ℕ → β)} {opens : ℕ → Bool} :
    (setUp dbAddr autoCommit create opens).GoesWell s ↔ (setUp dbAddr autoCommit create opens).InOrder s := by
  by_cases hmax : dbAddr.maxConnCount < 0
  · exact iff_of_true (setUp_neg autoCommit create opens hmax) (.inl hmax)
  · have hmax' := Int.not_lt.1 hmax
    rw [InOrder, or_iff_right hmax]
    cases create with
    | none =>
      rw [setUp_none_iff autoCommit opens hmax']
      exact and_congr_right fun _ => ⟨fun hslots _ => hslots, fun hslots => hslots rfl⟩
    | some create =>
      rw [setUp_some_iff autoCommit create opens hmax']
      exact (and_iff_left (by rintro ⟨⟩)).symm

/-- **A pool that is shut down** is in range if and only if nothing had been connected. -/
lemma LifeEvent.shutdown_iff : (shutdown : LifeEvent β).GoesWell s ↔ (shutdown : LifeEvent β).InOrder s := by
  have hx : (shutdown : LifeEvent β).exec s = .ok { s with pool := s.pool.shutdown } := rfl
  rw [GoesWell, hx]
  constructor
  · rintro ⟨-, hwell⟩
    exact Nat.le_zero.1 (hwell _ rfl).1
  · intro hconned
    refine ⟨by simp, ?_⟩
    rintro s' ⟨⟩
    exact ⟨Nat.le_of_eq hconned, trivial⟩

lemma LifeEvent.setFreeConnection_inRange (h : s.pool.InRange) (conn : Option β) : ∃ s',
    (setFreeConnection conn).exec s = .ok s' ∧ s'.pool.InRange := by
  obtain ⟨i, hi⟩ := exists_firstBelow (·.conn = conn) h.conned_le
  cases i with
  | none =>
    refine ⟨⟨s.pool, s.lent.filter (some · ≠ conn)⟩, ?_, h⟩
    simp only [exec, CdbConnPoolManager.setFreeConnection, hi, ok_bind]
    rfl
  | some i =>
    refine ⟨⟨{ s.pool with connPool := s.pool.connPool.modify i ({ · with state := .idle }) },
      s.lent.filter (some · ≠ conn)⟩, ?_, ?_, ?_⟩
    · simp only [exec, CdbConnPoolManager.setFreeConnection, hi, ok_bind]
      rfl
    · simpa using h.conned_le
    · refine h.length_eq.imp ?_ ?_
      · intro hnil
        simp [hnil]
      · intro hlen
        simpa using hlen

/-- **A connection can be asked for** if and only if there are slots, or there should be none. -/
lemma LifeEvent.getFreeConnection_iff {opens : Bool} (h : s.pool.InRange) :
    (getFreeConnection opens).GoesWell s ↔ (getFreeConnection opens).InOrder s := by
  constructor
  · rintro ⟨hrange, -⟩ hnil
    by_contra hmax
    apply hrange
    have hconned : s.pool.connedPointer = 0 := Nat.le_zero.1 (by simpa [hnil] using h.conned_le)
    have hpos : 0 < s.pool.dbAddr.maxConnCount := by omega
    simp [exec, CdbConnPoolManager.getFreeConnection, CdbConnPoolManager.takeIdle, CdbConnPoolManager.connectNext,
      hconned, hnil, firstBelow, hpos]
  · intro hslots
    obtain ⟨hrange, hall⟩ := h.getFreeConnection opens hslots
    cases hget : s.pool.getFreeConnection opens with
    | error e =>
      rw [hget] at hrange
      have hx : (getFreeConnection opens).exec s = .error e := by simp only [exec, hget, error_bind]
      rw [GoesWell, hx]
      refine ⟨by simpa using hrange, ?_⟩
      rintro s' ⟨⟩
    | ok r =>
      have hx : (getFreeConnection opens).exec s = .ok ⟨r.1, r.2.toList ++ s.lent⟩ := by
        simp only [exec, hget, ok_bind]
        rfl
      rw [GoesWell, hx]
      refine ⟨by simp, ?_⟩
      rintro s' ⟨⟩
      exact ⟨(hall _ _ hget).conned_le, trivial⟩

/-- **An event goes well** if and only if it is in order. -/
lemma LifeEvent.goesWell_iff {e : LifeEvent β} (h : s.pool.InRange) : e.GoesWell s ↔ e.InOrder s := by
  cases e with
  | setUp dbAddr autoCommit create opens => exact setUp_iff
  | shutdown => exact shutdown_iff
  | getFreeConnection opens => exact getFreeConnection_iff h
  | setFreeConnection conn =>
    refine iff_of_true ?_ trivial
    obtain ⟨s', hx, hs'⟩ := setFreeConnection_inRange h conn
    rw [GoesWell, hx]
    refine ⟨by simp, ?_⟩
    rintro _ ⟨⟩
    exact ⟨hs'.conned_le, trivial⟩

lemma LifeEvent.inRange {e : LifeEvent β} (h : s.pool.InRange) (he : LifeHappensInOrder s e s') : s'.pool.InRange := by
  obtain ⟨⟨-, hx⟩, horder⟩ := he
  obtain ⟨-, hwell⟩ := (goesWell_iff h).2 horder
  obtain ⟨hconned, hnew⟩ := hwell s' hx
  refine ⟨hconned, ?_⟩
  cases e with
  | setUp dbAddr autoCommit create opens =>
    right
    obtain ⟨n, heq⟩ := hnew
    exact CdbConnPoolManager.length_of_initializePool heq
  | shutdown =>
    obtain rfl := Except.ok.inj hx
    exact .inl rfl
  | getFreeConnection opens =>
    obtain ⟨⟨pool, conn⟩, hget, hs'⟩ := bind_eq_ok.1 hx
    obtain rfl := Except.ok.inj hs'
    exact ((h.getFreeConnection opens horder).2 _ _ hget).length_eq
  | setFreeConnection conn =>
    obtain ⟨s₁, hx₁, hs₁⟩ := setFreeConnection_inRange h conn
    obtain rfl := Except.ok.inj (hx.symm.trans hx₁)
    exact hs₁.length_eq

/-- **The indexes of a pool** stay in range in every run whose events are in order, and the next event goes well if and
only if it is in order. -/
theorem in_range_iff {es : List (LifeEvent β)} (h : Run LifeHappensInOrder ⟨.new, []⟩ es s) :
    s.pool.connedPointer ≤ s.pool.connPool.length ∧ ∀ e : LifeEvent β, e.GoesWell s ↔ e.InOrder s := by
  have hinv : s.pool.InRange := by
    refine h.inv (P := fun _ s => s.pool.InRange) ⟨Nat.le_refl _, .inl rfl⟩ ?_
    intro es s e s' hs he
    exact LifeEvent.inRange hs he
  exact ⟨hinv.conned_le, fun e => LifeEvent.goesWell_iff hinv⟩

end Events

/-- A pool is set up, shut down before it is used, set up again and used. -/
theorem in_range_iff_run : ∃ s : PoolLoans ℕ,
    Run LifeHappensInOrder ⟨.new, []⟩ [.setUp { minConnCount := 0 } true (some id) (fun _ => true), .shutdown,
      .setUp { minConnCount := 0, maxConnCount := 1 } true (some id) (fun _ => true), .getFreeConnection true] s ∧
    s.lent = [0] ∧ s.pool.connedPointer ≤ s.pool.connPool.length ∧
    ∀ e : LifeEvent ℕ, e.GoesWell s ↔ e.InOrder s := by
  have h₁ : Run LifeHappensInOrder (⟨.new, []⟩ : PoolLoans ℕ)
      [.setUp { minConnCount := 0 } true (some id) (fun _ => true)] _ :=
    Run.nil.snoc ⟨⟨trivial, rfl⟩, .inr ⟨rfl, by rintro ⟨⟩⟩⟩
  have h₂ : Run LifeHappensInOrder _ [.setUp { minConnCount := 0 } true (some id) (fun _ => true), .shutdown] _ :=
    h₁.snoc (a := LifeEvent.shutdown) ⟨⟨rfl, rfl⟩, rfl⟩
  have h₃ : Run LifeHappensInOrder _ [.setUp { minConnCount := 0 } true (some id) (fun _ => true), .shutdown,
      .setUp { minConnCount := 0, maxConnCount := 1 } true (some id) (fun _ => true)] _ :=
    h₂.snoc (a := LifeEvent.setUp { minConnCount := 0, maxConnCount := 1 } true (some id) (fun _ => true))
      ⟨⟨trivial, rfl⟩, .inr ⟨rfl, by rintro ⟨⟩⟩⟩
  have h : Run LifeHappensInOrder _ [.setUp { minConnCount := 0 } true (some id) (fun _ => true), .shutdown,
      .setUp { minConnCount := 0, maxConnCount := 1 } true (some id) (fun _ => true), .getFreeConnection true] _ :=
    h₃.snoc (a := LifeEvent.getFreeConnection true) ⟨⟨trivial, rfl⟩, by rintro ⟨⟩⟩
  exact ⟨_, h, rfl, in_range_iff h⟩

/-- **A pool that is shut down** keeps its watermark, and the next call reads behind the slots. -/
theorem shutdown_keeps_watermark : ∃ s : PoolLoans ℕ,
    Run LifeHappens ⟨.new, []⟩ [.setUp {} true (some id) (fun _ => true), .shutdown] s ∧
    ¬ s.pool.connedPointer ≤ s.pool.connPool.length ∧
    (LifeEvent.getFreeConnection true).exec s = .error .outOfRange := by
  have h₁ : Run LifeHappens (⟨.new, []⟩ : PoolLoans ℕ) [.setUp {} true (some id) (fun _ => true)] _ :=
    Run.nil.snoc ⟨trivial, rfl⟩
  have h : Run LifeHappens _ [.setUp {} true (some id) (fun _ => true), .shutdown] _ :=
    h₁.snoc (a := LifeEvent.shutdown) ⟨rfl, rfl⟩
  exact ⟨_, h, by decide, rfl⟩

end Zutils.Db
