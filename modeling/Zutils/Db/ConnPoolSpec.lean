import Zutils.Db.ConnPool
import Mathlib.Data.List.Nodup
import Mathlib.Data.List.Range

/-!
# What the operations of the pool do

`CdbConnPoolManager.WellFormed` holds of a pool that `Initialize` has filled, and `Lends p lent` says which connections
are out. `GetFreeConnection` lends one that is not, or finds none that is idle and cannot connect another
(`getFreeConnection_spec`); `SetFreeConnection` takes one back (`setFreeConnection_spec`).
-/

namespace Zutils.Db

variable {β : Type}

/-! ### Searching the slots -/

/-- **A search below the size** finds nothing, or the first slot that passes the test. -/
lemma firstBelow_cases (test : DatabaseConnection β → Bool) {v : List (DatabaseConnection β)} {n : ℕ}
    (hn : n ≤ v.length) :
    (firstBelow test v n = .ok none ∧ ∀ i slot, i < n → v[i]? = some slot → test slot = false) ∨
    ∃ i slot, i < n ∧ v[i]? = some slot ∧ test slot = true ∧ firstBelow test v n = .ok (some i) := by
  induction v generalizing n with
  | nil =>
    obtain rfl : n = 0 := Nat.le_zero.1 hn
    exact .inl ⟨rfl, fun i _ hi => absurd hi (Nat.not_lt_zero i)⟩
  | cons slot v ih =>
    cases n with
    | zero => exact .inl ⟨rfl, fun i _ hi => absurd hi (Nat.not_lt_zero i)⟩
    | succ n =>
      by_cases ht : test slot = true
      · exact .inr ⟨0, slot, Nat.succ_pos n, rfl, ht, by simp [firstBelow, ht]⟩
      · rcases ih (Nat.le_of_succ_le_succ hn) with ⟨heq, hall⟩ | ⟨i, slot', hi, hslot, htest, heq⟩
        · left
          refine ⟨by simp [firstBelow, ht, heq, Except.map], ?_⟩
          rintro (_ | i) slot' hi hslot
          · obtain rfl := Option.some.inj hslot
            exact Bool.eq_false_iff.2 ht
          · exact hall i slot' (Nat.lt_of_succ_lt_succ hi) hslot
        · right
          exact ⟨i + 1, slot', Nat.succ_lt_succ hi, hslot, htest, by simp [firstBelow, ht, heq, Except.map]⟩

lemma exists_firstBelow (test : DatabaseConnection β → Bool) {v : List (DatabaseConnection β)} {n : ℕ}
    (hn : n ≤ v.length) : ∃ i, firstBelow test v n = .ok i := by
  rcases firstBelow_cases test hn with ⟨heq, -⟩ | ⟨i, _, -, -, -, heq⟩
  · exact ⟨none, heq⟩
  · exact ⟨some i, heq⟩

lemma resizePool_length (v : List (DatabaseConnection β)) (n : ℕ) : (resizePool v n).length = n := by
  simp [resizePool]
  omega

namespace CdbConnPoolManager

/-! ### `Initialize` -/

/-- The slot that `Initialize` fills with an object. -/
def initialSlot (minConnCount : ℤ) (create : ℕ → Option β) (opens : ℕ → Bool) (i : ℕ) : DatabaseConnection β :=
  if (i : ℤ) < minConnCount then ⟨if opens i then .idle else .created, create i, opens i⟩
  else ⟨.created, create i, false⟩

/-- **A round of `Initialize`** fills its slot, unless it has no object to connect. -/
lemma initSlot_eq {create : ℕ → Option β} (opens : ℕ → Bool) {p : CdbConnPoolManager β} {i : ℕ}
    (hi : i < p.connPool.length) (hcreate : (i : ℤ) < p.dbAddr.minConnCount → create i ≠ none) :
    initSlot (some create) opens p i = .ok { p with
      connPool := p.connPool.set i (initialSlot p.dbAddr.minConnCount create opens i)
      connedPointer := p.connedPointer + if (i : ℤ) < p.dbAddr.minConnCount then 1 else 0 } := by
  by_cases hmin : (i : ℤ) < p.dbAddr.minConnCount
  · obtain ⟨c, hc⟩ := Option.ne_none_iff_exists'.1 (hcreate hmin)
    simp [initSlot, initialSlot, Nat.not_le.2 hi, hmin, hc]
  · simp [initSlot, initialSlot, Nat.not_le.2 hi, hmin]

/-- The rounds of `Initialize` fill the slots from the first one on, when there is an object to connect in each. -/
lemma foldlM_initSlot {create : ℕ → Option β} (opens : ℕ → Bool) {p : CdbConnPoolManager β} {m : ℕ}
    (hm : m ≤ p.connPool.length) (hcreate : ∀ i < m, (i : ℤ) < p.dbAddr.minConnCount → create i ≠ none) :
    (List.range m).foldlM (initSlot (some create) opens) p = .ok { p with
      connPool := (List.range m).map (initialSlot p.dbAddr.minConnCount create opens) ++ p.connPool.drop m
      connedPointer := p.connedPointer + min m p.dbAddr.minConnCount.toNat } := by
  induction m with
  | zero => simp; rfl
  | succ m ih =>
    have hlt : m < p.connPool.length := hm
    rw [List.range_succ, List.foldlM_append, ih (Nat.le_of_lt hlt) fun i hi => hcreate i (Nat.lt_succ_of_lt hi)]
    simp only [ok_bind, List.foldlM_cons, List.foldlM_nil]
    rw [initSlot_eq opens (by simp; omega) (by exact hcreate m (Nat.lt_succ_self m)), ok_bind]
    have hset : ((List.range m).map (initialSlot p.dbAddr.minConnCount create opens) ++ p.connPool.drop m).set m
        (initialSlot p.dbAddr.minConnCount create opens m) =
        (List.range m ++ [m]).map (initialSlot p.dbAddr.minConnCount create opens) ++ p.connPool.drop (m + 1) := by
      rw [List.set_append_right _ _ (by simp), List.length_map, List.length_range, Nat.sub_self,
        List.drop_eq_getElem_cons hlt, List.set_cons_zero, List.map_append, List.append_assoc]
      rfl
    have hcount : (min m p.dbAddr.minConnCount.toNat + if (m : ℤ) < p.dbAddr.minConnCount then 1 else 0) =
        min (m + 1) p.dbAddr.minConnCount.toNat := by
      split <;> omega
    rw [hset, Nat.add_assoc, hcount]
    rfl

/-- **`Initialize`** when there is an object to connect in every slot that it connects. -/
lemma initializePool_eq {dbAddr : DBAddrInfo} {create : ℕ → Option β} (autoCommit : Bool) (opens : ℕ → Bool)
    (p : CdbConnPoolManager β) (hmax : 0 ≤ dbAddr.maxConnCount)
    (hcreate : ∀ i < dbAddr.maxConnCount.toNat, (i : ℤ) < dbAddr.minConnCount → create i ≠ none) :
    initializePool dbAddr autoCommit (some create) opens p = .ok (⟨dbAddr,
      (List.range dbAddr.maxConnCount.toNat).map (initialSlot dbAddr.minConnCount create opens),
      p.connedPointer + min dbAddr.maxConnCount.toNat dbAddr.minConnCount.toNat, autoCommit⟩,
      p.connedPointer + min dbAddr.maxConnCount.toNat dbAddr.minConnCount.toNat) := by
  have hlen := resizePool_length p.connPool dbAddr.maxConnCount.toNat
  rw [initializePool, if_neg (by omega)]
  dsimp only
  rw [foldlM_initSlot opens (Nat.le_of_eq hlen.symm) hcreate, ok_bind]
  simp [List.drop_eq_nil_of_le, hlen, pure, Except.pure]

/-! ### A pool that is filled -/

/-- **A pool that is filled**: `max_conn_count` slots with an object of its own in each, and behind `conned_pointer_`
none that was ever connected. -/
structure WellFormed (p : CdbConnPoolManager β) : Prop where
  length_eq : (p.connPool.length : ℤ) = p.dbAddr.maxConnCount
  conned_le : p.connedPointer ≤ p.connPool.length
  nodup : (p.connPool.map (·.conn)).Nodup
  ne_none : none ∉ p.connPool.map (·.conn)
  created : ∀ (i : ℕ) (slot : DatabaseConnection β), p.connedPointer ≤ i → p.connPool[i]? = some slot → slot.state = .created
  opened : ∀ (i : ℕ) (slot : DatabaseConnection β), p.connPool[i]? = some slot → slot.state = .idle ∨ slot.state = .busy → slot.opened = true

/-- The slot `k` gets another state, and is in front of the watermark. -/
def setSlot (p : CdbConnPoolManager β) (k : ℕ) (slot : DatabaseConnection β) : CdbConnPoolManager β :=
  { p with connPool := p.connPool.set k slot, connedPointer := max p.connedPointer (k + 1) }

/-- The connections that are out. -/
structure Lends (p : CdbConnPoolManager β) (lent : List β) : Prop extends WellFormed p where
  nodup_lent : lent.Nodup
  mem_iff : ∀ c, c ∈ lent ↔ ∃ (i : ℕ) (slot : DatabaseConnection β), p.connPool[i]? = some slot ∧ slot.state = .busy ∧ slot.conn = some c

section WellFormed

variable {p : CdbConnPoolManager β} {k : ℕ} {slot : DatabaseConnection β}

lemma WellFormed.exists_conn (h : p.WellFormed) (hk : p.connPool[k]? = some slot) : ∃ c, slot.conn = some c := by
  apply Option.ne_none_iff_exists'.1
  intro hnone
  apply h.ne_none
  rw [← hnone]
  exact List.mem_map_of_mem (List.mem_of_getElem? hk)

lemma WellFormed.index_eq (h : p.WellFormed) {j : ℕ} {slot' : DatabaseConnection β} (hk : p.connPool[k]? = some slot)
    (hj : p.connPool[j]? = some slot') (hconn : slot.conn = slot'.conn) : k = j := by
  have hlt : k < (p.connPool.map (·.conn)).length := by
    rw [List.length_map]
    exact (List.getElem?_eq_some_iff.1 hk).1
  apply (List.getElem?_inj hlt h.nodup).1
  rw [List.getElem?_map, List.getElem?_map, hk, hj, Option.map_some, Option.map_some, hconn]

lemma getElem?_setSlot (hk : p.connPool[k]? = some slot) {slot' s : DatabaseConnection β} {i : ℕ} :
    (p.setSlot k slot').connPool[i]? = some s ↔ i = k ∧ s = slot' ∨ i ≠ k ∧ p.connPool[i]? = some s := by
  have hlt := (List.getElem?_eq_some_iff.1 hk).1
  by_cases hik : i = k
  · subst hik
    simp [CdbConnPoolManager.setSlot, List.getElem?_set_self hlt, eq_comm]
  · simp [CdbConnPoolManager.setSlot, List.getElem?_set_ne (Ne.symm hik), hik]

lemma WellFormed.setSlot (h : p.WellFormed) (hk : p.connPool[k]? = some slot) {slot' : DatabaseConnection β}
    (hconn : slot'.conn = slot.conn) (hopened : slot'.state = .idle ∨ slot'.state = .busy → slot'.opened = true) :
    (p.setSlot k slot').WellFormed := by
  have hlt := (List.getElem?_eq_some_iff.1 hk).1
  have hmap : (p.connPool.set k slot').map (·.conn) = p.connPool.map (·.conn) := by
    rw [List.map_set, hconn]
    apply List.ext_getElem?
    intro i
    rw [List.getElem?_set]
    split
    · rename_i hi
      subst hi
      rw [List.getElem?_map, hk]
      simp [hlt]
    · rfl
  constructor
  · simpa [CdbConnPoolManager.setSlot] using h.length_eq
  · have := h.conned_le
    simp [CdbConnPoolManager.setSlot]
    omega
  · exact hmap ▸ h.nodup
  · exact hmap ▸ h.ne_none
  · intro i s hi hs
    have hik : k + 1 ≤ i := Nat.le_trans (Nat.le_max_right _ _) hi
    rcases (getElem?_setSlot hk).1 hs with ⟨rfl, -⟩ | ⟨-, hs⟩
    · omega
    · exact h.created i s (Nat.le_trans (Nat.le_max_left _ _) hi) hs
  · intro i s hs hstate
    rcases (getElem?_setSlot hk).1 hs with ⟨-, rfl⟩ | ⟨-, hs⟩
    · exact hopened hstate
    · exact h.opened i s hs hstate

variable {lent : List β} {c : β}

lemma Lends.lend (h : p.Lends lent) (hk : p.connPool[k]? = some slot) (hc : slot.conn = some c)
    (hstate : slot.state ≠ .busy) : (p.setSlot k ⟨.busy, some c, true⟩).Lends (c :: lent) := by
  refine ⟨h.toWellFormed.setSlot hk hc.symm fun _ => rfl, ?_, ?_⟩
  · rw [List.nodup_cons]
    refine ⟨?_, h.nodup_lent⟩
    intro hmem
    obtain ⟨i, s, hs, hbusy, hconn⟩ := (h.mem_iff c).1 hmem
    obtain rfl := h.index_eq hk hs (hc.trans hconn.symm)
    obtain rfl := Option.some.inj (hk.symm.trans hs)
    exact hstate hbusy
  · intro d
    rw [List.mem_cons, h.mem_iff d]
    constructor
    · rintro (rfl | ⟨i, s, hs, hbusy, hconn⟩)
      · exact ⟨k, _, (getElem?_setSlot hk).2 (.inl ⟨rfl, rfl⟩), rfl, rfl⟩
      · refine ⟨i, s, (getElem?_setSlot hk).2 (.inr ⟨?_, hs⟩), hbusy, hconn⟩
        rintro rfl
        obtain rfl := Option.some.inj (hk.symm.trans hs)
        exact hstate hbusy
    · rintro ⟨i, s, hs, hbusy, hconn⟩
      rcases (getElem?_setSlot hk).1 hs with ⟨-, rfl⟩ | ⟨-, hs⟩
      · exact .inl (Option.some.inj hconn).symm
      · exact .inr ⟨i, s, hs, hbusy, hconn⟩

lemma Lends.takeBack [DecidableEq β] (h : p.Lends lent) (hk : p.connPool[k]? = some slot) (hc : slot.conn = some c)
    (hbusy : slot.state = .busy) : (p.setSlot k { slot with state := .idle }).Lends (lent.erase c) := by
  have hopened := h.opened k slot hk (.inr hbusy)
  refine ⟨h.toWellFormed.setSlot hk rfl fun _ => hopened, h.nodup_lent.erase c, ?_⟩
  intro d
  rw [h.nodup_lent.mem_erase_iff, h.mem_iff d]
  constructor
  · rintro ⟨hne, i, s, hs, hb, hconn⟩
    refine ⟨i, s, (getElem?_setSlot hk).2 (.inr ⟨?_, hs⟩), hb, hconn⟩
    rintro rfl
    obtain rfl := Option.some.inj (hk.symm.trans hs)
    exact hne (Option.some.inj (hconn.symm.trans hc))
  · rintro ⟨i, s, hs, hb, hconn⟩
    rcases (getElem?_setSlot hk).1 hs with ⟨-, rfl⟩ | ⟨hik, hs⟩
    · cases hb
    · refine ⟨?_, i, s, hs, hb, hconn⟩
      rintro rfl
      exact hik (h.index_eq hs hk (hconn.trans hc.symm))

/-! ### `GetFreeConnection` and `SetFreeConnection` -/

lemma modify_eq_setSlot (hk : p.connPool[k]? = some slot) (hlt : k < p.connedPointer)
    {f : DatabaseConnection β → DatabaseConnection β} :
    ({ p with connPool := p.connPool.modify k f } : CdbConnPoolManager β) = p.setSlot k (f slot) := by
  rw [CdbConnPoolManager.setSlot, List.modify_eq_set_getElem?, hk, Nat.max_eq_left hlt]
  rfl

/-- **`GetFreeConnection`** lends a connection that is not out, or does nothing: then none that was connected is idle,
and if the database can be reached, all slots are in front of the watermark. -/
lemma getFreeConnection_spec (h : p.WellFormed) (opens : Bool) :
    (p.getFreeConnection opens = .ok (p, none) ∧
      (∀ i s, i < p.connedPointer → p.connPool[i]? = some s → s.state ≠ .idle) ∧
      (opens = true → p.connedPointer = p.connPool.length)) ∨
    ∃ k slot c, p.connPool[k]? = some slot ∧ slot.conn = some c ∧ slot.state ≠ .busy ∧
      (slot.state = .idle ∨ k = p.connedPointer) ∧
      p.getFreeConnection opens = .ok (p.setSlot k ⟨.busy, some c, true⟩, some c) := by
  unfold getFreeConnection takeIdle
  rcases firstBelow_cases (·.state = .idle) h.conned_le with ⟨heq, hnone⟩ | ⟨k, slot, hk, hslot, htest, heq⟩
  · rw [heq, ok_bind]
    have hidle : ∀ i s, i < p.connedPointer → p.connPool[i]? = some s → s.state ≠ .idle := by
      intro i s hi hs hstate
      simpa [hstate] using hnone i s hi hs
    by_cases hlt : (p.connedPointer : ℤ) < p.dbAddr.maxConnCount
    · have hlen : p.connedPointer < p.connPool.length := by
        rw [← h.length_eq] at hlt
        exact Int.ofNat_lt.1 hlt
      obtain ⟨slot, hslot⟩ : ∃ slot, p.connPool[p.connedPointer]? = some slot := ⟨_, List.getElem?_eq_getElem hlen⟩
      have hcreated := h.created _ slot (Nat.le_refl _) hslot
      obtain ⟨c, hc⟩ := h.exists_conn hslot
      cases opens with
      | false => exact .inl ⟨by simp [connectNext, hlt, hslot, hcreated, hc], hidle, fun hopens => Bool.noConfusion hopens⟩
      | true =>
        right
        refine ⟨p.connedPointer, slot, c, hslot, hc, by simp [hcreated], .inr rfl, ?_⟩
        simp [connectNext, hlt, hslot, hcreated, hc, CdbConnPoolManager.setSlot]
    · left
      refine ⟨by simp [hlt], hidle, fun _ => ?_⟩
      have := h.length_eq
      have := h.conned_le
      omega
  · rw [heq, ok_bind]
    have hidle : slot.state = .idle := by simpa using htest
    obtain ⟨c, hc⟩ := h.exists_conn hslot
    have hopened := h.opened k slot hslot (.inl hidle)
    right
    refine ⟨k, slot, c, hslot, hc, by simp [hidle], .inl hidle, ?_⟩
    simp only [ok_bind]
    rw [if_neg (by simp [hslot, hc]), modify_eq_setSlot hslot hk, hslot]
    simp [hc, hopened]

/-- **`SetFreeConnection`** makes the slot idle that is connected with its argument. -/
lemma setFreeConnection_spec [DecidableEq β] (h : p.WellFormed) (hk : p.connPool[k]? = some slot)
    (hlt : k < p.connedPointer) :
    p.setFreeConnection slot.conn = .ok (p.setSlot k { slot with state := .idle }) := by
  unfold setFreeConnection
  rcases firstBelow_cases (·.conn = slot.conn) h.conned_le with ⟨-, hnone⟩ | ⟨j, s, hj, hs, htest, heq⟩
  · simpa using hnone k slot hlt hk
  · obtain rfl : j = k := h.index_eq hs hk (by simpa using htest)
    obtain rfl := Option.some.inj (hs.symm.trans hk)
    rw [heq, ok_bind]
    dsimp only
    rw [modify_eq_setSlot hs hj]

/-- A connection that is out is in front of the watermark. -/
lemma WellFormed.lt_connedPointer (h : p.WellFormed) (hk : p.connPool[k]? = some slot) (hstate : slot.state ≠ .created) :
    k < p.connedPointer := by
  by_contra hge
  exact hstate (h.created k slot (Nat.not_lt.1 hge) hk)

/-- **`GetFreeConnection` lends** at most one connection, which is not out. -/
lemma Lends.getFreeConnection (h : p.Lends lent) (opens : Bool) : ∃ p' conn,
    p.getFreeConnection opens = .ok (p', conn) ∧ p'.Lends (conn.toList ++ lent) ∧ p'.dbAddr = p.dbAddr := by
  rcases getFreeConnection_spec h.toWellFormed opens with ⟨heq, -, -⟩ | ⟨k, slot, c, hk, hc, hstate, -, heq⟩
  · exact ⟨p, none, heq, h, rfl⟩
  · exact ⟨_, some c, heq, h.lend hk hc hstate, rfl⟩

/-- **`SetFreeConnection` takes back** a connection that is out. -/
lemma Lends.setFreeConnection [DecidableEq β] (h : p.Lends lent) (hc : c ∈ lent) : ∃ p',
    p.setFreeConnection (some c) = .ok p' ∧ p'.Lends (lent.erase c) ∧ p'.dbAddr = p.dbAddr := by
  obtain ⟨k, slot, hk, hbusy, hconn⟩ := (h.mem_iff c).1 hc
  have hlt := h.lt_connedPointer hk (by simp [hbusy])
  refine ⟨_, ?_, h.takeBack hk hconn hbusy, rfl⟩
  rw [← hconn]
  exact setFreeConnection_spec h.toWellFormed hk hlt

end WellFormed

/-! ### The pool that `Initialize` leaves -/

section Filled

variable {dbAddr : DBAddrInfo} {create : ℕ → β} {opens : ℕ → Bool} {autoCommit : Bool} {i : ℕ}

/-- The pool after `Initialize`, when every call of `create` returns an object. -/
def filled (dbAddr : DBAddrInfo) (autoCommit : Bool) (create : ℕ → β) (opens : ℕ → Bool) : CdbConnPoolManager β where
  dbAddr := dbAddr
  connPool := (List.range dbAddr.maxConnCount.toNat).map (initialSlot dbAddr.minConnCount (some ∘ create) opens)
  connedPointer := min dbAddr.maxConnCount.toNat dbAddr.minConnCount.toNat
  autoCommit := autoCommit

lemma initializePool_new (hmax : 0 ≤ dbAddr.maxConnCount) :
    initializePool dbAddr autoCommit (some (some ∘ create)) opens new =
      .ok (filled dbAddr autoCommit create opens, min dbAddr.maxConnCount.toNat dbAddr.minConnCount.toNat) := by
  have hne : ∀ i < dbAddr.maxConnCount.toNat, (i : ℤ) < dbAddr.minConnCount → (some ∘ create) i ≠ none :=
    fun i _ _ => Option.some_ne_none (create i)
  rw [initializePool_eq autoCommit opens new hmax hne]
  simp [filled, new]

lemma getElem?_filled {slot : DatabaseConnection β} :
    (filled dbAddr autoCommit create opens).connPool[i]? = some slot ↔
      i < dbAddr.maxConnCount.toNat ∧ slot = initialSlot dbAddr.minConnCount (some ∘ create) opens i := by
  rw [filled, List.getElem?_map, Option.map_eq_some_iff]
  constructor
  · rintro ⟨j, hj, rfl⟩
    obtain ⟨hlt, rfl⟩ := List.getElem?_eq_some_iff.1 hj
    simp only [List.length_range] at hlt
    simp [hlt]
  · rintro ⟨hlt, rfl⟩
    exact ⟨i, List.getElem?_range hlt, rfl⟩

lemma initialSlot_conn : (initialSlot dbAddr.minConnCount (some ∘ create) opens i).conn = some (create i) := by
  unfold initialSlot
  split <;> rfl

/-- **`Initialize` fills the pool**, and no connection is out. -/
lemma lends_filled (hmax : 0 ≤ dbAddr.maxConnCount) (hcreate : Function.Injective create) :
    (filled dbAddr autoCommit create opens).Lends [] := by
  have hconns : (filled dbAddr autoCommit create opens).connPool.map (·.conn) =
      (List.range dbAddr.maxConnCount.toNat).map (some ∘ create) := by
    rw [filled, List.map_map]
    apply List.map_congr_left
    intro i _
    exact initialSlot_conn
  refine ⟨⟨?_, ?_, ?_, ?_, ?_, ?_⟩, List.nodup_nil, ?_⟩
  · simp only [filled, List.length_map, List.length_range]
    exact Int.toNat_of_nonneg hmax
  · simp only [filled, List.length_map, List.length_range]
    exact Nat.min_le_left _ _
  · rw [hconns]
    exact List.nodup_range.map (fun i j hij => hcreate (Option.some.inj hij))
  · rw [hconns]
    simp
  · intro i slot hi hslot
    obtain ⟨hlt, rfl⟩ := getElem?_filled.1 hslot
    have hmin : ¬ (i : ℤ) < dbAddr.minConnCount := by
      have : min dbAddr.maxConnCount.toNat dbAddr.minConnCount.toNat ≤ i := hi
      omega
    simp [initialSlot, hmin]
  · intro i slot hslot hstate
    obtain ⟨-, rfl⟩ := getElem?_filled.1 hslot
    unfold initialSlot at hstate ⊢
    split at hstate
    · cases ho : opens i <;> simp_all
    · simp at hstate
  · intro c
    refine iff_of_false List.not_mem_nil ?_
    rintro ⟨i, slot, hslot, hbusy, -⟩
    obtain ⟨-, rfl⟩ := getElem?_filled.1 hslot
    unfold initialSlot at hbusy
    split at hbusy
    · cases ho : opens i <;> simp [ho] at hbusy
    · cases hbusy

end Filled

end CdbConnPoolManager

end Zutils.Db
