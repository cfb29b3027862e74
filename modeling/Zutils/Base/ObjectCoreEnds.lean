import Zutils.Base.ObjectCoreSpec

/-!
# Why `IsKindOf` comes to an end

Classes are constructed in any order, so that an additional base, or the primary one, may not have been constructed yet, and
a list may name a class more than once. A constructor writes to classes that stand in other lists too. But it links the
additional bases to an end, and all other links stay, so that those still lead to an end, on their own way or through the
additional bases. `IsKindOf` then ends if the primary bases make no circle (`isKindOf_ends`).
-/

namespace Zutils

open Lib Relation

namespace Class

variable {α : Type*} [DecidableEq α] {m : Memory α} {d : Construction α} {ds : List (Construction α)} {c b : α}

/-- A construction with up to eight additional bases, among which the new class is not. -/
def LinkStep (m : Memory α) (d : Construction α) (m' : Memory α) : Prop :=
  d.this ∉ d.extras ∧ d.extras.length ≤ 8 ∧ m' = m.construct d

/-- **The links of additional bases end** after any constructions. -/
lemma baseNext_ends_of_run (hrun : Run LinkStep Memory.zero ds m) (c : α) : Ends (fun c => (m c).baseNext) c := by
  refine hrun.inv (P := fun _ m => ∀ c, Ends (fun c => (m c).baseNext) c) (fun c => .last rfl) ?_ c
  rintro - m d m' hends ⟨hself, hlen, rfl⟩
  exact construct_baseNext_ends hself (fun hlt => absurd hlen (not_le.2 hlt)) hends

lemma primary_of_run (hrun : Run LinkStep Memory.zero ds m) (h : (m c).base = some b) : Primary ds c b := by
  refine hrun.inv (P := fun ds m => ∀ c b, (m c).base = some b → Primary ds c b) (fun c b h => by cases h) ?_ c b h
  rintro ds m d m' hprimary ⟨-, -, rfl⟩ c b hb
  rw [construct_base] at hb
  rw [primary_snoc]
  split at hb
  · rename_i hc
    exact .inr ⟨hc, hb⟩
  · exact .inl (hprimary c b hb)

lemma base_ends_of_run (hrun : Run LinkStep Memory.zero ds m) (hacyclic : ∀ c, ¬ TransGen (Primary ds) c c) (c : α) :
    Ends (fun c => (m c).base) c := by
  have hprimary : ∀ c b, (m c).base = some b → Primary ds c b := fun c b h => primary_of_run hrun h
  refine ends_of_acyclic (l := ds.map Construction.this) ?_ ?_ c
  · intro c b hb
    obtain ⟨d, hd, rfl, -⟩ := hprimary c b hb
    exact List.mem_map_of_mem hd
  · intro c hc
    exact hacyclic c (TransGen.mono hprimary _ _ hc)

/-- **`IsKindOf` comes to an end** after each of any constructions, if the primary bases make no circle: the links of
additional bases end, and with enough fuel there is an answer. -/
theorem isKindOf_ends (hrun : Run LinkStep Memory.zero ds m) (hacyclic : ∀ c, ¬ TransGen (Primary ds) c c) :
    ∀ p q t, ds = p ++ q → Run LinkStep Memory.zero p t →
      (∀ c, Ends (fun c => (t c).baseNext) c) ∧ ∀ c x, ∃ r, Settles (fun n => t.isKindOf n c x) r := by
  rintro p q t rfl ht
  have hp : ∀ c, ¬ TransGen (Primary p) c c := by
    intro c hc
    refine hacyclic c (TransGen.mono ?_ _ _ hc)
    rintro c b ⟨d, hd, hthis, hbase⟩
    exact ⟨d, List.mem_append_left q hd, hthis, hbase⟩
  have hends := baseNext_ends_of_run ht
  refine ⟨hends, fun c x => ?_⟩
  obtain ⟨r, hr, -⟩ := isKindOf_spec (base_ends_of_run ht hp) (hends c) x
  exact ⟨r, hr⟩

lemma LinkStep.run (h : Run LinkStep Memory.zero ds m) (d : Construction α) (hself : d.this ∉ d.extras)
    (hlen : d.extras.length ≤ 8) : Run LinkStep Memory.zero (ds ++ [d]) (m.construct d) :=
  h.snoc ⟨hself, hlen, rfl⟩

/-- A list names a class twice, and two that are constructed behind it, one of which has the class with the list as an
additional base. -/
def sharedLists : List (Construction ℕ) := [.object 0, .derived 1 0 [2, 3, 2], .derived 2 0 [3], .derived 3 2 [1]]

theorem isKindOf_ends_shared : ∃ m : Memory ℕ, Run LinkStep Memory.zero sharedLists m ∧
    ∀ p q t, sharedLists = p ++ q → Run LinkStep Memory.zero p t →
      (∀ c, Ends (fun c => (t c).baseNext) c) ∧ ∀ c x, ∃ r, Settles (fun n => t.isKindOf n c x) r := by
  have hrun := LinkStep.run (LinkStep.run .nil (.object 0) (by decide) (by decide)) (.derived 1 0 [2, 3, 2])
    (by decide) (by decide)
  have hrun := LinkStep.run (LinkStep.run hrun (.derived 2 0 [3]) (by decide) (by decide)) (.derived 3 2 [1])
    (by decide) (by decide)
  -- The primary bases have smaller addresses.
  have hless : ∀ c b, Primary sharedLists c b → b < c := by
    rintro c b ⟨d, hd, rfl, hb⟩
    simp only [sharedLists, List.mem_cons, List.not_mem_nil, or_false] at hd
    rcases hd with rfl | rfl | rfl | rfl <;> cases hb <;> decide
  have hdown : ∀ c b, TransGen (Primary sharedLists) c b → b < c := by
    intro c b h
    induction h with
    | single h => exact hless _ _ h
    | tail _ h ih => exact (hless _ _ h).trans ih
  exact ⟨_, hrun, isKindOf_ends hrun fun c hc => Nat.lt_irrefl c (hdown c c hc)⟩

end Class

end Zutils
