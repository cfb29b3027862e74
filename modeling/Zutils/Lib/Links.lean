import Mathlib.Data.List.Basic
import Mathlib.Logic.Relation
import Mathlib.Order.WellFoundedSet

/-!
# Links

Nodes of which each names at most one next node. A search that goes from node to node comes to an end where `Ends` holds,
and what it finds is the only solution of the equation for one step (`found_unique`). When the nodes of a list are
linked in the order of the list, a node that is listed several times gets the link of its last place (`follower`), and
no circle arises (`ends_of_follower`).

The last section adds to a relation the edges out of a new node.
-/

namespace Zutils.Lib

variable {α : Type*}

/-- From the node the links lead to one that names no other. -/
inductive Ends (next : α → Option α) : α → Prop
  | last {c : α} : next c = none → Ends next c
  | link {c d : α} : next c = some d → Ends next d → Ends next c

/-- The links lead from one node to the other. -/
def Along (next : α → Option α) : α → α → Prop := Relation.ReflTransGen fun c d => next c = some d

/-- The links lead from the node to one with `T`. -/
def Found (next : α → Option α) (T : α → Prop) (c : α) : Prop := ∃ d, Along next c d ∧ T d

/-- With enough fuel the result is `b`. -/
def Settles {β : Type*} (f : ℕ → Option β) (b : β) : Prop := ∃ n, ∀ k, n ≤ k → f k = some b

lemma Settles.unique {β : Type*} {f : ℕ → Option β} {b b' : β} (h : Settles f b) (h' : Settles f b') : b = b' := by
  obtain ⟨n, hn⟩ := h
  obtain ⟨n', hn'⟩ := h'
  exact Option.some.inj ((hn (max n n') (Nat.le_max_left n n')).symm.trans (hn' _ (Nat.le_max_right n n')))

lemma Settles.succ {β : Type*} {f : ℕ → Option β} {b : β} {n : ℕ} (h : ∀ k, n ≤ k → f (k + 1) = some b) :
    Settles f b := by
  refine ⟨n + 1, ?_⟩
  intro k hk
  obtain ⟨k, rfl⟩ : ∃ k', k = k' + 1 := ⟨k - 1, by omega⟩
  exact h k (Nat.le_of_succ_le_succ hk)

section Search

variable {next : α → Option α} {T : α → Prop} {c x : α}

lemma along_iff : Along next c x ↔ c = x ∨ ∃ d, next c = some d ∧ Along next d x := by
  rw [Along, Relation.ReflTransGen.cases_head_iff]

lemma found_iff : Found next T c ↔ T c ∨ ∃ d, next c = some d ∧ Found next T d := by
  constructor
  · rintro ⟨x, hcx, hx⟩
    rcases along_iff.1 hcx with rfl | ⟨d, hd, hdx⟩
    · exact .inl hx
    · exact .inr ⟨d, hd, x, hdx, hx⟩
  · rintro (hc | ⟨d, hd, x, hdx, hx⟩)
    · exact ⟨c, .refl, hc⟩
    · exact ⟨x, along_iff.2 (.inr ⟨d, hd, hdx⟩), hx⟩

/-- **What is found is determined by one step**: a property that satisfies the equation for one step on nodes whose
links do not leave them is what a search finds. -/
theorem found_unique {N P : α → Prop} (hN : ∀ c d, N c → next c = some d → N d)
    (hP : ∀ c, N c → (P c ↔ T c ∨ ∃ d, next c = some d ∧ P d)) (h : Ends next c) (hc : N c) :
    Found next T c ↔ P c := by
  induction h with
  | last hnone =>
    rw [found_iff, hP _ hc, hnone]
    simp only [reduceCtorEq, false_and, exists_false]
  | @link c d hd _ ih =>
    have hstep : ∀ Q : α → Prop, (∃ d', next c = some d' ∧ Q d') ↔ Q d := by
      intro Q
      rw [hd]
      simp only [Option.some.injEq, exists_eq_left']
    rw [found_iff, hP _ hc, hstep, hstep, ih (hN c d hc hd)]

/-- Links of nodes that are not reached do not matter. -/
lemma Ends.congr {next' : α → Option α} {N : α → Prop} (hN : ∀ c d, N c → next c = some d → N d)
    (heq : ∀ c, N c → next' c = next c) (h : Ends next c) (hc : N c) : Ends next' c := by
  induction h with
  | last hnone => exact .last ((heq _ hc).trans hnone)
  | link hd _ ih => exact .link ((heq _ hc).trans hd) (ih (hN _ _ hc hd))

/-- **Links without a circle end**, if only the nodes of a list name others. -/
lemma ends_of_acyclic {l : List α} (hl : ∀ c d, next c = some d → c ∈ l)
    (hacyclic : ∀ c, ¬ Relation.TransGen (fun c d => next c = some d) c c) (c : α) : Ends next c := by
  -- The nodes of the list are finitely many, so there is an induction on what they lead to.
  let R : α → α → Prop := fun d c => Relation.TransGen (fun c d => next c = some d) c d
  have hstrict : IsStrictOrder α R := { irrefl := hacyclic, trans := fun _ _ _ hab hbc => hbc.trans hab }
  have hwf : {c | c ∈ l}.WellFoundedOn R := l.finite_toSet.wellFoundedOn
  have hmem : ∀ c ∈ {c | c ∈ l}, Ends next c := by
    intro c hc
    refine hwf.induction hc ?_
    intro c _ ih
    cases hnext : next c with
    | none => exact .last hnext
    | some d =>
      refine .link hnext ?_
      cases hd : next d with
      | none => exact .last hd
      | some e => exact ih d (hl d e hd) (Relation.TransGen.single hnext)
  cases hnext : next c with
  | none => exact .last hnext
  | some d => exact hmem c (hl c d hnext)

end Search

section Follower

variable [DecidableEq α]

/-- What stands behind the last place of the node in the list. -/
def follower : List α → α → Option α
  | [], _ => none
  | c :: rest, x => if x ∈ rest then follower rest x else if x = c then rest.head? else none

variable {next next' : α → Option α} {l : List α} {c d : α}

lemma follower_mem (h : follower l c = some d) : d ∈ l := by
  induction l with
  | nil => cases h
  | cons b rest ih =>
    rw [follower] at h
    split at h
    · exact List.mem_cons_of_mem b (ih h)
    · split at h
      · exact List.mem_cons_of_mem b (List.mem_of_mem_head? h)
      · cases h

/-- Nodes that are linked in the order of a list make no circle. -/
lemma ends_of_follower (h : ∀ c ∈ l, next c = follower l c) : ∀ c ∈ l, Ends next c := by
  induction l with
  | nil => intro c hc; cases hc
  | cons b rest ih =>
    have hrest : ∀ c ∈ rest, Ends next c := by
      refine ih ?_
      intro c hc
      rw [h c (List.mem_cons_of_mem b hc), follower, if_pos hc]
    intro c hc
    by_cases hmem : c ∈ rest
    · exact hrest c hmem
    · obtain rfl : c = b := (List.mem_cons.1 hc).resolve_right hmem
      have hnext := h c hc
      rw [follower, if_neg hmem, if_pos rfl] at hnext
      cases hhead : rest.head? with
      | none => exact .last (hnext.trans hhead)
      | some d => exact .link (hnext.trans hhead) (hrest d (List.mem_of_mem_head? hhead))

/-- Nodes from which no circle is reached may be given other links. -/
lemma Ends.overwrite (h : Ends next c) (hout : ∀ c, c ∉ l → next' c = next c) (hin : ∀ c ∈ l, Ends next' c) :
    Ends next' c := by
  induction h with
  | @last c hnone =>
    by_cases hc : c ∈ l
    · exact hin c hc
    · exact .last ((hout c hc).trans hnone)
  | @link c d hd _ ih =>
    by_cases hc : c ∈ l
    · exact hin c hc
    · exact .link ((hout c hc).trans hd) ih

end Follower

section NewNode

variable {R R' : α → α → Prop} {T : α → Prop} {s c x : α}

lemma reach_old (hR' : ∀ c b, R' c b ↔ R c b ∨ c = s ∧ T b) (hR : ∀ c b, R c b → b ≠ s) (hc : c ≠ s) :
    Relation.ReflTransGen R' c x ↔ Relation.ReflTransGen R c x := by
  constructor
  · intro h
    have hx : Relation.ReflTransGen R c x ∧ x ≠ s := by
      induction h with
      | refl => exact ⟨.refl, hc⟩
      | @tail d x _ hstep ih =>
        rcases (hR' d x).1 hstep with hdx | ⟨hd, -⟩
        · exact ⟨ih.1.tail hdx, hR d x hdx⟩
        · exact absurd hd ih.2
    exact hx.1
  · intro h
    exact Relation.ReflTransGen.mono (fun c b hcb => (hR' c b).2 (.inl hcb)) _ _ h

lemma reach_new (hR' : ∀ c b, R' c b ↔ R c b ∨ c = s ∧ T b) (hR : ∀ c b, R c b → c ≠ s ∧ b ≠ s)
    (hT : ∀ b, T b → b ≠ s) :
    Relation.ReflTransGen R' s x ↔ x = s ∨ ∃ b, T b ∧ Relation.ReflTransGen R b x := by
  have hR₂ : ∀ c b, R c b → b ≠ s := fun c b h => (hR c b h).2
  rw [Relation.ReflTransGen.cases_head_iff, eq_comm]
  refine or_congr Iff.rfl ?_
  constructor
  · rintro ⟨b, hsb, hbx⟩
    obtain ⟨-, hb⟩ := ((hR' s b).1 hsb).resolve_left fun h => (hR s b h).1 rfl
    exact ⟨b, hb, (reach_old hR' hR₂ (hT b hb)).1 hbx⟩
  · rintro ⟨b, hb, hbx⟩
    exact ⟨b, (hR' s b).2 (.inr ⟨rfl, hb⟩), (reach_old hR' hR₂ (hT b hb)).2 hbx⟩

end NewNode

end Zutils.Lib
