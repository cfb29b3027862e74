import Zutils.Lib.Run
import Mathlib.Data.List.Induction

/-!
# Grants that are used once

In a history something is granted, used, or revoked. A history respects the grants when each use is of what is granted
at that time (`Respects`), where a use ends the grant. Then a grant is used at most once before the next one, with its
own value, and not after it has been revoked (`Respects.oneShot`).
-/

namespace Zutils.Lib

variable {V : Type*}

/-- What an entry of a history says. -/
inductive Mark (V : Type*) where
  | grant (v : V)
  | use (v : V)
  | revoke
  | other
  deriving DecidableEq, Repr

namespace Mark

/-- What is granted behind an entry. -/
def next (x : Option V) : Mark V → Option V
  | grant v => some v
  | use _ => none
  | revoke => none
  | other => x

/-- What is granted behind a history. -/
def pending (ms : List (Mark V)) : Option V := ms.foldl next none

def isUse : Mark V → Bool
  | use _ => true
  | _ => false

end Mark

open Mark

/-- Each use is of what is granted. -/
def Respects (ms : List (Mark V)) : Prop := ∀ p v q, ms = p ++ .use v :: q → pending p = some v

/-- **Grants are used once**: behind a grant there is at most one use before the next grant, which is of its value; behind
a revocation there is none; and in front of each use there is a grant of its value. -/
structure OneShot (ms : List (Mark V)) : Prop where
  once : ∀ p v q r, ms = p ++ .grant v :: (q ++ r) → (∀ v', .grant v' ∉ q) →
    (q.filter isUse).length ≤ 1 ∧ ∀ v', .use v' ∈ q → v' = v
  revoked : ∀ p q r, ms = p ++ .revoke :: (q ++ r) → (∀ v', .grant v' ∉ q) → ∀ v, .use v ∉ q
  granted : ∀ p v q, ms = p ++ .use v :: q → .grant v ∈ p

variable {ms p q : List (Mark V)} {m : Mark V} {x : Option V} {v : V}

lemma pending_snoc : pending (ms ++ [m]) = next (pending ms) m := by
  rw [pending, List.foldl_append, List.foldl_cons, List.foldl_nil, pending]

lemma mem_of_pending (h : pending p = some v) : .grant v ∈ p := by
  induction p using List.reverseRecOn with
  | nil => cases h
  | append_singleton p m ih =>
    rw [pending_snoc] at h
    cases m with
    | grant v' =>
      obtain rfl : v' = v := Option.some.inj h
      exact List.mem_append_right p List.mem_cons_self
    | use v' => cases h
    | revoke => cases h
    | other => exact List.mem_append_left _ (ih h)

/-- Without a new grant there are no more uses than are granted. -/
lemma uses_le (hres : ∀ a v b, q = a ++ .use v :: b → a.foldl next x = some v) (hq : ∀ v, .grant v ∉ q) :
    (q.filter isUse).length ≤ x.toList.length ∧ ∀ v, .use v ∈ q → x = some v := by
  induction q generalizing x with
  | nil => exact ⟨Nat.zero_le _, by rintro v ⟨⟩⟩
  | cons m q ih =>
    obtain ⟨hlen, hmem⟩ : (q.filter isUse).length ≤ (next x m).toList.length ∧ ∀ v, .use v ∈ q → next x m = some v := by
      refine ih ?_ fun v hv => hq v (List.mem_cons_of_mem m hv)
      rintro a v b rfl
      exact hres (m :: a) v b rfl
    cases m with
    | grant v => exact absurd List.mem_cons_self (hq v)
    | use v =>
      obtain rfl : x = some v := hres [] v q rfl
      refine ⟨Nat.succ_le_succ hlen, ?_⟩
      intro v' hv'
      rcases List.mem_cons.1 hv' with heq | hv'
      · rw [Mark.use.inj heq]
      · cases hmem v' hv'
    | revoke =>
      refine ⟨Nat.le_trans hlen (Nat.zero_le _), ?_⟩
      intro v' hv'
      rcases List.mem_cons.1 hv' with heq | hv'
      · cases heq
      · cases hmem v' hv'
    | other =>
      refine ⟨hlen, ?_⟩
      intro v' hv'
      rcases List.mem_cons.1 hv' with heq | hv'
      · cases heq
      · exact hmem v' hv'

namespace Respects

lemma nil : Respects ([] : List (Mark V)) := by
  intro p v q h
  cases p <;> cases h

lemma snoc (h : Respects ms) (hm : ∀ v, m = .use v → pending ms = some v) : Respects (ms ++ [m]) := by
  intro p v q heq
  rcases snoc_eq_append_cons heq with ⟨rfl, rfl⟩ | ⟨q', heq'⟩
  · exact hm v rfl
  · exact h p v q' heq'

/-- What is used between two places of a history is granted at the first or in between. -/
lemma segment (h : Respects ms) {p q r : List (Mark V)} (heq : ms = p ++ m :: (q ++ r)) :
    ∀ a v b, q = a ++ .use v :: b → a.foldl next (next (pending p) m) = some v := by
  rintro a v b rfl
  have huse := h (p ++ m :: a) v (b ++ r) (by
    rw [heq, List.append_assoc, List.append_assoc, List.cons_append, List.cons_append])
  rw [pending, List.foldl_append, List.foldl_cons] at huse
  exact huse

theorem oneShot (h : Respects ms) : OneShot ms := by
  refine ⟨?_, ?_, ?_⟩
  · intro p v q r heq hq
    obtain ⟨hlen, hmem⟩ := uses_le (h.segment heq) hq
    refine ⟨hlen, ?_⟩
    intro v' hv'
    exact (Option.some.inj (hmem v' hv')).symm
  · intro p q r heq hq v hv
    cases (uses_le (h.segment heq) hq).2 v hv
  · intro p v q heq
    exact mem_of_pending (h p v q heq)

end Respects

end Zutils.Lib
