import Mathlib.Data.Nat.Notation
import Mathlib.Tactic.TypeStar

/-!
# Loops that may fail

A round of a loop takes a state and either goes on with a new state, leaves the loop with a value, or fails. `rounds`
runs at most so many rounds. The rules for its end ask for an invariant and a measure that falls; what they give does not
depend on the number of rounds, as long as there are enough.
-/

namespace Zutils.Lib

variable {σ β ε : Type*}

/-- At most `n` rounds from a state; `none` when they do not suffice. -/
def rounds (round : σ → Except ε (σ ⊕ β)) : ℕ → σ → Option (Except ε β)
  | 0, _ => none
  | n + 1, s =>
    match round s with
    | .error e => some (.error e)
    | .ok (.inr b) => some (.ok b)
    | .ok (.inl s') => rounds round n s'

lemma rounds_mono {round : σ → Except ε (σ ⊕ β)} {n k : ℕ} {s : σ} {r : Except ε β} (h : rounds round n s = some r)
    (hk : n ≤ k) : rounds round k s = some r := by
  induction n generalizing k s with
  | zero => cases h
  | succ n ih =>
    obtain ⟨k, rfl⟩ : ∃ k', k = k' + 1 := ⟨k - 1, by omega⟩
    rw [rounds] at h ⊢
    rcases hr : round s with e | s' | b
    · rw [hr] at h; exact h
    · rw [hr] at h; exact ih h (by omega)
    · rw [hr] at h; exact h

/-- **The rule for loops that may fail**: if every round from a state in `P` ends the loop, with a value or a failure in
`Q`, or stays in `P` and lowers the measure, then the loop ends with one of these. -/
theorem rounds_ends {round : σ → Except ε (σ ⊕ β)} {P : σ → Prop} {Q : Except ε β → Prop} (m : σ → ℕ)
    (h : ∀ s, P s → (∃ e, round s = .error e ∧ Q (.error e)) ∨ (∃ b, round s = .ok (.inr b) ∧ Q (.ok b)) ∨
      ∃ s', round s = .ok (.inl s') ∧ P s' ∧ m s' < m s)
    (s : σ) (hP : P s) : ∃ r, Q r ∧ ∀ n, m s < n → rounds round n s = some r := by
  induction hm : m s using Nat.strongRecOn generalizing s with
  | ind k ih =>
    rcases h s hP with ⟨e, he, hQ⟩ | ⟨b, hb, hQ⟩ | ⟨s', hs', hP', hlt⟩
    · refine ⟨.error e, hQ, ?_⟩
      intro n hn
      obtain ⟨n, rfl⟩ : ∃ n', n = n' + 1 := ⟨n - 1, by omega⟩
      rw [rounds, he]
    · refine ⟨.ok b, hQ, ?_⟩
      intro n hn
      obtain ⟨n, rfl⟩ : ∃ n', n = n' + 1 := ⟨n - 1, by omega⟩
      rw [rounds, hb]
    · obtain ⟨r, hQ, hr⟩ := ih (m s') (hm ▸ hlt) s' hP' rfl
      refine ⟨r, hQ, ?_⟩
      intro n hn
      obtain ⟨n, rfl⟩ : ∃ n', n = n' + 1 := ⟨n - 1, by omega⟩
      rw [rounds, hs']
      exact hr n (by omega)

/-- **The rule of total correctness**: if every round from a state in `P` leaves with a value in `Q`, or stays in `P`
and lowers the measure, then the loop leaves with a value in `Q`. -/
theorem rounds_total {round : σ → Except ε (σ ⊕ β)} {P : σ → Prop} {Q : β → Prop} (m : σ → ℕ)
    (h : ∀ s, P s → (∃ b, round s = .ok (.inr b) ∧ Q b) ∨ ∃ s', round s = .ok (.inl s') ∧ P s' ∧ m s' < m s)
    (s : σ) (hP : P s) : ∃ b, Q b ∧ ∀ n, m s < n → rounds round n s = some (.ok b) := by
  have hround : ∀ s, P s → (∃ e, round s = .error e ∧ ∃ b, (.error e : Except ε β) = .ok b ∧ Q b) ∨
      (∃ b, round s = .ok (.inr b) ∧ ∃ b', (.ok b : Except ε β) = .ok b' ∧ Q b') ∨
      ∃ s', round s = .ok (.inl s') ∧ P s' ∧ m s' < m s := by
    intro s hP
    rcases h s hP with ⟨b, hb, hQ⟩ | hgo
    · exact .inr (.inl ⟨b, hb, b, rfl, hQ⟩)
    · exact .inr (.inr hgo)
  obtain ⟨r, ⟨b, rfl, hQ⟩, hr⟩ := rounds_ends (Q := fun r => ∃ b, r = .ok b ∧ Q b) m hround s hP
  exact ⟨b, hQ, hr⟩

end Zutils.Lib
