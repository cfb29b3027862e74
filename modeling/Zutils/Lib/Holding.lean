import Mathlib.Data.List.Nodup
import Mathlib.Logic.Function.Basic

/-!
# Things that are out, and who holds them

`Holding held out`: every thing of the list `out` is held by exactly one holder, and nothing else is held. A thing that
is not out can be taken, and one that is held can be given up.
-/

namespace Zutils.Lib

variable {ι α : Type*} {held held' : ι → Option α} {out : List α} {i : ι} {a : α}

/-- Two holders never hold the same thing, and what is out is what they hold. -/
structure Holding (held : ι → Option α) (out : List α) : Prop where
  alone : ∀ i j a, held i = some a → held j = some a → i = j
  mem_iff : ∀ a, a ∈ out ↔ ∃ i, held i = some a

namespace Holding

lemma nil : Holding (fun _ : ι => (none : Option α)) [] := by
  constructor
  · rintro i j a ⟨⟩
  · intro a
    simp

variable [DecidableEq ι]

lemma update_eq_some_iff {x : Option α} {j : ι} {b : α} :
    Function.update held i x j = some b ↔ j = i ∧ x = some b ∨ j ≠ i ∧ held j = some b := by
  by_cases hji : j = i
  · subst hji
    simp
  · simp [hji]

lemma skip (h : Holding held out) (hi : held i = none) : Holding (Function.update held i none) out := by
  rwa [← hi, Function.update_eq_self]

/-- **To take** a thing that is not out. -/
lemma take (h : Holding held out) (hi : held i = none) (ha : a ∉ out) :
    Holding (Function.update held i (some a)) (a :: out) := by
  have hfree : ∀ j, held j ≠ some a := fun j hj => ha ((h.mem_iff a).2 ⟨j, hj⟩)
  constructor
  · intro j k b hj hk
    rcases update_eq_some_iff.1 hj with ⟨hji, hb⟩ | ⟨-, hj'⟩
    · rcases update_eq_some_iff.1 hk with ⟨hki, -⟩ | ⟨-, hk'⟩
      · rw [hji, hki]
      · exact absurd (hk'.trans hb.symm) (hfree k)
    · rcases update_eq_some_iff.1 hk with ⟨-, hb⟩ | ⟨-, hk'⟩
      · exact absurd (hj'.trans hb.symm) (hfree j)
      · exact h.alone j k b hj' hk'
  · intro b
    rw [List.mem_cons, h.mem_iff b]
    constructor
    · rintro (rfl | ⟨j, hj⟩)
      · exact ⟨i, update_eq_some_iff.2 (.inl ⟨rfl, rfl⟩)⟩
      · refine ⟨j, update_eq_some_iff.2 (.inr ⟨?_, hj⟩)⟩
        rintro rfl
        exact absurd (hi.symm.trans hj) (Option.some_ne_none b).symm
    · rintro ⟨j, hj⟩
      rcases update_eq_some_iff.1 hj with ⟨-, hb⟩ | ⟨-, hj⟩
      · exact .inl (Option.some.inj hb).symm
      · exact .inr ⟨j, hj⟩

/-- **To give up** what one holds. -/
lemma giveUp [DecidableEq α] (h : Holding held out) (hout : out.Nodup) (hi : held i = some a) :
    Holding (Function.update held i none) (out.erase a) := by
  have hkeep : ∀ {j b}, Function.update held i none j = some b ↔ j ≠ i ∧ held j = some b := by
    intro j b
    rw [update_eq_some_iff]
    simp
  constructor
  · intro j k b hj hk
    exact h.alone j k b (hkeep.1 hj).2 (hkeep.1 hk).2
  · intro b
    rw [hout.mem_erase_iff, h.mem_iff b]
    constructor
    · rintro ⟨hne, j, hj⟩
      refine ⟨j, hkeep.2 ⟨?_, hj⟩⟩
      rintro rfl
      exact hne (Option.some.inj (hj.symm.trans hi))
    · rintro ⟨j, hj⟩
      obtain ⟨hji, hj⟩ := hkeep.1 hj
      refine ⟨?_, j, hj⟩
      rintro rfl
      exact hji (h.alone j i b hj hi)

end Holding

end Zutils.Lib
