import Mathlib.Data.List.Basic

/-!
# A ledger of things taken in, given out and held

`Ledger ins outs held`: everything that was taken in has been given out once or is held once, as often as it was taken
in. The rules are equivalences, so that they also say what breaks a ledger: to hold less without giving it out
(`drop_iff`), and to give out what stays held (`not_twice`).
-/

namespace Zutils.Lib

variable {α : Type*} {ins outs held held' : List α} {a : α}

/-- What was taken in is what was given out and what is held. -/
def Ledger (ins outs held : List α) : Prop := ins.Perm (outs ++ held)

namespace Ledger

lemma nil : Ledger ([] : List α) [] [] := List.Perm.nil

lemma length_eq (h : Ledger ins outs held) : ins.length = outs.length + held.length := by
  rw [List.Perm.length_eq h, List.length_append]

lemma perm_iff (hp : held.Perm held') : Ledger ins outs held ↔ Ledger ins outs held' := by
  have houts := hp.append_left outs
  exact ⟨fun h => h.trans houts, fun h => h.trans houts.symm⟩

lemma acquire_iff : Ledger (ins ++ [a]) outs (a :: held) ↔ Ledger ins outs held := by
  have hins : (ins ++ [a]).Perm (a :: ins) := List.perm_append_comm
  have hheld : (outs ++ a :: held).Perm (a :: (outs ++ held)) := List.perm_middle
  constructor
  · intro h
    exact (hins.symm.trans (h.trans hheld)).cons_inv
  · intro h
    exact hins.trans ((h.cons a).trans hheld.symm)

lemma release_iff : Ledger ins (outs ++ [a]) held ↔ Ledger ins outs (a :: held) := by
  unfold Ledger
  rw [List.append_assoc, List.singleton_append]

lemma drop_iff {dropped : List α} (h : Ledger ins outs (dropped ++ held)) :
    Ledger ins outs held ↔ dropped = [] := by
  constructor
  · intro h'
    have hlen := h.length_eq
    rw [h'.length_eq, List.length_append] at hlen
    exact List.length_eq_zero_iff.1 (by omega)
  · rintro rfl
    exact h

/-- Nothing that stays held may be given out. -/
lemma not_twice (h : Ledger ins outs held) : ¬ Ledger ins (outs ++ [a]) held := by
  intro h'
  have hlen := h'.length_eq
  rw [h.length_eq, List.length_append, List.length_singleton] at hlen
  omega

/-- **Each thing is accounted for**: it was taken in as often as it was given out or is held. -/
theorem count_eq [DecidableEq α] (h : Ledger ins outs held) (a : α) :
    ins.count a = outs.count a + held.count a := by
  rw [List.Perm.count_eq h, List.count_append]

end Ledger

end Zutils.Lib
