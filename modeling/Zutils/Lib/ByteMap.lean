import Mathlib.Data.List.Basic

/-!
# Arrays and what has been stored in them

A partial map from indices to values says what has been stored, and where. An array agrees with it when it has these
values there. Storing a list at an index keeps an array and a map in agreement, and so does any change of the array that
leaves the part below a bound alone, when nothing has been stored above it.
-/

namespace Zutils.Lib

variable {β : Type*}

/-- What is known after `bs` has been stored at `p`. -/
def store (m : ℕ → Option β) (p : ℕ) (bs : List β) : ℕ → Option β := fun i =>
  if p ≤ i ∧ i < p + bs.length then bs[i - p]? else m i

/-- The array has the values that have been stored. -/
def AgreesWith (m : ℕ → Option β) (l : List β) : Prop := ∀ i b, m i = some b → l[i]? = some b

/-- Nothing has been stored from `n` on. -/
def StoredBelow (m : ℕ → Option β) (n : ℕ) : Prop := ∀ i b, m i = some b → i < n

section Store

variable {m : ℕ → Option β} {l l' bs : List β} {p n : ℕ}

lemma StoredBelow.store (h : StoredBelow m n) (hp : p + bs.length ≤ n) : StoredBelow (store m p bs) n := by
  intro i b hi
  rw [Lib.store] at hi
  split at hi
  · omega
  · exact h i b hi

lemma StoredBelow.mono (h : StoredBelow m n) {k : ℕ} (hk : n ≤ k) : StoredBelow m k := fun i b hi =>
  Nat.lt_of_lt_of_le (h i b hi) hk

lemma AgreesWith.congr (h : AgreesWith m l) (hm : StoredBelow m n) (hl : ∀ i < n, l'[i]? = l[i]?) : AgreesWith m l' :=
  fun i b hi => (hl i (hm i b hi)).trans (h i b hi)

/-- **Storing** keeps the agreement. -/
lemma AgreesWith.store (h : AgreesWith m l) (hp : p + bs.length ≤ l.length) :
    AgreesWith (store m p bs) (l.take p ++ bs ++ l.drop (p + bs.length)) := by
  intro i b hi
  have htake : (l.take p).length = p := by
    rw [List.length_take]
    omega
  rw [Lib.store] at hi
  split at hi
  · rename_i hin
    rw [List.append_assoc, List.getElem?_append_right (by omega), htake, List.getElem?_append_left (by omega)]
    exact hi
  · rename_i hout
    rw [← h i b hi]
    by_cases hlt : i < p
    · rw [List.append_assoc, List.getElem?_append_left (by omega), List.getElem?_take_of_lt hlt]
    · rw [List.getElem?_append_right (by rw [List.length_append, htake]; omega), List.getElem?_drop,
        List.length_append, htake, Nat.add_sub_cancel' (by omega)]

lemma agreesWith_prefix (l : List β) (n : ℕ) : AgreesWith (fun i => (l.take n)[i]?) l := by
  intro i b hi
  have hlt : i < (l.take n).length := (List.getElem?_eq_some_iff.1 hi).1
  rw [List.length_take] at hlt
  have hi : (l.take n)[i]? = some b := hi
  rwa [List.getElem?_take_of_lt (by omega)] at hi

lemma storedBelow_prefix (l : List β) (n : ℕ) : StoredBelow (fun i => (l.take n)[i]?) n := by
  intro i b hi
  have hlt : i < (l.take n).length := (List.getElem?_eq_some_iff.1 hi).1
  rw [List.length_take] at hlt
  omega

end Store

end Zutils.Lib
