import Zutils.Lib.ByteMap

/-!
# A cursor-addressed array

A tape is a partial map from indices to values with a cursor. A write stores values at the cursor and moves it behind
them. `Extent` is the number of cells up to the last one that has been written.

`patch` is what a write does to an array that is kept in memory; it agrees with the tape if the array did.
-/

namespace Zutils.Lib

variable {β : Type*}

/-- The array `l` with `bs` at `p`. -/
def patch (l : List β) (p : ℕ) (bs : List β) : List β := l.take p ++ bs ++ l.drop (p + bs.length)

section Patch

variable {l bs : List β} {p : ℕ}

lemma patch_nil (l : List β) (p : ℕ) : patch l p [] = l := by simp [patch]

lemma patch_length (h : p ≤ l.length) : (patch l p bs).length = max l.length (p + bs.length) := by
  unfold patch
  rw [List.length_append, List.length_append, List.length_take, List.length_drop]
  omega

lemma patch_length_of_le (h : p + bs.length ≤ l.length) : (patch l p bs).length = l.length := by
  rw [patch_length (by omega)]
  omega

lemma patch_append (a b c : List β) (h : p ≤ b.length) :
    patch (a ++ b ++ c) (a.length + p) bs = a ++ patch b p bs ++ c.drop (p + bs.length - b.length) := by
  unfold patch
  have hdrop : a.length + p + bs.length = a.length + (p + bs.length) := Nat.add_assoc _ _ _
  rw [List.append_assoc a b c, List.take_length_add_append, hdrop, List.drop_length_add_append,
    List.take_append_of_le_length h, List.drop_append]
  simp only [List.append_assoc]

lemma patch_patch {cs : List β} (extra : List β) (h : p + bs.length ≤ l.length) :
    patch (patch l p bs ++ extra) (p + bs.length) cs = patch (l ++ extra) p (bs ++ cs) := by
  have hfront : (l.take p ++ bs).length = p + bs.length := by
    rw [List.length_append, List.length_take]
    omega
  have hrest : l.drop (p + bs.length) ++ extra = (l ++ extra).drop (p + bs.length) := by
    rw [List.drop_append_of_le_length h]
  have htake : (l ++ extra).take p = l.take p := List.take_append_of_le_length (by omega)
  unfold patch
  rw [List.append_assoc _ _ extra, hrest, List.take_left' hfront, ← hfront, List.drop_length_add_append, hfront,
    htake, List.drop_drop, List.length_append]
  simp only [List.append_assoc, Nat.add_assoc]

end Patch

/-! ### The extent of a map -/

/-- The cells that have been written end at `n`. -/
structure Extent (m : ℕ → Option β) (n : ℕ) : Prop where
  below : StoredBelow m n
  last : 0 < n → (m (n - 1)).isSome

section Extent

variable {m : ℕ → Option β} {p n : ℕ} {bs : List β}

lemma extent_empty : Extent (fun _ => (none : Option β)) 0 :=
  ⟨fun _ _ h => (by cases h), fun h => absurd h (Nat.lt_irrefl 0)⟩

lemma store_nil : store m p [] = m := by
  funext i
  unfold store
  rw [if_neg (by rw [List.length_nil]; omega)]

/-- **A write moves the extent** to its own end, if that is further. -/
lemma Extent.store (h : Extent m n) (hbs : bs ≠ []) : Extent (store m p bs) (max n (p + bs.length)) := by
  have hpos : 0 < bs.length := List.length_pos_iff.2 hbs
  refine ⟨?_, fun _ => ?_⟩
  · exact (h.below.mono (Nat.le_max_left _ _)).store (Nat.le_max_right _ _)
  · unfold Lib.store
    by_cases hle : n ≤ p + bs.length
    · rw [Nat.max_eq_right hle, if_pos (by omega), List.getElem?_eq_getElem (by omega)]
      rfl
    · rw [Nat.max_eq_left (by omega), if_neg (by omega)]
      exact h.last (by omega)

end Extent

/-! ### Tapes -/

/-- A cursor-addressed array. -/
structure Tape (β : Type*) where
  cells : ℕ → Option β
  cursor : ℕ

namespace Tape

/-- Nothing has been written. -/
def empty : Tape β := ⟨fun _ => none, 0⟩

/-- The values are stored at the cursor, and it moves behind them. -/
def write (t : Tape β) (bs : List β) : Tape β := ⟨store t.cells t.cursor bs, t.cursor + bs.length⟩

def seek (t : Tape β) (pos : ℕ) : Tape β := { t with cursor := pos }

/-- The `n` cells at the cursor have been written, and hold `bs`. -/
def Holds (t : Tape β) (bs : List β) : Prop := ∀ k < bs.length, t.cells (t.cursor + k) = bs[k]?

/-- The next `n` cells have been written. -/
def Written (t : Tape β) (n : ℕ) : Prop := ∀ k < n, (t.cells (t.cursor + k)).isSome

variable {t : Tape β} {bs cs : List β}

/-- An array that agrees with the tape holds the values of the written cells. -/
lemma Written.holds {l : List β} {n : ℕ} (h : t.Written n) (hl : AgreesWith t.cells l) :
    ((l.drop t.cursor).take n).length = n ∧ t.Holds ((l.drop t.cursor).take n) := by
  have hcell : ∀ k < n, t.cells (t.cursor + k) = l[t.cursor + k]? := by
    intro k hk
    obtain ⟨b, hb⟩ := Option.isSome_iff_exists.1 (h k hk)
    rw [hb, hl _ _ hb]
  refine ⟨?_, fun k hk => ?_⟩
  · rw [List.length_take, List.length_drop]
    rcases Nat.eq_zero_or_pos n with h0 | hpos
    · omega
    · have hlast := h (n - 1) (by omega)
      rw [hcell _ (by omega)] at hlast
      have hlt : t.cursor + (n - 1) < l.length := by simpa using hlast
      omega
  · have hkn : k < n := by
      rw [List.length_take] at hk
      omega
    rw [hcell k hkn, List.getElem?_take_of_lt hkn, List.getElem?_drop]

end Tape

end Zutils.Lib
