import Mathlib.Data.List.Basic
import Mathlib.Data.Nat.Basic

/-!
# Checked execution

What a call of the modelled code can do besides return: log a `DCHECK` failure, which is fatal in the builds that
keep the checks, or touch memory it may not touch. Both are values of `Fault`, and a function that can meet them
runs in `Except Fault`. The two library operations the buffers rest on, `std::vector::resize` and a `std::copy`
into a vector, are here as well; a copy whose target does not lie in the vector is a fault.
-/

namespace Zutils

universe u

/-- Why a call does not return. -/
inductive Fault where
  | dcheck
  | outOfRange
  deriving DecidableEq, Repr

/-- `DCHECK(c)`. -/
def dcheck (c : Prop) [Decidable c] : Except Fault Unit :=
  if c then .ok () else .error .dcheck

@[simp] lemma dcheck_true {c : Prop} [Decidable c] (h : c) : dcheck c = .ok () := by
  simp [dcheck, h]

@[simp] lemma dcheck_false {c : Prop} [Decidable c] (h : ¬ c) : dcheck c = .error .dcheck := by
  simp [dcheck, h]

@[simp] lemma ok_bind {ε : Type*} {α β : Type u} (a : α) (f : α → Except ε β) : (Except.ok a >>= f) = f a := rfl

@[simp] lemma error_bind {ε : Type*} {α β : Type u} (e : ε) (f : α → Except ε β) :
    (Except.error e >>= f) = .error e := rfl

lemma bind_eq_ok {ε : Type*} {α β : Type u} {x : Except ε α} {f : α → Except ε β} {b : β} :
    (x >>= f) = .ok b ↔ ∃ a, x = .ok a ∧ f a = .ok b := by
  cases x <;> simp

/-! ### Vectors -/

/-- `v.resize(n)`: new elements are zero. -/
def resize (v : List UInt8) (n : ℕ) : List UInt8 := v.take n ++ List.replicate (n - v.length) 0

/-- `std::copy` of `data` to the index `i` of the vector `v`. -/
def copyAt (v : List UInt8) (i : ℕ) (data : List UInt8) : Except Fault (List UInt8) :=
  if i + data.length ≤ v.length then .ok (v.take i ++ data ++ v.drop (i + data.length))
  else .error .outOfRange

lemma copyAt_append {u v : List UInt8} (data : List UInt8) (h : data.length ≤ v.length) :
    copyAt (u ++ v) u.length data = .ok (u ++ data ++ v.drop data.length) := by
  rw [copyAt, if_pos (by simp; omega), List.take_left' rfl, List.drop_append,
    List.drop_eq_nil_of_le (by omega), List.nil_append, Nat.add_sub_cancel_left]

end Zutils
