import Mathlib.Order.Defs.Unbundled
import Mathlib.Data.List.Basic
import Mathlib.Data.List.Pairwise
import Mathlib.Data.Set.Defs
import Mathlib.Tactic.TypeStar

/-!
# Sets that are kept in order

A set of elements in the order of their keys. Its elements are compared by a function that may fail, as one that goes
through pointers does. Where it does not, and the order of the keys is a strict weak order, an element is found by its
key (`find_eq`), it is inserted in order (`insert_spec`), and it is erased with its key (`erase_eq`). A type of keys is
usable for that on a set of them (`OrderedKeys`) by a criterion for their comparisons (`orderedKeys_iff`).
-/

namespace Zutils.Lib.OrderedSet

variable {α κ ε : Type}

section Operations

variable (less : α → α → Except ε Bool) (x : α)

/-- The element that is not before `x`, and that `x` is not before. -/
def find : List α → Except ε (Option α)
  | [] => return none
  | y :: ys => do
    if ← less y x then find ys
    else if ← less x y then return none
    else return some y

/-- `x` in order, unless there is an element that is neither before nor behind it. -/
def insert : List α → Except ε (List α)
  | [] => return [x]
  | y :: ys => do
    if ← less y x then
      let zs ← insert ys
      return y :: zs
    else if ← less x y then return x :: y :: ys
    else return y :: ys

/-- Without the element that is neither before nor behind `x`. -/
def erase : List α → Except ε (List α)
  | [] => return []
  | y :: ys => do
    if ← less y x then
      let zs ← erase ys
      return y :: zs
    else if ← less x y then return y :: ys
    else return ys

end Operations

/-! ### Keys -/

variable (order : κ → κ → Bool)

/-- Neither is before the other. -/
def Equivalent (a b : κ) : Prop := order a b = false ∧ order b a = false

instance : DecidableRel (Equivalent order) := fun _ _ => inferInstanceAs (Decidable (_ ∧ _))

section Keys

variable {order} {a b c : κ}

lemma Equivalent.symm (h : Equivalent order a b) : Equivalent order b a := ⟨h.2, h.1⟩

variable [IsStrictWeakOrder κ fun a b => order a b = true]

lemma order_self (a : κ) : order a a = false :=
  Bool.eq_false_iff.2 (irrefl_of (fun a b => order a b = true) a)

lemma order_trans (h : order a b = true) (h' : order b c = true) : order a c = true :=
  trans_of (fun a b => order a b = true) h h'

lemma equivalent_refl (a : κ) : Equivalent order a a := ⟨order_self a, order_self a⟩

lemma Equivalent.trans (h : Equivalent order a b) (h' : Equivalent order b c) : Equivalent order a c := by
  have hincomp := @IsStrictWeakOrder.incomp_trans κ (fun a b => order a b = true) _ a b c
  simp only [Bool.not_eq_true] at hincomp
  exact hincomp h h'

lemma Equivalent.order_left (h : Equivalent order a b) (h' : order a c = true) : order b c = true := by
  by_contra hnot
  rw [Bool.not_eq_true] at hnot
  cases hback : order c b with
  | true =>
    have hab := order_trans h' hback
    rw [h.1] at hab
    cases hab
  | false =>
    have hac := h.trans ⟨hnot, hback⟩
    rw [hac.1] at h'
    cases h'

end Keys

/-! ### What is done to a set -/

variable (key : α → κ)

/-- The elements are in order. -/
def Sorted (ys : List α) : Prop := ys.Pairwise fun a b => order (key a) (key b) = true

/-- The comparisons with `x` do not fail. -/
def Compares (less : α → α → Except ε Bool) (x : α) (ys : List α) : Prop :=
  ∀ y ∈ ys, less y x = .ok (order (key y) (key x)) ∧ less x y = .ok (order (key x) (key y))

section Sorted

variable {order key} {less : α → α → Except ε Bool} {x y : α} {ys : List α}

lemma not_equivalent_of_order (h : order (key x) (key y) = true) : ¬ Equivalent order (key y) (key x) := fun heq => by
  rw [heq.2] at h
  cases h

lemma Sorted.congr {key' : α → κ} (h : Sorted order key ys) (hkey : ∀ y ∈ ys, key y = key' y) : Sorted order key' ys := by
  refine List.Pairwise.imp_of_mem ?_ h
  intro a b ha hb hab
  rwa [← hkey a ha, ← hkey b hb]

lemma Compares.tail (h : Compares order key less x (y :: ys)) : Compares order key less x ys :=
  fun z hz => h z (List.mem_cons_of_mem y hz)

lemma Sorted.eq_of_equivalent (h : Sorted order key ys) {a b : α} (ha : a ∈ ys) (hb : b ∈ ys)
    (hab : Equivalent order (key a) (key b)) : a = b := by
  by_contra hne
  have : Std.Symm fun a b => ¬ Equivalent order (key a) (key b) := ⟨fun _ _ hne heq => hne (Equivalent.symm heq)⟩
  have hpairs : ys.Pairwise fun a b => ¬ Equivalent order (key a) (key b) :=
    List.Pairwise.imp (fun {a b} hlt heq => not_equivalent_of_order hlt (Equivalent.symm heq)) h
  exact hpairs.forall ha hb hne hab

variable [IsStrictWeakOrder κ fun a b => order a b = true]

lemma Sorted.nodup (h : Sorted order key ys) : ys.Nodup := by
  refine List.Pairwise.imp (fun {a b} hab heq => ?_) h
  have hself : order (key a) (key a) = false := order_self (key a)
  subst heq
  rw [hself] at hab
  cases hab

lemma Sorted.behind (h : Sorted order key (y :: ys)) (hyx : order (key y) (key x) = false) :
    ∀ z ∈ ys, order (key x) (key z) = true := by
  intro z hz
  have hyz := List.rel_of_pairwise_cons h hz
  cases hxy : order (key x) (key y) with
  | true => exact order_trans hxy hyz
  | false => exact Equivalent.order_left ⟨hyx, hxy⟩ hyz

/-- **An element is found by its key.** -/
theorem find_eq (hs : Sorted order key ys) (hc : Compares order key less x ys) :
    find less x ys = .ok (ys.find? fun y => Equivalent order (key y) (key x)) := by
  induction ys with
  | nil => rfl
  | cons y ys ih =>
    obtain ⟨hyx, hxy⟩ := hc y List.mem_cons_self
    cases hbefore : order (key y) (key x) with
    | true =>
      have hne : ¬ Equivalent order (key y) (key x) := fun heq => not_equivalent_of_order hbefore heq.symm
      have hih := ih hs.of_cons hc.tail
      simpa [find, hyx, hbefore, hne, bind, Except.bind] using hih
    | false =>
      cases hbehind : order (key x) (key y) with
      | true =>
        have hnone : ∀ z ∈ y :: ys, ¬ Equivalent order (key z) (key x) := by
          intro z hz
          rcases List.mem_cons.1 hz with rfl | hz
          · exact not_equivalent_of_order hbehind
          · exact not_equivalent_of_order (hs.behind hbefore z hz)
        have hfind : (y :: ys).find? (fun y => Equivalent order (key y) (key x)) = none := by
          rw [List.find?_eq_none]
          simpa using hnone
        rw [hfind]
        simp [find, hyx, hxy, hbefore, hbehind, bind, Except.bind, pure, Except.pure]
      | false =>
        have heq : Equivalent order (key y) (key x) := ⟨hbefore, hbehind⟩
        simp [find, hyx, hxy, hbefore, hbehind, heq, bind, Except.bind, pure, Except.pure]

/-- **An element is inserted in order**, if its key is new. -/
theorem insert_spec (hs : Sorted order key ys) (hc : Compares order key less x ys)
    (hnew : ∀ y ∈ ys, ¬ Equivalent order (key y) (key x)) :
    ∃ zs, insert less x ys = .ok zs ∧ Sorted order key zs ∧ zs.Perm (x :: ys) := by
  induction ys with
  | nil => exact ⟨[x], rfl, List.pairwise_singleton _ x, .refl _⟩
  | cons y ys ih =>
    obtain ⟨hyx, hxy⟩ := hc y List.mem_cons_self
    cases hbefore : order (key y) (key x) with
    | true =>
      obtain ⟨zs, hinsert, hsorted, hperm⟩ := ih hs.of_cons hc.tail fun z hz => hnew z (List.mem_cons_of_mem y hz)
      refine ⟨y :: zs, ?_, List.pairwise_cons.2 ⟨?_, hsorted⟩, (hperm.cons y).trans (.swap x y ys)⟩
      · simp [insert, hyx, hbefore, hinsert, bind, Except.bind, pure, Except.pure]
      · intro z hz
        rcases List.mem_cons.1 (hperm.mem_iff.1 hz) with rfl | hz
        · exact hbefore
        · exact List.rel_of_pairwise_cons hs hz
    | false =>
      have hbehind : order (key x) (key y) = true := by
        rw [← Bool.not_eq_false]
        exact fun hbehind => hnew y List.mem_cons_self ⟨hbefore, hbehind⟩
      refine ⟨x :: y :: ys, ?_, List.pairwise_cons.2 ⟨?_, hs⟩, .refl _⟩
      · simp [insert, hyx, hxy, hbefore, hbehind, bind, Except.bind, pure, Except.pure]
      · intro z hz
        rcases List.mem_cons.1 hz with rfl | hz
        · exact hbehind
        · exact hs.behind hbefore z hz

/-- **Erasing** an element is to leave out its key. -/
theorem erase_eq (hs : Sorted order key ys) (hc : Compares order key less x ys) :
    erase less x ys = .ok (ys.filter fun y => ¬ Equivalent order (key y) (key x)) := by
  induction ys with
  | nil => rfl
  | cons y ys ih =>
    obtain ⟨hyx, hxy⟩ := hc y List.mem_cons_self
    cases hbefore : order (key y) (key x) with
    | true =>
      have hne : ¬ Equivalent order (key y) (key x) := fun heq => not_equivalent_of_order hbefore heq.symm
      have hih := ih hs.of_cons hc.tail
      simp [erase, hyx, hbefore, hih, hne, bind, Except.bind, pure, Except.pure]
    | false =>
      have hrest : ys.filter (fun y => ¬ Equivalent order (key y) (key x)) = ys := by
        rw [List.filter_eq_self]
        intro z hz
        simpa using not_equivalent_of_order (hs.behind hbefore z hz)
      cases hbehind : order (key x) (key y) with
      | true =>
        have hne := not_equivalent_of_order hbehind
        rw [List.filter_cons_of_pos (by simpa using hne), hrest]
        simp [erase, hyx, hxy, hbefore, hbehind, bind, Except.bind, pure, Except.pure]
      | false =>
        have heq : Equivalent order (key y) (key x) := ⟨hbefore, hbehind⟩
        rw [List.filter_cons_of_neg (by simpa using heq), hrest]
        simp [erase, hyx, hxy, hbefore, hbehind, bind, Except.bind, pure, Except.pure]

end Sorted

/-! ### Types of keys -/

/-- **The keys may be used in ordered containers**: `eq` is an equivalence, `lt` is a strict weak order, and two keys are
equivalent to the container if and only if they are equal. -/
structure OrderedKeys (eq lt : κ → κ → Bool) (S : Set κ) : Prop where
  eq_refl : ∀ a ∈ S, eq a a = true
  eq_symm : ∀ a ∈ S, ∀ b ∈ S, eq a b = true → eq b a = true
  eq_trans : ∀ a ∈ S, ∀ b ∈ S, ∀ c ∈ S, eq a b = true → eq b c = true → eq a c = true
  lt_irrefl : ∀ a ∈ S, lt a a = false
  lt_trans : ∀ a ∈ S, ∀ b ∈ S, ∀ c ∈ S, lt a b = true → lt b c = true → lt a c = true
  equivalent_trans : ∀ a ∈ S, ∀ b ∈ S, ∀ c ∈ S, Equivalent lt a b → Equivalent lt b c → Equivalent lt a c
  equivalent_iff : ∀ a ∈ S, ∀ b ∈ S, Equivalent lt a b ↔ eq a b = true

/-- For a strict order, and an `eq` of the same keys only, it is enough that each key is equal to itself, and that different
keys are ordered. -/
theorem orderedKeys_iff {eq lt : κ → κ → Bool} {S : Set κ} (heq : ∀ a b, eq a b = true → a = b)
    (hirrefl : ∀ a, lt a a = false) (htrans : ∀ a b c, lt a b = true → lt b c = true → lt a c = true) :
    OrderedKeys eq lt S ↔ (∀ a ∈ S, eq a a = true) ∧ ∀ a ∈ S, ∀ b ∈ S, a ≠ b → lt a b = true ∨ lt b a = true := by
  constructor
  · intro h
    refine ⟨h.eq_refl, fun a ha b hb hne => ?_⟩
    by_contra hnot
    rw [not_or, Bool.not_eq_true, Bool.not_eq_true] at hnot
    exact hne (heq a b ((h.equivalent_iff a ha b hb).1 hnot))
  · rintro ⟨hself, hordered⟩
    have hequivalent : ∀ a ∈ S, ∀ b ∈ S, Equivalent lt a b → a = b := by
      intro a ha b hb hab
      by_contra hne
      rcases hordered a ha b hb hne with hlt | hlt
      · rw [hab.1] at hlt
        cases hlt
      · rw [hab.2] at hlt
        cases hlt
    refine ⟨hself, fun a ha b hb hab => ?_, fun a ha b hb c hc hab hbc => ?_, fun a _ => hirrefl a,
      fun a _ b _ c _ => htrans a b c, fun a ha b hb c hc hab hbc => ?_, fun a ha b hb => ⟨fun hab => ?_, fun hab => ?_⟩⟩
    · obtain rfl := heq a b hab
      exact hab
    · obtain rfl := heq a b hab
      exact hbc
    · obtain rfl := hequivalent a ha b hb hab
      exact hbc
    · obtain rfl := hequivalent a ha b hb hab
      exact hself a ha
    · obtain rfl := heq a b hab
      exact ⟨hirrefl a, hirrefl a⟩

end Zutils.Lib.OrderedSet
