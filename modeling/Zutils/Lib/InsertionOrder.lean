import Zutils.Lib.Since
import Mathlib.Data.List.Forall2

/-!
# Maps in the order of insertion

A map as the list of its entries, for an equivalence of keys. A key that is put for the first time comes to the end, and
one that is there gets another value in its place. `InOrder` says from the history of a map what it holds: the values that
were put last, in the order in which their keys were put first.
-/

namespace Zutils.Lib.InsertionOrder

variable {K V : Type*} (same : K → K → Prop)

section Entries

variable [DecidableRel same]

def put (es : List (K × V)) (k : K) (v : V) : List (K × V) :=
  if ∃ e ∈ es, same e.1 k then es.map fun e => if same e.1 k then (e.1, v) else e else es ++ [(k, v)]

def remove (es : List (K × V)) (k : K) : List (K × V) := es.filter fun e => ¬ same e.1 k

end Entries

/-- What is done to a map. -/
inductive Change (K V : Type*) where
  | put (k : K) (v : V)
  | remove (k : K)
  | none

def Change.apply [DecidableRel same] (es : List (K × V)) : Change K V → List (K × V)
  | .put k v => InsertionOrder.put same es k v
  | .remove k => InsertionOrder.remove same es k
  | .none => es

/-! ### Histories -/

/-- The key is not removed. -/
def Keeps (k : K) : Change K V → Prop
  | .remove k' => ¬ same k' k
  | _ => True

/-- Nothing is done with the key. -/
def Ignores (k : K) : Change K V → Prop
  | .put k' _ | .remove k' => ¬ same k' k
  | .none => True

/-- The key is there: it was put, and not removed since. -/
def Present (k : K) : List (Change K V) → Prop := Since (fun _ c => ∃ k' v, c = .put k' v ∧ same k' k) (Keeps same k)

/-- The value was put last for the key. -/
def LastPut (k : K) (v : V) : List (Change K V) → Prop :=
  Since (fun _ c => ∃ k', c = .put k' v ∧ same k' k) (Ignores same k)

/-- The key was put at this place, when it was not there, and not removed since. -/
def FirstPut (k : K) (n : ℕ) : List (Change K V) → Prop :=
  Since (fun before c => before.length = n ∧ (∃ v, c = .put k v) ∧ ¬ Present same k before) (Keeps same k)

/-- **The entries are in the order of insertion.** -/
structure InOrder (h : List (Change K V)) (es : List (K × V)) : Prop where
  value : ∀ k v, (∃ k', (k', v) ∈ es ∧ same k' k) ↔ LastPut same k v h
  alone : es.Pairwise fun e e' => ¬ same e.1 e'.1
  order : ∃ places : List ℕ, places.Pairwise (· < ·) ∧ List.Forall₂ (fun e n => FirstPut same e.1 n h) es places

section History

variable {same} {h : List (Change K V)} {es : List (K × V)} {k k' : K} {v : V} {n : ℕ} {c : Change K V}

lemma present_concat : Present same k (h ++ [c]) ↔
    (∃ k' v, c = .put k' v ∧ same k' k) ∨ Present same k h ∧ Keeps same k c := since_concat

lemma lastPut_concat : LastPut same k v (h ++ [c]) ↔
    (∃ k', c = .put k' v ∧ same k' k) ∨ LastPut same k v h ∧ Ignores same k c := since_concat

lemma firstPut_concat : FirstPut same k n (h ++ [c]) ↔
    (h.length = n ∧ (∃ v, c = .put k v) ∧ ¬ Present same k h) ∨ FirstPut same k n h ∧ Keeps same k c := since_concat

lemma FirstPut.lt_length (hf : FirstPut same k n h) : n < h.length := by
  obtain ⟨a, c, b, rfl, ⟨rfl, -, -⟩, -⟩ := hf
  simp

lemma FirstPut.concat (hf : FirstPut same k n h) (hc : Keeps same k c) : FirstPut same k n (h ++ [c]) :=
  firstPut_concat.2 (.inr ⟨hf, hc⟩)

lemma present_iff : Present same k h ↔ ∃ v, LastPut same k v h := by
  induction h using List.reverseRecOn with
  | nil => exact iff_of_false since_nil fun hv => since_nil hv.choose_spec
  | append_singleton h c ih =>
    simp only [present_concat, lastPut_concat, ih]
    cases c with
    | put k' v' =>
      by_cases hk : same k' k
      · simp [hk]
      · simp [hk, Keeps, Ignores]
    | remove k' => simp [Keeps, Ignores]
    | none => simp [Keeps, Ignores]

lemma exists_sublist_forall₂ {α β : Type*} {R : α → β → Prop} {xs xs' : List α} {ys : List β} (hsub : xs'.Sublist xs)
    (h : List.Forall₂ R xs ys) : ∃ ys' : List β, ys'.Sublist ys ∧ List.Forall₂ R xs' ys' := by
  induction hsub generalizing ys with
  | slnil => exact ⟨[], List.nil_sublist ys, .nil⟩
  | cons x _ ih =>
    obtain ⟨y, ys, -, htail, rfl⟩ := List.forall₂_cons_left_iff.1 h
    obtain ⟨ys', hsub', h'⟩ := ih htail
    exact ⟨ys', hsub'.cons y, h'⟩
  | cons_cons x _ ih =>
    obtain ⟨y, ys, hxy, htail, rfl⟩ := List.forall₂_cons_left_iff.1 h
    obtain ⟨ys', hsub', h'⟩ := ih htail
    exact ⟨y :: ys', hsub'.cons_cons y, .cons hxy h'⟩

lemma inOrder_nil : InOrder same ([] : List (Change K V)) [] where
  value k v := iff_of_false (by simp) since_nil
  alone := .nil
  order := ⟨[], .nil, .nil⟩

namespace InOrder

lemma present_iff (hin : InOrder same h es) : Present same k h ↔ ∃ e ∈ es, same e.1 k := by
  rw [InsertionOrder.present_iff]
  constructor
  · rintro ⟨v, hv⟩
    obtain ⟨k', hmem, hk⟩ := (hin.value k v).2 hv
    exact ⟨(k', v), hmem, hk⟩
  · rintro ⟨e, hmem, hk⟩
    exact ⟨e.2, (hin.value k e.2).1 ⟨e.1, hmem, hk⟩⟩

lemma none (hin : InOrder same h es) : InOrder same (h ++ [.none]) es where
  value k v := by simpa [lastPut_concat, Ignores] using hin.value k v
  alone := hin.alone
  order := by
    obtain ⟨places, hlt, hplaces⟩ := hin.order
    exact ⟨places, hlt, hplaces.imp fun e n hfirst => hfirst.concat trivial⟩

variable [DecidableRel same]

/-- **A key that is there** gets another value in its place. -/
lemma put_present (hsame : Equivalence same) (hin : InOrder same h es) (hk : ∃ e ∈ es, same e.1 k) :
    InOrder same (h ++ [.put k v]) (put same es k v) := by
  rw [put, if_pos hk]
  refine ⟨fun k' v' => ?_, ?_, ?_⟩
  · rw [lastPut_concat, ← hin.value k' v']
    by_cases hkk : same k k'
    · simp only [Ignores, hkk, not_true_eq_false, and_false, or_false, Change.put.injEq]
      constructor
      · rintro ⟨k₁, hmem, hk₁⟩
        obtain ⟨e, -, heq⟩ := List.mem_map.1 hmem
        split at heq
        · exact ⟨k, ⟨rfl, congrArg Prod.snd heq⟩, hkk⟩
        · rename_i hne
          rw [heq] at hne
          exact absurd (hsame.trans hk₁ (hsame.symm hkk)) hne
      · rintro ⟨k₁, ⟨rfl, rfl⟩, -⟩
        obtain ⟨e, he, hek⟩ := hk
        exact ⟨e.1, List.mem_map.2 ⟨e, he, if_pos hek⟩, hsame.trans hek hkk⟩
    · simp only [Ignores, hkk, not_false_eq_true, and_true, Change.put.injEq]
      have hother : ∀ e : K × V, same e.1 k' → ¬ same e.1 k := fun e he hek => hkk (hsame.trans (hsame.symm hek) he)
      constructor
      · rintro ⟨k₁, hmem, hk₁⟩
        obtain ⟨e, he, heq⟩ := List.mem_map.1 hmem
        have hfst : e.1 = k₁ := by
          split at heq <;> exact congrArg Prod.fst heq
        rw [if_neg (hother e (hfst ▸ hk₁))] at heq
        exact .inr ⟨k₁, heq ▸ he, hk₁⟩
      · rintro (⟨_, ⟨rfl, -⟩, hk'⟩ | ⟨k₁, hmem, hk₁⟩)
        · exact absurd hk' hkk
        · exact ⟨k₁, List.mem_map.2 ⟨_, hmem, if_neg (hother (k₁, v') hk₁)⟩, hk₁⟩
  · refine List.pairwise_map.2 (hin.alone.imp fun {e e'} hne => ?_)
    split <;> split <;> exact hne
  · obtain ⟨places, hlt, hplaces⟩ := hin.order
    refine ⟨places, hlt, List.forall₂_map_left_iff.2 (hplaces.imp fun e n hfirst => ?_)⟩
    have hfirst' : FirstPut same e.1 n (h ++ [.put k v]) := hfirst.concat trivial
    split <;> exact hfirst'

/-- **A new key** comes to the end. -/
lemma put_absent (hsame : Equivalence same) (hin : InOrder same h es) (hk : ¬ ∃ e ∈ es, same e.1 k) :
    InOrder same (h ++ [.put k v]) (put same es k v) := by
  rw [put, if_neg hk]
  refine ⟨fun k' v' => ?_, ?_, ?_⟩
  · rw [lastPut_concat, ← hin.value k' v']
    simp only [List.mem_append, List.mem_singleton, Prod.mk.injEq, Ignores, Change.put.injEq]
    constructor
    · rintro ⟨k₁, hmem | ⟨rfl, rfl⟩, hk₁⟩
      · exact .inr ⟨⟨k₁, hmem, hk₁⟩, fun hkk => hk ⟨_, hmem, hsame.trans hk₁ (hsame.symm hkk)⟩⟩
      · exact .inl ⟨k₁, ⟨rfl, rfl⟩, hk₁⟩
    · rintro (⟨k₁, ⟨rfl, rfl⟩, hk₁⟩ | ⟨⟨k₁, hmem, hk₁⟩, -⟩)
      · exact ⟨k, .inr ⟨rfl, rfl⟩, hk₁⟩
      · exact ⟨k₁, .inl hmem, hk₁⟩
  · refine List.pairwise_append.2 ⟨hin.alone, List.pairwise_singleton _ _, ?_⟩
    intro e he e' he' heq
    rw [List.mem_singleton.1 he'] at heq
    exact hk ⟨e, he, heq⟩
  · obtain ⟨places, hlt, hplaces⟩ := hin.order
    have hbelow : ∀ n ∈ places, n < h.length := by
      have hboth : List.Forall₂ (fun n (e : K × V) => n < h.length ∧ FirstPut same e.1 n h) places es :=
        hplaces.flip.imp fun n e hfirst => ⟨FirstPut.lt_length hfirst, hfirst⟩
      exact ((List.forall₂_and_left _ _).1 hboth).1
    refine ⟨places ++ [h.length], List.pairwise_append.2 ⟨hlt, List.pairwise_singleton _ _, ?_⟩, ?_⟩
    · intro n hn n' hn'
      rw [List.mem_singleton.1 hn']
      exact hbelow n hn
    · have hlast : FirstPut same k h.length (h ++ [.put k v]) :=
        firstPut_concat.2 (.inl ⟨rfl, ⟨v, rfl⟩, mt hin.present_iff.1 hk⟩)
      exact List.rel_append (hplaces.imp fun e n hfirst => hfirst.concat trivial) (.cons hlast .nil)

/-- **A key is removed** with its entry. -/
lemma remove (hsame : Equivalence same) (hin : InOrder same h es) :
    InOrder same (h ++ [.remove k]) (remove same es k) := by
  have hmem : ∀ {e}, e ∈ InsertionOrder.remove same es k ↔ e ∈ es ∧ ¬ same e.1 k := by
    simp [InsertionOrder.remove]
  refine ⟨fun k' v' => ?_, hin.alone.sublist List.filter_sublist, ?_⟩
  · rw [lastPut_concat, ← hin.value k' v']
    simp only [hmem, Ignores, reduceCtorEq, false_and, exists_false, false_or]
    constructor
    · rintro ⟨k₁, ⟨hes, hne⟩, hk₁⟩
      exact ⟨⟨k₁, hes, hk₁⟩, fun hkk => hne (hsame.trans hk₁ (hsame.symm hkk))⟩
    · rintro ⟨⟨k₁, hes, hk₁⟩, hkk⟩
      exact ⟨k₁, ⟨hes, fun hne => hkk (hsame.trans (hsame.symm hne) hk₁)⟩, hk₁⟩
  · obtain ⟨places, hlt, hplaces⟩ := hin.order
    obtain ⟨places', hsub, hplaces'⟩ := exists_sublist_forall₂ List.filter_sublist hplaces
    refine ⟨places', hlt.sublist hsub, ?_⟩
    have hboth := (List.forall₂_and_left _ _).2 ⟨fun e he => (hmem.1 he).2, hplaces'⟩
    exact hboth.imp fun e n hfirst => hfirst.2.concat fun hk => hfirst.1 (hsame.symm hk)

/-- **The rule for what is done to a map.** -/
theorem apply (hsame : Equivalence same) (hin : InOrder same h es) (c : Change K V) :
    InOrder same (h ++ [c]) (c.apply same es) := by
  cases c with
  | put k v =>
    by_cases hk : ∃ e ∈ es, same e.1 k
    · exact hin.put_present hsame hk
    · exact hin.put_absent hsame hk
  | remove k => exact hin.remove hsame
  | none => exact hin.none

end InOrder

end History

end Zutils.Lib.InsertionOrder
