import Zutils.Lib.Run
import Mathlib.Data.List.Induction

/-!
# What has happened last

`Since P Q l` says of a history `l` that at one of its entries `P` held, which may look at the history before it, and
that all entries after it satisfy `Q`. It is told by the last entry and the history before that (`since_concat`).

A fold that may fail goes through if and only if each entry is safe after those before it (`foldlM_ok_iff`).
-/

namespace Zutils.Lib

variable {α σ ε : Type*}

/-- `P` at an entry, and since then `Q`. -/
def Since (P : List α → α → Prop) (Q : α → Prop) (l : List α) : Prop :=
  ∃ a x b, l = a ++ x :: b ∧ P a x ∧ ∀ y ∈ b, Q y

variable {P : List α → α → Prop} {Q : α → Prop} {l : List α} {x : α}

@[simp] lemma since_nil : ¬ Since P Q [] := by
  rintro ⟨a, x, b, h, -⟩
  simp at h

/-- The entry is the last one, or an earlier one and the last one satisfies `Q`. -/
@[simp] lemma since_concat : Since P Q (l ++ [x]) ↔ P l x ∨ Since P Q l ∧ Q x := by
  constructor
  · rintro ⟨a, y, b, h, hP, hQ⟩
    rcases List.eq_nil_or_concat b with rfl | ⟨b', z, rfl⟩
    · obtain ⟨rfl, hlast⟩ := List.append_inj' h rfl
      obtain rfl : x = y := (List.cons.inj hlast).1
      exact .inl hP
    · have heq : l ++ [x] = (a ++ y :: b') ++ [z] := by
        rw [h, List.append_assoc, List.concat_eq_append, List.cons_append]
      obtain ⟨rfl, hlast⟩ := List.append_inj' heq rfl
      obtain rfl : x = z := (List.cons.inj hlast).1
      exact .inr ⟨⟨a, y, b', rfl, hP, fun w hw => hQ w (by simp [hw])⟩, hQ x (by simp)⟩
  · rintro (hP | ⟨⟨a, y, b, rfl, hP, hQ⟩, hx⟩)
    · exact ⟨l, x, [], rfl, hP, by simp⟩
    · refine ⟨a, y, b ++ [x], by simp, hP, fun w hw => ?_⟩
      rcases List.mem_append.1 hw with hw | hw
      · exact hQ w hw
      · rwa [List.mem_singleton.1 hw]

/-- Each entry of a history is safe after those before it. -/
def SafeAll (Safe : List α → α → Prop) (l : List α) : Prop := ∀ a x b, l = a ++ x :: b → Safe a x

variable {Safe : List α → α → Prop}

lemma safeAll_nil : SafeAll Safe [] := by
  intro a x b h
  simp at h

lemma safeAll_concat : SafeAll Safe (l ++ [x]) ↔ SafeAll Safe l ∧ Safe l x := by
  constructor
  · intro h
    exact ⟨fun a y b hl => h a y (b ++ [x]) (by rw [hl]; simp), h l x [] rfl⟩
  · rintro ⟨hl, hx⟩ a y b heq
    obtain ⟨rfl, rfl⟩ | ⟨b', hl'⟩ := snoc_eq_append_cons heq
    · exact hx
    · exact hl a y b' hl'

/-- **The rule for folds that may fail**: with an invariant that tells from the history whether the next step fails,
the fold goes through if and only if each entry is safe, and then the invariant holds at its end. -/
lemma foldlM_ok_iff {step : σ → α → Except ε σ} {Inv : List α → σ → Prop} {s₀ : σ} (h0 : Inv [] s₀)
    (hsafe : ∀ a s x, Inv a s → (Safe a x ↔ ∃ s', step s x = .ok s'))
    (hinv : ∀ a s x s', Inv a s → step s x = .ok s' → Inv (a ++ [x]) s') (l : List α) :
    (∀ s, l.foldlM step s₀ = .ok s → Inv l s) ∧ ((∃ s, l.foldlM step s₀ = .ok s) ↔ SafeAll Safe l) := by
  induction l using List.reverseRecOn with
  | nil =>
    refine ⟨fun s hs => ?_, iff_of_true ⟨s₀, rfl⟩ safeAll_nil⟩
    cases hs
    exact h0
  | append_singleton l x ih =>
    obtain ⟨hl, hiff⟩ := ih
    rw [List.foldlM_append, safeAll_concat, ← hiff]
    cases hfold : l.foldlM step s₀ with
    | error e =>
      refine ⟨fun s hs => ?_, iff_of_false ?_ ?_⟩
      · cases hs
      · rintro ⟨s, hs⟩
        cases hs
      · rintro ⟨⟨s, hs⟩, -⟩
        cases hs
    | ok s =>
      have hone : ∀ s', (List.foldlM step s [x] : Except ε σ) = .ok s' ↔ step s x = .ok s' := by
        intro s'
        rw [List.foldlM_cons]
        cases step s x <;> exact Iff.rfl
      refine ⟨fun s' hs' => hinv l s x s' (hl s hfold) ((hone s').1 hs'), ?_⟩
      rw [hsafe l s x (hl s hfold)]
      constructor
      · rintro ⟨s', hs'⟩
        exact ⟨⟨s, rfl⟩, s', (hone s').1 hs'⟩
      · rintro ⟨-, s', hs'⟩
        exact ⟨s', (hone s').2 hs'⟩

end Zutils.Lib
