import Mathlib.Data.List.Basic

/-!
# Labelled runs of a step relation

A system is a relation `step s a s'`: in the state `s` the label `a` may lead to `s'`. `Run step s₀ as s` says
that the labels `as`, taken in order from `s₀`, can end in `s`. The labels grow at the end, so that what is
proved of a run may speak of its whole history.
-/

namespace Zutils.Lib

variable {σ α : Type*}

/-- A place in a history with one more entry is the new one, or was there before. -/
lemma snoc_eq_append_cons {as p q : List α} {a c : α} (h : as ++ [a] = p ++ c :: q) :
    (as = p ∧ a = c) ∨ ∃ q', as = p ++ c :: q' := by
  rcases List.eq_nil_or_concat q with rfl | ⟨q', b, rfl⟩
  · obtain ⟨rfl, hlast⟩ := List.append_inj' h rfl
    exact .inl ⟨rfl, (List.cons.inj hlast).1⟩
  · have heq : as ++ [a] = (p ++ c :: q') ++ [b] := by
      rw [h, List.append_assoc, List.concat_eq_append, List.cons_append]
    exact .inr ⟨q', (List.append_inj' heq rfl).1⟩

/-- The labels `as` lead from `s₀` to the last argument. -/
inductive Run (step : σ → α → σ → Prop) (s₀ : σ) : List α → σ → Prop
  | nil : Run step s₀ [] s₀
  | snoc {as : List α} {s : σ} {a : α} {s' : σ} :
      Run step s₀ as s → step s a s' → Run step s₀ (as ++ [a]) s'

namespace Run

variable {step : σ → α → σ → Prop} {s₀ s : σ} {as : List α}

/-- **The invariant rule**: what holds at the start with no history and survives every step holds at the end of
every run. -/
theorem inv {P : List α → σ → Prop} (h : Run step s₀ as s) (h0 : P [] s₀)
    (hs : ∀ as s a s', P as s → step s a s' → P (as ++ [a]) s') : P as s := by
  induction h with
  | nil => exact h0
  | snoc _ hstep ih => exact hs _ _ _ _ ih hstep

/-- **The invariant rule for steps that are executed**: it is enough that what is executed has a result, and that the
invariant holds of it. -/
theorem inv_of_exec {ε : Type*} {P : List α → σ → Prop} (guard : α → σ → Prop) (exec : α → σ → Except ε σ)
    (h : Run step s₀ as s) (hstep : ∀ s a s', step s a s' → guard a s ∧ exec a s = .ok s') (h0 : P [] s₀)
    (hs : ∀ as s a, P as s → guard a s → ∃ s', exec a s = .ok s' ∧ P (as ++ [a]) s') : P as s := by
  refine h.inv h0 ?_
  intro as s a s' hP ha
  obtain ⟨hguard, he⟩ := hstep s a s' ha
  obtain ⟨s'', he', hP'⟩ := hs as s a hP hguard
  obtain rfl : s' = s'' := Except.ok.inj (he.symm.trans he')
  exact hP'

theorem append {bs : List α} {t : σ} (h : Run step s₀ as s) (h' : Run step s bs t) : Run step s₀ (as ++ bs) t := by
  induction h' with
  | nil => rwa [List.append_nil]
  | snoc _ hstep ih =>
    rw [← List.append_assoc]
    exact ih.snoc hstep

theorem mono {step' : σ → α → σ → Prop} (h : Run step s₀ as s) (hstep : ∀ s a s', step s a s' → step' s a s') :
    Run step' s₀ as s := by
  induction h with
  | nil => exact .nil
  | snoc _ ha ih => exact ih.snoc (hstep _ _ _ ha)

/-- **The simulation rule**: where an invariant is kept and what a step does is, seen through `f`, a step of the
specification, a run is a run of the specification. -/
theorem simulates {τ : Type*} (spec : τ → α → τ → Prop) (f : σ → τ) (I : σ → Prop) (h : Run step s₀ as s) (h0 : I s₀)
    (hs : ∀ s a s', I s → step s a s' → I s' ∧ spec (f s) a (f s')) : I s ∧ Run spec (f s₀) as (f s) := by
  induction h with
  | nil => exact ⟨h0, .nil⟩
  | snoc _ hstep ih =>
    obtain ⟨hI, hrun⟩ := ih
    obtain ⟨hI', hspec⟩ := hs _ _ _ hI hstep
    exact ⟨hI', hrun.snoc hspec⟩

/-- **The measure rule**: where an invariant is kept and every step from it makes the measure smaller, a run is no longer
than the measure at its start. -/
theorem length_le (I : σ → Prop) (measure : σ → ℕ) (h : Run step s₀ as s) (h0 : I s₀)
    (hs : ∀ s a s', I s → step s a s' → I s' ∧ measure s' < measure s) :
    I s ∧ as.length + measure s ≤ measure s₀ := by
  induction h with
  | nil => exact ⟨h0, by simp⟩
  | snoc _ hstep ih =>
    obtain ⟨hI, hle⟩ := ih
    obtain ⟨hI', hlt⟩ := hs _ _ _ hI hstep
    refine ⟨hI', ?_⟩
    rw [List.length_append, List.length_singleton]
    omega

theorem of_foldlM {f : σ → α → Option σ} (hf : ∀ s a s', f s a = some s' → step s a s')
    (h : as.foldlM f s₀ = some s) : Run step s₀ as s := by
  induction as generalizing s₀ with
  | nil =>
    obtain rfl : s₀ = s := Option.some.inj h
    exact .nil
  | cons a as ih =>
    rw [List.foldlM_cons] at h
    obtain ⟨s₁, h₁, h₂⟩ := Option.bind_eq_some_iff.1 h
    exact (Run.nil.snoc (hf _ _ _ h₁) : Run step s₀ [a] s₁).append (ih h₂)

theorem of_guarded (guard : α → σ → Prop) [∀ a s, Decidable (guard a s)] (exec : α → σ → Option σ)
    (hstep : ∀ s a s', guard a s → exec a s = some s' → step s a s')
    (h : as.foldlM (fun s a => if guard a s then exec a s else none) s₀ = some s) : Run step s₀ as s := by
  refine of_foldlM ?_ h
  intro s a s' he
  obtain ⟨hg, he⟩ := Option.ite_none_right_eq_some.1 he
  exact hstep s a s' hg he

/-- The labels of a run tell where it ends, if each step is told by its label. -/
lemma unique (hdet : ∀ s a s' s'', step s a s' → step s a s'' → s' = s'') {t : σ} (h : Run step s₀ as s)
    (ht : Run step s₀ as t) : t = s := by
  induction h generalizing t with
  | nil =>
    generalize heq : ([] : List α) = as' at ht
    cases ht with
    | nil => rfl
    | snoc _ _ => simp at heq
  | snoc _ hstep ih =>
    generalize heq : _ ++ [_] = as' at ht
    cases ht with
    | nil => simp at heq
    | snoc hrun' hstep' =>
      obtain ⟨rfl, hlast⟩ := List.append_inj' heq rfl
      obtain ⟨rfl, -⟩ := List.cons.inj hlast
      obtain rfl := ih hrun'
      exact hdet _ _ _ _ hstep' hstep

/-- **The rule for conditions on steps**: if under an invariant a step keeps it when the condition is met, and leads to a
good state only then, all states of a run are good if and only if all its steps meet the condition. -/
theorem forall_good_iff {Inv Good : σ → Prop} {Meets : σ → α → Prop}
    (hdet : ∀ s a s' s'', step s a s' → step s a s'' → s' = s'') (h0 : Inv s₀) (hgood : ∀ {s}, Inv s → Good s)
    (hkeep : ∀ {s a s'}, Inv s → step s a s' → Meets s a → Inv s')
    (honly : ∀ {s a s'}, Inv s → step s a s' → Good s' → Meets s a) (h : Run step s₀ as s) :
    (∀ p q t, as = p ++ q → Run step s₀ p t → Good t) ↔
      ∀ p a q t, as = p ++ a :: q → Run step s₀ p t → Meets t a := by
  -- The invariant is carried along both ways.
  have hboth : ((∀ p q t, as = p ++ q → Run step s₀ p t → Good t) →
        Inv s ∧ ∀ p a q t, as = p ++ a :: q → Run step s₀ p t → Meets t a) ∧
      ((∀ p a q t, as = p ++ a :: q → Run step s₀ p t → Meets t a) →
        Inv s ∧ ∀ p q t, as = p ++ q → Run step s₀ p t → Good t) := by
    induction h with
    | nil =>
      refine ⟨fun _ => ⟨h0, by simp⟩, fun _ => ⟨h0, fun p q t heq ht => ?_⟩⟩
      obtain ⟨rfl, -⟩ := List.append_eq_nil_iff.1 heq.symm
      obtain rfl := unique hdet .nil ht
      exact hgood h0
    | @snoc as s a s' hrun hstep ih =>
      refine ⟨fun hall => ?_, fun hall => ?_⟩
      · obtain ⟨hinv, hmeets⟩ := ih.1 fun p q t heq ht => hall p (q ++ [a]) t (by rw [heq, List.append_assoc]) ht
        have hmeet : Meets s a := honly hinv hstep (hall (as ++ [a]) [] s' (List.append_nil _).symm (hrun.snoc hstep))
        refine ⟨hkeep hinv hstep hmeet, fun p b q t heq ht => ?_⟩
        rcases snoc_eq_append_cons heq with ⟨rfl, rfl⟩ | ⟨q', heq'⟩
        · obtain rfl := unique hdet hrun ht
          exact hmeet
        · exact hmeets p b q' t heq' ht
      · obtain ⟨hinv, hgoods⟩ := ih.2 fun p b q t heq ht =>
          hall p b (q ++ [a]) t (by rw [heq, List.append_assoc, List.cons_append]) ht
        have hinv' := hkeep hinv hstep (hall as a [] s rfl hrun)
        refine ⟨hinv', fun p q t heq ht => ?_⟩
        rcases List.eq_nil_or_concat q with rfl | ⟨q', b, rfl⟩
        · rw [List.append_nil] at heq
          subst heq
          obtain rfl := unique hdet (hrun.snoc hstep) ht
          exact hgood hinv'
        · rw [List.concat_eq_append, ← List.append_assoc] at heq
          exact hgoods p q' t (List.append_inj' heq rfl).1 ht
  exact ⟨fun h => (hboth.1 h).2, fun h => (hboth.2 h).2⟩

end Run

end Zutils.Lib
