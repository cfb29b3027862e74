import Mathlib.Tactic.Common

/-!
# Programs that keep their state when they stop

A program over a state returns a value or stops with a reason, and either way there is a state at the end. `Ensures`
says what holds at the end from one state on, with a postcondition for each of the two. A program keeps a property of
states if it holds at either end whenever it held before (`Keeps`).
-/

namespace Zutils.Lib

variable {ε σ α β : Type}

/-- The state at the end. -/
def finalState : EStateM.Result ε σ α → σ
  | .ok _ s => s
  | .error _ s => s

/-- From `s` on the program returns with `Q`, or stops with `E`. -/
def Ensures (x : EStateM ε σ α) (s : σ) (Q : α → σ → Prop) (E : ε → σ → Prop) : Prop :=
  match x s with
  | .ok a s' => Q a s'
  | .error e s' => E e s'

section

variable {x : EStateM ε σ α} {f : α → EStateM ε σ β} {s : σ} {Q Q' : α → σ → Prop} {E E' : ε → σ → Prop}

@[simp] lemma ensures_pure {a : α} : Ensures (pure a) s Q E ↔ Q a s := Iff.rfl

@[simp] lemma ensures_throw {e : ε} : Ensures (throw e : EStateM ε σ α) s Q E ↔ E e s := Iff.rfl

@[simp] lemma ensures_get {Q : σ → σ → Prop} : Ensures get s Q E ↔ Q s s := Iff.rfl

@[simp] lemma ensures_modify {g : σ → σ} {Q : Unit → σ → Prop} : Ensures (modify g) s Q E ↔ Q () (g s) := Iff.rfl

/-- **The rule of composition.** -/
@[simp] lemma ensures_bind {Q : β → σ → Prop} :
    Ensures (x >>= f) s Q E ↔ Ensures x s (fun a s' => Ensures (f a) s' Q E) E := by
  show (match EStateM.bind x f s with
    | .ok a s' => Q a s'
    | .error e s' => E e s') ↔ _
  unfold EStateM.bind Ensures
  cases x s <;> exact Iff.rfl

/-- **The rule of consequence.** -/
lemma Ensures.mono (h : Ensures x s Q E) (hQ : ∀ a s', Q a s' → Q' a s') (hE : ∀ e s', E e s' → E' e s') :
    Ensures x s Q' E' := by
  unfold Ensures at h ⊢
  cases hx : x s with
  | ok a s' =>
    rw [hx] at h
    exact hQ a s' h
  | error e s' =>
    rw [hx] at h
    exact hE e s' h

/-- The rule of consequence for what is returned. -/
lemma Ensures.imp (h : Ensures x s Q E) (hQ : ∀ a s', Q a s' → Q' a s') : Ensures x s Q' E :=
  h.mono hQ fun _ _ h => h

lemma Ensures.bind {Q' : β → σ → Prop} (h : Ensures x s Q E) (hf : ∀ a s', Q a s' → Ensures (f a) s' Q' E) :
    Ensures (x >>= f) s Q' E :=
  ensures_bind.2 (h.imp hf)

lemma ensures_finalState {P : σ → Prop} : Ensures x s (fun _ => P) (fun _ => P) ↔ P (finalState (x s)) := by
  unfold Ensures finalState
  cases x s <;> exact Iff.rfl

lemma Ensures.of_ok (h : Ensures x s Q E) {a : α} {s' : σ} (hx : x s = .ok a s') : Q a s' := by
  rwa [Ensures, hx] at h

end

/-! ### Properties that are kept -/

/-- The property holds at either end if it held before. -/
def Keeps (P : σ → Prop) (x : EStateM ε σ α) : Prop := ∀ s, P s → Ensures x s (fun _ => P) (fun _ => P)

section

variable {P : σ → Prop} {x : EStateM ε σ α} {f : α → EStateM ε σ β}

/-- **What is kept** holds at either end. -/
lemma Keeps.ensures {s : σ} {Q : α → σ → Prop} {E : ε → σ → Prop} (hs : P s) (hx : Keeps P x)
    (hQ : ∀ a s', P s' → Q a s') (hE : ∀ e s', P s' → E e s') : Ensures x s Q E :=
  (hx s hs).mono hQ hE

lemma keeps_pure (a : α) : Keeps P (pure a : EStateM ε σ α) := fun _ h => h

lemma keeps_throw (e : ε) : Keeps P (throw e : EStateM ε σ α) := fun _ h => h

lemma keeps_modify {g : σ → σ} (h : ∀ s, P s → P (g s)) : Keeps P (modify g : EStateM ε σ Unit) := h

lemma Keeps.bind (hx : Keeps P x) (hf : ∀ a, Keeps P (f a)) : Keeps P (x >>= f) :=
  fun s hs => (hx s hs).bind fun a s' h => hf a s' h

lemma Keeps.ite {p : Prop} [Decidable p] {y : EStateM ε σ α} (hx : Keeps P x) (hy : Keeps P y) :
    Keeps P (if p then x else y) := by
  split
  · exact hx
  · exact hy

end

end Zutils.Lib
