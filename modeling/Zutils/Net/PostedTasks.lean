import Zutils.Lib.Run
import Mathlib.Data.List.Basic

/-!
# Tasks bound to a handler (`IOHandler::Create`, `SendData`, `Close`)

Off the loop, `Create` posts `OnCreated` and `SendData` posts `SendInternal2`. The tasks are bound with
`base::Unretained`, which takes no reference: nothing but the reference of `Create`, which `Close` releases, and those
of the threads keeps the handler alive until they have run. Threads copy and drop their references, the loop runs the
tasks in FIFO order, and `Close` runs on the loop, in any interleaving.

A thread that posts a message and drops its reference, with a `Close` before the loop runs the task, leaves the task
with a dead handler (`task_outlives_handler`). It does not happen when the last reference never goes while a task is
queued (`tasks_find_handler`).
-/

namespace Zutils.Net

open Zutils.Lib

/-- A task bound to the handler. -/
inductive HandlerTask where
  | onCreated
  | sendInternal2 (data : List UInt8)
  deriving DecidableEq, Repr

/-- A handler, with its references and its tasks. -/
structure Posted (τ : Type) where
  /-- The reference count. -/
  refs : ℕ
  /-- The threads that hold an `IOHandlerPtr`, each as often as it holds one. -/
  holders : List τ
  /-- `Create` has been called. -/
  created : Bool
  /-- The references of `Create` that no `Close` has released. -/
  creation : ℕ
  /-- The queued tasks bound to the handler, the next one first. -/
  tasks : List HandlerTask
  deriving DecidableEq, Repr

variable {τ : Type}

/-- The thread `t` holds a new handler. -/
def Posted.new (t : τ) : Posted τ := ⟨1, [t], false, 0, []⟩

/-- An event. -/
inductive PostedEvent (τ : Type) where
  /-- `Create()` on the thread `t`. -/
  | create (t : τ)
  /-- `SendData(data)` on the thread `t`. -/
  | sendData (t : τ) (data : List UInt8)
  /-- The thread `t` gets an `IOHandlerPtr`, from a holder or in a callback. -/
  | addRef (t : τ)
  /-- The thread `t` drops one. -/
  | dropRef (t : τ)
  /-- The loop runs the next task. -/
  | runTask
  /-- `Close()` runs on the loop. -/
  | close
  deriving DecidableEq, Repr

namespace PostedEvent

/-- The state after an event that can happen; `loop` is the thread of the loop, which posts nothing. -/
def exec [DecidableEq τ] (loop : τ) : PostedEvent τ → Posted τ → Option (Posted τ)
  | create t, s =>
    if t ∈ s.holders ∧ s.created = false then
      some { s with
        refs := s.refs + 1, created := true, creation := s.creation + 1
        tasks := if t = loop then s.tasks else s.tasks ++ [.onCreated] }
    else none
  | sendData t data, s =>
    if t ∈ s.holders then
      some { s with tasks := if t = loop then s.tasks else s.tasks ++ [.sendInternal2 data] }
    else none
  | addRef t, s =>
    if s.holders ≠ [] ∨ 0 < s.creation then some { s with refs := s.refs + 1, holders := t :: s.holders } else none
  | dropRef t, s =>
    if t ∈ s.holders then some { s with refs := s.refs - 1, holders := s.holders.erase t } else none
  | runTask, s =>
    match s.tasks with
    | [] => none
    | _ :: tasks => some { s with tasks }
  | close, s => if s.created = true then some { s with refs := s.refs - 1, creation := s.creation - 1 } else none

/-- `Close` runs while the reference of `Create` is there, and the last reference goes only when no task is queued. -/
def Disciplined : PostedEvent τ → Posted τ → Prop
  | close, s => 0 < s.creation ∧ (s.refs = 1 → s.tasks = [])
  | dropRef _, s => s.refs = 1 → s.tasks = []
  | create _, _ | sendData _ _, _ | addRef _, _ | runTask, _ => True

instance (e : PostedEvent τ) (s : Posted τ) : Decidable (e.Disciplined s) :=
  match e with
  | close => inferInstanceAs (Decidable (_ ∧ _))
  | dropRef _ => inferInstanceAs (Decidable (_ → _))
  | create _ | sendData _ _ | addRef _ | runTask => inferInstanceAs (Decidable True)

end PostedEvent

variable [DecidableEq τ]

/-- An event happens. -/
def Posts (loop : τ) (s : Posted τ) (e : PostedEvent τ) (s' : Posted τ) : Prop := e.exec loop s = some s'

/-- A disciplined event happens. -/
def PostsDisciplined (loop : τ) (s : Posted τ) (e : PostedEvent τ) (s' : Posted τ) : Prop :=
  Posts loop s e s' ∧ e.Disciplined s

/-- What holds of a handler and its tasks. -/
structure Posted.Kept (s : Posted τ) : Prop where
  /-- Every reference is someone's. -/
  refs_eq : s.refs = s.holders.length + s.creation
  /-- A queued task has a live handler. -/
  alive : s.tasks ≠ [] → 0 < s.refs

/-- **A disciplined event** keeps the handler for its tasks. -/
theorem Posted.Kept.exec {loop : τ} {s s' : Posted τ} (h : s.Kept) {e : PostedEvent τ} (hd : e.Disciplined s)
    (he : e.exec loop s = some s') : s'.Kept := by
  have hrefs := h.refs_eq
  cases e with
  | create t =>
    obtain ⟨-, he⟩ := Option.ite_none_right_eq_some.1 he
    obtain rfl := Option.some.inj he
    exact ⟨by simp only; omega, fun _ => Nat.succ_pos _⟩
  | sendData t data =>
    obtain ⟨hmem, he⟩ := Option.ite_none_right_eq_some.1 he
    obtain rfl := Option.some.inj he
    have hpos := List.length_pos_of_mem hmem
    exact ⟨hrefs, fun _ => by simp only; omega⟩
  | addRef t =>
    obtain ⟨-, he⟩ := Option.ite_none_right_eq_some.1 he
    obtain rfl := Option.some.inj he
    exact ⟨by simp only [List.length_cons]; omega, fun _ => Nat.succ_pos _⟩
  | dropRef t =>
    obtain ⟨hmem, he⟩ := Option.ite_none_right_eq_some.1 he
    obtain rfl := Option.some.inj he
    have hpos := List.length_pos_of_mem hmem
    have herase := List.length_erase_of_mem hmem
    refine ⟨by simp only; omega, ?_⟩
    intro htasks
    have hne : s.refs ≠ 1 := fun h1 => htasks (hd h1)
    simp only
    omega
  | runTask =>
    rcases htasks : s.tasks with _ | ⟨task, tasks⟩
    · simp only [PostedEvent.exec, htasks] at he
      cases he
    · simp only [PostedEvent.exec, htasks] at he
      obtain rfl := Option.some.inj he
      exact ⟨hrefs, fun _ => h.alive (by rw [htasks]; exact List.cons_ne_nil _ _)⟩
  | close =>
    obtain ⟨-, he⟩ := Option.ite_none_right_eq_some.1 he
    obtain rfl := Option.some.inj he
    have hpos := hd.1
    refine ⟨by simp only; omega, ?_⟩
    intro htasks
    have hne : s.refs ≠ 1 := fun h1 => htasks (hd.2 h1)
    simp only
    omega

/-- **A task finds its handler alive** in every run whose events are disciplined: whenever the loop runs a task, the
reference count is positive. -/
theorem tasks_find_handler {loop t : τ} {es : List (PostedEvent τ)} {s : Posted τ}
    (h : Run (PostsDisciplined loop) (Posted.new t) es s) :
    ∀ s', Posts loop s .runTask s' → 0 < s.refs := by
  have hkept : s.Kept := by
    refine h.inv (P := fun _ s => s.Kept) ⟨rfl, fun _ => Nat.one_pos⟩ ?_
    rintro es s e s' hs ⟨he, hd⟩
    exact hs.exec hd he
  intro s' hrun
  apply hkept.alive
  intro hnil
  simp only [Posts, PostedEvent.exec, hnil] at hrun
  cases hrun

/-- Thread 1 creates the handler and sends a message; the loop 0 has run `OnCreated` and runs the message next. -/
theorem tasks_find_handler_run : ∃ s s' : Posted ℕ,
    Run (PostsDisciplined 0) (Posted.new 1) [.create 1, .runTask, .sendData 1 [7], .dropRef 1] s ∧
    Posts 0 s .runTask s' ∧ 0 < s.refs := by
  have h : Run (PostsDisciplined 0) (Posted.new 1) [.create 1, .runTask, .sendData 1 [7], .dropRef 1]
      ⟨1, [], true, 1, [.sendInternal2 [7]]⟩ :=
    Run.of_guarded PostedEvent.Disciplined (PostedEvent.exec 0) (fun _ _ _ hd he => ⟨he, hd⟩) rfl
  have hrun : Posts 0 (⟨1, [], true, 1, [.sendInternal2 [7]]⟩ : Posted ℕ) .runTask ⟨1, [], true, 1, []⟩ := rfl
  exact ⟨_, _, h, hrun, tasks_find_handler h _ hrun⟩

/-- **A task can outlive its handler**: thread 1 posts a message and drops its reference, the peer closes the
connection, and then the loop runs the message. -/
theorem task_outlives_handler : ∃ s s' : Posted ℕ,
    Run (Posts 0) (Posted.new 1) [.create 1, .runTask, .sendData 1 [7], .dropRef 1, .close] s ∧
    Posts 0 s .runTask s' ∧ s.refs = 0 := by
  have h : Run (Posts 0) (Posted.new 1) [.create 1, .runTask, .sendData 1 [7], .dropRef 1, .close]
      ⟨0, [], true, 0, [.sendInternal2 [7]]⟩ :=
    Run.of_foldlM (f := fun s (e : PostedEvent ℕ) => e.exec 0 s) (fun _ _ _ he => he) rfl
  have hrun : Posts 0 (⟨0, [], true, 0, [.sendInternal2 [7]]⟩ : Posted ℕ) .runTask ⟨0, [], true, 0, []⟩ := rfl
  exact ⟨_, _, h, hrun, rfl⟩

end Zutils.Net
