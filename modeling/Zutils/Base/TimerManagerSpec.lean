import Zutils.Base.TimerManager
import Zutils.Lib.Grant
import Zutils.Lib.Run

/-!
# What a `TimerManager` keeps

The entries of the map are the timers that run, each under the id that is in its task (`Inv`). An event arms a timer,
removes one or all, or changes nothing (`Inv.exec`). For one id, the history of a run is a history of grants: a `SetTimer`
that is accepted grants a call of `OnTimer`, and `KillTimer` and `Destroy` revoke it (`mark`).
-/

namespace Zutils

open Lib

namespace TimerManager

/-- A timer for the id runs, and has this time in its task. -/
def Armed (s : TimerManager) (timerId : UInt32) (tm : ℤ) : Prop :=
  ∃ t : ℕ, s.heap[t]? = some (some ⟨true, some (timerId, tm)⟩)

/-- The entries of the map are the timers that have not been destroyed, and these run. -/
structure Inv (s : TimerManager) : Prop where
  entry : ∀ timerId t, s.timers.lookup timerId = some t → ∃ tm, s.heap[t]? = some (some ⟨true, some (timerId, tm)⟩)
  timer : ∀ (t : ℕ) x, s.heap[t]? = some (some x) →
    ∃ timerId tm, x = ⟨true, some (timerId, tm)⟩ ∧ s.timers.lookup timerId = some t

/-- What the event says about the timer of an id. -/
def mark (timerId : UInt32) : TimerEvent × TimerOutput → Mark ℤ
  | (.setTimer i tm, .accepted) => if i = timerId then .grant tm else .other
  | (.killTimer i, _) => if i = timerId then .revoke else .other
  | (.destroy, _) => .revoke
  | (.runTask _, .onTimer i tm) => if i = timerId then .use tm else .other
  | _ => .other

section

variable {s s' : TimerManager} {timerId : UInt32} {t : ℕ} {tm : ℤ}

/-- **The keys of the map** are the ids whose timer is armed. -/
lemma Inv.mem_iff (h : Inv s) : timerId ∈ s.timers ↔ ∃ tm, s.Armed timerId tm := by
  rw [← AList.lookup_isSome, Option.isSome_iff_exists]
  constructor
  · rintro ⟨t, ht⟩
    obtain ⟨tm, hheap⟩ := h.entry timerId t ht
    exact ⟨tm, t, hheap⟩
  · rintro ⟨tm, t, hheap⟩
    obtain ⟨timerId', tm', heq, hlookup⟩ := h.timer t _ hheap
    cases heq
    exact ⟨t, hlookup⟩

/-! ### Erasing entries -/

lemma stop_erase : (s.stop t).erase timerId t = s.erase timerId t := by
  have hheap : (s.heap.modify t (Option.map Timer.stop)).set t none = s.heap.set t none := by
    refine List.ext_getElem? ?_
    intro u
    rw [List.getElem?_set, List.getElem?_set, List.length_modify]
    split
    · rfl
    · rename_i hne
      exact List.getElem?_modify_ne _ _ hne
  rw [erase, erase, stop, hheap]

lemma Inv.erase (h : Inv s) (ht : s.timers.lookup timerId = some t) :
    Inv (s.erase timerId t) ∧ ∀ i v, (s.erase timerId t).Armed i v → s.Armed i v ∧ i ≠ timerId := by
  have hheap : ∀ (u : ℕ) x, (s.heap.set t none)[u]? = some (some x) → u ≠ t ∧ s.heap[u]? = some (some x) := by
    intro u x hu
    rw [List.getElem?_set] at hu
    split at hu
    · split at hu <;> cases hu
    · rename_i hne
      exact ⟨Ne.symm hne, hu⟩
  have hother : ∀ (u : ℕ) i v, (s.heap.set t none)[u]? = some (some ⟨true, some (i, v)⟩) →
      s.timers.lookup i = some u ∧ i ≠ timerId := by
    intro u i v hu
    obtain ⟨hne, hu⟩ := hheap u _ hu
    obtain ⟨i', v', heq, hlookup⟩ := h.timer u _ hu
    cases heq
    refine ⟨hlookup, ?_⟩
    rintro rfl
    exact hne (Option.some.inj (hlookup.symm.trans ht))
  refine ⟨⟨?_, ?_⟩, ?_⟩
  · intro i u hu
    have hne : i ≠ timerId := by
      rintro rfl
      cases (AList.lookup_erase i s.timers).symm.trans hu
    have hlookup : s.timers.lookup i = some u := (AList.lookup_erase_ne hne).symm.trans hu
    obtain ⟨v, hheap'⟩ := h.entry i u hlookup
    have htu : t ≠ u := by
      rintro rfl
      obtain ⟨v', hheap''⟩ := h.entry timerId t ht
      cases hheap'.symm.trans hheap''
      exact hne rfl
    exact ⟨v, (List.getElem?_set_ne htu).trans hheap'⟩
  · intro u x hu
    obtain ⟨i, v, rfl, -⟩ := h.timer u x (hheap u x hu).2
    obtain ⟨hlookup, hne⟩ := hother u i v hu
    exact ⟨i, v, rfl, (AList.lookup_erase_ne hne).trans hlookup⟩
  · rintro i v ⟨u, hu⟩
    exact ⟨⟨u, (hheap u _ hu).2⟩, (hother u i v hu).2⟩

lemma Inv.killTimer (h : Inv s) (timerId : UInt32) :
    Inv (s.killTimer timerId) ∧ ∀ i v, (s.killTimer timerId).Armed i v → s.Armed i v ∧ i ≠ timerId := by
  cases hlookup : s.timers.lookup timerId with
  | none =>
    have hkill : s.killTimer timerId = s := by
      rw [TimerManager.killTimer, hlookup]
    rw [hkill]
    refine ⟨h, ?_⟩
    intro i v hv
    refine ⟨hv, ?_⟩
    rintro rfl
    obtain ⟨t, ht⟩ := Option.isSome_iff_exists.1 (AList.lookup_isSome.2 (h.mem_iff.2 ⟨v, hv⟩))
    cases hlookup.symm.trans ht
  | some t =>
    have hkill : s.killTimer timerId = s.erase timerId t := by
      rw [TimerManager.killTimer, hlookup]
      exact stop_erase
    rw [hkill]
    exact h.erase hlookup

lemma foldl_stop (es : List (Σ _ : UInt32, ℕ)) (s : TimerManager) :
    (es.foldl (fun s e => s.stop e.2) s).timers = s.timers ∧
      ∀ (u : ℕ) x, (es.foldl (fun s e => s.stop e.2) s).heap[u]? = some (some x) →
        ∃ y, s.heap[u]? = some (some y) := by
  induction es generalizing s with
  | nil => exact ⟨rfl, fun u x hu => ⟨x, hu⟩⟩
  | cons e es ih =>
    obtain ⟨htimers, hheap⟩ := ih (s.stop e.2)
    refine ⟨htimers, ?_⟩
    intro u x hu
    obtain ⟨y, hy⟩ := hheap u x hu
    have hmod : (s.heap.modify e.2 (Option.map Timer.stop))[u]? = some (some y) := hy
    rw [List.getElem?_modify] at hmod
    obtain ⟨z, hz, hzy⟩ := Option.map_eq_some_iff.1 hmod
    cases z with
    | none => split at hzy <;> cases hzy
    | some z => exact ⟨z, hz⟩

lemma foldl_set (es : List (Σ _ : UInt32, ℕ)) (heap : List (Option Timer)) {u : ℕ} {x : Timer}
    (hu : (es.foldl (fun heap e => heap.set e.2 none) heap)[u]? = some (some x)) :
    heap[u]? = some (some x) ∧ ∀ e ∈ es, e.2 ≠ u := by
  induction es generalizing heap with
  | nil => exact ⟨hu, by rintro e ⟨⟩⟩
  | cons e es ih =>
    obtain ⟨hheap, hes⟩ := ih _ hu
    rw [List.getElem?_set] at hheap
    split at hheap
    · split at hheap <;> cases hheap
    · rename_i hne
      exact ⟨hheap, List.forall_mem_cons.2 ⟨hne, hes⟩⟩

lemma Inv.destroy (h : Inv s) : Inv s.destroy ∧ ∀ i v, ¬ s.destroy.Armed i v := by
  have hgone : ∀ (u : ℕ) x, s.destroy.heap[u]? ≠ some (some x) := by
    intro u x hu
    obtain ⟨htimers, hstop⟩ := foldl_stop s.timers.entries s
    obtain ⟨hheap, hes⟩ := foldl_set _ _ hu
    obtain ⟨y, hy⟩ := hstop u x hheap
    obtain ⟨i, v, -, hlookup⟩ := h.timer u y hy
    rw [htimers] at hes
    exact hes ⟨i, u⟩ (AList.mem_lookup_iff.1 hlookup) rfl
  refine ⟨⟨?_, ?_⟩, ?_⟩
  · intro i u hu
    cases (AList.lookup_empty i).symm.trans hu
  · intro u x hu
    exact absurd hu (hgone u x)
  · rintro i v ⟨u, hu⟩
    exact hgone u _ hu

/-! ### Setting timers -/

lemma Inv.setTimer (h : Inv s) (hnone : s.timers.lookup timerId = none) (tm : ℤ) :
    Inv (s.setTimer timerId tm).1 ∧ (s.setTimer timerId tm).2 = .accepted ∧
      ∀ i v, (s.setTimer timerId tm).1.Armed i v → timerId = i ∧ tm = v ∨ s.Armed i v ∧ timerId ≠ i := by
  rw [TimerManager.setTimer, hnone]
  dsimp only
  have hheap : ∀ (u : ℕ) x, (s.heap ++ [some (Timer.new.start (timerId, tm))])[u]? = some (some x) →
      s.heap[u]? = some (some x) ∨ u = s.heap.length ∧ x = ⟨true, some (timerId, tm)⟩ := by
    intro u x hu
    rcases Nat.lt_trichotomy u s.heap.length with hlt | rfl | hgt
    · rw [List.getElem?_append_left hlt] at hu
      exact .inl hu
    · rw [List.getElem?_concat_length] at hu
      cases hu
      exact .inr ⟨rfl, rfl⟩
    · rw [List.getElem?_eq_none (by rw [List.length_append, List.length_singleton]; omega)] at hu
      cases hu
  have hold : ∀ (u : ℕ) i v, s.heap[u]? = some (some ⟨true, some (i, v)⟩) →
      s.timers.lookup i = some u ∧ timerId ≠ i := by
    intro u i v hu
    obtain ⟨i', v', heq, hlookup⟩ := h.timer u _ hu
    cases heq
    refine ⟨hlookup, ?_⟩
    rintro rfl
    cases hnone.symm.trans hlookup
  refine ⟨⟨?_, ?_⟩, rfl, ?_⟩
  · intro i u hu
    by_cases hi : i = timerId
    · subst hi
      obtain rfl : s.heap.length = u := Option.some.inj ((AList.lookup_insert s.timers).symm.trans hu)
      exact ⟨tm, List.getElem?_concat_length⟩
    · obtain ⟨v, hv⟩ := h.entry i u ((AList.lookup_insert_ne hi).symm.trans hu)
      obtain ⟨hlt, -⟩ := List.getElem?_eq_some_iff.1 hv
      exact ⟨v, (List.getElem?_append_left hlt).trans hv⟩
  · intro u x hu
    rcases hheap u x hu with hu | ⟨rfl, rfl⟩
    · obtain ⟨i, v, rfl, -⟩ := h.timer u x hu
      obtain ⟨hlookup, hne⟩ := hold u i v hu
      exact ⟨i, v, rfl, (AList.lookup_insert_ne (Ne.symm hne)).trans hlookup⟩
    · exact ⟨timerId, tm, rfl, AList.lookup_insert s.timers⟩
  · rintro i v ⟨u, hu⟩
    rcases hheap u _ hu with hu | ⟨rfl, heq⟩
    · exact .inr ⟨⟨u, hu⟩, (hold u i v hu).2⟩
    · cases heq
      exact .inl ⟨rfl, rfl⟩

/-! ### Timers that expire -/

lemma Inv.runTask (h : Inv s) {x : Timer} (ht : s.heap[t]? = some (some x)) :
    ∃ timerId tm, s.Armed timerId tm ∧ s.timers.lookup timerId = some t ∧ s.runTask t =
      (s.erase timerId t).callOnTimer timerId tm := by
  obtain ⟨timerId, tm, rfl, hlookup⟩ := h.timer t x ht
  have hstop : (s.stop t).timers.lookup timerId = some t := hlookup
  refine ⟨timerId, tm, ⟨t, ht⟩, hlookup, ?_⟩
  rw [TimerManager.runTask, ht]
  dsimp only
  rw [if_pos rfl, handleTimeout, hstop]
  dsimp only
  rw [stop_erase]

/-! ### One event -/

/-- What an event keeps: a timer that is armed behind it was armed or is granted by it, and `OnTimer` is called for a timer
that was armed. -/
structure Keeps (s s' : TimerManager) (a : TimerEvent × TimerOutput) : Prop where
  inv : Inv s'
  armed : ∀ i v x, s'.Armed i v → (s.Armed i v → x = some v) → (mark i a).next x = some v
  onTimer : ∀ i v, mark i a = .use v → s.Armed i v

lemma Keeps.of_eq (h : Inv s) {a : TimerEvent × TimerOutput} (htimers : s'.timers = s.timers) (hheap : s'.heap = s.heap)
    (ha : ∀ i, mark i a = .other) : Keeps s s' a := by
  refine ⟨⟨?_, ?_⟩, ?_, ?_⟩
  · rw [htimers, hheap]
    exact h.entry
  · rw [htimers, hheap]
    exact h.timer
  · intro i v x hv hx
    rw [ha i]
    rw [Armed, hheap] at hv
    exact hx hv
  · intro i v huse
    rw [ha i] at huse
    cases huse

/-- **One event** keeps the invariant and respects what is granted. -/
theorem Inv.exec (h : Inv s) (e : TimerEvent) : Keeps s (s.exec e).1 (e, (s.exec e).2) := by
  cases e with
  | setTimer timerId tm =>
    rw [TimerManager.exec]
    cases hlookup : s.timers.lookup timerId with
    | none =>
      obtain ⟨hinv, hout, harmed⟩ := h.setTimer hlookup tm
      rw [hout]
      refine ⟨hinv, ?_, ?_⟩
      · intro i v x hv hx
        rw [mark]
        rcases harmed i v hv with ⟨rfl, rfl⟩ | ⟨hold, hne⟩
        · rw [if_pos rfl]
          rfl
        · rw [if_neg hne]
          exact hx hold
      · intro i v huse
        rw [mark] at huse
        split at huse <;> cases huse
    | some t =>
      have hset : s.setTimer timerId tm = (s, .quiet) := by
        rw [TimerManager.setTimer, hlookup]
      rw [hset]
      exact .of_eq h rfl rfl fun i => rfl
  | killTimer timerId =>
    obtain ⟨hinv, harmed⟩ := h.killTimer timerId
    refine ⟨hinv, ?_, ?_⟩
    · intro i v x hv hx
      obtain ⟨hold, hne⟩ := harmed i v hv
      rw [mark, if_neg (Ne.symm hne)]
      exact hx hold
    · intro i v huse
      rw [mark] at huse
      split at huse <;> cases huse
  | destroy =>
    obtain ⟨hinv, hnone⟩ := h.destroy
    refine ⟨hinv, ?_, ?_⟩
    · intro i v x hv _
      exact absurd hv (hnone i v)
    · intro i v huse
      cases huse
  | runTask t =>
    rw [TimerManager.exec]
    rcases hheap : s.heap[t]? with - | - | x
    · have hrun : s.runTask t = (s, .quiet) := by
        rw [TimerManager.runTask, hheap]
      rw [hrun]
      exact .of_eq h rfl rfl fun i => rfl
    · have hrun : s.runTask t = (s, .quiet) := by
        rw [TimerManager.runTask, hheap]
      rw [hrun]
      exact .of_eq h rfl rfl fun i => rfl
    · obtain ⟨timerId, tm, hv, hlookup, hrun⟩ := h.runTask hheap
      obtain ⟨hinv, harmed⟩ := h.erase hlookup
      rw [hrun, callOnTimer]
      split
      · refine ⟨⟨hinv.entry, hinv.timer⟩, ?_, ?_⟩
        · intro i v x hv' hx
          obtain ⟨hold, hne⟩ := harmed i v hv'
          rw [mark, if_neg (Ne.symm hne)]
          exact hx hold
        · intro i v huse
          rw [mark] at huse
          split at huse
          · rename_i heq
            rw [← heq, ← Mark.use.inj huse]
            exact hv
          · cases huse
      · refine ⟨hinv, ?_, ?_⟩
        · intro i v x hv' hx
          exact hx (harmed i v hv').1
        · intro i v huse
          cases huse
  | returned => exact .of_eq h rfl rfl fun i => rfl

end

/-! ### Runs -/

/-- **Timers in a run**: the keys of the map are the ids whose timer is armed, and a `SetTimer` that is accepted leads to
at most one `OnTimer`, with its own time, unless the timer is killed. -/
theorem timers_once {hasDelegate : Bool} {as : List (TimerEvent × TimerOutput)} {s : TimerManager}
    (hrun : Run Step (new hasDelegate) as s) :
    (∀ timerId, timerId ∈ s.timers ↔ ∃ tm, s.Armed timerId tm) ∧ ∀ timerId, OneShot (as.map (mark timerId)) := by
  have hinv : Inv s ∧ ∀ i, Respects (as.map (mark i)) ∧
      ∀ v, s.Armed i v → Mark.pending (as.map (mark i)) = some v := by
    refine hrun.inv (P := fun as s => Inv s ∧ ∀ i, Respects (as.map (mark i)) ∧
      ∀ v, s.Armed i v → Mark.pending (as.map (mark i)) = some v) ?_ ?_
    · refine ⟨⟨?_, ?_⟩, ?_⟩
      · intro i t ht
        cases (AList.lookup_empty i).symm.trans ht
      · intro t x ht
        cases ht
      · intro i
        refine ⟨.nil, ?_⟩
        rintro v ⟨t, ht⟩
        cases ht
    · rintro as s ⟨e, out⟩ s' ⟨hinv, hgranted⟩ ⟨-, hexec⟩
      have hkeeps := hinv.exec e
      dsimp only at hexec
      rw [hexec] at hkeeps
      refine ⟨hkeeps.inv, ?_⟩
      intro i
      obtain ⟨hrespects, hpending⟩ := hgranted i
      rw [List.map_append, List.map_singleton]
      refine ⟨hrespects.snoc ?_, ?_⟩
      · intro v huse
        exact hpending v (hkeeps.onTimer i v huse)
      · intro v hv
        rw [pending_snoc]
        exact hkeeps.armed i v _ hv (hpending v)
  exact ⟨fun timerId => hinv.1.mem_iff, fun timerId => (hinv.2 timerId).1.oneShot⟩

/-- In its `OnTimer` a timer is set again, and killed. -/
theorem timers_once_killed : ∃ s, Run Step (new true)
      [(.setTimer 1 5, .accepted), (.runTask 0, .onTimer 1 5), (.setTimer 1 7, .accepted), (.killTimer 1, .quiet),
        (.returned, .quiet), (.runTask 1, .quiet)] s ∧
    (∀ timerId, timerId ∈ s.timers ↔ ∃ tm, s.Armed timerId tm) ∧
    ∀ timerId, OneShot (([(.setTimer 1 5, .accepted), (.runTask 0, .onTimer 1 5), (.setTimer 1 7, .accepted),
      (.killTimer 1, .quiet), (.returned, .quiet), (.runTask 1, .quiet)] :
        List (TimerEvent × TimerOutput)).map (mark timerId)) := by
  have hset : Run Step (new true) [(.setTimer 1 5, .accepted), (.runTask 0, .onTimer 1 5)] _ :=
    (Run.nil.snoc ⟨by rintro ⟨⟩, rfl⟩).snoc ⟨by rintro ⟨⟩, rfl⟩
  have hagain : Run Step (new true) [(.setTimer 1 5, .accepted), (.runTask 0, .onTimer 1 5),
      (.setTimer 1 7, .accepted), (.killTimer 1, .quiet)] _ :=
    (hset.snoc ⟨by rintro ⟨⟩, rfl⟩).snoc ⟨by rintro ⟨⟩, rfl⟩
  have hrun := (hagain.snoc (a := (.returned, .quiet)) ⟨fun _ => List.cons_ne_nil _ _, rfl⟩).snoc
    (a := (.runTask 1, .quiet)) ⟨by rintro ⟨⟩, rfl⟩
  exact ⟨_, hrun, timers_once hrun⟩

end TimerManager

end Zutils
