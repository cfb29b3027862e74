import Zutils.Lib.RoundRobin
import Zutils.Lib.Run
import Zutils.Net.TcpServerSpec

/-!
# How connections are given to reactors (`net/engine/reactor_thread_pool.cc`)

`GetNextMessageLoop` is called for each connection. As long as the pool is not shut down, the reactors take turns, and so no
reactor is given more than one connection more than another (`round_robin`). The threads may be started at any time; before
that their message loops are null.
-/

namespace Zutils.Net

open Zutils.Lib

/-- What is done with a pool: its threads are started, or it is asked for a message loop. -/
inductive PoolCall where
  | start (starts : ℕ → Bool)
  | next (loop : Option MessageLoop)

/-- The message loops that have been returned. -/
def loops (as : List PoolCall) : List (Option MessageLoop) :=
  as.filterMap fun a => match a with
    | .start _ => none
    | .next loop => some loop

namespace ReactorThreadPool

/-- A call; where not all threads start, the pool is shut down. -/
def Calls (p : ReactorThreadPool) : PoolCall → ReactorThreadPool → Prop
  | .start starts, p' => p.start starts = (true, p')
  | .next loop, p' => p.getNextMessageLoop = (loop, p')

/-- The message loop of a reactor. -/
def loopOf (p : ReactorThreadPool) (i : ℕ) : Option MessageLoop := (p.reactorPool[i]?).bind ReactorThread.messageLoop

/-- **The reactors take turns**: the next message loop is that of the reactor whose turn it is, and no reactor has been
given more than one connection more than another. -/
structure TakesTurns (n : ℕ) (as : List PoolCall) (p : ReactorThreadPool) : Prop where
  next_le : p.nextReactor ≤ n
  in_range : (if p.nextReactor = p.reactorPool.length then 0 else p.nextReactor) < p.reactorPool.length
  turn : p.getNextMessageLoop.1 = p.loopOf ((loops as).length % n)
  fair : ∀ i < n, ∀ j < n, (loops as).count (some (.reactor i)) ≤ (loops as).count (some (.reactor j)) + 1

/-- What every run keeps: the reactors with their numbers, whose turn it is, and who has had a turn since the threads were
started. -/
structure Inv (n : ℕ) (as : List PoolCall) (p : ReactorThreadPool) : Prop where
  next_le : p.nextReactor ≤ n
  turn : (if p.nextReactor = n then 0 else p.nextReactor) = (loops as).length % n
  given : ∃ started a k, p.reactorPool = ((List.range n).map fun i => ⟨i, started⟩) ∧ (started = false → k = 0) ∧
    loops as = List.replicate a none ++ (turns n a k).map fun i => some (.reactor i)

variable {n : ℕ} {as : List PoolCall} {p p' : ReactorThreadPool} {starts : ℕ → Bool} {ts : List ReactorThread}
  {loop : Option MessageLoop}

lemma loops_next : loops (as ++ [.next loop]) = loops as ++ [loop] := by simp [loops]

lemma loops_start : loops (as ++ [.start starts]) = loops as := by simp [loops]

lemma startLoop_eq (h : (startLoop starts ts).1 = true) :
    (startLoop starts ts).2 = ts.map fun t => { t with started := true } := by
  induction ts with
  | nil => rfl
  | cons t ts ih =>
    have hstart := startLoop_iff.1 h
    have hrest : (startLoop starts ts).1 = true := startLoop_iff.2 fun t ht => hstart t (List.mem_cons_of_mem _ ht)
    rw [startLoop, if_pos (hstart t List.mem_cons_self)]
    exact congrArg (List.cons _) (ih hrest)

namespace Inv

lemma new (n : ℤ) : Inv n.toNat [] (.new n) where
  next_le := Nat.zero_le _
  turn := (ite_self 0).trans (Nat.zero_mod _).symm
  given := ⟨false, 0, 0, rfl, fun _ => rfl, rfl⟩

lemma length (h : Inv n as p) : p.reactorPool.length = n := by
  obtain ⟨started, a, k, hpool, -⟩ := h.given
  rw [hpool, List.length_map, List.length_range]

lemma getNextMessageLoop (h : Inv n as p) (hn : 0 < n) : p.getNextMessageLoop =
    (p.loopOf ((loops as).length % n), { p with nextReactor := (loops as).length % n + 1 }) := by
  have hne : ¬ p.reactorPool.isEmpty = true := by
    rw [List.isEmpty_iff_length_eq_zero, h.length]
    omega
  rw [ReactorThreadPool.getNextMessageLoop, if_neg hne, h.length, h.turn]
  rfl

lemma start (h : Inv n as p) (hstart : p.start starts = (true, p')) : Inv n (as ++ [.start starts]) p' := by
  obtain ⟨started, a, k, hpool, -, hloops⟩ := h.given
  obtain ⟨hret, rfl⟩ := Prod.mk.inj hstart
  have hall : (startLoop starts p.reactorPool).1 = true := hret
  simp only [hall, if_true]
  have hpool' : (startLoop starts p.reactorPool).2 = (List.range n).map fun i => ⟨i, true⟩ := by
    rw [startLoop_eq hall, hpool, List.map_map]
    rfl
  refine ⟨h.next_le, ?_, true, a, k, hpool', by simp, loops_start.trans hloops⟩
  rw [loops_start]
  exact h.turn

lemma next (h : Inv n as p) (hn : 0 < n) (hnext : p.getNextMessageLoop = (loop, p')) : Inv n (as ++ [.next loop]) p' := by
  obtain ⟨started, a, k, hpool, hnone, hloops⟩ := h.given
  rw [h.getNextMessageLoop hn] at hnext
  obtain ⟨rfl, rfl⟩ := Prod.mk.inj hnext
  have hlt : (loops as).length % n < n := Nat.mod_lt _ hn
  have hlength : (loops as).length = a + k := by simp [hloops]
  refine ⟨hlt, ?_, ?_⟩
  · rw [loops_next, List.length_append]
    exact next_turn hn _
  · have hloop : p.loopOf ((loops as).length % n) = if started then some (.reactor ((loops as).length % n)) else none := by
      simp [loopOf, hpool, hlt, ReactorThread.messageLoop]
    rw [loops_next, hloop, hloops]
    cases started with
    | true =>
      refine ⟨true, a, k + 1, hpool, by simp, ?_⟩
      simp [turns_succ]
    | false =>
      obtain rfl := hnone rfl
      refine ⟨false, a + 1, 0, hpool, fun _ => rfl, ?_⟩
      simp [List.replicate_succ']

lemma of_run {n : ℤ} (hn : 0 < n) (hrun : Run Calls (.new n) as p) : Inv n.toNat as p := by
  refine hrun.inv (new n) ?_
  rintro as p (starts | loop) p' h hstep
  · exact h.start hstep
  · exact h.next (by omega) hstep

lemma fair (h : Inv n as p) {i j : ℕ} (hi : i < n) (hj : j < n) :
    (loops as).count (some (.reactor i)) ≤ (loops as).count (some (.reactor j)) + 1 := by
  obtain ⟨started, a, k, -, -, hloops⟩ := h.given
  have hcount : ∀ i, (loops as).count (some (.reactor i)) = (turns n a k).count i := by
    intro i
    have hinj : Function.Injective fun i => some (MessageLoop.reactor i) := by
      intro i j hij
      simpa using hij
    rw [hloops, List.count_append, List.count_map_of_injective _ _ hinj]
    simp [List.count_replicate]
  rw [hcount, hcount]
  exact turns_fair hi hj

end Inv

/-- **Connections are given to the reactors in turn**: after any calls that do not shut the pool down, the next one returns
the message loop of the reactor whose number is that of the calls before, modulo the size of the pool. -/
theorem round_robin {n : ℤ} (hn : 1 ≤ n) (hrun : Run Calls (.new n) as p) : TakesTurns n.toNat as p := by
  have h := Inv.of_run hn hrun
  have hpos : 0 < n.toNat := by omega
  refine ⟨h.next_le, ?_, ?_, fun i hi j hj => h.fair hi hj⟩
  · rw [h.length, h.turn]
    exact Nat.mod_lt _ hpos
  · rw [h.getNextMessageLoop hpos]

lemma Calls.of_start (hstart : (p.start starts).1 = true) : Calls p (.start starts) (p.start starts).2 :=
  Prod.ext hstart rfl

lemma Calls.of_next (hloop : p.getNextMessageLoop.1 = loop) : Calls p (.next loop) p.getNextMessageLoop.2 :=
  Prod.ext hloop rfl

/-- Two reactors are started and asked for three message loops. -/
def threeCalls : List PoolCall :=
  [.start fun _ => true, .next (some (.reactor 0)), .next (some (.reactor 1)), .next (some (.reactor 0))]

theorem round_robin_two : ∃ p, Run Calls (.new 2) threeCalls p ∧ TakesTurns (2 : ℤ).toNat threeCalls p := by
  have hstart : Calls (.new 2) (.start fun _ => true) _ := .of_start (by decide)
  have hfirst : Calls _ (.next (some (.reactor 0))) _ := .of_next (p := ((new 2).start fun _ => true).2) (by decide)
  have hsecond : Calls _ (.next (some (.reactor 1))) _ :=
    .of_next (p := ((new 2).start fun _ => true).2.getNextMessageLoop.2) (by decide)
  have hthird : Calls _ (.next (some (.reactor 0))) _ :=
    .of_next (p := ((new 2).start fun _ => true).2.getNextMessageLoop.2.getNextMessageLoop.2) (by decide)
  have hrun : Run Calls (.new 2) threeCalls _ := (((Run.nil.snoc hstart).snoc hfirst).snoc hsecond).snoc hthird
  exact ⟨_, hrun, round_robin (by decide) hrun⟩

end ReactorThreadPool

end Zutils.Net
