import Mathlib.Data.Int.Notation
import Mathlib.Data.List.AList

/-!
# Timers by their ids (`base2/timer_manager.cc`, `base2/timer_manager.h`)

`TimerManager` has a `base::Timer` for each id that is set. A timer is an object on the heap that the map alone owns, so
that it is destroyed when its entry is erased. Its task runs at some time after `Start`, and does nothing when the timer
has been stopped or destroyed.

`handle_timeout` is the last thing that runs of a timer, and the call of `OnTimer` is the last thing in it. What happens
in `OnTimer` is therefore not distinguished from what happens outside: after each event any other may follow, be it in a
callback or not.
-/

namespace Zutils

/-- `base::Timer(false, false)`, whose task is `handle_timeout` with an id and a time. -/
structure Timer where
  isRunning : Bool
  userTask : Option (UInt32 × ℤ)
  deriving DecidableEq, Repr

namespace Timer

def new : Timer := ⟨false, none⟩

/-- `Start`. -/
def start (_ : Timer) (userTask : UInt32 × ℤ) : Timer := ⟨true, some userTask⟩

/-- `Stop`, which forgets the task. -/
def stop (_ : Timer) : Timer := ⟨false, none⟩

end Timer

/-- `class TimerManager`, with the timers that have been made and the calls of `OnTimer` that have not returned. -/
structure TimerManager where
  /-- `timers_`, with pointers to timers. -/
  timers : AList fun _ : UInt32 => ℕ
  /-- `delegate_ != NULL`. -/
  hasDelegate : Bool
  /-- A timer that has been destroyed is `none`. -/
  heap : List (Option Timer)
  callbacks : List (UInt32 × ℤ)

/-- What is called, and what the message loop runs. -/
inductive TimerEvent where
  | setTimer (timerId : UInt32) (tm : ℤ)
  | killTimer (timerId : UInt32)
  | destroy
  /-- The task that the timer has posted. -/
  | runTask (timer : ℕ)
  /-- The innermost `OnTimer` returns. -/
  | returned
  deriving DecidableEq, Repr

/-- What an event does. -/
inductive TimerOutput where
  | quiet
  /-- `SetTimer` makes a timer. -/
  | accepted
  /-- `OnTimer` is called. -/
  | onTimer (timerId : UInt32) (tm : ℤ)
  deriving DecidableEq, Repr

namespace TimerManager

/-- `TimerManager(delegate, message_loop)`. -/
def new (hasDelegate : Bool) : TimerManager := ⟨∅, hasDelegate, [], []⟩

variable (s : TimerManager)

/-- `timer->Stop()`. -/
def stop (timer : ℕ) : TimerManager := { s with heap := s.heap.modify timer (Option.map Timer.stop) }

/-- `timers_.erase(it)`, by which the timer is destroyed. -/
def erase (timerId : UInt32) (timer : ℕ) : TimerManager :=
  { s with timers := s.timers.erase timerId, heap := s.heap.set timer none }

/-- `Destroy`. -/
def destroy : TimerManager :=
  let s := s.timers.entries.foldl (fun s e => s.stop e.2) s
  { s with
    timers := ∅
    heap := s.timers.entries.foldl (fun heap e => heap.set e.2 none) s.heap }

/-- `SetTimer`. -/
def setTimer (timerId : UInt32) (tm : ℤ) : TimerManager × TimerOutput :=
  match s.timers.lookup timerId with
  | none =>
    ({ s with
      timers := s.timers.insert timerId s.heap.length
      heap := s.heap ++ [some (Timer.new.start (timerId, tm))] }, .accepted)
  | some _ => (s, .quiet)

/-- `KillTimer`. -/
def killTimer (timerId : UInt32) : TimerManager :=
  match s.timers.lookup timerId with
  | none => s
  | some timer => (s.stop timer).erase timerId timer

/-- `OnTimer` is called, if there is a delegate. -/
def callOnTimer (timerId : UInt32) (tm : ℤ) : TimerManager × TimerOutput :=
  if s.hasDelegate then ({ s with callbacks := (timerId, tm) :: s.callbacks }, .onTimer timerId tm) else (s, .quiet)

/-- `handle_timeout`, up to what `OnTimer` does. -/
def handleTimeout (timerId : UInt32) (tm : ℤ) : TimerManager × TimerOutput :=
  let s :=
    match s.timers.lookup timerId with
    | none => s
    | some timer => s.erase timerId timer
  s.callOnTimer timerId tm

/-- `RunScheduledTask` of a timer. The task is not there if the timer has been destroyed. -/
def runTask (timer : ℕ) : TimerManager × TimerOutput :=
  match s.heap[timer]? with
  | some (some t) =>
    if t.isRunning then
      match t.userTask with
      | some (timerId, tm) => (s.stop timer).handleTimeout timerId tm
      -- not reached: a timer that runs has a task
      | none => (s.stop timer, .quiet)
    else (s, .quiet)
  | _ => (s, .quiet)

/-- An event, with what it does. -/
def exec : TimerEvent → TimerManager × TimerOutput
  | .setTimer timerId tm => s.setTimer timerId tm
  | .killTimer timerId => (s.killTimer timerId, .quiet)
  | .destroy => (s.destroy, .quiet)
  | .runTask timer => s.runTask timer
  | .returned => ({ s with callbacks := s.callbacks.tail }, .quiet)

/-- An event happens, with what it does. -/
def Step (s : TimerManager) (a : TimerEvent × TimerOutput) (s' : TimerManager) : Prop :=
  (a.1 = .returned → s.callbacks ≠ []) ∧ s.exec a.1 = (s', a.2)

end TimerManager

end Zutils
