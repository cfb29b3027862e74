import Mathlib.Data.List.Sort
import Mathlib.Data.Prod.Lex
import Zutils.Lib.Run

/-!
# The message loop and its pump (`net/message_loop/message_pump_libevent2.cc`, `base/message_loop`)

Threads post tasks onto the incoming queue of the loop, under a lock; whoever finds the queue empty writes a byte to
the wakeup pipe before it gives up the lock. The loop takes tasks from a queue of its own, which it refills from the
incoming queue, and keeps delayed tasks in a heap. `MessagePumpLibevent2::Run` goes around: work, a poll of the events,
delayed work, idle work, and when none of these has done anything it sleeps until an event, the wakeup pipe or the time
of the next delayed task.

Here the loop is a machine with a program counter. Its steps, those of the posting threads and the events of the kernel
come in any order; what a task or a callback does besides posting is to call `Quit`, or not. Reads of the clock are
arguments of the steps. Tasks are run at the run loop's depth 1, where they need not be nestable; nested calls of `Run`,
and the queue of deferred tasks, are left out. A sequence number, an `int` that rolls over in the source, and a time, an
`int64`, have no bound here.
-/

namespace Zutils.Net

open Zutils.Lib

/-- `struct PendingTask`. The `delayed_run_time` 0 is the null `TimeTicks`, of a task without a delay. -/
structure PendingTask (α : Type) where
  task : α
  delayedRunTime : ℕ
  sequenceNum : ℕ
  deriving DecidableEq, Repr

namespace PendingTask

variable {α : Type}

/-- What the heap sorts by: the earlier time first, and of the same time the task that was posted first. -/
def key (t : PendingTask α) : ℕ ×ₗ ℕ := toLex (t.delayedRunTime, t.sequenceNum)

/-- `delayed_run_time.is_null()`. -/
def isImmediate (t : PendingTask α) : Bool := t.delayedRunTime = 0

end PendingTask

/-- Where `Run` stands. -/
inductive PumpState where
  /-- In `DoWork`. -/
  | doWork
  /-- In `event_base_loop(.., EVLOOP_NONBLOCK)`. -/
  | polling
  | doDelayedWork
  | doIdleWork
  /-- Behind `DoIdleWork`. -/
  | deciding
  /-- In `event_base_loop(.., EVLOOP_ONCE)`, with the time of the timer event if there is one. -/
  | asleep (timer : Option ℕ)
  /-- `Run` has returned. -/
  | stopped
  deriving DecidableEq, Repr

/-- A `MessageLoop` with its pump and its posting threads. -/
structure PumpLoop (α : Type) where
  /-- `incoming_queue_`. -/
  incomingQueue : List (PendingTask α)
  nextSequenceNum : ℕ
  /-- `was_empty` of the thread that holds `incoming_queue_lock_`, in front of `ScheduleWork`. -/
  posting : Option Bool
  /-- The bytes in the wakeup pipe. -/
  wakeupPipe : ℕ
  workQueue : List (PendingTask α)
  /-- The heap `delayed_work_queue_`, its top first. -/
  delayedWorkQueue : List (PendingTask α)
  recentTime : ℕ
  /-- `delayed_work_time_`. -/
  delayedWorkTime : ℕ
  keepRunning : Bool
  processedIoEvents : Bool
  didWork : Bool
  state : PumpState
  /-- The last time anyone has read off the clock. -/
  clock : ℕ
  /-- All tasks that were posted, in the order in which the lock was taken. -/
  posted : List (PendingTask α)
  /-- All tasks that have been run, each with the time on the clock. -/
  ran : List (PendingTask α × ℕ)

namespace PumpLoop

variable {α : Type}

/-- On the entry of `Run`. -/
def new (α : Type) : PumpLoop α where
  incomingQueue := []
  nextSequenceNum := 0
  posting := none
  wakeupPipe := 0
  workQueue := []
  delayedWorkQueue := []
  recentTime := 0
  delayedWorkTime := 0
  keepRunning := true
  processedIoEvents := false
  didWork := false
  state := .doWork
  clock := 0
  posted := []
  ran := []

variable (s : PumpLoop α)

/-- `MessagePumpLibevent2::ScheduleWork`. A full pipe takes no byte. -/
def scheduleWork (capacity : ℕ) : PumpLoop α :=
  if s.wakeupPipe < capacity then { s with wakeupPipe := s.wakeupPipe + 1 } else s

/-- `Quit()`, if the code that runs calls it. -/
def quit (capacity : ℕ) (quits : Bool) : PumpLoop α :=
  if quits then { s with keepRunning := false }.scheduleWork capacity else s

/-- `if (!keep_running_) break;` in front of what comes next. -/
def goOn (next : PumpState) : PumpLoop α := { s with state := if s.keepRunning then next else .stopped }

/-- `PostPendingTask`, up to `ScheduleWork`. -/
def post (task : α) (delay now : ℕ) : PumpLoop α :=
  let pendingTask : PendingTask α := ⟨task, if 0 < delay then now + delay else 0, s.nextSequenceNum⟩
  { s with
    nextSequenceNum := s.nextSequenceNum + 1
    posting := some (s.incomingQueue = [])
    incomingQueue := s.incomingQueue ++ [pendingTask]
    posted := s.posted ++ [pendingTask]
    clock := now }

/-- `RunTask`. -/
def runTask (capacity : ℕ) (t : PendingTask α) (quits : Bool) : PumpLoop α :=
  { s with ran := s.ran ++ [(t, s.clock)] }.quit capacity quits

/-- `ReloadWorkQueue` in `DoWork`, which returns when there is nothing. -/
def reloadWorkQueue : PumpLoop α :=
  if s.incomingQueue = [] then { s with didWork := false }.goOn .polling
  else { s with workQueue := s.incomingQueue, incomingQueue := [] }

/-- `DoWork` with the task in front of its queue. A delayed task moves to the heap; with another one `DoWork` returns. -/
def nextTask [DecidableEq α] (capacity : ℕ) (t : PendingTask α) (rest : List (PendingTask α)) (quits : Bool) :
    PumpLoop α :=
  let s := { s with workQueue := rest }
  if t.delayedRunTime ≠ 0 then
    let s := { s with delayedWorkQueue := s.delayedWorkQueue.orderedInsert (fun a b => a.key ≤ b.key) t }
    if s.delayedWorkQueue.head?.map PendingTask.task = some t.task then { s with delayedWorkTime := t.delayedRunTime }
    else s
  else { s.runTask capacity t quits with didWork := true }.goOn .polling

/-- The poll, and `did_work |= processed_io_events_`. -/
def poll (capacity : ℕ) (wakeup io quits : Bool) : PumpLoop α :=
  let s := { s with
    wakeupPipe := if wakeup then s.wakeupPipe - 1 else s.wakeupPipe
    processedIoEvents := s.processedIoEvents || wakeup || io }
  let s := s.quit capacity quits
  { s with didWork := s.didWork || s.processedIoEvents, processedIoEvents := false }.goOn .doDelayedWork

/-- `DoDelayedWork(&delayed_work_time_)`: what it returns and leaves. -/
def doDelayedWork (capacity : ℕ) (now : ℕ) (quits : Bool) : Bool × PumpLoop α :=
  match s.delayedWorkQueue with
  | [] => (false, { s with recentTime := 0, delayedWorkTime := 0 })
  | t :: rest =>
    -- the clock is read only when the time read last does not do
    let s := if t.delayedRunTime > s.recentTime then { s with recentTime := now, clock := now } else s
    if t.delayedRunTime > s.recentTime then (false, { s with delayedWorkTime := t.delayedRunTime })
    else
      let s := { s with
        delayedWorkQueue := rest
        delayedWorkTime := (rest.head?.map PendingTask.delayedRunTime).getD s.delayedWorkTime }
      (true, s.runTask capacity t quits)

/-- `DoDelayedWork` in `Run`. -/
def delayedWork (capacity : ℕ) (now : ℕ) (quits : Bool) : PumpLoop α :=
  let (worked, s) := s.doDelayedWork capacity now quits
  let s := { s with didWork := s.didWork || worked }
  s.goOn (if s.didWork then .doWork else .doIdleWork)

/-- `DoIdleWork()`, which calls `Quit` if that has been asked for, and returns false. -/
def idleWork (capacity : ℕ) (quits : Bool) : PumpLoop α := (s.quit capacity quits).goOn .deciding

/-- The end of the loop: it sleeps, or forgets a time that has passed. -/
def decide (now : ℕ) : PumpLoop α :=
  if s.delayedWorkTime = 0 then { s with state := .asleep none }
  else if now < s.delayedWorkTime then { s with clock := now, state := .asleep (some s.delayedWorkTime) }
  else { s with clock := now, delayedWorkTime := 0, state := .doWork }

/-- The sleep ends. -/
def wake (capacity : ℕ) (wakeup io quits : Bool) (now : ℕ) : PumpLoop α :=
  let s := { s with
    wakeupPipe := if wakeup then s.wakeupPipe - 1 else s.wakeupPipe
    processedIoEvents := s.processedIoEvents || wakeup || io
    clock := now
    state := .doWork }
  s.quit capacity quits

end PumpLoop

/-- An event. The flags say whether there was a byte to read on the wakeup pipe, whether some descriptor was ready, and
whether a task or a callback called `Quit`. -/
inductive PumpEvent (α : Type) where
  /-- A thread posts a task, up to `ScheduleWork`. -/
  | post (task : α) (delay now : ℕ)
  /-- The rest of `PostPendingTask`. -/
  | scheduleWork
  | reloadWorkQueue
  | nextTask (quits : Bool)
  | poll (wakeup io quits : Bool)
  | delayedWork (now : ℕ) (quits : Bool)
  | idleWork (quits : Bool)
  | decide (now : ℕ)
  | wake (wakeup io timer quits : Bool) (now : ℕ)
  deriving DecidableEq, Repr

namespace PumpEvent

variable {α : Type}

/-- An event of the loop's own thread in which nothing calls `Quit` and no descriptor is ready. -/
def OfLoop : PumpEvent α → Prop
  | post .. | scheduleWork => False
  | reloadWorkQueue | decide _ => True
  | nextTask quits | delayedWork _ quits | idleWork quits => quits = false
  | poll _ io quits => io = false ∧ quits = false
  | wake _ io _ quits _ => io = false ∧ quits = false

instance : DecidablePred (@OfLoop α)
  | post .. | scheduleWork => inferInstanceAs (Decidable False)
  | reloadWorkQueue | decide _ => inferInstanceAs (Decidable True)
  | nextTask quits | delayedWork _ quits | idleWork quits => inferInstanceAs (Decidable (quits = false))
  | poll _ io quits | wake _ io _ quits _ => inferInstanceAs (Decidable (io = false ∧ quits = false))

/-- The state after an event that can happen. `ReloadWorkQueue` takes the lock; the clock does not go back; and only
what runs on the loop calls `Quit`. -/
def exec [DecidableEq α] (capacity : ℕ) : PumpEvent α → PumpLoop α → Option (PumpLoop α)
  | post task delay now, s => if s.posting = none ∧ s.clock ≤ now then some (s.post task delay now) else none
  | scheduleWork, s =>
    match s.posting with
    | none => none
    | some wasEmpty =>
      let s := if wasEmpty then s.scheduleWork capacity else s
      some { s with posting := none }
  | reloadWorkQueue, s =>
    if s.state = .doWork ∧ s.workQueue = [] ∧ s.posting = none then some s.reloadWorkQueue else none
  | nextTask quits, s =>
    match s.workQueue with
    | [] => none
    | t :: rest => if s.state = .doWork then some (s.nextTask capacity t rest quits) else none
  | poll wakeup io quits, s =>
    if s.state = .polling ∧ (wakeup = true → 0 < s.wakeupPipe) ∧ (quits = true → io = true) then
      some (s.poll capacity wakeup io quits)
    else none
  | delayedWork now quits, s =>
    if s.state = .doDelayedWork ∧ s.clock ≤ now then some (s.delayedWork capacity now quits) else none
  | idleWork quits, s => if s.state = .doIdleWork then some (s.idleWork capacity quits) else none
  | decide now, s => if s.state = .deciding ∧ s.clock ≤ now then some (s.decide now) else none
  | wake wakeup io timer quits now, s =>
    match s.state with
    | .asleep time =>
      if (wakeup = true ∨ io = true ∨ timer = true) ∧ (wakeup = true → 0 < s.wakeupPipe) ∧
          (timer = true → ∃ t ∈ time, t ≤ now) ∧ (quits = true → io = true) ∧ s.clock ≤ now then
        some (s.wake capacity wakeup io quits now)
      else none
    | _ => none

end PumpEvent

/-- An event happens. -/
def Pumps {α : Type} [DecidableEq α] (capacity : ℕ) (s : PumpLoop α) (e : PumpEvent α) (s' : PumpLoop α) : Prop :=
  e.exec capacity s = some s'

end Zutils.Net
