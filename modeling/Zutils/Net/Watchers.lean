import Zutils.Lib.Run
import Zutils.Net.EventBase

/-!
# Watchers of descriptors (`net/message_loop/message_pump_libevent2.cc`)

A `FileDescriptorWatcher` owns a libevent event while its descriptor is watched. Clients watch, stop, make and destroy
watchers, outside of the callbacks and in them; epoll reports descriptors; and the loop takes the first active event and
calls `OnLibeventNotification`, which calls the delegate for writing, and then, if the watcher is still there, for
reading. All of this is on the thread of the loop. A callback may run a loop of its own, so that notifications nest.

The controllers and the events have addresses that are not used again, so that what is done with one that is gone is
seen. `NOTREACHED` does nothing, as in a build without checks.
-/

namespace Zutils.Net

open Zutils.Lib

/-- `class FileDescriptorWatcher`. `pump_` is set and cleared with `watcher_`. -/
structure FileDescriptorWatcher where
  /-- `event_`. -/
  event : Option ℕ
  /-- `watcher_`: the delegate. -/
  watcher : Option ℕ
  deriving DecidableEq, Repr

/-- A call of a delegate. -/
structure WatcherCall where
  delegate : ℕ
  fd : ℕ
  kind : IoKind
  deriving DecidableEq, Repr

/-- `OnLibeventNotification`, in a callback. -/
structure Notification where
  /-- The weak pointer to the watcher. -/
  controller : ℕ
  fd : ℕ
  /-- The callback is the one for writing, and `EV_READ` is set in `flags`. -/
  readNext : Bool
  deriving DecidableEq, Repr

/-- `Mode`. -/
inductive WatchMode where
  | watchRead
  | watchWrite
  | watchReadWrite
  deriving DecidableEq, Repr

def WatchMode.mask : WatchMode → IoMask
  | watchRead, k => k = .read
  | watchWrite, k => k = .write
  | watchReadWrite, _ => true

/-- The base of the pump, the watchers, the notifications under way, the innermost first, and what has been called. -/
structure Watchers where
  base : EventBase
  /-- Where the next event is allocated. -/
  nextEvent : ℕ
  /-- The watchers that have not been destroyed. -/
  controllers : ℕ → Option FileDescriptorWatcher
  nextController : ℕ
  notifications : List Notification
  calls : List WatcherCall

namespace Watchers

/-- After the constructor of the pump. -/
def new : Watchers where
  base := .new
  nextEvent := 0
  controllers _ := none
  nextController := 0
  notifications := []
  calls := []

variable (s : Watchers)

def setController (c : ℕ) (w : FileDescriptorWatcher) : Watchers :=
  { s with controllers := Function.update s.controllers c (some w) }

/-- Something that is gone is used. -/
def fail : Watchers := { s with base := s.base.fail }

/-- `FileDescriptorWatcher()`. -/
def create : Watchers := { s.setController s.nextController ⟨none, none⟩ with nextController := s.nextController + 1 }

/-- What `WatchFileDescriptor` does with `evt` once it is not armed. `event_base_set` does not fail behind `event_set`. -/
def arm (w : FileDescriptorWatcher) (c e : ℕ) (ev : Event) (delegate : ℕ) (ok : Bool) : Bool × Watchers :=
  let (added, base) := (s.base.setEvent e ev).eventAdd e ok
  if added then (true, { s with base := base }.setController c ⟨some e, some delegate⟩)
  else (false, { s with base := base.free e }.setController c { w with event := none })

/-- `WatchFileDescriptor`, for the watcher `w` at `c`, and with what `epoll_ctl` may answer. -/
def watchFileDescriptor (fd : ℕ) (persistent : Bool) (mode : WatchMode) (c : ℕ) (w : FileDescriptorWatcher)
    (delegate : ℕ) (delOk addOk : Bool) : Bool × Watchers :=
  match w.event with
  | none =>
    { s with nextEvent := s.nextEvent + 1 }.arm w c s.nextEvent (Event.set fd mode.mask persistent c) delegate addOk
  | some e =>
    match s.base.events e with
    | none => (false, s.fail)
    | some ev =>
      let base := (s.base.eventDel e delOk).2
      if ev.fd ≠ fd then (false, { s with base := base.free e }.setController c { w with event := none })
      else
        { s with base := base }.arm w c e (Event.set fd (ev.mask.union mode.mask) (persistent || ev.persist) c) delegate
          addOk

/-- `StopWatchingFileDescriptor`, which does nothing without an event. -/
def stopWatchingFileDescriptor (c : ℕ) (w : FileDescriptorWatcher) (ok : Bool) : Bool × Watchers :=
  match w.event with
  | none => (true, s)
  | some e =>
    let (rv, base) := s.base.eventDel e ok
    (rv, { s with base := base.free e }.setController c ⟨none, none⟩)

/-- `~FileDescriptorWatcher`. -/
def destroy (c : ℕ) (w : FileDescriptorWatcher) (ok : Bool) : Watchers :=
  let s := (s.stopWatchingFileDescriptor c w ok).2
  { s with controllers := Function.update s.controllers c none }

/-- The delegate of the watcher is called, in a notification. -/
def call (c delegate fd : ℕ) (kind : IoKind) (readNext : Bool) : Watchers :=
  { s with notifications := ⟨c, fd, readNext⟩ :: s.notifications, calls := s.calls ++ [⟨delegate, fd, kind⟩] }

/-- `OnLibeventNotification(fd, flags, c)`, up to a callback. -/
def onLibeventNotification (fd : ℕ) (flags : IoMask) (c : ℕ) : Watchers :=
  match s.controllers c with
  | none => s.fail
  | some w =>
    match w.watcher with
    -- `pump->processed_io_events_ = true` without a pump
    | none => s.fail
    | some delegate =>
      if flags .write then s.call c delegate fd .write (flags .read)
      else if flags .read then s.call c delegate fd .read false
      else s

/-- The next active event in `event_process_active`, up to a callback. -/
def processActive (e : ℕ) (ok : Bool) : Watchers :=
  match s.base.events e with
  | none => s.fail
  | some ev => { s with base := s.base.popActive e ok }.onLibeventNotification ev.fd ev.res ev.arg

/-- The callback of the notification returns, which is the innermost one. -/
def callbackReturns (n : Notification) (rest : List Notification) : Watchers :=
  let s := { s with notifications := rest }
  if n.readNext then
    -- the weak pointer
    match s.controllers n.controller with
    | none => s
    | some w =>
      match w.watcher with
      | none => s
      | some delegate => s.call n.controller delegate n.fd .read false
  else s

end Watchers

/-- What clients and the loop do. -/
inductive WatchEvent where
  | create
  | watch (c fd : ℕ) (persistent : Bool) (mode : WatchMode) (delegate : ℕ) (delOk addOk : Bool)
  | stop (c : ℕ) (ok : Bool)
  | destroy (c : ℕ) (ok : Bool)
  | report (fd : ℕ) (what : IoMask)
  | processActive (ok : Bool)
  | callbackReturns

/-- The state after something that can be done. Clients use watchers that have not been destroyed. -/
def WatchEvent.exec : WatchEvent → Watchers → Option Watchers
  | create, s => some s.create
  | watch c fd persistent mode delegate delOk addOk, s =>
    (s.controllers c).map fun w => (s.watchFileDescriptor fd persistent mode c w delegate delOk addOk).2
  | stop c ok, s => (s.controllers c).map fun w => (s.stopWatchingFileDescriptor c w ok).2
  | destroy c ok, s => (s.controllers c).map fun w => s.destroy c w ok
  | report fd what, s => some { s with base := s.base.report fd what }
  | processActive ok, s => s.base.activequeue.head?.map fun e => s.processActive e ok
  | callbackReturns, s =>
    match s.notifications with
    | [] => none
    | n :: rest => some (s.callbackReturns n rest)

/-- A step is taken. -/
def Watches (s : Watchers) (e : WatchEvent) (s' : Watchers) : Prop := e.exec s = some s'

end Zutils.Net
