import Mathlib.Data.List.Basic
import Mathlib.Logic.Function.Basic

/-!
# libevent on epoll (`third_party/libevent/event.c`, `epoll.c`)

The part of libevent that watches descriptors: an event is a structure of the caller's, which `event_add` hands to the
base and `event_del` takes back. The base has the events in two lists, of those that are inserted and of those that are
active, and epoll has a table with the event that is responsible for reading a descriptor, and the one for writing it.
All of these are pointers, so that an event that is deleted must be in none of them.

Timeouts and signals are left out, and so are the two events of the base that no watcher owns: the pump's
`wakeup_event_`, and the timer of its `Run`. `event_active` is always called for one call, so that `ev_ncalls` is 0 while
the callback runs. `epollCtl` keeps what it was told of a descriptor; that the kernel forgets one that is closed is not
modelled.
-/

namespace Zutils.Net

/-- `EV_READ` and `EV_WRITE`. -/
inductive IoKind where
  | read
  | write
  deriving DecidableEq, Repr

/-- The other one. -/
def IoKind.other : IoKind → IoKind
  | read => write
  | write => read

/-- A set of them. -/
abbrev IoMask := IoKind → Bool

namespace IoMask

/-- There is something in it. -/
def any (m : IoMask) : Bool := m .read || m .write

def union (m m' : IoMask) : IoMask := fun k => m k || m' k

/-- The kind that is alone in it. -/
def sole (m : IoMask) : Option IoKind :=
  if m .read && !m .write then some .read else if !m .read && m .write then some .write else none

end IoMask

/-- `struct event`, at an address. -/
structure Event where
  fd : ℕ
  /-- `EV_READ` and `EV_WRITE` in `ev_events`, and `EV_PERSIST`. -/
  mask : IoMask
  persist : Bool
  /-- The watcher that `ev_arg` points to. -/
  arg : ℕ
  /-- `EVLIST_INSERTED` and `EVLIST_ACTIVE` in `ev_flags`. -/
  inserted : Bool
  active : Bool
  res : IoMask
  ncalls : ℕ
  /-- `ev_pncalls` is not NULL. -/
  pncalls : Bool

/-- `event_set`. -/
def Event.set (fd : ℕ) (mask : IoMask) (persist : Bool) (arg : ℕ) : Event where
  fd := fd
  mask := mask
  persist := persist
  arg := arg
  inserted := false
  active := false
  res := fun _ => false
  ncalls := 0
  pncalls := false

/-- `struct event_base` with its `struct epollop`, the events in memory, and what the kernel has been told. -/
structure EventBase where
  /-- The events that have not been deleted, by their addresses. -/
  events : ℕ → Option Event
  activequeue : List ℕ
  /-- `evread` and `evwrite` of a descriptor. -/
  fds : ℕ → IoKind → Option ℕ
  /-- What epoll has been told of a descriptor, if it has been told of it. -/
  interest : ℕ → Option IoMask
  /-- A deleted event has been used, `event_errx` has been called, or `ev_pncalls` stored through. -/
  fault : Bool

/-- The operations of `epoll_ctl`. -/
inductive EpollOp where
  | add
  | mod
  | del
  deriving DecidableEq, Repr

namespace EventBase

/-- `event_base_new()`. -/
def new : EventBase where
  events _ := none
  activequeue := []
  fds _ _ := none
  interest _ := none
  fault := false

variable (b : EventBase)

def fail : EventBase := { b with fault := true }

def setEvent (e : ℕ) (ev : Event) : EventBase := { b with events := Function.update b.events e (some ev) }

/-- `delete e`. -/
def free (e : ℕ) : EventBase := { b with events := Function.update b.events e none }

/-- `epoll_ctl`, which refuses to add what is there and to change what is not, and may fail otherwise. -/
def epollCtl (ok : Bool) (op : EpollOp) (fd : ℕ) (events : IoMask) : Bool × EventBase :=
  if ok && (decide (op = .add) == (b.interest fd).isNone) then
    (true, { b with interest := Function.update b.interest fd (if op = .del then none else some events) })
  else (false, b)

/-- `epoll_add`. -/
def epollAdd (e : ℕ) (ev : Event) (ok : Bool) : Bool × EventBase :=
  let there : IoMask := fun k => (b.fds ev.fd k).isSome
  let (added, b) := b.epollCtl ok (if there.any then .mod else .add) ev.fd (there.union ev.mask)
  if added then
    (true, { b with fds := Function.update b.fds ev.fd fun k => if ev.mask k then some e else b.fds ev.fd k })
  else (false, b)

/-- `epoll_del`. The entry of an event that watches for one kind leaves that of the other kind alone. -/
def epollDel (ev : Event) (ok : Bool) : Bool × EventBase :=
  match ev.mask.sole with
  | some k =>
    if (b.fds ev.fd k.other).isSome then
      { b with fds := Function.update b.fds ev.fd (Function.update (b.fds ev.fd) k none) }.epollCtl ok .mod ev.fd
        fun k' => k' = k.other
    else { b with fds := Function.update b.fds ev.fd fun _ => none }.epollCtl ok .del ev.fd ev.mask
  | none => { b with fds := Function.update b.fds ev.fd fun _ => none }.epollCtl ok .del ev.fd ev.mask

/-- `event_add(ev, NULL)`. -/
def eventAdd (e : ℕ) (ok : Bool) : Bool × EventBase :=
  match b.events e with
  | none => (false, b.fail)
  | some ev =>
    if ev.inserted || ev.active then (true, b)
    else
      let (added, b) := b.epollAdd e ev ok
      if added then (true, b.setEvent e { ev with inserted := true }) else (false, b)

/-- `event_del(ev)`. -/
def eventDel (e : ℕ) (ok : Bool) : Bool × EventBase :=
  match b.events e with
  | none => (false, b.fail)
  | some ev =>
    let b := { b with
      fault := b.fault || (ev.ncalls ≠ 0 && ev.pncalls)
      events := Function.update b.events e (some { ev with inserted := false, active := false })
      activequeue := if ev.active then b.activequeue.erase e else b.activequeue }
    if ev.inserted then b.epollDel ev ok else (true, b)

/-- `event_active(ev, res, 1)`. -/
def eventActive (e : ℕ) (k : IoKind) : EventBase :=
  match b.events e with
  | none => b.fail
  | some ev =>
    if ev.active then b.setEvent e { ev with res := Function.update ev.res k true }
    else
      { b with activequeue := b.activequeue ++ [e] }.setEvent e
        { ev with active := true, res := fun k' => k' = k, ncalls := 1, pncalls := false }

/-- `event_active` for an entry of the table. -/
def activate (entry : Option ℕ) (k : IoKind) : EventBase :=
  match entry with
  | none => b
  | some e => b.eventActive e k

/-- What `epoll_dispatch` does with an event that `epoll_wait` reports; `EPOLLHUP` and `EPOLLERR` stand for both kinds. -/
def report (fd : ℕ) (what : IoMask) : EventBase :=
  (b.activate (if what .read then b.fds fd .read else none) .read).activate
    (if what .write then b.fds fd .write else none) .write

/-- What `event_process_active` does in front of the callback. -/
def popActive (e : ℕ) (ok : Bool) : EventBase :=
  match b.events e with
  | none => b.fail
  | some ev =>
    if ev.persist then
      -- `event_queue_remove(base, ev, EVLIST_ACTIVE)`
      if ev.active then
        { b with activequeue := b.activequeue.erase e }.setEvent e { ev with active := false, ncalls := 0, pncalls := true }
      else b.fail
    else (b.eventDel e ok).2.setEvent e { ev with inserted := false, active := false, ncalls := 0, pncalls := true }

end EventBase

end Zutils.Net
