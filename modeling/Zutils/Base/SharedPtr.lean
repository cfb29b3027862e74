import Mathlib.Algebra.Group.Nat.Defs
import Mathlib.Algebra.Order.Ring.Int
import Mathlib.Data.List.Basic
import Zutils.Lib.Run

/-!
# Shared pointers (`base2/shared_ptr.h`)

An object, its control block, and the `shared_ptr`s and `weak_ptr`s to it, which any number of threads copy, destroy
and lock. Assignment, `swap` and `reset` are made of these, and move pointers from one variable to another.

A call takes several steps, between which other threads take theirs: `~shared_ptr` decrements `refcount_`, deletes
the object, decrements `weak_count_` and deletes the control block; `lock()` reads `refcount_` and tries to replace what
it has read, until it succeeds. `calls` are the calls that are under way, each in front of its next step. The counters
are 32 bits wide.

The pointers are what threads may use: a pointer that is being copied is not destroyed meanwhile, nor is a `weak_ptr`
that is being locked, nor the last `shared_ptr` in `shared_from_this()`.
-/

namespace Zutils

open Zutils.Lib

/-- A call under way, in front of a step. -/
inductive PtrCall where
  /-- `delete ptr_`. -/
  | deleteObject
  /-- `~weak_ptr` of `weak_this_`, in `delete ptr_`. -/
  | dropWeakThis
  /-- `AtomicRefCountDec(&control_block_->weak_count_)` in `~shared_ptr`. -/
  | dropWeakCount
  /-- `delete control_block_`, in `delete ptr_` or not. -/
  | deleteControlBlock (ofThis : Bool)
  /-- The next step of `lock()`, of `weak_this_` or not, with `old_refcount` if it has been read. -/
  | lock (ofThis : Bool) (oldRefcount : Option ℤ)
  deriving DecidableEq, Repr

/-- The call is a `lock()`, of `weak_this_` or not. -/
def PtrCall.isLock (ofThis : Bool) : PtrCall → Bool
  | .lock t _ => t == ofThis
  | _ => false

/-- An object and its control block, the pointers to it, and what has become of it. -/
structure SharedObject where
  refcount : ℤ
  weakCount : ℤ
  /-- The `shared_ptr`s. -/
  shared : ℕ
  /-- The `weak_ptr`s besides `weak_this_`. -/
  weak : ℕ
  /-- `T` inherits from `enable_shared_from_this`. -/
  hasWeakThis : Bool
  calls : List PtrCall
  /-- How often the object has been deleted. -/
  objectDeletes : ℕ
  /-- How often the control block has been deleted. -/
  blockDeletes : ℕ
  /-- What was deleted has been used or deleted, or a `CHECK` has failed. -/
  fault : Bool
  deriving DecidableEq, Repr

namespace SharedObject

/-- `shared_ptr(ptr)`, with `MaybeSetupWeakThis`. -/
def new (hasWeakThis : Bool) : SharedObject where
  refcount := 1
  weakCount := if hasWeakThis then 2 else 1
  shared := 1
  weak := 0
  hasWeakThis := hasWeakThis
  calls := []
  objectDeletes := 0
  blockDeletes := 0
  fault := false

variable (s : SharedObject)

/-- A use of the control block. -/
def touch : SharedObject := { s with fault := s.fault || 0 < s.blockDeletes }

/-- `AtomicRefCountInc(&control_block_->refcount_)`, for one more `shared_ptr`. -/
def incRefcount : SharedObject :=
  { s.touch with refcount := (s.refcount + 1).bmod (2 ^ 32), shared := s.shared + 1 }

/-- `AtomicRefCountInc(&control_block_->weak_count_)`, for one more `weak_ptr`. -/
def incWeakCount : SharedObject :=
  { s.touch with weakCount := (s.weakCount + 1).bmod (2 ^ 32), weak := s.weak + 1 }

/-- `AtomicRefCountDec(&control_block_->weak_count_)`, and what comes next. -/
def decWeakCount (next : List PtrCall) (ofThis : Bool) : SharedObject :=
  let count := (s.weakCount - 1).bmod (2 ^ 32)
  { s.touch with
    weakCount := count
    calls := if count = 0 then .deleteControlBlock ofThis :: s.calls else next ++ s.calls }

/-- `~shared_ptr()`, up to its first step. -/
def dropShared : SharedObject :=
  let count := (s.refcount - 1).bmod (2 ^ 32)
  { s.touch with
    refcount := count
    shared := s.shared - 1
    calls := if count = 0 then .deleteObject :: s.calls else s.calls }

/-- `lock()` of a `weak_ptr`, or `shared_from_this()`, up to its first step. The latter begins with a `CHECK`. -/
def beginLock (ofThis : Bool) : SharedObject :=
  let s := if ofThis then { s.touch with fault := s.touch.fault || s.refcount = 0 } else s
  { s with calls := .lock ofThis none :: s.calls }

/-- The next step of a call. -/
def advance : PtrCall → SharedObject
  | .deleteObject =>
    { s with
      objectDeletes := s.objectDeletes + 1
      fault := s.fault || 0 < s.objectDeletes
      calls := (if s.hasWeakThis then .dropWeakThis else .dropWeakCount) :: s.calls }
  | .dropWeakThis => s.decWeakCount [.dropWeakCount] true
  | .dropWeakCount => s.decWeakCount [] false
  | .deleteControlBlock ofThis =>
    { s with
      blockDeletes := s.blockDeletes + 1
      fault := s.fault || 0 < s.blockDeletes
      calls := if ofThis then .dropWeakCount :: s.calls else s.calls }
  | .lock ofThis none =>
    -- an expired pointer is not locked
    if s.refcount = 0 then s.touch else { s.touch with calls := .lock ofThis (some s.refcount) :: s.calls }
  | .lock ofThis (some oldRefcount) =>
    if s.refcount = oldRefcount then s.incRefcount else { s.touch with calls := .lock ofThis none :: s.calls }

end SharedObject

/-- A step of some thread. -/
inductive PtrEvent where
  | copyShared
  | dropShared
  /-- `weak_ptr(const shared_ptr& ptr)`. -/
  | weakOfShared
  | copyWeak
  | dropWeak
  | beginLock (ofThis : Bool)
  | advance (call : PtrCall)
  deriving DecidableEq, Repr

namespace PtrEvent

/-- The state after a step that can be taken. There are not so many pointers that a counter would overflow. -/
def exec : PtrEvent → SharedObject → Option SharedObject
  | copyShared, s => if 0 < s.shared ∧ s.shared + 1 < 2 ^ 31 then some s.incRefcount else none
  | dropShared, s =>
    if 0 < s.shared ∧ (s.shared = 1 → ∀ c ∈ s.calls, c.isLock true = false) then some s.dropShared else none
  | weakOfShared, s => if 0 < s.shared ∧ s.weak + 4 < 2 ^ 31 then some s.incWeakCount else none
  | copyWeak, s => if 0 < s.weak ∧ s.weak + 4 < 2 ^ 31 then some s.incWeakCount else none
  | dropWeak, s =>
    if 0 < s.weak ∧ (s.weak = 1 → ∀ c ∈ s.calls, c.isLock false = false) then
      some ({ s with weak := s.weak - 1 }.decWeakCount [] false)
    else none
  | beginLock true, s => if 0 < s.shared ∧ s.hasWeakThis = true then some (s.beginLock true) else none
  | beginLock false, s => if 0 < s.weak then some (s.beginLock false) else none
  | advance call, s =>
    if call ∈ s.calls ∧ s.shared + 1 < 2 ^ 31 then some ({ s with calls := s.calls.erase call }.advance call) else none

end PtrEvent

/-- A step is taken. -/
def TakesStep (s : SharedObject) (e : PtrEvent) (s' : SharedObject) : Prop := e.exec s = some s'

end Zutils
