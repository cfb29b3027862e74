import Zutils.Lib.Run
import Mathlib.Data.Int.Notation
import Mathlib.Tactic.Common

/-!
# The life of a connection (`net/engine/io_handler.cc`)

`Create` takes a reference that `Close` releases. `Close` runs when the delegate refuses a connection or some data,
when a read meets the end of the stream or an error, and when the delegate calls it from one of its callbacks; it
calls the delegate itself, which may call `Close` again. The callbacks that are running are a stack here, and what
the delegate does in them are events of the machine: it calls `Close`, takes or drops references, and returns some
value. Every callback is handed a temporary `IOHandlerPtr`, which holds a reference until the callback returns.

`Close` has no guard, so that a delegate that calls it in `OnNewConnection` and then returns -1 closes the connection
twice (`closed_twice`). In the runs whose events are all `Disciplined` the connection is closed once
(`closed_once`).
-/

namespace Zutils.Net

open Zutils.Lib

/-- `kInvalidSocket`. -/
def kInvalidSocket : ℤ := -1

/-- A callback of the delegate. -/
inductive Callback where
  | onNewConnection
  | onDataReceived
  | onConnectionClosed
  deriving DecidableEq, Repr

/-- What `ReadFd` returned: more than zero, zero, or less. -/
inductive ReadOutcome where
  | data
  | eof
  | error
  deriving DecidableEq, Repr

/-- A handler from `Create()` on. -/
structure Lifecycle where
  socket : ℤ
  /-- `delegate_ != NULL`. -/
  hasDelegate : Bool
  /-- The reference count. -/
  refs : ℕ
  /-- The references held outside of the handler's own code. -/
  held : ℕ
  /-- The read watcher is on. -/
  watching : Bool
  /-- `OnCreated` has run. -/
  created : Bool
  /-- The running callbacks, the innermost one first. -/
  callbacks : List Callback
  /-- The last reference is gone. -/
  deleted : Bool
  /-- How often `OnConnectionClosed` was called. -/
  closedCalls : ℕ
  /-- How often `Close` released a reference. -/
  releases : ℕ
  /-- How often `close(socket_)` was called. -/
  closes : ℕ
  /-- Code of the handler ran after the last reference was gone. -/
  afterDelete : Bool
  deriving DecidableEq, Repr

namespace Lifecycle

/-- After the `AddRef` in `Create()`. -/
def create (socket : ℤ) (hasDelegate : Bool) (held : ℕ) : Lifecycle where
  socket := socket
  hasDelegate := hasDelegate
  refs := held + 1
  held := held
  watching := false
  created := false
  callbacks := []
  deleted := false
  closedCalls := 0
  releases := 0
  closes := 0
  afterDelete := false

variable (s : Lifecycle)

/-- Code of the handler runs. -/
def touch : Lifecycle := { s with afterDelete := s.afterDelete || s.deleted }

/-- `CloseSocket(socket_)`. -/
def closeSocket : Lifecycle :=
  if s.socket ≠ 0 ∧ s.socket ≠ kInvalidSocket then { s with watching := false, closes := s.closes + 1 } else s

/-- `Release()`; with the last reference `~IOHandler()` runs, and the watchers stop. -/
def release : Lifecycle :=
  let s := { s with refs := s.refs - 1 }
  if s.refs = 0 then { s.closeSocket with deleted := true, watching := false } else s

/-- A callback of the delegate begins, with a temporary `IOHandlerPtr`. -/
def callDelegate (c : Callback) : Lifecycle := { s with refs := s.refs + 1, callbacks := c :: s.callbacks }

/-- What `Close()` does behind `OnConnectionClosed`. -/
def finishClose : Lifecycle :=
  let s := s.touch.closeSocket
  { s with socket := kInvalidSocket, releases := s.releases + 1 }.release

/-- `Close()`, up to its callback. -/
def close : Lifecycle :=
  let s := s.touch
  if s.hasDelegate then { s with closedCalls := s.closedCalls + 1 }.callDelegate .onConnectionClosed
  else s.finishClose

/-- `OnCreated()`, up to its callback. -/
def onCreated : Lifecycle :=
  let s := { s.touch with created := true, watching := true }
  if s.hasDelegate then s.callDelegate .onNewConnection else s

/-- `Read(recv_time)`, up to its callback. -/
def read (r : ReadOutcome) : Lifecycle :=
  let s := s.touch
  match r with
  | .data => if s.hasDelegate then s.callDelegate .onDataReceived else s.close
  | .eof | .error => s.close

/-- What the handler does when the callback `c` has returned `v`. -/
def resume (c : Callback) (v : ℤ) : Lifecycle :=
  match c with
  | .onConnectionClosed => s.finishClose
  | .onNewConnection | .onDataReceived => if v ≠ 0 then s.close else s

end Lifecycle

/-- An event in the life of a connection. -/
inductive LifeEvent where
  /-- The loop runs `OnCreated`. -/
  | onCreated
  /-- The socket is readable. -/
  | read (r : ReadOutcome)
  /-- The delegate calls `Close()` from the innermost callback. -/
  | close
  /-- The innermost callback returns. -/
  | ret (v : ℤ)
  /-- Whoever has a reference copies it. -/
  | addRef
  /-- A reference is dropped. -/
  | dropRef
  deriving DecidableEq, Repr

namespace LifeEvent

/-- The state after an event that can happen. The loop runs its tasks one at a time, so that no event comes in while
a callback is running. -/
def exec : LifeEvent → Lifecycle → Option Lifecycle
  | onCreated, s => if s.created = false ∧ s.callbacks = [] then some s.onCreated else none
  | read r, s => if s.watching = true ∧ s.callbacks = [] then some (s.read r) else none
  | close, s => if s.callbacks = [] then none else some s.close
  | ret v, s =>
    match s.callbacks with
    | [] => none
    | c :: callbacks => some ({ s with callbacks }.release.resume c v)
  | addRef, s =>
    if s.callbacks = [] ∧ s.held = 0 then none else some { s with refs := s.refs + 1, held := s.held + 1 }
  | dropRef, s => if s.held = 0 then none else some { s with held := s.held - 1 }.release

/-- The delegate calls `Close()` from `OnNewConnection` and `OnDataReceived` only, and only while the socket is not
closed; once it is, these two callbacks return 0. The socket 0, which `CloseSocket` neither closes nor stops
watching, is not read from after it. -/
def Disciplined : LifeEvent → Lifecycle → Prop
  | close, s => s.socket ≠ kInvalidSocket ∧ s.callbacks.head? ≠ some .onConnectionClosed
  | ret v, s => s.callbacks.head? = some .onConnectionClosed ∨ (s.socket = kInvalidSocket → v = 0)
  | read _, s => s.socket ≠ kInvalidSocket
  | onCreated, _ | addRef, _ | dropRef, _ => True

instance (e : LifeEvent) (s : Lifecycle) : Decidable (e.Disciplined s) :=
  match e with
  | close => inferInstanceAs (Decidable (_ ∧ _))
  | ret _ => inferInstanceAs (Decidable (_ ∨ _))
  | read _ => inferInstanceAs (Decidable (_ ≠ _))
  | onCreated | addRef | dropRef => inferInstanceAs (Decidable True)

end LifeEvent

/-- An event happens. -/
def Lives (s : Lifecycle) (e : LifeEvent) (s' : Lifecycle) : Prop := e.exec s = some s'

/-- A disciplined event happens. -/
def LivesDisciplined (s : Lifecycle) (e : LifeEvent) (s' : Lifecycle) : Prop := Lives s e s' ∧ e.Disciplined s

/-! ### The three phases -/

namespace Lifecycle

/-- `Close` has not released its reference yet, and `calls` times called the delegate. -/
structure Alive (s : Lifecycle) (calls : ℕ) : Prop where
  refs_eq : s.refs = s.held + s.callbacks.length + 1
  closedCalls_eq : s.closedCalls = calls
  releases_eq : s.releases = 0
  closes_eq : s.closes = 0
  not_deleted : s.deleted = false
  not_after : s.afterDelete = false
  created_of_callbacks : s.callbacks ≠ [] → s.created = true
  created_of_watching : s.watching = true → s.created = true

/-- `Close` has not begun. -/
structure Opened (s : Lifecycle) : Prop extends Alive s 0 where
  no_closed : .onConnectionClosed ∉ s.callbacks

/-- `Close` waits for `OnConnectionClosed`. -/
structure Closing (s : Lifecycle) : Prop extends Alive s 1 where
  top : ∃ callbacks, s.callbacks = .onConnectionClosed :: callbacks ∧ .onConnectionClosed ∉ callbacks

/-- `Close` has run to its end. -/
structure Closed (s : Lifecycle) : Prop where
  socket_eq : s.socket = kInvalidSocket
  refs_eq : s.refs = s.held + s.callbacks.length
  closedCalls_le : s.closedCalls ≤ 1
  releases_eq : s.releases = 1
  closes_le : s.closes ≤ 1
  deleted_iff : s.deleted = true ↔ s.refs = 0
  not_after : s.afterDelete = false
  created : s.created = true
  no_closed : .onConnectionClosed ∉ s.callbacks

variable {s : Lifecycle}

/-! ### What each function does -/

lemma touch_eq (h : s.deleted = false) : s.touch = s := by
  rcases s with ⟨socket, hasDelegate, refs, held, watching, created, callbacks, deleted, n, m, k, afterDelete⟩
  obtain rfl : deleted = false := h
  simp [touch]

lemma closeSocket_eq :
    s.closeSocket = { s with watching := s.closeSocket.watching, closes := s.closeSocket.closes } := by
  unfold closeSocket
  split <;> rfl

lemma closeSocket_closes_le : s.closeSocket.closes ≤ s.closes + 1 := by
  unfold closeSocket
  split
  · exact Nat.le_refl _
  · exact Nat.le_succ _

lemma closeSocket_invalid (h : s.socket = kInvalidSocket) : s.closeSocket = s := by
  rw [closeSocket, if_neg fun hs => hs.2 h]

/-- Not the last reference. -/
lemma release_eq {n : ℕ} (h : s.refs = n + 2) : s.release = { s with refs := n + 1 } := by
  unfold release
  simp only [h]
  rfl

/-- The last reference, behind `Close`. -/
lemma release_last (h : s.refs = 1) (hs : s.socket = kInvalidSocket) :
    s.release = { s with refs := 0, deleted := true, watching := false } := by
  unfold release
  simp only [h]
  rw [closeSocket_invalid (by exact hs)]
  rfl

lemma Closed.release {n : ℕ} (h : s.Closed) (hn : s.refs = n + 1) {held : ℕ} {callbacks : List Callback}
    (hrefs : n = held + callbacks.length) (hno : .onConnectionClosed ∉ callbacks) :
    ({ s with held, callbacks }.release).Closed := by
  have hdel : s.deleted = false := by
    have := h.deleted_iff
    simpa [hn] using this
  rcases n with _ | n
  · rw [release_last (by exact hn) (by exact h.socket_eq)]
    exact ⟨h.socket_eq, hrefs, h.closedCalls_le, h.releases_eq, h.closes_le, by simp, h.not_after, h.created, hno⟩
  · rw [release_eq (by exact hn)]
    exact ⟨h.socket_eq, hrefs, h.closedCalls_le, h.releases_eq, h.closes_le, by simp [hdel], h.not_after, h.created,
      hno⟩

/-- **The rest of `Close`** closes the connection. -/
lemma Alive.finishClose {calls : ℕ} (h : s.Alive calls) (hcalls : calls ≤ 1) (hcreated : s.created = true)
    (hno : .onConnectionClosed ∉ s.callbacks) : s.finishClose.Closed := by
  unfold Lifecycle.finishClose
  rw [touch_eq h.not_deleted, closeSocket_eq]
  have hcloses : s.closeSocket.closes ≤ 1 := by
    have := closeSocket_closes_le (s := s)
    rw [h.closes_eq] at this
    omega
  have hrel : s.releases + 1 = 1 := by rw [h.releases_eq]
  have hrefs := h.refs_eq
  have hcc : s.closedCalls ≤ 1 := h.closedCalls_eq ▸ hcalls
  rcases hn : s.held + s.callbacks.length with _ | n
  · rw [release_last (by simp only; omega) rfl]
    exact ⟨rfl, by simp only; omega, hcc, hrel, hcloses, by simp, h.not_after, hcreated, hno⟩
  · rw [release_eq (n := n) (by simp only; omega)]
    exact ⟨rfl, by simp only; omega, hcc, hrel, hcloses, by simp [h.not_deleted], h.not_after, hcreated, hno⟩

lemma Opened.callDelegate (h : s.Opened) (hcreated : s.created = true) {c : Callback} (hc : c ≠ .onConnectionClosed) :
    (s.callDelegate c).Opened where
  refs_eq := by
    have := h.refs_eq
    simp only [Lifecycle.callDelegate, List.length_cons]
    omega
  closedCalls_eq := h.closedCalls_eq
  releases_eq := h.releases_eq
  closes_eq := h.closes_eq
  not_deleted := h.not_deleted
  not_after := h.not_after
  created_of_callbacks := fun _ => hcreated
  created_of_watching := fun _ => hcreated
  no_closed := by
    simp only [Lifecycle.callDelegate, List.mem_cons, not_or]
    exact ⟨hc.symm, h.no_closed⟩

/-- **`Close` of an open connection** waits for the delegate, or runs to its end when there is none. -/
lemma Opened.close (h : s.Opened) (hcreated : s.created = true) : s.close.Closing ∨ s.close.Closed := by
  unfold Lifecycle.close
  rw [touch_eq h.not_deleted]
  by_cases hd : s.hasDelegate = true
  · left
    rw [if_pos hd]
    refine ⟨⟨?_, ?_, h.releases_eq, h.closes_eq, h.not_deleted, h.not_after, fun _ => hcreated, fun _ => hcreated⟩,
      s.callbacks, rfl, h.no_closed⟩
    · have := h.refs_eq
      simp only [Lifecycle.callDelegate, List.length_cons]
      omega
    · have := h.closedCalls_eq
      simp only [Lifecycle.callDelegate]
      omega
  · right
    rw [if_neg hd]
    exact h.toAlive.finishClose (Nat.zero_le _) hcreated h.no_closed

/-- A connection that has been closed at most once. -/
def Sound (s : Lifecycle) : Prop := s.Opened ∨ s.Closing ∨ s.Closed

lemma sound_create (socket : ℤ) (hasDelegate : Bool) (held : ℕ) : (create socket hasDelegate held).Sound :=
  .inl ⟨⟨rfl, rfl, rfl, rfl, rfl, rfl, fun h => absurd rfl h, fun h => by cases h⟩, by simp [create]⟩

/-! ### What each event does -/

lemma Opened.onCreated (h : s.Opened) : s.onCreated.Opened := by
  unfold Lifecycle.onCreated
  rw [touch_eq h.not_deleted]
  have h' : ({ s with created := true, watching := true } : Lifecycle).Opened :=
    ⟨⟨h.refs_eq, h.closedCalls_eq, h.releases_eq, h.closes_eq, h.not_deleted, h.not_after, fun _ => rfl, fun _ => rfl⟩,
      h.no_closed⟩
  by_cases hd : s.hasDelegate = true
  · rw [if_pos hd]
    exact h'.callDelegate rfl (by decide)
  · rw [if_neg hd]
    exact h'

lemma Opened.read (h : s.Opened) (hcreated : s.created = true) (r : ReadOutcome) : (s.read r).Sound := by
  have hclose : s.close.Sound := .inr (h.close hcreated)
  unfold Lifecycle.read
  rw [touch_eq h.not_deleted]
  rcases r with _ | _ | _
  · by_cases hd : s.hasDelegate = true
    · simp only [if_pos hd]
      exact .inl (h.callDelegate hcreated (by decide))
    · simp only [if_neg hd]
      exact hclose
  · exact hclose
  · exact hclose

/-- The innermost callback gives its reference back, which is not the last one. -/
lemma Alive.pop {calls : ℕ} (h : s.Alive calls) {c : Callback} {callbacks : List Callback}
    (hc : s.callbacks = c :: callbacks) : ({ s with callbacks }.release).Alive calls ∧
      ({ s with callbacks }.release).callbacks = callbacks ∧ ({ s with callbacks }.release).created = true := by
  have hrefs := h.refs_eq
  rw [hc, List.length_cons] at hrefs
  have hcreated : s.created = true := h.created_of_callbacks (by rw [hc]; exact List.cons_ne_nil _ _)
  rw [release_eq (n := s.held + callbacks.length) (by simp only; omega)]
  exact ⟨⟨rfl, h.closedCalls_eq, h.releases_eq, h.closes_eq, h.not_deleted, h.not_after, fun _ => hcreated,
    fun _ => hcreated⟩, rfl, hcreated⟩

lemma Opened.ret (h : s.Opened) {c : Callback} {callbacks : List Callback} (hc : s.callbacks = c :: callbacks)
    (v : ℤ) : ({ s with callbacks }.release.resume c v).Sound := by
  have hno := h.no_closed
  rw [hc, List.mem_cons, not_or] at hno
  obtain ⟨halive, hcb, hcreated⟩ := h.toAlive.pop hc
  generalize ({ s with callbacks }.release : Lifecycle) = t at halive hcb hcreated
  have ht : t.Opened := ⟨halive, by rw [hcb]; exact hno.2⟩
  have hresume : t.resume c v = if v ≠ 0 then t.close else t := by
    cases c with
    | onNewConnection => rfl
    | onDataReceived => rfl
    | onConnectionClosed => exact absurd rfl hno.1
  rw [hresume]
  split
  · exact .inr (ht.close hcreated)
  · exact .inl ht

lemma Closing.ret (h : s.Closing) {c : Callback} {callbacks : List Callback} (hc : s.callbacks = c :: callbacks)
    (v : ℤ) : ({ s with callbacks }.release.resume c v).Closed := by
  obtain ⟨callbacks', htop, hno⟩ := h.top
  rw [hc] at htop
  obtain ⟨rfl, rfl⟩ := List.cons.inj htop
  obtain ⟨halive, hcb, hcreated⟩ := h.toAlive.pop hc
  exact halive.finishClose (Nat.le_refl 1) hcreated (by rw [hcb]; exact hno)

lemma Closed.ret (h : s.Closed) {c : Callback} {callbacks : List Callback} (hc : s.callbacks = c :: callbacks) :
    ({ s with callbacks }.release.resume c 0).Closed := by
  have hno := h.no_closed
  have hrefs := h.refs_eq
  rw [hc, List.mem_cons, not_or] at hno
  rw [hc, List.length_cons] at hrefs
  have ht := h.release (n := s.held + callbacks.length) (by omega) rfl hno.2
  generalize ({ s with callbacks }.release : Lifecycle) = t at ht
  cases c with
  | onNewConnection => exact ht
  | onDataReceived => exact ht
  | onConnectionClosed => exact absurd rfl hno.1

lemma Alive.setHeld {calls : ℕ} (h : s.Alive calls) {refs held : ℕ} (hrefs : refs = held + s.callbacks.length + 1) :
    ({ s with refs, held } : Lifecycle).Alive calls :=
  ⟨hrefs, h.closedCalls_eq, h.releases_eq, h.closes_eq, h.not_deleted, h.not_after, h.created_of_callbacks,
    h.created_of_watching⟩

lemma Sound.addRef (h : s.Sound) (he : ¬ (s.callbacks = [] ∧ s.held = 0)) :
    ({ s with refs := s.refs + 1, held := s.held + 1 } : Lifecycle).Sound := by
  rcases h with h | h | h
  · have hrefs := h.refs_eq
    exact .inl ⟨h.toAlive.setHeld (by omega), h.no_closed⟩
  · have hrefs := h.refs_eq
    exact .inr (.inl ⟨h.toAlive.setHeld (by omega), h.top⟩)
  · have hrefs := h.refs_eq
    have hdel : s.deleted = false := by
      have hpos : s.refs ≠ 0 := fun h0 => he ⟨List.eq_nil_of_length_eq_zero (by omega), by omega⟩
      have := mt h.deleted_iff.1 hpos
      simpa using this
    exact .inr (.inr ⟨h.socket_eq, by simp only; omega, h.closedCalls_le, h.releases_eq, h.closes_le, by simp [hdel],
      h.not_after, h.created, h.no_closed⟩)

lemma Sound.dropRef (h : s.Sound) {held : ℕ} (hheld : s.held = held + 1) : ({ s with held }.release).Sound := by
  rcases h with h | h | h
  · have hrefs := h.refs_eq
    rw [release_eq (n := held + s.callbacks.length) (by simp only; omega)]
    exact .inl ⟨h.toAlive.setHeld rfl, h.no_closed⟩
  · have hrefs := h.refs_eq
    rw [release_eq (n := held + s.callbacks.length) (by simp only; omega)]
    exact .inr (.inl ⟨h.toAlive.setHeld rfl, h.top⟩)
  · have hrefs := h.refs_eq
    exact .inr (.inr (h.release (n := held + s.callbacks.length) (by omega) rfl h.no_closed))

/-- **A disciplined event** keeps a connection sound. -/
theorem Sound.exec (h : s.Sound) {e : LifeEvent} {s' : Lifecycle} (hd : e.Disciplined s) (he : e.exec s = some s') :
    s'.Sound := by
  cases e with
  | onCreated =>
    obtain ⟨⟨hcreated, -⟩, he⟩ := Option.ite_none_right_eq_some.1 he
    obtain rfl := Option.some.inj he
    rcases h with h | h | h
    · exact .inl h.onCreated
    · obtain ⟨callbacks, htop, -⟩ := h.top
      rw [h.created_of_callbacks (by rw [htop]; exact List.cons_ne_nil _ _)] at hcreated
      cases hcreated
    · rw [h.created] at hcreated
      cases hcreated
  | read r =>
    obtain ⟨⟨hwatching, hnil⟩, he⟩ := Option.ite_none_right_eq_some.1 he
    obtain rfl := Option.some.inj he
    rcases h with h | h | h
    · exact h.read (h.created_of_watching hwatching) r
    · obtain ⟨callbacks, htop, -⟩ := h.top
      rw [hnil] at htop
      cases htop
    · exact absurd h.socket_eq hd
  | close =>
    obtain ⟨hne, he⟩ := Option.ite_none_left_eq_some.1 he
    obtain rfl := Option.some.inj he
    rcases h with h | h | h
    · exact .inr (h.close (h.created_of_callbacks hne))
    · obtain ⟨callbacks, htop, -⟩ := h.top
      exact absurd (by rw [htop]; rfl) hd.2
    · exact absurd h.socket_eq hd.1
  | ret v =>
    rcases hc : s.callbacks with _ | ⟨c, callbacks⟩
    · simp only [LifeEvent.exec, hc] at he
      cases he
    · simp only [LifeEvent.exec, hc] at he
      obtain rfl := Option.some.inj he
      rcases h with h | h | h
      · exact h.ret hc v
      · exact .inr (.inr (h.ret hc v))
      · have hv : v = 0 := by
          rcases hd with htop | hv
          · have hno := h.no_closed
            rw [hc] at htop hno
            rw [List.head?_cons, Option.some.injEq] at htop
            exact absurd (by rw [htop]; exact List.mem_cons_self) hno
          · exact hv h.socket_eq
        subst hv
        exact .inr (.inr (h.ret hc))
  | addRef =>
    obtain ⟨hne, he⟩ := Option.ite_none_left_eq_some.1 he
    obtain rfl := Option.some.inj he
    exact h.addRef hne
  | dropRef =>
    obtain ⟨hne, he⟩ := Option.ite_none_left_eq_some.1 he
    obtain rfl := Option.some.inj he
    exact h.dropRef (by omega)

lemma Sound.once (h : s.Sound) :
    s.closedCalls ≤ 1 ∧ s.releases ≤ 1 ∧ s.closes ≤ 1 ∧ s.afterDelete = false := by
  rcases h with h | h | h
  · rw [h.closedCalls_eq, h.releases_eq, h.closes_eq]
    exact ⟨Nat.zero_le _, Nat.zero_le _, Nat.zero_le _, h.not_after⟩
  · rw [h.closedCalls_eq, h.releases_eq, h.closes_eq]
    exact ⟨Nat.le_refl _, Nat.zero_le _, Nat.zero_le _, h.not_after⟩
  · rw [h.releases_eq]
    exact ⟨h.closedCalls_le, Nat.le_refl _, h.closes_le, h.not_after⟩

end Lifecycle

/-- **A connection is closed once** in every run whose events are disciplined: the delegate hears of it at most once,
`Close` releases at most one reference and closes the socket at most once, and no code of the handler runs after the
last reference is gone. -/
theorem closed_once {socket : ℤ} {hasDelegate : Bool} {held : ℕ} {es : List LifeEvent} {s : Lifecycle}
    (h : Run LivesDisciplined (Lifecycle.create socket hasDelegate held) es s) :
    s.closedCalls ≤ 1 ∧ s.releases ≤ 1 ∧ s.closes ≤ 1 ∧ s.afterDelete = false := by
  have hsound : s.Sound := by
    refine h.inv (P := fun _ s => s.Sound) (Lifecycle.sound_create socket hasDelegate held) ?_
    rintro es s e s' hs ⟨he, hd⟩
    exact hs.exec hd he
  exact hsound.once

/-- The delegate closes the connection while it handles some data, and returns 0. -/
theorem closed_once_run : ∃ s : Lifecycle,
    Run LivesDisciplined (Lifecycle.create 5 true 0) [.onCreated, .ret 0, .read .data, .close, .ret 0, .ret 0] s ∧
    s.deleted = true ∧ s.closedCalls ≤ 1 ∧ s.releases ≤ 1 ∧ s.closes ≤ 1 ∧ s.afterDelete = false := by
  have h : Run LivesDisciplined (Lifecycle.create 5 true 0)
      [.onCreated, .ret 0, .read .data, .close, .ret 0, .ret 0] _ :=
    Run.of_guarded LifeEvent.Disciplined LifeEvent.exec (fun _ _ _ hd he => ⟨he, hd⟩) rfl
  exact ⟨_, h, rfl, closed_once h⟩

/-- **`Close` has no guard**: a delegate that closes the connection in `OnNewConnection` and then refuses it is told
twice, two references are released, and the second `Close` runs in a handler that is gone. -/
theorem closed_twice : ∃ s : Lifecycle,
    Run Lives (Lifecycle.create 5 true 0) [.onCreated, .close, .ret 0, .ret (-1), .ret 0] s ∧
    s.closedCalls = 2 ∧ s.releases = 2 ∧ s.afterDelete = true := by
  have h : Run Lives (Lifecycle.create 5 true 0) [.onCreated, .close, .ret 0, .ret (-1), .ret 0] _ :=
    Run.of_foldlM (f := fun s e => e.exec s) (fun _ _ _ he => he) rfl
  exact ⟨_, h, rfl, rfl, rfl⟩

end Zutils.Net
