import Zutils.Lib.Ledger
import Zutils.Net.ConnectorSpec

/-!
# Who owns a client's sockets

A socket that `CreateTCPConnectedSocket` returned belongs to the connector while the connect is under way and to a
handler behind it, and whoever owns it closes it. `Owned` says that the sockets returned are the ones that were closed
and the ones that have an owner, each of them once. `OnDestroyConnection` returns whether `io_handler_` is NULL, and
`DoClose(true)` closes `connector_` when it is not: a failed connect of a client without a handler leaves its socket
open (`failed_connect_leaks`), and a connection that is there is closed twice. `SocketAction.KeepsOwnership` says when
an action keeps the account (`owned_perform_iff`).
-/

namespace Zutils.Net

open Zutils.Lib

/-- What a handler has: a socket or none. -/
def ClientHandler.sockets (h : ClientHandler) : List ℤ := if h.socket = kInvalidSocket then [] else [h.socket]

/-- The sockets of some handlers. -/
def handlerSockets (hs : List ClientHandler) : List ℤ := hs.flatMap ClientHandler.sockets

lemma ClientHandler.sockets_of_eq {h : ClientHandler} (heq : h.socket = kInvalidSocket) : h.sockets = [] := if_pos heq

lemma ClientHandler.sockets_of_ne {h : ClientHandler} (hne : h.socket ≠ kInvalidSocket) : h.sockets = [h.socket] :=
  if_neg hne

lemma handlerSockets_concat (hs : List ClientHandler) (h : ClientHandler) :
    (handlerSockets (hs ++ [h])).Perm (h.sockets ++ handlerSockets hs) := by
  unfold handlerSockets
  rw [List.flatMap_append, List.flatMap_singleton]
  exact List.perm_append_comm

lemma handlerSockets_set {hs : List ClientHandler} {i : ℕ} {h h' : ClientHandler} (hi : hs[i]? = some h)
    (heq : h'.socket = kInvalidSocket) : (handlerSockets hs).Perm (h.sockets ++ handlerSockets (hs.set i h')) := by
  induction hs generalizing i with
  | nil => cases hi
  | cons g hs ih =>
    cases i with
    | zero =>
      obtain rfl := Option.some.inj hi
      simp only [handlerSockets, List.set_cons_zero, List.flatMap_cons, ClientHandler.sockets_of_eq heq,
        List.nil_append]
      exact List.Perm.refl _
    | succ i =>
      have hrec : (g.sockets ++ handlerSockets hs).Perm (g.sockets ++ (h.sockets ++ handlerSockets (hs.set i h'))) :=
        (ih hi).append_left _
      have hswap : (g.sockets ++ (h.sockets ++ handlerSockets (hs.set i h'))).Perm
          (h.sockets ++ (g.sockets ++ handlerSockets (hs.set i h'))) := by
        rw [← List.append_assoc, ← List.append_assoc]
        exact List.perm_append_comm.append_right _
      exact hrec.trans hswap

namespace ClientSockets

/-- The socket that the connector owns. -/
def pending (c : ClientSockets) : List ℤ :=
  if c.connectState = .connecting ∧ c.connector ≠ kInvalidSocket then [c.connector] else []

/-- The sockets that have an owner. -/
def held (c : ClientSockets) : List ℤ := c.pending ++ handlerSockets c.handlers

/-- Every socket that was returned has been closed once, or has one owner. -/
def Owned (c : ClientSockets) : Prop := Ledger c.returned c.closed c.held

/-- What holds besides. -/
structure Tidy (c : ClientSockets) : Prop where
  /-- Before a connect there is no socket in `connector_`. -/
  connector_of_invalid : c.connectState = .invalid → c.connector = kInvalidSocket
  /-- A connection has a handler. -/
  ioHandler_of_connected : c.connectState = .connected → c.ioHandler ≠ none
  /-- `kConnectStateConnectComplete` is never set. -/
  not_complete : c.connectState ≠ .connectComplete

variable {c : ClientSockets}

lemma pending_of_connecting (hs : c.connectState = .connecting) (hc : c.connector ≠ kInvalidSocket) :
    c.pending = [c.connector] := if_pos ⟨hs, hc⟩

lemma pending_of_state (hs : c.connectState ≠ .connecting) : c.pending = [] := if_neg fun h => hs h.1

lemma pending_of_connector (hc : c.connector = kInvalidSocket) : c.pending = [] := if_neg fun h => h.2 hc

/-- Without a pending socket, the handlers have what is held. -/
lemma owned_iff_of_pending (hp : c.pending = []) :
    c.Owned ↔ Ledger c.returned c.closed (handlerSockets c.handlers) := by
  unfold Owned held
  rw [hp, List.nil_append]

lemma Owned.drop_pending_iff (h : c.Owned) :
    Ledger c.returned c.closed (handlerSockets c.handlers) ↔ c.pending = [] := Ledger.drop_iff h

/-! ### What each function does to the account -/

/-- **A new connection** passes its socket on to a handler; when the delegate refuses it, the handler closes it,
except for the socket 0. Everything else has to be with a handler. -/
lemma owned_onNewConnection_iff {s : ℤ} {accepts : Bool} {others : List ℤ}
    (h : Ledger c.returned c.closed (others ++ s :: handlerSockets c.handlers)) (hs : s ≠ kInvalidSocket) :
    (c.onNewConnection s accepts).Owned ↔ others = [] ∧ (accepts = true ∨ s ≠ 0) := by
  cases accepts with
  | true =>
    rw [onNewConnection_true, owned_iff_of_pending (pending_of_state ConnectState.noConfusion),
      Ledger.perm_iff (handlerSockets_concat _ _), ClientHandler.sockets_of_ne hs]
    exact (Ledger.drop_iff h).trans (by simp)
  | false =>
    rw [onNewConnection_false, owned_iff_of_pending (pending_of_connector rfl),
      Ledger.perm_iff (handlerSockets_concat _ _), ClientHandler.sockets_of_eq rfl, List.nil_append]
    by_cases h0 : s = 0
    · have hdrop : Ledger c.returned c.closed ((others ++ [s]) ++ handlerSockets c.handlers) := by
        rwa [List.append_assoc]
      simp only [h0, ne_eq, not_true_eq_false, false_and, if_false]
      refine (Ledger.drop_iff hdrop).trans ?_
      simp
    · simp only [h0, hs, ne_eq, not_false_eq_true, and_self, if_true, or_true, and_true]
      exact Ledger.release_iff.trans (Ledger.drop_iff h)

/-- **`DoClose(true)`** keeps the account when `connector_` is empty, or has a socket of the connector's own while there
is a handler. -/
lemma owned_doClose_iff (howned : c.Owned) (htidy : c.Tidy) : (c.doClose true).Owned ↔
    c.connector = kInvalidSocket ∨ (c.connectState = .connecting ∧ c.ioHandler ≠ none) := by
  have hdrop := howned.drop_pending_iff
  rw [doClose_eq]
  by_cases hc : c.connector = kInvalidSocket
  · rw [if_pos (Or.inr hc), owned_iff_of_pending (pending_of_connector rfl)]
    exact iff_of_true (hdrop.2 (pending_of_connector hc)) (Or.inl hc)
  rw [owned_iff_of_pending (by split <;> exact pending_of_connector rfl)]
  cases hs : c.connectState with
  | invalid => exact absurd (htidy.connector_of_invalid hs) hc
  | connecting =>
    have hpending := pending_of_connecting hs hc
    by_cases hi : c.ioHandler = none
    · rw [if_pos (Or.inl hi)]
      refine iff_of_false ?_ (by simp [hc, hi])
      intro h
      rw [hdrop.1 h] at hpending
      cases hpending
    · rw [if_neg (by simp [hc, hi])]
      refine iff_of_true (Ledger.release_iff.2 ?_) (Or.inr ⟨rfl, hi⟩)
      unfold Owned held at howned
      rwa [hpending] at howned
  | connectComplete => exact absurd hs htidy.not_complete
  | connected =>
    have hi := htidy.ioHandler_of_connected hs
    rw [if_neg (by simp [hc, hi])]
    have hpending : c.pending = [] := pending_of_state (by rw [hs]; exact ConnectState.noConfusion)
    exact iff_of_false (hdrop.2 hpending).not_twice (by simp [hc])

/-- **A handler that closes** closes its socket, except for the socket 0, and makes the connector forget its own. -/
lemma owned_closeHandler_iff (howned : c.Owned) {i : ℕ} {h : ClientHandler} (hi : c.handlers[i]? = some h) :
    (c.closeHandler i).Owned ↔ c.pending = [] ∧ h.socket ≠ 0 := by
  have hset (h' : ClientHandler) (heq : h'.socket = kInvalidSocket) :
      Ledger c.returned c.closed ((c.pending ++ h.sockets) ++ handlerSockets (c.handlers.set i h')) := by
    rw [List.append_assoc]
    exact (Ledger.perm_iff ((handlerSockets_set hi heq).append_left _)).1 howned
  rw [closeHandler_eq hi, onConnectionClosed_eq]
  by_cases hs : h.socket ≠ 0 ∧ h.socket ≠ kInvalidSocket
  · rw [if_pos hs, owned_iff_of_pending (pending_of_connector rfl)]
    rw [ClientHandler.sockets_of_ne hs.2] at hset
    have hmid := hset ⟨kInvalidSocket, false⟩ rfl
    rw [List.append_assoc, List.singleton_append] at hmid
    refine (Ledger.release_iff.trans (Ledger.drop_iff hmid)).trans ?_
    simp [hs.1]
  · rw [if_neg hs, owned_iff_of_pending (pending_of_connector rfl)]
    refine (Ledger.drop_iff (hset _ rfl)).trans ?_
    rw [List.append_eq_nil_iff]
    by_cases h0 : h.socket = 0
    · rw [ClientHandler.sockets_of_ne (by rw [h0]; decide)]
      simp [h0]
    · have heq : h.socket = kInvalidSocket := not_not.1 fun hne => hs ⟨h0, hne⟩
      rw [ClientHandler.sockets_of_eq heq]
      simp [h0]

end ClientSockets

/-! ### Actions -/

/-- When an action keeps the account. -/
def SocketAction.KeepsOwnership : SocketAction → ClientSockets → Prop
  | idle, _ => True
  | reConnect .failed, c | reConnect (.inProgress _), c => c.pending = []
  | reConnect (.connected s accepts), c => c.pending = [] ∧ (accepts = true ∨ s ≠ 0)
  | connected accepts, c => accepts = true ∨ c.connector ≠ 0
  | connectFailed, c | doClose, c =>
    c.connector = kInvalidSocket ∨ (c.connectState = .connecting ∧ c.ioHandler ≠ none)
  | close i, c => c.pending = [] ∧ c.handlers[i]?.map (·.socket) ≠ some 0
  | destroy, c =>
    (c.connector = kInvalidSocket ∨ (c.connectState = .connecting ∧ c.ioHandler ≠ none)) ∧
      handlerSockets c.handlers = []

instance (a : SocketAction) (c : ClientSockets) : Decidable (a.KeepsOwnership c) :=
  match a with
  | .idle => inferInstanceAs (Decidable True)
  | .reConnect .failed | .reConnect (.inProgress _) => inferInstanceAs (Decidable (_ = _))
  | .reConnect (.connected _ _) => inferInstanceAs (Decidable (_ ∧ (_ ∨ _)))
  | .connected _ => inferInstanceAs (Decidable (_ ∨ _))
  | .connectFailed | .doClose => inferInstanceAs (Decidable (_ ∨ (_ ∧ _)))
  | .close _ => inferInstanceAs (Decidable (_ ∧ _))
  | .destroy => inferInstanceAs (Decidable ((_ ∨ (_ ∧ _)) ∧ _))

namespace ClientSockets

variable {c : ClientSockets} {a : SocketAction}

lemma tidy_of_invalid (hs : c.connectState = .invalid) (hc : c.connector = kInvalidSocket) : c.Tidy := by
  refine ⟨fun _ => hc, ?_, ?_⟩ <;> rw [hs]
  · exact ConnectState.noConfusion
  · exact ConnectState.noConfusion

lemma tidy_closeHandler {i : ℕ} (hi : i < c.handlers.length) : (c.closeHandler i).Tidy := by
  rw [closeHandler_eq (List.getElem?_eq_getElem hi)]
  split <;> exact tidy_of_invalid rfl rfl

lemma tidy_onNewConnection {s : ℤ} {accepts : Bool} : (c.onNewConnection s accepts).Tidy :=
  ⟨ConnectState.noConfusion, fun _ => Option.some_ne_none _, ConnectState.noConfusion⟩

lemma Tidy.perform (h : c.Tidy) (hlegal : a.Legal c) : (a.perform c).Tidy := by
  cases a with
  | idle => exact h
  | reConnect r =>
    cases r with
    | failed => exact ⟨fun _ => rfl, h.ioHandler_of_connected, h.not_complete⟩
    | connected s accepts => exact tidy_onNewConnection
    | inProgress s => exact ⟨ConnectState.noConfusion, ConnectState.noConfusion, ConnectState.noConfusion⟩
  | connected accepts => exact tidy_onNewConnection
  | connectFailed => exact tidy_of_invalid rfl rfl
  | doClose => exact tidy_of_invalid rfl rfl
  | close i => exact tidy_closeHandler hlegal
  | destroy => exact tidy_of_invalid rfl rfl

/-- With a new socket for the connector, the one it had has to be accounted for. -/
lemma Owned.createSocket (h : c.Owned) (s : ℤ) :
    Ledger (c.returned ++ [s]) c.closed (c.pending ++ s :: handlerSockets c.handlers) :=
  (Ledger.perm_iff List.perm_middle).2 (Ledger.acquire_iff.2 h)

/-- **An action keeps the account** if and only if it meets its condition. -/
theorem owned_perform_iff (howned : c.Owned) (htidy : c.Tidy) (hnonneg : c.Nonneg) (hlegal : a.Legal c)
    (ha : a ≠ .destroy) : (a.perform c).Owned ↔ a.KeepsOwnership c := by
  cases a with
  | idle => exact iff_of_true howned trivial
  | reConnect r =>
    cases r with
    | failed => exact (owned_iff_of_pending (pending_of_connector rfl)).trans howned.drop_pending_iff
    | connected s accepts =>
      exact owned_onNewConnection_iff (howned.createSocket s) (ne_kInvalidSocket_of_nonneg hlegal.1)
    | inProgress s =>
      have hpending := pending_of_connecting
        (c := { c.createSocket (.inProgress s) with connectState := .connecting }) rfl
        (ne_kInvalidSocket_of_nonneg hlegal.1)
      unfold Owned held
      rw [SocketAction.perform, hpending]
      exact Ledger.drop_iff (howned.createSocket s)
  | connected accepts =>
    obtain ⟨hs, hopen⟩ := hlegal
    have hne := ne_kInvalidSocket_of_nonneg (hnonneg _ hopen)
    have hmine : Ledger c.returned c.closed ([] ++ c.connector :: handlerSockets c.handlers) := by
      unfold Owned held at howned
      rwa [pending_of_connecting hs hne] at howned
    exact (owned_onNewConnection_iff hmine hne).trans (and_iff_right rfl)
  | connectFailed => exact owned_doClose_iff howned htidy
  | doClose => exact owned_doClose_iff howned htidy
  | close i =>
    have hi := List.getElem?_eq_getElem hlegal
    refine (owned_closeHandler_iff howned hi).trans ?_
    simp only [SocketAction.KeepsOwnership, hi, Option.map_some, ne_eq, Option.some.injEq]
  | destroy => exact absurd rfl ha

/-- **The end of a client** keeps the account, with nothing left over, if and only if no handler has a socket and
`DoClose(true)` may be called. -/
theorem owned_destroy_iff (howned : c.Owned) (htidy : c.Tidy) :
    (c.doClose true).Owned ∧ (c.doClose true).held = [] ↔ SocketAction.destroy.KeepsOwnership c := by
  have hheld : (c.doClose true).held = handlerSockets c.handlers := by
    unfold held
    rw [doClose_eq]
    split
    · rw [pending_of_connector rfl, List.nil_append]
    · rw [pending_of_connector rfl, List.nil_append]
  rw [owned_doClose_iff howned htidy, hheld]
  exact Iff.rfl

end ClientSockets

/-! ### Runs -/

/-- Every socket that was returned has been closed once, or has one owner; behind the end of the client none has. -/
def Client.Accounted (c : Client) : Prop := c.Owned ∧ (c.destroyed = true → c.held = [])

/-- An event happens whose action keeps the account. -/
def HappensOwned (c : Client) (e : ClientEvent) (c' : Client) : Prop :=
  Happens c e c' ∧ (e.action c).KeepsOwnership c.toClientSockets

/-- **An event keeps the account** if and only if its action does. -/
lemma accounted_iff {c c' : Client} {e : ClientEvent} (howned : c.Owned) (htidy : c.Tidy) (hnonneg : c.Nonneg)
    (h : Happens c e c') : c'.Accounted ↔ (e.action c).KeepsOwnership c.toClientSockets := by
  obtain ⟨hsockets, hdestroyed⟩ := ClientEvent.exec_eq h.2
  unfold Client.Accounted
  rw [hdestroyed, hsockets]
  by_cases ha : e.action c = .destroy
  · rw [ha, forall_prop_of_true rfl]
    exact ClientSockets.owned_destroy_iff howned htidy
  · rw [forall_prop_of_false ha, and_true]
    exact ClientSockets.owned_perform_iff howned htidy hnonneg (h.1.action h.2) ha

/-- **The sockets of a client are accounted for** in every state of every run whose actions keep the account: each one
returned has been closed once or has one owner, and when the client is gone each one has been closed. The next event
keeps the account if and only if its action does. -/
theorem sockets_accounted {es : List ClientEvent} {c : Client} (h : Run HappensOwned Client.new es c) :
    (∀ s, c.returned.count s = c.closed.count s + c.held.count s) ∧
      (c.destroyed = true → ∀ s, c.closed.count s = c.returned.count s) ∧
      ∀ e c', Happens c e c' → (c'.Accounted ↔ (e.action c).KeepsOwnership c.toClientSockets) := by
  have hinv : c.Accounted ∧ c.Tidy ∧ c.Nonneg := by
    refine h.inv (P := fun _ c => c.Accounted ∧ c.Tidy ∧ c.Nonneg)
      ⟨⟨Ledger.nil, fun _ => rfl⟩, ClientSockets.tidy_of_invalid rfl rfl, ?_⟩ ?_
    · rintro fd ⟨⟩
    · rintro es c e c' ⟨haccounted, htidy, hnonneg⟩ ⟨he, hkeeps⟩
      refine ⟨(accounted_iff haccounted.1 htidy hnonneg he).2 hkeeps, ?_⟩
      have hlegal := he.1.action he.2
      rw [(ClientEvent.exec_eq he.2).1]
      exact ⟨htidy.perform hlegal, hnonneg.perform hlegal⟩
  obtain ⟨haccounted, htidy, hnonneg⟩ := hinv
  refine ⟨haccounted.1.count_eq, ?_, fun e c' he => accounted_iff haccounted.1 htidy hnonneg he⟩
  intro hdestroyed s
  have hcount := haccounted.1.count_eq s
  rw [haccounted.2 hdestroyed] at hcount
  exact hcount.symm

/-- An asynchronous connect, closed by the peer, and a synchronous one, refused by the delegate some data later; then
the client ends. -/
theorem sockets_accounted_run : ∃ c : Client,
    Run HappensOwned Client.new [.connect "10.0.0.1" "80" true, .runTask (.inProgress 5), .writable (.ok true),
      .read 0 true, .connect "10.0.0.1" "80" true, .runTask (.connected 6 true), .read 1 false, .read 1 true,
      .destroy] c ∧
    c.returned = [5, 6] ∧ (∀ s, c.returned.count s = c.closed.count s + c.held.count s) ∧
      (c.destroyed = true → ∀ s, c.closed.count s = c.returned.count s) ∧
      ∀ e c', Happens c e c' → (c'.Accounted ↔ (e.action c).KeepsOwnership c.toClientSockets) := by
  have h : Run HappensOwned Client.new [.connect "10.0.0.1" "80" true, .runTask (.inProgress 5), .writable (.ok true),
      .read 0 true, .connect "10.0.0.1" "80" true, .runTask (.connected 6 true), .read 1 false, .read 1 true,
      .destroy] _ :=
    Run.of_guarded (fun e c => e.Legal c ∧ (e.action c).KeepsOwnership c.toClientSockets) ClientEvent.exec
      (fun _ _ _ hg he => ⟨⟨hg.1, he⟩, hg.2⟩) rfl
  exact ⟨_, h, rfl, sockets_accounted h⟩

/-- **A failed connect leaks its socket**: there is no handler, and that is when `DoClose` closes nothing. -/
theorem failed_connect_leaks : ∃ c : Client,
    Run Happens Client.new [.connect "10.0.0.1" "80" true, .runTask (.inProgress 5), .writable .failed] c ∧
    c.returned = [5] ∧ c.closed = [] ∧ c.held = [] ∧ 5 ∈ c.openFds ∧ ¬ c.Accounted := by
  have h : Run Happens Client.new [.connect "10.0.0.1" "80" true, .runTask (.inProgress 5), .writable .failed] _ :=
    Run.of_guarded ClientEvent.Legal ClientEvent.exec (fun _ _ _ hlegal he => ⟨hlegal, he⟩) rfl
  refine ⟨_, h, rfl, rfl, rfl, List.mem_cons_self, ?_⟩
  intro haccounted
  have hlen := haccounted.1.length_eq
  cases hlen

end Zutils.Net
