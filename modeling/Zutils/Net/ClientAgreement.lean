import Zutils.Net.ConnectorSpec

/-!
# When a client is connected

`connect_state_` should be `kConnectStateConnected` exactly while `io_handler_` is a handler with an open socket that is
also the one in `connector_` (`Agrees`). Three actions of the client can break it, and `Action.KeepsAgreement` says when
they do not (`agrees_perform_iff`):

* a delegate refuses a connection, which is closed and then made the current one;
* `ReConnect` fails while a connection is there, with `connector_` overwritten and the state left as it is;
* `ReConnect` gets back the number of a socket that the current handler still has.
-/

namespace Zutils.Net

open Zutils.Lib

namespace ClientSockets

/-- The state is `kConnectStateConnected` if and only if `io_handler_` is there, with an open socket that is stored in
`connector_`. -/
def Agrees (c : ClientSockets) : Prop :=
  c.connectState = .connected ↔
    ∃ h, c.currentHandler = some h ∧ h.socket ≠ kInvalidSocket ∧ h.socket ∈ c.openFds ∧ h.socket = c.connector

variable {c : ClientSockets}

/-- Without a socket in `connector_`, the state must not be `kConnectStateConnected`. -/
lemma agrees_iff_of_connector (hc : c.connector = kInvalidSocket) : c.Agrees ↔ c.connectState ≠ .connected := by
  have hright : ¬ ∃ h, c.currentHandler = some h ∧ h.socket ≠ kInvalidSocket ∧ h.socket ∈ c.openFds ∧
      h.socket = c.connector := by
    rintro ⟨h, -, hs, -, heq⟩
    exact hs (heq.trans hc)
  exact iff_false_right hright

lemma agrees_doClose : (c.doClose true).Agrees :=
  (agrees_iff_of_connector rfl).2 (by simp [doClose])

lemma agrees_closeHandler {i : ℕ} (hi : i < c.handlers.length) : (c.closeHandler i).Agrees := by
  have heq := closeHandler_eq (List.getElem?_eq_getElem hi)
  have hboth : (c.closeHandler i).connector = kInvalidSocket ∧ (c.closeHandler i).connectState = .invalid := by
    rw [heq]
    split <;> exact ⟨rfl, rfl⟩
  apply (agrees_iff_of_connector hboth.1).2
  rw [hboth.2]
  decide

/-- **A new connection** agrees if and only if the delegate accepts it. -/
lemma agrees_onNewConnection_iff {s : ℤ} {accepts : Bool} (hs : 0 ≤ s) (hopen : s ∈ c.openFds)
    (hc : c.connector = s) : (c.onNewConnection s accepts).Agrees ↔ accepts = true := by
  cases accepts with
  | true =>
    rw [onNewConnection_true]
    refine iff_of_true ?_ rfl
    have hcur : (c.handlers ++ [⟨s, true⟩])[c.handlers.length]? = some (⟨s, true⟩ : ClientHandler) :=
      List.getElem?_concat_length
    exact iff_of_true rfl ⟨⟨s, true⟩, hcur, ne_kInvalidSocket_of_nonneg hs, hopen, hc.symm⟩
  | false =>
    rw [onNewConnection_false, agrees_iff_of_connector rfl]
    simp

/-- **A connect that is under way** agrees unless the current handler has a socket of that number. -/
lemma agrees_connecting_iff {s : ℤ} (hs : 0 ≤ s) :
    ({ c.createSocket (.inProgress s) with connectState := .connecting } : ClientSockets).Agrees ↔
      c.currentHandler.map (·.socket) ≠ some s := by
  have hne := ne_kInvalidSocket_of_nonneg hs
  unfold Agrees
  constructor
  · intro hagrees hmap
    obtain ⟨h, hcur, rfl⟩ := Option.map_eq_some_iff.1 hmap
    have hstate := hagrees.2 ⟨h, hcur, hne, List.mem_cons_self, rfl⟩
    cases hstate
  · intro hmap
    constructor
    · intro hstate
      cases hstate
    · rintro ⟨h, hcur, -, -, heq⟩
      exact absurd (Option.map_eq_some_iff.2 ⟨h, hcur, heq⟩) hmap

end ClientSockets

/-- When an action keeps the agreement. -/
def SocketAction.KeepsAgreement : SocketAction → ClientSockets → Prop
  | reConnect .failed, c => c.connectState ≠ .connected
  | reConnect (.inProgress s), c => c.currentHandler.map (·.socket) ≠ some s
  | reConnect (.connected _ accepts), _ | connected accepts, _ => accepts = true
  | idle, _ | connectFailed, _ | doClose, _ | close _, _ | destroy, _ => True

instance (a : SocketAction) (c : ClientSockets) : Decidable (a.KeepsAgreement c) :=
  match a with
  | .reConnect .failed => inferInstanceAs (Decidable (_ ≠ _))
  | .reConnect (.inProgress _) => inferInstanceAs (Decidable (_ ≠ _))
  | .reConnect (.connected _ _) | .connected _ => inferInstanceAs (Decidable (_ = _))
  | .idle | .connectFailed | .doClose | .close _ | .destroy => inferInstanceAs (Decidable True)

namespace ClientSockets

variable {c : ClientSockets} {a : SocketAction}

/-- **An action keeps the agreement** if and only if it meets its condition. -/
theorem agrees_perform_iff (hagrees : c.Agrees) (hnonneg : c.Nonneg) (hlegal : a.Legal c) :
    (a.perform c).Agrees ↔ a.KeepsAgreement c := by
  cases a with
  | idle => exact iff_of_true hagrees trivial
  | reConnect r =>
    cases r with
    | failed => exact agrees_iff_of_connector rfl
    | connected s accepts =>
      obtain ⟨hs, -⟩ := hlegal
      exact agrees_onNewConnection_iff hs List.mem_cons_self rfl
    | inProgress s =>
      obtain ⟨hs, -⟩ := hlegal
      exact agrees_connecting_iff hs
  | connected accepts =>
    obtain ⟨-, hopen⟩ := hlegal
    exact agrees_onNewConnection_iff (hnonneg _ hopen) hopen rfl
  | connectFailed => exact iff_of_true agrees_doClose trivial
  | doClose => exact iff_of_true agrees_doClose trivial
  | close i => exact iff_of_true (agrees_closeHandler hlegal) trivial
  | destroy => exact iff_of_true agrees_doClose trivial

end ClientSockets

/-- An event happens whose action keeps the agreement. -/
def HappensAgreed (c : Client) (e : ClientEvent) (c' : Client) : Prop :=
  Happens c e c' ∧ (e.action c).KeepsAgreement c.toClientSockets

/-- **Client and connector agree** in every state of every run whose actions keep the agreement, and the next event
keeps it if and only if its action does. -/
theorem connected_iff_open {es : List ClientEvent} {c : Client} (h : Run HappensAgreed Client.new es c) :
    c.Agrees ∧ ∀ e c', Happens c e c' → (c'.Agrees ↔ (e.action c).KeepsAgreement c.toClientSockets) := by
  have hstep : ∀ {c c' : Client} {e : ClientEvent}, c.Agrees → c.Nonneg → Happens c e c' →
      c'.Nonneg ∧ (c'.Agrees ↔ (e.action c).KeepsAgreement c.toClientSockets) := by
    rintro c c' e hagrees hnonneg ⟨hlegal, he⟩
    have hlegal := hlegal.action he
    rw [(ClientEvent.exec_eq he).1]
    exact ⟨hnonneg.perform hlegal, ClientSockets.agrees_perform_iff hagrees hnonneg hlegal⟩
  have hinv : c.Agrees ∧ c.Nonneg := by
    refine h.inv (P := fun _ c => c.Agrees ∧ c.Nonneg)
      ⟨(ClientSockets.agrees_iff_of_connector rfl).2 (by decide), ?_⟩ ?_
    · rintro fd ⟨⟩
    · rintro es c e c' ⟨hagrees, hnonneg⟩ ⟨he, hkeeps⟩
      obtain ⟨hnonneg', hiff⟩ := hstep hagrees hnonneg he
      exact ⟨hiff.2 hkeeps, hnonneg'⟩
  exact ⟨hinv.1, fun e c' he => (hstep hinv.1 hinv.2 he).2⟩

/-- The peer closes a first connection, and a second one is made asynchronously. -/
theorem connected_iff_open_run : ∃ c : Client,
    Run HappensAgreed Client.new [.connect "10.0.0.1" "80" true, .runTask (.connected 5 true), .read 0 true,
      .connect "10.0.0.1" "80" true, .runTask (.inProgress 5), .writable (.ok true)] c ∧
    c.connectState = .connected ∧ c.Agrees ∧
      ∀ e c', Happens c e c' → (c'.Agrees ↔ (e.action c).KeepsAgreement c.toClientSockets) := by
  have h : Run HappensAgreed Client.new [.connect "10.0.0.1" "80" true, .runTask (.connected 5 true), .read 0 true,
      .connect "10.0.0.1" "80" true, .runTask (.inProgress 5), .writable (.ok true)] _ :=
    Run.of_guarded (fun e c => e.Legal c ∧ (e.action c).KeepsAgreement c.toClientSockets) ClientEvent.exec
      (fun _ _ _ hg he => ⟨⟨hg.1, he⟩, hg.2⟩) rfl
  exact ⟨_, h, rfl, connected_iff_open h⟩

/-- **A refused connection** is closed, and the client says that it is connected. -/
theorem refused_is_connected : ∃ c : Client,
    Run Happens Client.new [.connect "10.0.0.1" "80" true, .runTask (.connected 5 false)] c ∧
    c.closed = [5] ∧ c.connectState = .connected ∧ ¬ c.Agrees := by
  have h : Run Happens Client.new [.connect "10.0.0.1" "80" true, .runTask (.connected 5 false)] _ :=
    Run.of_guarded ClientEvent.Legal ClientEvent.exec (fun _ _ _ hlegal he => ⟨hlegal, he⟩) rfl
  refine ⟨_, h, rfl, rfl, ?_⟩
  intro hagrees
  obtain ⟨handler, hcur, hne, -⟩ := hagrees.1 rfl
  obtain rfl := Option.some.inj hcur
  exact hne rfl

end Zutils.Net
