import Zutils.Net.Connector

/-!
# What a client's events do to its sockets

As far as the sockets go, an event is one of a few actions (`ClientEvent.exec_eq`): tasks, addresses and watchers only
decide which. The functions of the source that an action runs are given in closed form.
-/

namespace Zutils.Net

/-- What an event comes to for the sockets. -/
inductive SocketAction where
  | idle
  /-- `ReConnect`. -/
  | reConnect (r : CreateResult)
  /-- The connect that was under way is done. -/
  | connected (accepts : Bool)
  /-- The connect that was under way failed. -/
  | connectFailed
  /-- A task `DoClose(true)`. -/
  | doClose
  /-- A handler closes. -/
  | close (i : ℕ)
  | destroy
  deriving DecidableEq, Repr

/-- What an event comes to. -/
def ClientEvent.action (e : ClientEvent) (c : Client) : SocketAction :=
  match e with
  | connect _ _ _ | disConnect => .idle
  | runTask r =>
    match c.posted with
    | [] => .idle
    | .reConnect :: _ => .reConnect r
    | .doClose :: _ => .doClose
  | runDelayed r => .reConnect r
  | writable r =>
    if c.connectState ≠ .connecting then .idle
    else match r with
      | .inProgress => .idle
      | .ok accepts => .connected accepts
      | .failed => .connectFailed
  | read i closes => if closes then .close i else .idle
  | destroy => .destroy

namespace SocketAction

/-- The sockets after an action. -/
def perform : SocketAction → ClientSockets → ClientSockets
  | idle, c => c
  | reConnect .failed, c => c.createSocket .failed
  | reConnect (.connected s accepts), c => (c.createSocket (.connected s accepts)).onNewConnection s accepts
  | reConnect (.inProgress s), c => { c.createSocket (.inProgress s) with connectState := .connecting }
  | connected accepts, c => c.onNewConnection c.connector accepts
  | connectFailed, c | doClose, c | destroy, c => c.doClose true
  | close i, c => c.closeHandler i

/-- When an action can happen. -/
def Legal : SocketAction → ClientSockets → Prop
  | idle, _ | doClose, _ | destroy, _ => True
  | reConnect r, c => r.Legal c
  | connected _, c => c.connectState = .connecting ∧ c.connector ∈ c.openFds
  | connectFailed, c => c.connectState = .connecting
  | close i, c => i < c.handlers.length

end SocketAction

lemma ne_kInvalidSocket_of_nonneg {s : ℤ} (hs : 0 ≤ s) : s ≠ kInvalidSocket := by
  rintro rfl
  exact absurd hs (by decide)

namespace ClientSockets

variable (c : ClientSockets)

/-- `DoClose(true)` closes `connector_` when `io_handler_` is there, and not when it is not. -/
lemma doClose_eq : c.doClose true =
    if c.ioHandler = none ∨ c.connector = kInvalidSocket then
      { c with connector := kInvalidSocket, connectState := .invalid }
    else
      { c with
        connector := kInvalidSocket, connectState := .invalid
        openFds := c.openFds.erase c.connector, closed := c.closed ++ [c.connector] } := by
  by_cases hi : c.ioHandler = none
  · have hd : c.onDestroyConnection = true := Option.isNone_iff_eq_none.2 hi
    simp [doClose, hd, hi]
  · have hd : c.onDestroyConnection = false := Option.isNone_eq_false_iff.2 (Option.isSome_iff_ne_none.2 hi)
    by_cases hc : c.connector = kInvalidSocket
    · simp [doClose, closeFd, hd, hc]
    · simp [doClose, closeFd, hd, hi, hc]

lemma onConnectionClosed_eq : c.onConnectionClosed =
    { c with ioHandler := none, connector := kInvalidSocket, connectState := .invalid } := rfl

variable {c}

lemma closeHandler_eq {i : ℕ} {h : ClientHandler} (hi : c.handlers[i]? = some h) : c.closeHandler i =
    if h.socket ≠ 0 ∧ h.socket ≠ kInvalidSocket then
      { c.onConnectionClosed with
        handlers := c.handlers.set i ⟨kInvalidSocket, false⟩
        openFds := c.openFds.erase h.socket, closed := c.closed ++ [h.socket] }
    else { c.onConnectionClosed with handlers := c.handlers.set i ⟨kInvalidSocket, h.watched⟩ } := by
  unfold closeHandler
  rw [onConnectionClosed_eq]
  simp only [hi]
  split
  · rename_i hs
    rw [closeFd, if_neg hs.2]
  · rfl

variable (c)

lemma onNewConnection_true (s : ℤ) : c.onNewConnection s true =
    { c with
      connectState := .connected, ioHandler := some c.handlers.length
      handlers := c.handlers ++ [⟨s, true⟩] } := rfl

/-- **A refused connection** is closed first, and is made the current one all the same. -/
lemma onNewConnection_false (s : ℤ) : c.onNewConnection s false =
    { c with
      connectState := .connected, connector := kInvalidSocket, ioHandler := some c.handlers.length
      handlers := c.handlers ++ [⟨kInvalidSocket, decide (s = 0 ∨ s = kInvalidSocket)⟩]
      openFds := if s ≠ 0 ∧ s ≠ kInvalidSocket then c.openFds.erase s else c.openFds
      closed := if s ≠ 0 ∧ s ≠ kInvalidSocket then c.closed ++ [s] else c.closed } := by
  have hi : ({ c with handlers := c.handlers ++ [⟨s, true⟩] } : ClientSockets).handlers[c.handlers.length]? =
      some ⟨s, true⟩ := List.getElem?_concat_length
  simp only [onNewConnection, onCreateConnection, Bool.false_eq_true, if_false, if_true]
  rw [closeHandler_eq hi, onConnectionClosed_eq]
  by_cases hs : s ≠ 0 ∧ s ≠ kInvalidSocket
  · simp [hs]
  · simp [hs]
    omega

/-- No socket is open with a negative number. -/
def Nonneg : Prop := ∀ fd ∈ c.openFds, 0 ≤ fd

variable {c} {a : SocketAction}

lemma doClose_openFds_subset : (c.doClose true).openFds ⊆ c.openFds := by
  rw [doClose_eq]
  split
  · exact List.Subset.refl _
  · exact List.erase_subset

lemma closeHandler_openFds_subset {i : ℕ} (hi : i < c.handlers.length) : (c.closeHandler i).openFds ⊆ c.openFds := by
  rw [closeHandler_eq (List.getElem?_eq_getElem hi)]
  split
  · exact List.erase_subset
  · exact List.Subset.refl _

lemma onNewConnection_openFds_subset {s : ℤ} {accepts : Bool} : (c.onNewConnection s accepts).openFds ⊆ c.openFds := by
  cases accepts with
  | true => exact List.Subset.refl _
  | false =>
    rw [onNewConnection_false]
    dsimp only
    split
    · exact List.erase_subset
    · exact List.Subset.refl _

lemma Nonneg.perform (hnonneg : c.Nonneg) (hlegal : a.Legal c) : (a.perform c).Nonneg := by
  have hsub : ∀ {d : ClientSockets}, d.openFds ⊆ c.openFds → d.Nonneg := fun h fd hfd => hnonneg fd (h hfd)
  have hcons : ∀ {s : ℤ}, 0 ≤ s → ∀ fd ∈ s :: c.openFds, 0 ≤ fd := by
    intro s hs fd hfd
    rcases List.mem_cons.1 hfd with rfl | hfd
    · exact hs
    · exact hnonneg fd hfd
  cases a with
  | idle => exact hnonneg
  | reConnect r =>
    cases r with
    | failed => exact hnonneg
    | connected s accepts => exact fun fd hfd => hcons hlegal.1 fd (onNewConnection_openFds_subset hfd)
    | inProgress s => exact hcons hlegal.1
  | connected accepts => exact hsub onNewConnection_openFds_subset
  | connectFailed => exact hsub doClose_openFds_subset
  | doClose => exact hsub doClose_openFds_subset
  | close i => exact hsub (closeHandler_openFds_subset hlegal)
  | destroy => exact hsub doClose_openFds_subset

end ClientSockets

namespace Client

variable (c : Client)

lemma doConnect_eq (t : ℤ) :
    (c.doConnect t).toClientSockets = c.toClientSockets ∧ (c.doConnect t).destroyed = c.destroyed := by
  unfold doConnect
  split <;> exact ⟨rfl, rfl⟩

lemma onConnecting_eq :
    c.onConnecting.toClientSockets = c.toClientSockets ∧ c.onConnecting.destroyed = c.destroyed := by
  unfold onConnecting
  split
  · exact ⟨rfl, rfl⟩
  · split <;> exact ⟨rfl, rfl⟩

lemma connect_eq (ip port : String) (isNumericHostAddress : Bool) :
    (c.connect ip port isNumericHostAddress).1.toClientSockets = c.toClientSockets ∧
      (c.connect ip port isNumericHostAddress).1.destroyed = c.destroyed := by
  unfold connect
  split
  · exact ⟨rfl, rfl⟩
  · exact doConnect_eq _ _

lemma disConnect_eq :
    c.disConnect.1.toClientSockets = c.toClientSockets ∧ c.disConnect.1.destroyed = c.destroyed := by
  unfold disConnect
  split <;> exact ⟨rfl, rfl⟩

lemma reConnect_eq (r : CreateResult) :
    (c.reConnect r).toClientSockets = (SocketAction.reConnect r).perform c.toClientSockets ∧
      (c.reConnect r).destroyed = c.destroyed := by
  cases r with
  | failed => exact doConnect_eq _ _
  | connected s accepts => exact ⟨rfl, rfl⟩
  | inProgress s => exact onConnecting_eq _

lemma onConnected_eq (r : ConnectResult) :
    (c.onConnected r).toClientSockets = ((ClientEvent.writable r).action c).perform c.toClientSockets ∧
      (c.onConnected r).destroyed = c.destroyed := by
  unfold onConnected ClientEvent.action
  split
  · exact ⟨rfl, rfl⟩
  · cases r with
    | inProgress => exact ⟨rfl, rfl⟩
    | ok accepts => exact ⟨rfl, rfl⟩
    | failed =>
      simp only [SocketAction.perform]
      split
      · obtain ⟨hsockets, hdestroyed⟩ := doConnect_eq { c with watcher := none } c.connAddrInfo.reconnectTime
        rw [hsockets]
        exact ⟨rfl, hdestroyed⟩
      · exact ⟨rfl, rfl⟩

lemma onFileCanWrite_eq (r : ConnectResult) : c.onFileCanWrite r = c.onConnected r := by
  unfold onFileCanWrite
  split
  · rfl
  · rename_i hs
    unfold onConnected
    rw [if_pos hs]

end Client

/-- What each event makes of a client, and what it takes for it to happen. -/
inductive ClientEvent.Turns (c : Client) : ClientEvent → Client → Prop
  | connect (ip port : String) (isNumericHostAddress : Bool) :
      Turns c (.connect ip port isNumericHostAddress) (c.connect ip port isNumericHostAddress).1
  | disConnect : Turns c .disConnect c.disConnect.1
  | reConnect (r : CreateResult) (posted : List ConnectorTask) (hposted : c.posted = .reConnect :: posted) :
      Turns c (.runTask r) (({ c with posted } : Client).reConnect r)
  | doClose (r : CreateResult) (posted : List ConnectorTask) (hposted : c.posted = .doClose :: posted) :
      Turns c (.runTask r) { c with posted, toClientSockets := c.doClose true }
  | runDelayed (r : CreateResult) (hdelayed : c.delayed ≠ 0) :
      Turns c (.runDelayed r) (({ c with delayed := c.delayed - 1 } : Client).reConnect r)
  | writable (r : ConnectResult) (hwatcher : c.watcher ≠ none) : Turns c (.writable r) (c.onConnected r)
  | read (i : ℕ) (h : ClientHandler) (hi : c.handlers[i]? = some h) (hwatched : h.watched = true)
      (hsocket : h.socket ≠ kInvalidSocket) : Turns c (.read i false) c
  | close (i : ℕ) (h : ClientHandler) (hi : c.handlers[i]? = some h) (hwatched : h.watched = true) :
      Turns c (.read i true) { c with toClientSockets := c.closeHandler i }
  | destroy : Turns c .destroy c.destroy

lemma ClientEvent.turns_of_exec {c c' : Client} {e : ClientEvent} (he : e.exec c = some c') : Turns c e c' := by
  obtain ⟨-, he⟩ := Option.ite_none_left_eq_some.1 he
  cases e with
  | connect ip port isNumericHostAddress =>
    obtain rfl := Option.some.inj he
    exact .connect ip port isNumericHostAddress
  | disConnect =>
    obtain rfl := Option.some.inj he
    exact .disConnect
  | runTask r =>
    rcases hp : c.posted with _ | ⟨_ | _, posted⟩
    · simp only [hp] at he
      cases he
    · simp only [hp] at he
      obtain rfl := Option.some.inj he
      exact .reConnect r posted hp
    · simp only [hp] at he
      obtain rfl := Option.some.inj he
      exact .doClose r posted hp
  | runDelayed r =>
    obtain ⟨hdelayed, he⟩ := Option.ite_none_left_eq_some.1 he
    obtain rfl := Option.some.inj he
    exact .runDelayed r hdelayed
  | writable r =>
    obtain ⟨hwatcher, he⟩ := Option.ite_none_left_eq_some.1 he
    obtain rfl := Option.some.inj he
    rw [Client.onFileCanWrite_eq]
    exact .writable r hwatcher
  | read i closes =>
    rcases hi : c.handlers[i]? with _ | h
    · simp only [hi] at he
      cases he
    · simp only [hi] at he
      obtain ⟨hcan, he⟩ := Option.ite_none_left_eq_some.1 he
      obtain rfl := Option.some.inj he
      obtain ⟨hwatched, hsocket⟩ := not_or.1 hcan
      rw [Bool.not_eq_false] at hwatched
      cases closes with
      | false => exact .read i h hi hwatched fun hs => hsocket ⟨hs, rfl⟩
      | true => exact .close i h hi hwatched
  | destroy =>
    obtain rfl := Option.some.inj he
    exact .destroy

lemma ClientEvent.Legal.action {c c' : Client} {e : ClientEvent} (h : e.Legal c) (he : e.exec c = some c') :
    (e.action c).Legal c.toClientSockets := by
  cases turns_of_exec he with
  | connect ip port isNumericHostAddress => trivial
  | disConnect => trivial
  | reConnect r posted hposted =>
    have ha : (runTask r).action c = .reConnect r := by simp only [ClientEvent.action, hposted]
    rw [ha]
    exact h
  | doClose r posted hposted =>
    have ha : (runTask r).action c = .doClose := by simp only [ClientEvent.action, hposted]
    rw [ha]
    trivial
  | runDelayed r hdelayed => exact h
  | writable r hwatcher =>
    simp only [ClientEvent.action]
    by_cases hs : c.connectState = .connecting
    · rw [if_neg (not_not_intro hs)]
      cases r with
      | inProgress => trivial
      | ok accepts => exact ⟨hs, h⟩
      | failed => exact hs
    · rw [if_pos hs]
      trivial
  | read i handler hi hwatched hsocket => trivial
  | close i handler hi hwatched => exact (List.getElem?_eq_some_iff.1 hi).1
  | destroy => trivial

lemma ClientEvent.action_ne_destroy {e : ClientEvent} (he : e ≠ .destroy) (c : Client) : e.action c ≠ .destroy := by
  cases e with
  | connect ip port isNumericHostAddress => exact SocketAction.noConfusion
  | disConnect => exact SocketAction.noConfusion
  | runTask r =>
    unfold ClientEvent.action
    rcases c.posted with _ | ⟨_ | _, posted⟩ <;> exact SocketAction.noConfusion
  | runDelayed r => exact SocketAction.noConfusion
  | writable r =>
    simp only [ClientEvent.action]
    split
    · exact SocketAction.noConfusion
    · cases r <;> exact SocketAction.noConfusion
  | read i closes => cases closes <;> exact SocketAction.noConfusion
  | destroy => exact absurd rfl he

/-- **An event is its action**, as far as the sockets go. -/
lemma ClientEvent.exec_eq {c c' : Client} {e : ClientEvent} (he : e.exec c = some c') :
    c'.toClientSockets = (e.action c).perform c.toClientSockets ∧ (c'.destroyed = true ↔ e.action c = .destroy) := by
  have hc : ¬ c.destroyed = true := (Option.ite_none_left_eq_some.1 he).1
  have key : ∀ {d : Client}, d.destroyed = c.destroyed → e ≠ .destroy →
      (d.destroyed = true ↔ e.action c = .destroy) := by
    intro d hd hne
    rw [hd]
    exact iff_of_false hc (action_ne_destroy hne c)
  cases turns_of_exec he with
  | connect ip port isNumericHostAddress =>
    obtain ⟨hs, hd⟩ := c.connect_eq ip port isNumericHostAddress
    exact ⟨hs, key hd ClientEvent.noConfusion⟩
  | disConnect =>
    obtain ⟨hs, hd⟩ := c.disConnect_eq
    exact ⟨hs, key hd ClientEvent.noConfusion⟩
  | reConnect r posted hposted =>
    obtain ⟨hs, hd⟩ := ({ c with posted } : Client).reConnect_eq r
    have ha : (runTask r).action c = .reConnect r := by simp only [action, hposted]
    refine ⟨?_, key hd ClientEvent.noConfusion⟩
    rw [ha]
    exact hs
  | doClose r posted hposted =>
    have ha : (runTask r).action c = .doClose := by simp only [action, hposted]
    refine ⟨?_, key rfl ClientEvent.noConfusion⟩
    rw [ha]
    rfl
  | runDelayed r hdelayed =>
    obtain ⟨hs, hd⟩ := ({ c with delayed := c.delayed - 1 } : Client).reConnect_eq r
    exact ⟨hs, key hd ClientEvent.noConfusion⟩
  | writable r hwatcher =>
    obtain ⟨hs, hd⟩ := c.onConnected_eq r
    exact ⟨hs, key hd ClientEvent.noConfusion⟩
  | read i h hi hwatched hsocket => exact ⟨rfl, key rfl ClientEvent.noConfusion⟩
  | close i h hi hwatched => exact ⟨rfl, key rfl ClientEvent.noConfusion⟩
  | destroy => exact ⟨rfl, iff_of_true rfl rfl⟩

end Zutils.Net
