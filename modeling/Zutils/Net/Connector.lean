import Zutils.Lib.Run
import Zutils.Net.Lifecycle

/-!
# A client and its connector (`net/engine/tcp_connector.cc`, `net/engine/tcp_client.cc`)

A `TCPClient` owns a `TCPConnector`, whose delegate it is, and the current `IOHandler`, whose delegate it is too. The
three update each other from within their callbacks: `TCPConnector::OnNewConnection` calls `OnCreateConnection`, which
creates a handler, whose `OnCreated` calls `OnNewConnection`, which may refuse the connection, so that `Close` calls
`OnConnectionClosed`, which calls `DoClose` of the connector that is still inside `OnNewConnection`. The functions here
run these callbacks where the source runs them.

A state is one between two tasks of the loop. `Connect` and `DisConnect` read `connect_state_` and post a task, so that
a call from within a callback does what the same call in front of the task does. A handler stays in the list after its
end, with `socket_ = kInvalidSocket`.
-/

namespace Zutils.Net

open Zutils.Lib

/-- `ConnectState`. -/
inductive ConnectState where
  | invalid
  | connecting
  | connectComplete
  | connected
  deriving DecidableEq, Repr

/-- `ConnAddrInfo`; its constructor leaves the last two fields unset, and `Connect` sets them all. -/
structure ConnAddrInfo where
  isInited : Bool := false
  ip : String := ""
  port : String := ""
  isNumericHostAddress : Bool := true
  isReconnect : Bool := false
  reconnectTime : ℤ := 0
  deriving DecidableEq, Repr

/-- A task that is bound to the connector. -/
inductive ConnectorTask where
  | reConnect
  /-- `DoClose(true)`. -/
  | doClose
  deriving DecidableEq, Repr

/-- An `IOHandler` of the client. -/
structure ClientHandler where
  socket : ℤ
  /-- The read watcher is on. -/
  watched : Bool
  deriving DecidableEq, Repr

/-- What `CreateTCPConnectedSocket` returned: -1, 1 or 0. With 1 the connection is there at once, and `accepts` says
whether the delegate keeps it: its `OnNewConnection` returns 0 and does not call `Close` itself. -/
inductive CreateResult where
  | failed
  | connected (s : ℤ) (accepts : Bool)
  | inProgress (s : ℤ)
  deriving DecidableEq, Repr

/-- What `SO_ERROR` says about a connect. -/
inductive ConnectResult where
  | ok (accepts : Bool)
  | inProgress
  | failed
  deriving DecidableEq, Repr

/-- The sockets of a client, with its handlers and the part of its connector that changes with them. -/
structure ClientSockets where
  connectState : ConnectState
  /-- `connector_`. -/
  connector : ℤ
  /-- `io_handler_`, as an index into `handlers`. -/
  ioHandler : Option ℕ
  handlers : List ClientHandler
  /-- The sockets that are open. -/
  openFds : List ℤ
  /-- Every socket that `CreateTCPConnectedSocket` returned. -/
  returned : List ℤ
  /-- Every socket that `close` was called with. -/
  closed : List ℤ
  deriving DecidableEq, Repr

namespace ClientSockets

/-- After the constructors. -/
def new : ClientSockets where
  connectState := .invalid
  connector := kInvalidSocket
  ioHandler := none
  handlers := []
  openFds := []
  returned := []
  closed := []

variable (c : ClientSockets)

/-- `close(fd)`, which fails on -1. -/
def closeFd (fd : ℤ) : ClientSockets :=
  if fd = kInvalidSocket then c else { c with openFds := c.openFds.erase fd, closed := c.closed ++ [fd] }

/-- The handler that `TCPClient::io_handler()` returns. -/
def currentHandler : Option ClientHandler := c.ioHandler.bind fun i => c.handlers[i]?

/-- `TCPClient::OnDestroyConnection`. -/
def onDestroyConnection : Bool := c.ioHandler.isNone

/-- `TCPConnector::DoClose`. -/
def doClose (fromMe : Bool) : ClientSockets :=
  let c := if fromMe = true ∧ c.onDestroyConnection = false then c.closeFd c.connector else c
  { c with connector := kInvalidSocket, connectState := .invalid }

/-- `TCPClient::OnConnectionClosed`. -/
def onConnectionClosed : ClientSockets := { c with ioHandler := none }.doClose false

/-- `IOHandler::Close` of the handler `i`, with its `CloseSocket`. -/
def closeHandler (i : ℕ) : ClientSockets :=
  let c := c.onConnectionClosed
  match c.handlers[i]? with
  | none => c
  | some h =>
    if h.socket ≠ 0 ∧ h.socket ≠ kInvalidSocket then
      { c.closeFd h.socket with handlers := c.handlers.set i ⟨kInvalidSocket, false⟩ }
    else { c with handlers := c.handlers.set i ⟨kInvalidSocket, h.watched⟩ }

/-- `TCPClient::OnCreateConnection`: `Create` runs `OnCreated` at once. -/
def onCreateConnection (s : ℤ) (accepts : Bool) : ClientSockets × Bool :=
  let ih := c.handlers.length
  let c : ClientSockets := { c with handlers := c.handlers ++ [⟨s, true⟩] }
  let c := if accepts then c else c.closeHandler ih
  ({ c with ioHandler := some ih }, true)

/-- `TCPConnector::OnNewConnection`. -/
def onNewConnection (s : ℤ) (accepts : Bool) : ClientSockets :=
  let (c, created) := c.onCreateConnection s accepts
  if created then { c with connectState := .connected } else c

/-- What `CreateTCPConnectedSocket` does, `connector_` being where it stores the socket. -/
def createSocket : CreateResult → ClientSockets
  | .failed => { c with connector := kInvalidSocket }
  | .connected s _ | .inProgress s =>
    { c with connector := s, openFds := s :: c.openFds, returned := c.returned ++ [s] }

end ClientSockets

/-- A `TCPClient` with its connector, its handlers and its tasks. -/
structure Client extends ClientSockets where
  /-- What `watcher_` of the connector watches. -/
  watcher : Option ℤ
  connAddrInfo : ConnAddrInfo
  /-- The tasks posted, the next one first. -/
  posted : List ConnectorTask
  /-- How many `ReConnect` wait for their time. -/
  delayed : ℕ
  /-- `~TCPClient()` has run. -/
  destroyed : Bool
  deriving DecidableEq, Repr

namespace Client

/-- After the constructors. -/
def new : Client where
  toClientSockets := .new
  watcher := none
  connAddrInfo := {}
  posted := []
  delayed := 0
  destroyed := false

variable (c : Client)

/-- `TCPConnector::DoConnect`. -/
def doConnect (reconnectTime : ℤ) : Client :=
  if reconnectTime = 0 then { c with posted := c.posted ++ [.reConnect] } else { c with delayed := c.delayed + 1 }

/-- `TCPConnector::OnConnecting`: a watcher that is on already can only be set to the same socket. -/
def onConnecting : Client :=
  match c.watcher with
  | none => { c with watcher := some c.connector }
  | some fd => if fd = c.connector then c else { c with watcher := none }

/-- `TCPConnector::ReConnect`. -/
def reConnect (r : CreateResult) : Client :=
  let sockets := c.createSocket r
  match r with
  | .failed => { c with toClientSockets := sockets }.doConnect c.connAddrInfo.reconnectTime
  | .connected _ accepts => { c with toClientSockets := sockets.onNewConnection sockets.connector accepts }
  | .inProgress _ => { c with toClientSockets := { sockets with connectState := .connecting } }.onConnecting

/-- `TCPConnector::OnConnected`. -/
def onConnected (r : ConnectResult) : Client :=
  if c.connectState ≠ .connecting then c
  else match r with
    | .inProgress => c
    | .ok accepts => { c with watcher := none, toClientSockets := c.onNewConnection c.connector accepts }
    | .failed =>
      let c : Client := { c with watcher := none }
      let c := if c.connAddrInfo.isReconnect then c.doConnect c.connAddrInfo.reconnectTime else c
      { c with toClientSockets := c.doClose true }

/-- `TCPConnector::OnFileCanWriteWithoutBlocking`. -/
def onFileCanWrite (r : ConnectResult) : Client := if c.connectState = .connecting then c.onConnected r else c

/-- `TCPConnector::Connect`. -/
def connect (ip port : String) (isNumericHostAddress : Bool) : Client × Bool :=
  if c.connectState ≠ .invalid then (c, false)
  else
    let connAddrInfo : ConnAddrInfo :=
      { isInited := true, ip, port, isNumericHostAddress, isReconnect := true, reconnectTime := 10 }
    ({ c with connAddrInfo }.doConnect 0, true)

/-- `TCPConnector::DisConnect`, which refuses every state but `kConnectStateInvalid`. -/
def disConnect : Client × Bool :=
  if c.connectState ≠ .invalid then (c, false) else ({ c with posted := c.posted ++ [.doClose] }, true)

/-- `~TCPClient()`, which runs `~TCPConnector()`. -/
def destroy : Client := { c with toClientSockets := c.doClose true, destroyed := true }

end Client

/-- An event. -/
inductive ClientEvent where
  | connect (ip port : String) (isNumericHostAddress : Bool)
  | disConnect
  /-- The loop runs the next task; `r` is for a `ReConnect`. -/
  | runTask (r : CreateResult)
  /-- The time of a delayed `ReConnect` has come. -/
  | runDelayed (r : CreateResult)
  /-- `watcher_` says that the socket can be written. -/
  | writable (r : ConnectResult)
  /-- The handler `i` reads, and then closes or not: at the end of the stream, after an error, and when the delegate
  returns nonzero or calls `Close` itself. -/
  | read (i : ℕ) (closes : Bool)
  | destroy
  deriving DecidableEq, Repr

namespace ClientEvent

/-- The state after an event, when it can happen: a task or a watcher is there for it. A read from a socket that is
closed fails, and the handler closes. -/
def exec (e : ClientEvent) (c : Client) : Option Client :=
  if c.destroyed = true then none
  else match e with
    | connect ip port isNumericHostAddress => some (c.connect ip port isNumericHostAddress).1
    | disConnect => some c.disConnect.1
    | runTask r =>
      match c.posted with
      | [] => none
      | .reConnect :: posted => some ({ c with posted }.reConnect r)
      | .doClose :: posted => some { c with posted, toClientSockets := c.doClose true }
    | runDelayed r => if c.delayed = 0 then none else some ({ c with delayed := c.delayed - 1 }.reConnect r)
    | writable r => if c.watcher = none then none else some (c.onFileCanWrite r)
    | read i closes =>
      match c.handlers[i]? with
      | none => none
      | some h =>
        if h.watched = false ∨ (h.socket = kInvalidSocket ∧ closes = false) then none
        else some (if closes then { c with toClientSockets := c.closeHandler i } else c)
    | destroy => some c.destroy

end ClientEvent

/-- A socket that the kernel can return now. -/
def ClientSockets.Fresh (c : ClientSockets) (s : ℤ) : Prop := 0 ≤ s ∧ s ∉ c.openFds

instance (c : ClientSockets) (s : ℤ) : Decidable (c.Fresh s) := inferInstanceAs (Decidable (_ ∧ _))

namespace CreateResult

/-- The socket returned is a new one. -/
def Legal (c : ClientSockets) : CreateResult → Prop
  | failed => True
  | connected s _ | inProgress s => c.Fresh s

instance (c : ClientSockets) (r : CreateResult) : Decidable (r.Legal c) :=
  match r with
  | failed => inferInstanceAs (Decidable True)
  | connected _ _ | inProgress _ => inferInstanceAs (Decidable (c.Fresh _))

end CreateResult

namespace ClientEvent

/-- What the kernel can answer: a new socket is fresh, and only an open socket is connected. -/
def Legal : ClientEvent → Client → Prop
  | runTask r, c | runDelayed r, c => r.Legal c.toClientSockets
  | writable (.ok _), c => c.connector ∈ c.openFds
  | connect _ _ _, _ | disConnect, _ | writable .inProgress, _ | writable .failed, _ | read _ _, _ | destroy, _ => True

instance (e : ClientEvent) (c : Client) : Decidable (e.Legal c) :=
  match e with
  | runTask r | runDelayed r => inferInstanceAs (Decidable (r.Legal c.toClientSockets))
  | writable (.ok _) => inferInstanceAs (Decidable (_ ∈ _))
  | connect _ _ _ | disConnect | writable .inProgress | writable .failed | read _ _ | destroy =>
    inferInstanceAs (Decidable True)

end ClientEvent

/-- An event happens. -/
def Happens (c : Client) (e : ClientEvent) (c' : Client) : Prop := e.Legal c ∧ e.exec c = some c'

end Zutils.Net
