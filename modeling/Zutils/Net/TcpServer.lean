import Zutils.Net.IoHandler
import Mathlib.Data.Int.Notation

/-!
# The server (`net/engine/tcp_server.cc`, `tcp_acceptor.cc`, `reactor_thread_pool.cc`, `reactor_thread.cc`)

`TCPServer::Create` makes the listening socket, which the message loop of the calling thread watches from then on, and
then starts the reactor threads. If one of these does not start, the pool is shut down and emptied; the socket is still
watched. A connection that is accepted is given to the next reactor, and if there is none, to the server's own message
loop.

What the system answers is an argument: the listening socket, whether the message pump takes the socket, which threads
start, and what `accept` returns. The socket of an acceptor that does not listen is `kInvalidSocket`.
-/

namespace Zutils.Net

/-- A message loop: the one on which the server was created, or that of a reactor. -/
inductive MessageLoop where
  | main
  | reactor (reactorId : ℕ)
  deriving DecidableEq, Repr

/-! ### Reactors -/

/-- `class ReactorThread`. -/
structure ReactorThread where
  reactorId : ℕ
  started : Bool
  deriving DecidableEq, Repr

/-- `message_loop()`, which is null unless the thread runs. -/
def ReactorThread.messageLoop (t : ReactorThread) : Option MessageLoop :=
  if t.started then some (.reactor t.reactorId) else none

/-- `class ReactorThreadPool`. -/
structure ReactorThreadPool where
  reactorPool : List ReactorThread
  nextReactor : ℕ
  deriving DecidableEq, Repr

namespace ReactorThreadPool

/-- `ReactorThreadPool(reactor_pool_size)`; a negative size is zero. -/
def new (reactorPoolSize : ℤ) : ReactorThreadPool where
  reactorPool := (List.range reactorPoolSize.toNat).map fun i => ⟨i, false⟩
  nextReactor := 0

/-- The loop of `Start`, which leaves at the first thread that does not start. -/
def startLoop (starts : ℕ → Bool) : List ReactorThread → Bool × List ReactorThread
  | [] => (true, [])
  | t :: ts =>
    if starts t.reactorId then
      let (ret, ts) := startLoop starts ts
      (ret, { t with started := true } :: ts)
    else (false, t :: ts)

variable (p : ReactorThreadPool)

def isEmpty : Bool := p.reactorPool.isEmpty

/-- `Shutdown`: the threads are stopped and deleted. -/
def shutdown : ReactorThreadPool := { p with reactorPool := [] }

/-- `Start`. -/
def start (starts : ℕ → Bool) : Bool × ReactorThreadPool :=
  let (ret, reactorPool) := startLoop starts p.reactorPool
  let p := { p with reactorPool }
  (ret, if ret then p else p.shutdown)

/-- `GetNextMessageLoop`. -/
def getNextMessageLoop : Option MessageLoop × ReactorThreadPool :=
  if p.reactorPool.isEmpty then (none, p)
  else
    let next := if p.nextReactor = p.reactorPool.length then 0 else p.nextReactor
    ((p.reactorPool[next]?).bind ReactorThread.messageLoop, { p with nextReactor := next + 1 })

end ReactorThreadPool

/-! ### The acceptor -/

/-- `class TCPAcceptor`. -/
structure TCPAcceptor where
  acceptor : ℤ
  waitState : WaitState
  /-- The socket is watched. -/
  watching : Bool
  deriving DecidableEq, Repr

namespace TCPAcceptor

/-- `TCPAcceptor(message_loop, delegate)`. -/
def new : TCPAcceptor := ⟨-1, .notWaiting, false⟩

variable (a : TCPAcceptor)

/-- `WatchSocket(state)`; `watched` is what `WatchFileDescriptor` returns. -/
def watchSocket (watched : Bool) (state : WaitState) : TCPAcceptor := { a with watching := watched, waitState := state }

/-- `Create`; `listening` is the socket of `CreateTCPListeningSocket`, if it succeeds. -/
def create (listening : Option ℤ) (watched : Bool) : Bool × TCPAcceptor :=
  match listening with
  | none => (false, { a with acceptor := -1 })
  | some s => (true, { a with acceptor := s }.watchSocket watched .waitingAccept)

end TCPAcceptor

/-- `net::Accept`: the new connection, if there is one, fails when its option is not set. -/
def accept (conn : Option ℤ) (disableNagle : Bool) : Option ℤ := if disableNagle then conn else none

/-! ### The server -/

/-- `class TCPServer`. -/
structure TCPServer where
  reactorPool : ReactorThreadPool
  acc : TCPAcceptor
  deriving DecidableEq, Repr

/-- What an event does. -/
inductive ServerEffect where
  /-- A connection is accepted by the system. -/
  | accepted (conn : ℤ)
  /-- An `IOHandler` is created with a message loop. -/
  | created (conn : ℤ) (loop : MessageLoop)
  /-- `OnNewConnection` is called. -/
  | onNewConnection (conn : ℤ)
  deriving DecidableEq, Repr

/-- A task is posted to a message loop that is null. -/
inductive NullLoop where
  | nullLoop
  deriving DecidableEq, Repr

/-- The server, and the `OnCreated` of connections that have been posted to reactors. -/
structure ServerRun where
  server : TCPServer
  posted : List (ℤ × MessageLoop)
  deriving DecidableEq, Repr

namespace TCPServer

/-- `TCPServer(message_loop, io_handler_delegate, reactor_pool_size)`. -/
def new (reactorPoolSize : ℤ) : TCPServer := ⟨.new reactorPoolSize, .new⟩

variable (s : TCPServer)

/-- `Create`. -/
def create (listening : Option ℤ) (watched : Bool) (starts : ℕ → Bool) : Bool × TCPServer :=
  let (ret, acc) := s.acc.create listening watched
  let s := { s with acc }
  if ret && !s.reactorPool.isEmpty then
    let (ret, reactorPool) := s.reactorPool.start starts
    (ret, { s with reactorPool })
  else (ret, s)

/-- The message loop for a new connection. -/
def nextMessageLoop : Option MessageLoop × TCPServer :=
  if s.reactorPool.isEmpty then (some .main, s)
  else
    let (loop, reactorPool) := s.reactorPool.getNextMessageLoop
    (loop, { s with reactorPool })

end TCPServer

namespace ServerRun

variable (r : ServerRun)

/-- `OnCreateConnection(s)`. The handler's `Create` calls `OnCreated` or posts it. -/
def onCreateConnection (conn : ℤ) : Except NullLoop (ServerRun × List ServerEffect) :=
  let (loop, server) := r.server.nextMessageLoop
  match loop with
  | none => .error .nullLoop
  | some .main => .ok ({ r with server }, [.created conn .main, .onNewConnection conn])
  | some (.reactor i) =>
    .ok ({ r with server, posted := r.posted ++ [(conn, .reactor i)] }, [.created conn (.reactor i)])

/-- `OnFileCanReadWithoutBlocking` of the acceptor; the system accepts `conn`. -/
def onFileCanRead (conn : Option ℤ) (disableNagle : Bool) : Except NullLoop (ServerRun × List ServerEffect) :=
  if r.server.acc.waitState = .waitingAccept then
    let effects := conn.toList.map ServerEffect.accepted
    match accept conn disableNagle with
    | none => .ok (r, effects)
    | some conn => do
      let (r, effects') ← r.onCreateConnection conn
      return (r, effects ++ effects')
  else .ok (r, [])

end ServerRun

/-- What happens on the message loops. -/
inductive LoopEvent where
  /-- The socket of the acceptor can be read. -/
  | canRead (conn : Option ℤ) (disableNagle : Bool)
  /-- A reactor runs the first task that has been posted. -/
  | runTask
  deriving DecidableEq, Repr

namespace ServerRun

variable (r : ServerRun)

/-- The event can happen. -/
def Enabled : LoopEvent → Prop
  | .canRead _ _ => r.server.acc.watching = true
  | .runTask => r.posted ≠ []

/-- An event. -/
def exec : LoopEvent → Except NullLoop (ServerRun × List ServerEffect)
  | .canRead conn disableNagle => r.onFileCanRead conn disableNagle
  | .runTask =>
    match r.posted with
    | [] => .ok (r, [])
    | (conn, _) :: posted => .ok ({ r with posted }, [.onNewConnection conn])

/-- An event happens, with its effects. -/
def Step (r : ServerRun) (a : LoopEvent × List ServerEffect) (r' : ServerRun) : Prop :=
  r.Enabled a.1 ∧ r.exec a.1 = .ok (r', a.2)

end ServerRun

end Zutils.Net
