import Zutils.Net.IoBuffer

/-!
# Sending on a connection (`net/engine/io_handler.h`, `io_handler.cc`)

`SendInternal` offers the data to the kernel at once when nothing is pending and keeps the rest in `write_buf_`;
`OnWrite` drains `write_buf_` when the socket is writable again. What `send` answers is an argument, and each
function returns, with the new handler, the bytes the kernel took.

The integer types are those of the source: `nwrote` is a `uint32`, so that `nwrote >= 0` is always true, and the
result of `send` in `OnWrite` goes through an `int`. A pointer argument is the memory from that pointer on, since
`SendInternal` may read it at an offset it computes.
-/

namespace Zutils.Net

/-- The memory from a pointer on. -/
abbrev Mem := ℕ → UInt8

/-- The `n` bytes at the offset `off`. -/
def Mem.bytes (p : Mem) (off n : ℕ) : List UInt8 := (List.range' off n).map p

/-- The memory at `data.c_str()`. -/
def Mem.ofList (data : List UInt8) : Mem := fun i => data.getD i 0

/-- `enum WaitState`. -/
inductive WaitState where
  | notWaiting
  | waitingAccept
  | waitingRead
  | waitingWrite
  | waitingClose
  deriving DecidableEq, Repr

/-- The values of `errno` the code tells apart after a failed `send`. -/
inductive Errno where
  | ewouldblock
  | eagain
  | other
  deriving DecidableEq, Repr

/-- The answer of `send`, after `HANDLE_EINTR`. -/
inductive SendResult where
  | accepted (n : ℕ)
  | failed (errno : Errno)
  deriving DecidableEq, Repr

namespace SendResult

/-- The `ssize_t` that `send` returns. -/
def ret : SendResult → ℤ
  | accepted n => n
  | failed _ => -1

/-- The number of bytes the kernel took. -/
def taken : SendResult → ℕ
  | accepted n => n
  | failed _ => 0

/-- `errno != EWOULDBLOCK && errno != EAGAIN` after a failure. -/
def isFault : SendResult → Bool
  | failed .other => true
  | _ => false

/-- The kernel takes no more than it is offered. -/
def Within (r : SendResult) (offered : ℕ) : Prop := r.taken ≤ offered

instance (r : SendResult) (offered : ℕ) : Decidable (r.Within offered) :=
  inferInstanceAs (Decidable (_ ≤ _))

end SendResult

/-- The members of `class IOHandler` that reading and sending use. -/
structure IOHandler where
  socket : ℤ
  readBuf : IOBuffer
  writeBuf : IOBuffer
  readWaitState : WaitState
  writeWaitState : WaitState
  deriving DecidableEq, Repr

namespace IOHandler

/-- `IOHandler(message_loop, socket, delegate)`. -/
def new (socket : ℤ) : IOHandler where
  socket := socket
  readBuf := IOBuffer.new 64
  writeBuf := IOBuffer.new 64
  readWaitState := .notWaiting
  writeWaitState := .notWaiting

variable (h : IOHandler)

def isWriting : Bool := h.writeWaitState = .waitingWrite

/-- Nothing is pending: `SendInternal` calls `send` itself. -/
def sendsDirectly : Bool := !h.isWriting && h.writeBuf.readableBytes = 0

/-- What `SendInternal` knows after its own `send`: `nwrote`, `remaining` and `fault_error`. -/
def afterSend (dataLen : UInt32) (r : SendResult) : UInt32 × ℕ × Bool :=
  if h.sendsDirectly then
    let nwrote := UInt32.ofInt r.ret
    if 0 ≤ nwrote then (nwrote, (dataLen - nwrote).toNat, false)
    -- not reached: no `uint32` is negative
    else (0, dataLen.toNat, r.isFault)
  else (0, dataLen.toNat, false)

/-- `SendInternal(data, data_len)`; `dcheckIsOn` is `DCHECK_IS_ON`. -/
def sendInternal (dcheckIsOn : Bool) (data : Mem) (dataLen : UInt32) (r : SendResult) :
    Except Fault (IOHandler × List UInt8) := do
  let (nwrote, remaining, faultError) := h.afterSend dataLen r
  dcheck (dcheckIsOn = true → remaining ≤ dataLen.toNat)
  let kernel := if h.sendsDirectly then data.bytes 0 r.taken else []
  if !faultError && 0 < remaining then
    let writeBuf ← h.writeBuf.write (data.bytes nwrote.toNat remaining)
    -- `WatchFileDescriptor(.., WATCH_WRITE, ..)` unless it is on already
    return ({ h with writeBuf, writeWaitState := .waitingWrite }, kernel)
  else
    return (h, kernel)

/-- `SendInternal2(data)`, and `SendInternal(data)` of a `StringPiece`: the length becomes a `uint32`. -/
def sendInternal2 (dcheckIsOn : Bool) (data : List UInt8) (r : SendResult) :
    Except Fault (IOHandler × List UInt8) :=
  h.sendInternal dcheckIsOn (Mem.ofList data) (UInt32.ofNat data.length) r

/-- `OnWrite()`. -/
def onWrite (r : SendResult) : Except Fault (IOHandler × List UInt8) := do
  if h.isWriting then
    let n : ℤ := r.ret.bmod (2 ^ 32)
    let kernel := h.writeBuf.peek r.taken
    if 0 < n then
      let writeBuf ← h.writeBuf.retrieve n.toNat
      if writeBuf.readableBytes = 0 then
        return ({ h with writeBuf, writeWaitState := .notWaiting }, kernel)
      else
        return ({ h with writeBuf }, kernel)
    else
      return (h, kernel)
  else
    return (h, [])

end IOHandler

end Zutils.Net
