import Zutils.Net.IoBuffer

/-!
# HTTP requests (`net/http/http_request_context`, `net/http/http_request_codec`)

Each connection has an `HttpRequestContext`, which runs `http_parser` over what the connection receives and collects
the URL and the headers in its callbacks. `HttpRequestCodec::OnDataReceived` asks it once for each read, and calls the
delegate when it answers 0.

The parser is a parameter. `http_parser_execute` is a function from a state and bytes to a state, the number of bytes
it consumed and the callbacks it makes; all callbacks of the context return 0, so none of them stops it. The settings
name six callbacks. Those that carry no bytes have none here.
-/

namespace Zutils.Net

/-- The callbacks in `http_parser_settings_`. -/
inductive HttpCallbackKind where
  | url | headerField | headerValue | headersComplete | body | messageComplete
  deriving DecidableEq, Repr

/-- A callback with the `length` bytes at `at`. -/
abbrev HttpCallback := HttpCallbackKind × List UInt8

/-- `http_parser`: its states, the state after `http_parser_init(&http_parser_, HTTP_REQUEST)`, and
`http_parser_execute`. -/
structure HttpParser where
  State : Type
  init : State
  execute : State → List UInt8 → State × ℕ × List HttpCallback

/-- `std::map<std::string, std::string>`. -/
abbrev HeadersMap := List UInt8 → Option (List UInt8)

/-- `headers.insert(std::make_pair(key, value))`, which leaves a key that is there alone. -/
def HeadersMap.insert (headers : HeadersMap) (key value : List UInt8) : HeadersMap := fun x =>
  if x = key then some ((headers x).getD value) else headers x

/-- `class HttpServerRequestInfo`. -/
structure HttpServerRequestInfo where
  method : List UInt8
  path : List UInt8
  data : List UInt8
  headers : HeadersMap

/-- `class HttpRequestContext`. -/
structure HttpRequestContext (p : HttpParser) where
  httpParser : p.State
  httpRequest : HttpServerRequestInfo
  tmpHeaderField : List UInt8
  done : Bool

namespace HttpRequestContext

variable {p : HttpParser}

/-- `HttpRequestContext()`. The constructor does not set `done_`, which is what the memory holds. -/
def new (p : HttpParser) (done : Bool) : HttpRequestContext p where
  httpParser := p.init
  httpRequest := ⟨[], [], [], fun _ => none⟩
  tmpHeaderField := []
  done := done

section Callbacks

variable (ctx : HttpRequestContext p) (data : List UInt8)

def doUrl : HttpRequestContext p := { ctx with httpRequest := { ctx.httpRequest with path := data } }

def doHeaderField : HttpRequestContext p := { ctx with tmpHeaderField := data }

def doHeaderValue : HttpRequestContext p :=
  { ctx with
    httpRequest := { ctx.httpRequest with headers := ctx.httpRequest.headers.insert ctx.tmpHeaderField data }
    tmpHeaderField := [] }

def doHeadersComplete : HttpRequestContext p := ctx

def doBody (_data : List UInt8) : HttpRequestContext p := ctx

def doMessageComplete : HttpRequestContext p := { ctx with done := true }

end Callbacks

/-- The callback that the parser makes. -/
def callback (ctx : HttpRequestContext p) : HttpCallback → HttpRequestContext p
  | (.url, data) => ctx.doUrl data
  | (.headerField, data) => ctx.doHeaderField data
  | (.headerValue, data) => ctx.doHeaderValue data
  | (.headersComplete, _) => ctx.doHeadersComplete
  | (.body, data) => ctx.doBody data
  | (.messageComplete, _) => ctx.doMessageComplete

/-- The bytes of `"GET"`. -/
def kGet : List UInt8 := [71, 69, 84]

/-- `OnHttpDataParse(data)`. The number of bytes consumed is kept in an `int`. Whatever the method of the request is,
both branches set `"GET"`. -/
def onHttpDataParse (ctx : HttpRequestContext p) (data : IOBuffer) :
    Except Fault (ℤ × HttpRequestContext p × IOBuffer) :=
  let r := p.execute ctx.httpParser (data.peek data.readableBytes)
  let ctx := r.2.2.foldl callback { ctx with httpParser := r.1 }
  let n := (r.2.1 : ℤ).bmod (2 ^ 32)
  if 0 < n then do
    let data ← data.retrieve n.toNat
    if ctx.done then
      return (0, { ctx with httpRequest := { ctx.httpRequest with method := kGet } }, data)
    else
      return (1, ctx, data)
  else
    .ok (-1, ctx, data)

end HttpRequestContext

/-- A connection that serves HTTP: its context, the receive buffer, the requests that `OnHttpRequest` has been called
with, what `OnDataReceived` returned last, and whether `IOHandler::Close` has been called. -/
structure HttpConnection (p : HttpParser) where
  ctx : HttpRequestContext p
  readBuf : IOBuffer
  seen : List HttpServerRequestInfo
  ret : ℤ
  closed : Bool

namespace HttpConnection

variable {p : HttpParser}

/-- `HttpRequestCodec::OnNewConnection`, on a handler with a new buffer. -/
def new (p : HttpParser) (done : Bool) : HttpConnection p :=
  ⟨.new p done, .new IOBuffer.kInitialSize, [], 0, false⟩

/-- `HttpRequestCodec::OnDataReceived`. What `OnHttpRequest` returns may depend on all requests it has been called
with, the new one included. -/
def onDataReceived (delegate : List HttpServerRequestInfo → ℤ) (c : HttpConnection p) :
    Except Fault (HttpConnection p) := do
  let (r, ctx, readBuf) ← c.ctx.onHttpDataParse c.readBuf
  if r = 0 then
    let seen := c.seen ++ [ctx.httpRequest]
    return { c with ctx := ctx, readBuf := readBuf, seen := seen, ret := delegate seen }
  else
    return { c with ctx := ctx, readBuf := readBuf, ret := r }

/-- `IOHandler::Read`. -/
def read (delegate : List HttpServerRequestInfo → ℤ) (c : HttpConnection p) (r : ReadResult) :
    Except Fault (HttpConnection p) := do
  let (n, readBuf) ← c.readBuf.readFd r
  if n > 0 then
    let c ← onDataReceived delegate { c with readBuf := readBuf }
    return { c with closed := c.closed || c.ret != 0 }
  else
    return { c with readBuf := readBuf, closed := true }

end HttpConnection

end Zutils.Net
