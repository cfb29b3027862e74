import Mathlib.Algebra.Group.Int.Defs
import Mathlib.Algebra.Group.Nat.Defs
import Zutils.Base.CString

/-!
# The parser of responses (`net/third_party/http_parser/http_parser.c`)

`http_parser_execute` for a parser of the type `HTTP_RESPONSE`, as a client would use it, compiled with
`HTTP_PARSER_STRICT` or without. It is a machine that goes over the bytes of a read; its state, and how far it has
matched the name or the value of a header, are kept from one read to the next. Names and values, the phrase of the
status and the body are handed to the callbacks as parts of the read: a mark is set where one begins, and the callback
is called where it ends, or at the end of the read.

A turn of the loop over the bytes is a function of the parser and the bytes that are left (`ResponseParser.turn`). It
says what the parser is afterwards, and lists what else the turn does: how it moves `nread` and the mark, which it does
not read, and which callbacks it makes. Only one mark is set at a time, which the source asserts at the end.

All callbacks are set, and return 0; so `F_SKIPBODY` is never set. `method` stays 0, which is not `HTTP_CONNECT`. After
an error the parser takes no more bytes, and its members do not matter.
-/

namespace Zutils.Net.Http

/-- `enum state`, without those of a request. -/
inductive ParserState where
  | dead
  | startRes | resH | resHT | resHTT | resHTTP
  | resFirstHttpMajor | resHttpMajor | resFirstHttpMinor | resHttpMinor
  | resFirstStatusCode | resStatusCode | resStatusStart | resStatus | resLineAlmostDone
  | headerFieldStart | headerField
  | headerValueDiscardWs | headerValueDiscardWsAlmostDone | headerValueDiscardLws
  | headerValueStart | headerValue | headerValueLws | headerAlmostDone
  | chunkSizeStart | chunkSize | chunkParameters | chunkSizeAlmostDone
  | headersAlmostDone | headersDone
  | chunkData | chunkDataAlmostDone | chunkDataDone
  | bodyIdentity | bodyIdentityEof
  | messageDone
  deriving DecidableEq, Repr

/-- `PARSING_HEADER(state)`. -/
def ParserState.parsingHeader : ParserState → Bool
  | chunkData | chunkDataAlmostDone | chunkDataDone | bodyIdentity | bodyIdentityEof | messageDone => false
  | _ => true

/-- `enum header_states`. -/
inductive HeaderState where
  | general | C | CO | CON
  | matchingConnection | matchingProxyConnection | matchingContentLength | matchingTransferEncoding | matchingUpgrade
  | connection | contentLength | transferEncoding | upgrade
  | matchingTransferEncodingChunked | matchingConnectionTokenStart | matchingConnectionKeepAlive
  | matchingConnectionClose | matchingConnectionUpgrade | matchingConnectionToken
  | transferEncodingChunked | connectionKeepAlive | connectionClose | connectionUpgrade
  deriving DecidableEq, Repr

/-- `enum http_errno`: the errors of a parser of responses. -/
inductive HttpErrno where
  | invalidEofState | headerOverflow | closedConnection | invalidVersion | invalidStatus | invalidHeaderToken
  | invalidContentLength | invalidChunkSize | invalidConstant | strict
  deriving DecidableEq, Repr

/-- Why a call leaves bytes: an error, or what follows is in another protocol. -/
inductive ParserHalt where
  | errno (e : HttpErrno)
  | upgraded
  deriving DecidableEq, Repr

/-- `enum flags`. -/
structure ParserFlags where
  chunked : Bool
  connectionKeepAlive : Bool
  connectionClose : Bool
  connectionUpgrade : Bool
  trailing : Bool
  upgrade : Bool
  deriving DecidableEq, Repr

def ParserFlags.none : ParserFlags := ⟨false, false, false, false, false, false⟩

/-- `struct http_parser`, but for `nread`. -/
structure ResponseParser where
  state : ParserState
  headerState : HeaderState
  index : ℕ
  contentLength : ℕ
  httpMajor : ℕ
  httpMinor : ℕ
  statusCode : ℕ
  flags : ParserFlags
  upgrade : Bool
  deriving DecidableEq, Repr

/-- What is handed to a callback as a part of the read. -/
inductive ParserData where
  | status | headerField | headerValue | body
  deriving DecidableEq, Repr

/-- A callback. `on_headers_complete` may look at `status_code`. -/
inductive ParserCallback where
  | messageBegin
  | data (kind : ParserData) (bytes : List UInt8)
  | headersComplete (statusCode : ℕ)
  | messageComplete
  deriving DecidableEq, Repr

/-- What a turn does besides. -/
inductive ParserEffect where
  /-- `COUNT_HEADER_SIZE(v)`. -/
  | count (v : ℤ)
  /-- `parser->nread = 0`. -/
  | clear
  /-- `MARK(kind)`. -/
  | mark (kind : ParserData)
  /-- `p` goes past the bytes. -/
  | pass (bytes : List UInt8)
  /-- `CALLBACK_DATA(kind)`. -/
  | data (kind : ParserData)
  /-- `CALLBACK_NOTIFY`. -/
  | notify (c : ParserCallback)
  deriving DecidableEq, Repr

/-- A turn of the loop: what it makes of the parser, what it does, and the bytes from where it goes on. -/
structure ParserTurn where
  parser : ResponseParser
  effects : List ParserEffect
  next : Except ParserHalt (List UInt8)

namespace ParserTurn

/-- Other effects come first. -/
def after (effects : List ParserEffect) (t : ParserTurn) : ParserTurn := { t with effects := effects ++ t.effects }

/-- `REEXECUTE()` in a state of the header. -/
def reexecuted (t : ParserTurn) : ParserTurn := t.after [.count 1]

end ParserTurn

/-! ### Bytes -/

def isNum (c : UInt8) : Bool := 0x30 ≤ c ∧ c ≤ 0x39

/-- `LOWER(c)`. -/
def lowerCase (c : UInt8) : UInt8 := c ||| 0x20

/-- `tokens[c]`, where letters are in lower case and what is not in a token is 0. -/
def tokens (c : UInt8) : UInt8 :=
  if 0x41 ≤ c ∧ c ≤ 0x5A then c + 0x20
  else if isNum c ∨ 0x61 ≤ c ∧ c ≤ 0x7A ∨ c ∈ ascii "!#$%&'*+-.^_`|~".toList then c
  else 0

/-- `TOKEN(c)`. -/
def token (strict : Bool) (c : UInt8) : UInt8 := if !strict && c = 0x20 then 0x20 else tokens c

/-- `unhex[c]`, whose second half the initialiser leaves 0. -/
def unhex (c : UInt8) : Option ℕ :=
  if isNum c then some (c.toNat - 0x30)
  else if 0x61 ≤ c ∧ c ≤ 0x66 then some (c.toNat - 0x57)
  else if 0x41 ≤ c ∧ c ≤ 0x46 then some (c.toNat - 0x37)
  else if 0x80 ≤ c then some 0
  else none

/-- `ch - '0'`. -/
def digit (c : UInt8) : ℕ := c.toNat - 0x30

/-- `HTTP_MAX_HEADER_SIZE`. -/
def kHttpMaxHeaderSize : ℕ := 80 * 1024

/-- `ULLONG_MAX`. -/
def kUllongMax : ℕ := 2 ^ 64 - 1

namespace ResponseParser

/-- `http_parser_init(parser, HTTP_RESPONSE)`. -/
def init : ResponseParser where
  state := .startRes
  headerState := .general
  index := 0
  contentLength := 0
  httpMajor := 0
  httpMinor := 0
  statusCode := 0
  flags := .none
  upgrade := false

variable (strict : Bool) (p : ResponseParser) (ch : UInt8) (rest : List UInt8)

/-- `goto error`. -/
def fail (e : HttpErrno) (effects : List ParserEffect) : ParserTurn := ⟨p, effects, .error (.errno e)⟩

/-- The turn is done with the byte. -/
def consume (effects : List ParserEffect) : ParserTurn := ⟨p, effects ++ [.pass [ch]], .ok rest⟩

/-- `STRICT_CHECK(cond)`. -/
def strictCheck (cond : Bool) (t : ParserTurn) : ParserTurn := if strict && cond then p.fail .strict [] else t

/-- `http_message_needs_eof`. -/
def messageNeedsEof : Bool :=
  if p.statusCode / 100 = 1 ∨ p.statusCode = 204 ∨ p.statusCode = 304 then false
  else if p.flags.chunked ∨ p.contentLength ≠ kUllongMax then false
  else true

/-- `http_should_keep_alive`. -/
def shouldKeepAlive : Bool :=
  if 0 < p.httpMajor ∧ 0 < p.httpMinor then !p.flags.connectionClose && !p.messageNeedsEof
  else p.flags.connectionKeepAlive && !p.messageNeedsEof

/-- `NEW_MESSAGE()`. -/
def newMessage : ParserState := if strict && !p.shouldKeepAlive then .dead else .startRes

/-- `UPDATE_STATE(NEW_MESSAGE()); CALLBACK_NOTIFY(message_complete);`. -/
def completeMessage (effects : List ParserEffect) : ParserTurn :=
  consume { p with state := p.newMessage strict } ch rest (effects ++ [.notify .messageComplete])

/-! ### The status line -/

def startRes : ParserTurn :=
  let p := { p with flags := .none, contentLength := kUllongMax }
  if ch = 0x48 then consume { p with state := .resH } ch rest [.notify .messageBegin]
  else if ch = 0x0D ∨ ch = 0x0A then p.consume ch rest [.notify .messageBegin]
  else p.fail .invalidConstant []

/-- `s_res_H` to `s_res_HTTP`: one letter of the name. -/
def resLetter (letter : UInt8) (state : ParserState) : ParserTurn :=
  p.strictCheck strict (ch ≠ letter) (consume { p with state } ch rest [])

def resFirstHttpMajor : ParserTurn :=
  if isNum ch then consume { p with httpMajor := digit ch, state := .resHttpMajor } ch rest []
  else p.fail .invalidVersion []

def resHttpMajor : ParserTurn :=
  if ch = 0x2E then consume { p with state := .resFirstHttpMinor } ch rest []
  else if !isNum ch then p.fail .invalidVersion []
  else
    let p := { p with httpMajor := p.httpMajor * 10 + digit ch }
    if 999 < p.httpMajor then p.fail .invalidVersion [] else p.consume ch rest []

def resFirstHttpMinor : ParserTurn :=
  if isNum ch then consume { p with httpMinor := digit ch, state := .resHttpMinor } ch rest []
  else p.fail .invalidVersion []

def resHttpMinor : ParserTurn :=
  if ch = 0x20 then consume { p with state := .resFirstStatusCode } ch rest []
  else if !isNum ch then p.fail .invalidVersion []
  else
    let p := { p with httpMinor := p.httpMinor * 10 + digit ch }
    if 999 < p.httpMinor then p.fail .invalidVersion [] else p.consume ch rest []

def resFirstStatusCode : ParserTurn :=
  if !isNum ch then
    if ch = 0x20 then p.consume ch rest [] else p.fail .invalidStatus []
  else consume { p with statusCode := digit ch, state := .resStatusCode } ch rest []

def resStatusCode : ParserTurn :=
  if !isNum ch then
    if ch = 0x20 then consume { p with state := .resStatusStart } ch rest []
    else if ch = 0x0D then consume { p with state := .resLineAlmostDone } ch rest []
    else if ch = 0x0A then consume { p with state := .headerFieldStart } ch rest []
    else p.fail .invalidStatus []
  else
    let p := { p with statusCode := p.statusCode * 10 + digit ch }
    if 999 < p.statusCode then p.fail .invalidStatus [] else p.consume ch rest []

def resStatusStart : ParserTurn :=
  if ch = 0x0D then consume { p with state := .resLineAlmostDone } ch rest []
  else if ch = 0x0A then consume { p with state := .headerFieldStart } ch rest []
  else consume { p with state := .resStatus, index := 0 } ch rest [.mark .status]

def resStatus : ParserTurn :=
  if ch = 0x0D then consume { p with state := .resLineAlmostDone } ch rest [.data .status]
  else if ch = 0x0A then consume { p with state := .headerFieldStart } ch rest [.data .status]
  else p.consume ch rest []

/-- `s_res_line_almost_done`, `s_header_almost_done` and others: the LF behind a CR. -/
def lineFeed (state : ParserState) : ParserTurn :=
  p.strictCheck strict (ch ≠ 0x0A) (consume { p with state } ch rest [])

/-! ### The end of the headers -/

def headersDone : ParserTurn :=
  p.strictCheck strict (ch ≠ 0x0A) <|
    if p.upgrade then ⟨{ p with state := p.newMessage strict }, [.clear, .notify .messageComplete], .error .upgraded⟩
    else if p.flags.chunked then consume { p with state := .chunkSizeStart } ch rest [.clear]
    else if p.contentLength = 0 then p.completeMessage strict ch rest [.clear]
    else if p.contentLength ≠ kUllongMax then consume { p with state := .bodyIdentity } ch rest [.clear]
    else if !p.messageNeedsEof then p.completeMessage strict ch rest [.clear]
    else consume { p with state := .bodyIdentityEof } ch rest [.clear]

def headersAlmostDone : ParserTurn :=
  p.strictCheck strict (ch ≠ 0x0A) <|
    if p.flags.trailing then p.completeMessage strict ch rest []
    else
      let p := { p with state := .headersDone, upgrade := p.flags.upgrade && p.flags.connectionUpgrade }
      ((p.headersDone strict ch rest).reexecuted).after [.notify (.headersComplete p.statusCode)]

/-! ### The name of a header -/

def kConnection : List UInt8 := ascii "connection".toList
def kProxyConnection : List UInt8 := ascii "proxy-connection".toList
def kContentLengthName : List UInt8 := ascii "content-length".toList
def kTransferEncoding : List UInt8 := ascii "transfer-encoding".toList
def kUpgrade : List UInt8 := ascii "upgrade".toList
def kChunked : List UInt8 := ascii "chunked".toList
def kKeepAlive : List UInt8 := ascii "keep-alive".toList
def kClose : List UInt8 := ascii "close".toList

/-- One more byte of the name or the value `word`: what has been matched, or what it is if it does not match. -/
def matchWord (word : List UInt8) (matched unmatched : HeaderState) (c : UInt8) : ResponseParser :=
  let p := { p with index := p.index + 1 }
  if word.length < p.index ∨ c ≠ word.getD p.index 0 then { p with headerState := unmatched }
  else if p.index = word.length - 1 then { p with headerState := matched }
  else p

/-- The letters of `con`. -/
def matchLetter (letter : UInt8) (next : HeaderState) (c : UInt8) : ResponseParser :=
  { p with index := p.index + 1, headerState := if c = letter then next else .general }

/-- One more byte of a name, with its `TOKEN`. -/
def headerFieldByte (c : UInt8) : ResponseParser :=
  match p.headerState with
  | .C => p.matchLetter 0x6F .CO c
  | .CO => p.matchLetter 0x6E .CON c
  | .CON =>
    { p with
      index := p.index + 1
      headerState :=
        if c = 0x6E then .matchingConnection else if c = 0x74 then .matchingContentLength else .general }
  | .matchingConnection => p.matchWord kConnection .connection .general c
  | .matchingProxyConnection => p.matchWord kProxyConnection .connection .general c
  | .matchingContentLength => p.matchWord kContentLengthName .contentLength .general c
  | .matchingTransferEncoding => p.matchWord kTransferEncoding .transferEncoding .general c
  | .matchingUpgrade => p.matchWord kUpgrade .upgrade .general c
  | .connection | .contentLength | .transferEncoding | .upgrade =>
    if ch ≠ 0x20 then { p with headerState := .general } else p
  -- `h_general`; in the states of a value the source has an assertion
  | _ => p

/-- The first byte of a name. -/
def firstHeaderState (c : UInt8) : HeaderState :=
  if c = 0x63 then .C
  else if c = 0x70 then .matchingProxyConnection
  else if c = 0x74 then .matchingTransferEncoding
  else if c = 0x75 then .matchingUpgrade
  else .general

def headerFieldStart : ParserTurn :=
  if ch = 0x0D then consume { p with state := .headersAlmostDone } ch rest []
  else if ch = 0x0A then (headersAlmostDone strict { p with state := .headersAlmostDone } ch rest).reexecuted
  else
    let c := token strict ch
    if c = 0 then p.fail .invalidHeaderToken []
    else
      consume { p with index := 0, state := .headerField, headerState := firstHeaderState c } ch rest
        [.mark .headerField]

def headerField : ParserTurn :=
  let name := (ch :: rest).takeWhile fun c => token strict c ≠ 0
  let p := name.foldl (fun p c => p.headerFieldByte c (token strict c)) p
  match (ch :: rest).dropWhile fun c => token strict c ≠ 0 with
  | [] => ⟨p, [.pass name, .count name.length], .ok []⟩
  | c :: rest =>
    if c = 0x3A then
      consume { p with state := .headerValueDiscardWs } c rest [.pass name, .count name.length, .data .headerField]
    else p.fail .invalidHeaderToken [.pass name, .count name.length]

/-! ### The value of a header -/

def isBlank (c : UInt8) : Bool := c = 0x20 ∨ c = 0x09

/-- The flags that a header sets. -/
def finishHeader : ResponseParser :=
  match p.headerState with
  | .connectionKeepAlive => { p with flags.connectionKeepAlive := true }
  | .connectionClose => { p with flags.connectionClose := true }
  | .transferEncodingChunked => { p with flags.chunked := true }
  | .connectionUpgrade => { p with flags.connectionUpgrade := true }
  | _ => p

/-- What a token of a `Connection` header begins with. -/
def connectionToken (c : UInt8) (other : HeaderState) : HeaderState :=
  if c = 0x6B then .matchingConnectionKeepAlive
  else if c = 0x63 then .matchingConnectionClose
  else if c = 0x75 then .matchingConnectionUpgrade
  else other

def headerValueStart : ParserTurn :=
  let c := lowerCase ch
  let p := { p with state := .headerValue, index := 0 }
  let marked := fun p : ResponseParser => p.consume ch rest [.mark .headerValue]
  match p.headerState with
  | .upgrade => marked { p with flags.upgrade := true, headerState := .general }
  | .transferEncoding =>
    marked { p with headerState := if c = 0x63 then .matchingTransferEncodingChunked else .general }
  | .contentLength =>
    if !isNum ch then p.fail .invalidContentLength [.mark .headerValue]
    else marked { p with contentLength := digit ch }
  | .connection => marked { p with headerState := connectionToken c .matchingConnectionToken }
  | .matchingConnectionTokenStart => marked p
  | _ => marked { p with headerState := .general }

def headerValueDiscardWs : ParserTurn :=
  if isBlank ch then p.consume ch rest []
  else if ch = 0x0D then consume { p with state := .headerValueDiscardWsAlmostDone } ch rest []
  else if ch = 0x0A then consume { p with state := .headerValueDiscardLws } ch rest []
  else p.headerValueStart ch rest

def headerValueDiscardLws : ParserTurn :=
  if isBlank ch then consume { p with state := .headerValueDiscardWs } ch rest []
  else
    -- the value is empty
    ((headerFieldStart strict { p.finishHeader with state := .headerFieldStart } ch rest).reexecuted).after
      [.mark .headerValue, .data .headerValue]

def headerValueLws : ParserTurn :=
  if isBlank ch then (headerValueStart { p with state := .headerValueStart } ch rest).reexecuted
  else (headerFieldStart strict { p.finishHeader with state := .headerFieldStart } ch rest).reexecuted

/-- One more byte of a value that is not `h_general`. -/
def headerValueByte : Except HttpErrno ResponseParser :=
  let c := lowerCase ch
  match p.headerState with
  -- not reached: the source has an assertion
  | .connection | .transferEncoding => .ok p
  | .contentLength =>
    if ch = 0x20 then .ok p
    else if !isNum ch then .error .invalidContentLength
    else if (kUllongMax - 10) / 10 < p.contentLength then .error .invalidContentLength
    else .ok { p with contentLength := p.contentLength * 10 + digit ch }
  | .matchingTransferEncodingChunked => .ok (p.matchWord kChunked .transferEncodingChunked .general c)
  | .matchingConnectionTokenStart =>
    .ok { p with
      headerState := connectionToken c (if tokens c ≠ 0 then .matchingConnectionToken else .general) }
  | .matchingConnectionKeepAlive => .ok (p.matchWord kKeepAlive .connectionKeepAlive .matchingConnectionToken c)
  | .matchingConnectionClose => .ok (p.matchWord kClose .connectionClose .matchingConnectionToken c)
  | .matchingConnectionUpgrade => .ok (p.matchWord kUpgrade .connectionUpgrade .matchingConnectionToken c)
  | .matchingConnectionToken =>
    if ch = 0x2C then .ok { p with headerState := .matchingConnectionTokenStart, index := 0 } else .ok p
  | .transferEncodingChunked => if ch ≠ 0x20 then .ok { p with headerState := .general } else .ok p
  | .connectionKeepAlive | .connectionClose | .connectionUpgrade =>
    if ch = 0x2C then .ok { p.finishHeader with headerState := .matchingConnectionTokenStart, index := 0 }
    else if ch ≠ 0x20 then .ok { p with headerState := .matchingConnectionToken }
    else .ok p
  | _ => .ok { p with headerState := .general }

/-- A CR or a LF. -/
def isLineEnd (c : UInt8) : Bool := c = 0x0D ∨ c = 0x0A

/-- How far `memchr` lets `p` skip: to the end of the line, or the end of the read when that is not in the window. -/
def skipTo (bytes : List UInt8) : ℕ :=
  ((bytes.take kHttpMaxHeaderSize).findIdx? isLineEnd).getD bytes.length

/-- The loop over a value: the parser, the bytes that it has gone past, and an error, or the bytes that are left. -/
def scanValue (p : ResponseParser) : List UInt8 → ResponseParser × List UInt8 × Except HttpErrno (List UInt8)
  | [] => (p, [], .ok [])
  | ch :: rest =>
    if isLineEnd ch then (p, [], .ok (ch :: rest))
    else if p.headerState = .general then
      (p, (ch :: rest).take (skipTo (ch :: rest)), .ok ((ch :: rest).drop (skipTo (ch :: rest))))
    else
      match p.headerValueByte ch with
      | .error e => (p, [], .error e)
      | .ok p =>
        let (p, value, left) := scanValue p rest
        (p, ch :: value, left)

def headerValue : ParserTurn :=
  match p.scanValue (ch :: rest) with
  | (p, value, .error e) => p.fail e [.pass value]
  | (p, value, .ok []) => ⟨p, [.pass value, .count value.length], .ok []⟩
  | (p, value, .ok (c :: rest)) =>
    let p := { p with state := .headerAlmostDone }
    if c = 0x0D then p.consume c rest [.pass value, .data .headerValue, .count value.length]
    else
      -- `p` has gone back by one when it is counted again
      ((p.lineFeed strict c rest .headerValueLws).reexecuted).after
        [.pass value, .count value.length, .data .headerValue, .count (value.length - 1)]

/-! ### The body -/

def messageDone : ParserTurn := p.completeMessage strict ch rest []

def bodyIdentity : ParserTurn :=
  let toRead := min p.contentLength (ch :: rest).length
  let p := { p with contentLength := p.contentLength - toRead }
  let passed := [.mark .body, .pass ((ch :: rest).take toRead)]
  if p.contentLength = 0 then
    -- the last byte is executed again for `on_message_complete`
    let p := { p with state := .messageDone }
    ⟨{ p with state := p.newMessage strict }, passed ++ [.data .body, .notify .messageComplete],
      .ok ((ch :: rest).drop toRead)⟩
  else ⟨p, passed, .ok []⟩

def bodyIdentityEof : ParserTurn := ⟨p, [.mark .body, .pass (ch :: rest)], .ok []⟩

def chunkSizeStart : ParserTurn :=
  match unhex ch with
  | none => p.fail .invalidChunkSize []
  | some v => consume { p with contentLength := v, state := .chunkSize } ch rest []

def chunkSize : ParserTurn :=
  if ch = 0x0D then consume { p with state := .chunkSizeAlmostDone } ch rest []
  else
    match unhex ch with
    | none =>
      if ch = 0x3B ∨ ch = 0x20 then consume { p with state := .chunkParameters } ch rest []
      else p.fail .invalidChunkSize []
    | some v =>
      if (kUllongMax - 16) / 16 < p.contentLength then p.fail .invalidContentLength []
      else consume { p with contentLength := p.contentLength * 16 + v } ch rest []

def chunkParameters : ParserTurn :=
  if ch = 0x0D then consume { p with state := .chunkSizeAlmostDone } ch rest [] else p.consume ch rest []

def chunkSizeAlmostDone : ParserTurn :=
  p.strictCheck strict (ch ≠ 0x0A) <|
    if p.contentLength = 0 then
      consume { p with flags.trailing := true, state := .headerFieldStart } ch rest [.clear]
    else consume { p with state := .chunkData } ch rest [.clear]

def chunkData : ParserTurn :=
  let toRead := min p.contentLength (ch :: rest).length
  let p := { p with contentLength := p.contentLength - toRead }
  let passed := [.mark .body, .pass ((ch :: rest).take toRead)]
  if p.contentLength = 0 then ⟨{ p with state := .chunkDataAlmostDone }, passed, .ok ((ch :: rest).drop toRead)⟩
  else ⟨p, passed, .ok []⟩

def chunkDataAlmostDone : ParserTurn :=
  p.strictCheck strict (ch ≠ 0x0D) (consume { p with state := .chunkDataDone } ch rest [.data .body])

def chunkDataDone : ParserTurn :=
  p.strictCheck strict (ch ≠ 0x0A) (consume { p with state := .chunkSizeStart } ch rest [.clear])

/-! ### `http_parser_execute` -/

/-- The `switch`. -/
def dispatch : ParserTurn :=
  match p.state with
  | .dead => if ch = 0x0D ∨ ch = 0x0A then p.consume ch rest [] else p.fail .closedConnection []
  | .startRes => p.startRes ch rest
  | .resH => p.resLetter strict ch rest 0x54 .resHT
  | .resHT => p.resLetter strict ch rest 0x54 .resHTT
  | .resHTT => p.resLetter strict ch rest 0x50 .resHTTP
  | .resHTTP => p.resLetter strict ch rest 0x2F .resFirstHttpMajor
  | .resFirstHttpMajor => p.resFirstHttpMajor ch rest
  | .resHttpMajor => p.resHttpMajor ch rest
  | .resFirstHttpMinor => p.resFirstHttpMinor ch rest
  | .resHttpMinor => p.resHttpMinor ch rest
  | .resFirstStatusCode => p.resFirstStatusCode ch rest
  | .resStatusCode => p.resStatusCode ch rest
  | .resStatusStart => p.resStatusStart ch rest
  | .resStatus => p.resStatus ch rest
  | .resLineAlmostDone => p.lineFeed strict ch rest .headerFieldStart
  | .headerFieldStart => p.headerFieldStart strict ch rest
  | .headerField => p.headerField strict ch rest
  | .headerValueDiscardWs => p.headerValueDiscardWs ch rest
  | .headerValueDiscardWsAlmostDone => p.lineFeed strict ch rest .headerValueDiscardLws
  | .headerValueDiscardLws => p.headerValueDiscardLws strict ch rest
  | .headerValueStart => p.headerValueStart ch rest
  | .headerValue => p.headerValue strict ch rest
  | .headerAlmostDone => p.lineFeed strict ch rest .headerValueLws
  | .headerValueLws => p.headerValueLws strict ch rest
  | .headersAlmostDone => p.headersAlmostDone strict ch rest
  | .headersDone => p.headersDone strict ch rest
  | .bodyIdentity => p.bodyIdentity strict ch rest
  | .bodyIdentityEof => p.bodyIdentityEof ch rest
  | .messageDone => p.messageDone strict ch rest
  | .chunkSizeStart => p.chunkSizeStart ch rest
  | .chunkSize => p.chunkSize ch rest
  | .chunkParameters => p.chunkParameters ch rest
  | .chunkSizeAlmostDone => p.chunkSizeAlmostDone strict ch rest
  | .chunkData => p.chunkData ch rest
  | .chunkDataAlmostDone => p.chunkDataAlmostDone strict ch rest
  | .chunkDataDone => p.chunkDataDone strict ch rest

/-- A turn of the loop. -/
def turn : ParserTurn :=
  if p.state.parsingHeader then (p.dispatch strict ch rest).after [.count 1] else p.dispatch strict ch rest

/-- The mark at the start of a read. -/
def openMark : Option ParserData :=
  match p.state with
  | .headerField => some .headerField
  | .headerValue => some .headerValue
  | .resStatus => some .status
  | _ => none

end ResponseParser

/-! ### What turns do -/

/-- `nread`, the mark with the bytes behind it, and the callbacks that have been made. -/
structure ParserOuter where
  nread : ℕ
  mark : Option (ParserData × List UInt8)
  calls : List ParserCallback
  deriving DecidableEq, Repr

namespace ParserOuter

variable (o : ParserOuter)

/-- An effect, which is `none` if too many bytes are counted. -/
def perform : ParserEffect → Option ParserOuter
  | .count v =>
    -- `nread` is a `uint32_t`
    let nread := ((o.nread + v) % 2 ^ 32).toNat
    if kHttpMaxHeaderSize < nread then none else some { o with nread }
  | .clear => some { o with nread := 0 }
  | .mark kind => some { o with mark := o.mark.or (some (kind, [])) }
  | .pass bytes => some { o with mark := o.mark.map fun m => (m.1, m.2 ++ bytes) }
  | .data kind =>
    match o.mark with
    | some (k, bytes) => if k = kind then some { o with mark := none, calls := o.calls ++ [.data k bytes] } else some o
    | none => some o
  | .notify c => some { o with calls := o.calls ++ [c] }

/-- The callback for a mark that is left over. -/
def leftover : List ParserCallback := o.calls ++ (o.mark.map fun m => ParserCallback.data m.1 m.2).toList

end ParserOuter

/-- What a call of `http_parser_execute` leaves: the parser with `nread`, the callbacks it has made, and why it has not
taken all bytes, if it has not. -/
structure ParserCall where
  parser : ResponseParser
  nread : ℕ
  calls : List ParserCallback
  halt : Option ParserHalt

namespace ResponseParser

variable (strict : Bool)

/-- The loop over the bytes. Each turn takes one of them at least, so that `fuel` need not be more than their number. -/
def loop : ℕ → ResponseParser → ParserOuter → List UInt8 → ParserCall
  | 0, p, o, _ => ⟨p, o.nread, o.leftover, none⟩
  | _, p, o, [] => ⟨p, o.nread, o.leftover, none⟩
  | fuel + 1, p, o, ch :: rest =>
    let t := p.turn strict ch rest
    match t.effects.foldlM ParserOuter.perform o with
    | none => ⟨t.parser, o.nread, o.calls, some (.errno .headerOverflow)⟩
    | some o =>
      match t.next with
      | .error halt => ⟨t.parser, o.nread, o.calls, some halt⟩
      | .ok rest => loop fuel t.parser o rest

/-- `http_parser_execute(parser, settings, data, len)` of a parser that has met no error. -/
def execute (p : ResponseParser) (nread : ℕ) (data : List UInt8) : ParserCall :=
  if data = [] then
    match p.state with
    | .bodyIdentityEof => ⟨p, nread, [.messageComplete], none⟩
    | .dead | .startRes => ⟨p, nread, [], none⟩
    | _ => ⟨p, nread, [], some (.errno .invalidEofState)⟩
  else loop strict data.length p ⟨nread, p.openMark.map (·, []), []⟩ data

end ResponseParser

end Zutils.Net.Http
