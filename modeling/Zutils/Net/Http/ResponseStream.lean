import Zutils.Base.StringNumber
import Zutils.Net.Http.Response
import Zutils.Net.Http.ResponseHead
import Zutils.Net.Transmit

/-!
# Responses on a connection

A client reads responses with the parser of `http_parser.c`, in the version that is under `third_party`, and puts them
together from its callbacks. It reads a response back as it was made if the headers that are added are plain, the client
learns the length of the body from each header that tells one, and the head is not too long (`response_read_back`).

Responses of this kind that are sent on one connection are read in order, in whatever reads they arrive, in every run in
which no `send` that `SendInternal` makes fails (`responses_in_order`).
-/

namespace Zutils.Net

open Zutils.Lib Zutils.Net.Http

namespace HttpServerResponseInfo

variable {r : HttpServerResponseInfo} {status : HttpStatusCode} {calls : List ResponseCall} {strict : Bool}

/-- What a client should read. -/
def content (r : HttpServerResponseInfo) : ReceivedResponse :=
  ⟨r.statusCode.code, r.statusCode.getHttpReasonPhrase, r.headers, r.body⟩

/-- What is in front of the body. -/
def serializeHead (r : HttpServerResponseInfo) : List UInt8 :=
  statusLine r.statusCode ++ [0x0D, 0x0A] ++ r.headers.flatMap headerLine ++ [0x0D, 0x0A]

/-! ### The bytes -/

lemma serialize_eq (r : HttpServerResponseInfo) : r.serialize = r.serializeHead ++ r.body := by
  have hfold : ∀ (hs : List (List UInt8 × List UInt8)) (acc : List UInt8),
      hs.foldl (fun response header => response ++ (header.1 ++ 0x3A :: header.2 ++ [0x0D, 0x0A])) acc =
        acc ++ hs.flatMap headerLine := by
    intro hs
    induction hs with
    | nil => simp
    | cons h hs ih =>
      intro acc
      rw [List.foldl_cons, ih]
      simp [headerLine]
  have hcrlf : ascii "\r\n".toList = [0x0D, 0x0A] := by decide
  rw [serialize, hcrlf, hfold]
  simp [serializeHead]

lemma isNum_decimal {n : ℕ} {c : UInt8} (h : c ∈ decimal n) : isNum c = true := by
  obtain ⟨hge, hlt⟩ := NumericLimits.decimal_digit h
  exact decide_eq_true ⟨hge, Nat.le_of_lt_succ hlt⟩

lemma decimalValue_decimal (n : ℕ) : decimalValue 0 (decimal n) = n := by
  have hdigit : ∀ d < 10, digit (UInt8.ofNat (0x30 + d)) = d := by decide +kernel
  induction n using Nat.strongRecOn with
  | ind n ih =>
    rw [decimal_eq]
    split <;> rename_i hn
    · show 0 * 10 + digit _ = n
      rw [hdigit n hn]
      omega
    · rw [decimalValue, List.foldl_append]
      show decimalValue 0 (decimal (n / 10)) * 10 + digit _ = n
      rw [ih (n / 10) (by omega), hdigit _ (Nat.mod_lt n (by decide))]
      omega

lemma tellsLength_decimal (n m : ℕ) : TellsLength m (decimal n) ↔ n = m := by
  have hne : decimal n ≠ [] := by
    rw [decimal_eq]
    split <;> simp
  rw [TellsLength, decimalValue_decimal]
  exact ⟨fun h => h.2.2, fun h => ⟨hne, fun c => isNum_decimal, h⟩⟩

lemma decimal_code (status : HttpStatusCode) : ∃ a b c, decimal status.code = [a, b, c] ∧
    (digit a * 10 + digit b) * 10 + digit c = status.code ∧ isNum a = true ∧ isNum b = true ∧ isNum c = true ∧
    (digit a * 10 + digit b) * 10 + digit c ≤ 999 := by
  cases status <;> exact ⟨_, _, _, rfl, by decide⟩

lemma phrase_line (status : HttpStatusCode) : status.getHttpReasonPhrase ≠ [] ∧
    ∀ c ∈ status.getHttpReasonPhrase, ResponseParser.isLineEnd c = false := by
  cases status <;> decide +kernel

lemma run_code {p : ResponseParser} {reading : Reading} {a b c : UInt8} (hstate : p.state = .resFirstStatusCode)
    (ha : isNum a = true) (hb : isNum b = true) (hc : isNum c = true)
    (hmax : (digit a * 10 + digit b) * 10 + digit c ≤ 999) :
    ResponseReader.run strict ⟨p, 9, reading⟩ [a, b, c, 0x20] =
      some ⟨{ p with
          state := .resStatusStart
          statusCode := (digit a * 10 + digit b) * 10 + digit c }, 13, reading⟩ := by
  have hmax' : digit a * 10 + digit b ≤ 999 := by omega
  have h₁ : ResponseReader.step strict ⟨p, 9, reading⟩ a = _ :=
    ResponseReader.step_firstDigit hstate ha (by decide)
  have h₂ : ResponseReader.step strict ⟨{ p with state := .resStatusCode, statusCode := digit a }, 10, reading⟩ b = _ :=
    ResponseReader.step_digit rfl hb hmax' (by decide)
  have h₃ : ResponseReader.step strict
      ⟨{ p with state := .resStatusCode, statusCode := digit a * 10 + digit b }, 11, reading⟩ c = _ :=
    ResponseReader.step_digit rfl hc hmax (by decide)
  have h₄ : ResponseReader.step strict ⟨{ p with
      state := .resStatusCode
      statusCode := (digit a * 10 + digit b) * 10 + digit c }, 12, reading⟩ 0x20 = _ :=
    ResponseReader.step_space rfl (by decide)
  rw [ResponseReader.run_cons, h₁, Option.bind_some, ResponseReader.run_cons, h₂, Option.bind_some,
    ResponseReader.run_cons, h₃, Option.bind_some, ResponseReader.run_cons, h₄]
  rfl

/-- **The status line** is read. -/
lemma run_statusLine {p : ResponseParser} {reading : Reading} (hstate : p.state = .startRes)
    (hhead : (statusLine status).length + 2 ≤ kMaxHead) :
    ∃ q, InHead status.code kUllongMax q ∧
      ResponseReader.run strict ⟨p, 0, reading⟩ (statusLine status ++ [0x0D, 0x0A]) =
        some ⟨q, (statusLine status).length + 2,
          (reading.hear .messageBegin).hear (.data .status status.getHttpReasonPhrase)⟩ := by
  obtain ⟨a, b, c, hdecimal, hvalue, ha, hb, hc, hmax⟩ := decimal_code status
  obtain ⟨hphrase, hphraseLine⟩ := phrase_line status
  have hline : statusLine status ++ [0x0D, 0x0A] = ascii "HTTP/1.1 ".toList ++ ([a, b, c, 0x20] ++
      (status.getHttpReasonPhrase ++ [0x0D, 0x0A])) := by
    rw [statusLine, hdecimal]
    simp
  have hlength : (statusLine status).length = 13 + status.getHttpReasonPhrase.length := by
    rw [statusLine, hdecimal, List.length_append, List.length_append,
      show (ascii "HTTP/1.1 ".toList).length = 9 by decide, List.length_cons, List.length_cons, List.length_cons,
      List.length_cons, List.length_nil]
    omega
  rw [hlength] at hhead ⊢
  let p₁ : ResponseParser := { p with
    state := .resFirstStatusCode
    flags := .none
    contentLength := kUllongMax
    httpMajor := 1
    httpMinor := 1 }
  let p₂ : ResponseParser := { p₁ with
    state := .resStatusStart
    statusCode := (digit a * 10 + digit b) * 10 + digit c }
  have hversion : ResponseReader.run strict ⟨p, 0, reading⟩ (ascii "HTTP/1.1 ".toList) =
      some ⟨p₁, 9, reading.hear .messageBegin⟩ := ResponseReader.run_version hstate
  have hcode : ResponseReader.run strict ⟨p₁, 9, reading.hear .messageBegin⟩ [a, b, c, 0x20] =
      some ⟨p₂, 13, reading.hear .messageBegin⟩ := run_code rfl ha hb hc hmax
  have hrest : ResponseReader.run strict ⟨p₂, 13, reading.hear .messageBegin⟩
      (status.getHttpReasonPhrase ++ [0x0D, 0x0A]) = _ :=
    ResponseReader.run_phrase rfl hphrase hphraseLine hhead
  refine ⟨{ p₂ with state := .headerFieldStart, index := 0 }, ⟨rfl, rfl, rfl, hvalue, rfl, false, rfl⟩, ?_⟩
  rw [hline, ResponseReader.run_append, hversion, Option.bind_some, ResponseReader.run_append, hcode, Option.bind_some,
    hrest]

/-! ### The calls -/

/-- The headers that a call adds. -/
def headersOf : ResponseCall → List (List UInt8 × List UInt8)
  | .addHeader name value => [(name, value)]
  | .setBody body contentType => [(kContentLength, decimal body.length), (kContentType, contentType)]

/-- **One call** keeps the status and adds its headers. -/
lemma exec_spec {c : ResponseCall} {r' : HttpServerResponseInfo} (h : c.exec r = .ok r') :
    r'.statusCode = r.statusCode ∧ r'.headers = r.headers ++ headersOf c := by
  cases c with
  | addHeader name value =>
    obtain rfl := Except.ok.inj h
    exact ⟨rfl, rfl⟩
  | setBody body contentType =>
    obtain ⟨_, -, h⟩ := bind_eq_ok.1 h
    obtain rfl := Except.ok.inj h
    exact ⟨rfl, by simp [addHeader, headersOf]⟩

/-- **All calls** do so. -/
lemma build_spec (h : build status calls = .ok r) : r.statusCode = status ∧ r.headers = calls.flatMap headersOf := by
  induction calls using List.reverseRecOn generalizing r with
  | nil =>
    obtain rfl := Except.ok.inj h
    exact ⟨rfl, rfl⟩
  | append_singleton calls c ih =>
    rw [build, List.foldlM_append] at h
    obtain ⟨r₀, h₀, h⟩ := bind_eq_ok.1 h
    rw [List.foldlM_cons] at h
    obtain ⟨r₁, h₁, h⟩ := bind_eq_ok.1 h
    obtain rfl := Except.ok.inj h
    obtain ⟨hstatus, hheaders⟩ := ih h₀
    obtain ⟨hstatus', hheaders'⟩ := exec_spec h₁
    exact ⟨hstatus'.trans hstatus, by rw [hheaders', hheaders]; simp⟩

end HttpServerResponseInfo

namespace ResponseCall

open HttpServerResponseInfo (headersOf)

/-- The header that is added is plain; the one that `SetBody` adds for the type, too. -/
def Plain : ResponseCall → Prop
  | addHeader name value => PlainHeader (name, value)
  | setBody _ contentType => PlainHeader (kContentType, contentType)

/-- The call tells the client how long the body is. -/
def Tells : ResponseCall → Prop
  | addHeader name value => IsLength (name, value)
  | setBody .. => True

/-- What the call tells, if it does, is this length. -/
def TellsOnly (length : ℕ) : ResponseCall → Prop
  | addHeader name value => IsLength (name, value) → TellsLength length value
  | setBody body _ => body.length = length

instance : DecidablePred Plain
  | addHeader name value => inferInstanceAs (Decidable (PlainHeader (name, value)))
  | setBody _ contentType => inferInstanceAs (Decidable (PlainHeader (kContentType, contentType)))

instance : DecidablePred Tells
  | addHeader name value => inferInstanceAs (Decidable (IsLength (name, value)))
  | setBody .. => inferInstanceAs (Decidable True)

instance (length : ℕ) : DecidablePred (TellsOnly length)
  | addHeader name value => inferInstanceAs (Decidable (IsLength (name, value) → TellsLength length value))
  | setBody body _ => inferInstanceAs (Decidable (body.length = length))

variable {c : ResponseCall} {length : ℕ}

lemma plainHeader_contentLength (n : ℕ) : PlainHeader (kContentLength, decimal n) where
  name_ne := by show kContentLength ≠ []; decide
  name := by show ∀ c ∈ kContentLength, tokens c ≠ 0; decide +kernel
  other := by show ResponseParser.lowerName kContentLength ∉ _; decide
  value c hc := (ResponseReader.isNum_ne (HttpServerResponseInfo.isNum_decimal hc)).1
  value_head c hc := (ResponseReader.isNum_ne (HttpServerResponseInfo.isNum_decimal (List.mem_of_mem_head? hc))).2

lemma isLength_contentLength (v : List UInt8) : IsLength (kContentLength, v) := by
  show ResponseParser.lowerName kContentLength = _
  decide

lemma not_isLength_contentType (v : List UInt8) : ¬ IsLength (kContentType, v) := by
  show ¬ ResponseParser.lowerName kContentType = _
  decide

lemma plain_iff : c.Plain ↔ ∀ h ∈ headersOf c, PlainHeader h := by
  cases c with
  | addHeader name value => simp [Plain, headersOf]
  | setBody body contentType => simp [Plain, headersOf, plainHeader_contentLength]

lemma tells_iff : c.Tells ↔ ∃ h ∈ headersOf c, IsLength h := by
  cases c with
  | addHeader name value => simp [Tells, headersOf]
  | setBody body contentType => simp [Tells, headersOf, isLength_contentLength]

lemma tellsOnly_iff : c.TellsOnly length ↔ ∀ h ∈ headersOf c, IsLength h → TellsLength length h.2 := by
  cases c with
  | addHeader name value => simp [TellsOnly, headersOf]
  | setBody body contentType =>
    simp [TellsOnly, headersOf, isLength_contentLength, not_isLength_contentType,
      HttpServerResponseInfo.tellsLength_decimal]

end ResponseCall

namespace HttpServerResponseInfo

variable {r : HttpServerResponseInfo} {status : HttpStatusCode} {calls : List ResponseCall} {strict : Bool}

/-- The headers are plain, every length that is told is that of the body, and one is told, or the status is one without
a body. The head and the body are not too long for the parser. -/
structure Readable (status : HttpStatusCode) (calls : List ResponseCall) (r : HttpServerResponseInfo) : Prop where
  plain : ∀ c ∈ calls, c.Plain
  tellsOnly : ∀ c ∈ calls, c.TellsOnly r.body.length
  tells : (∃ c ∈ calls, c.Tells) ∨ r.body = [] ∧ Bodyless status.code
  head : r.serializeHead.length ≤ kMaxHead
  body : r.body.length < 2 ^ 63

instance (status : HttpStatusCode) (calls : List ResponseCall) (r : HttpServerResponseInfo) :
    Decidable (Readable status calls r) :=
  decidable_of_iff ((∀ c ∈ calls, c.Plain) ∧ (∀ c ∈ calls, c.TellsOnly r.body.length) ∧
    ((∃ c ∈ calls, c.Tells) ∨ r.body = [] ∧ Bodyless status.code) ∧ r.serializeHead.length ≤ kMaxHead ∧
    r.body.length < 2 ^ 63)
    ⟨fun ⟨h₁, h₂, h₃, h₄, h₅⟩ => ⟨h₁, h₂, h₃, h₄, h₅⟩, fun ⟨h₁, h₂, h₃, h₄, h₅⟩ => ⟨h₁, h₂, h₃, h₄, h₅⟩⟩

section Readable

variable (hr : Readable status calls r) (hheaders : r.headers = calls.flatMap headersOf)

include hr hheaders

lemma Readable.plainHeader : ∀ f ∈ r.headers, PlainHeader f := by
  intro f hf
  obtain ⟨c, hc, hf⟩ := List.mem_flatMap.1 (hheaders ▸ hf)
  exact ResponseCall.plain_iff.1 (hr.plain c hc) f hf

lemma Readable.tellsLength :
    ∀ f ∈ r.headers, IsLength f → TellsLength r.body.length f.2 ∧ r.body.length ≤ kUllongMax - 10 := by
  intro f hf hlen
  obtain ⟨c, hc, hf⟩ := List.mem_flatMap.1 (hheaders ▸ hf)
  have hbody := hr.body
  exact ⟨ResponseCall.tellsOnly_iff.1 (hr.tellsOnly c hc) f hf hlen, by unfold kUllongMax; omega⟩

lemma Readable.framed :
    Framed status.code (ResponseReader.lengthOf r.body.length r.headers kUllongMax) r.body := by
  have hbody := hr.body
  unfold ResponseReader.lengthOf
  split <;> rename_i hsome
  · exact .inl ⟨rfl, by unfold kUllongMax; omega⟩
  · refine .inr ⟨rfl, hr.tells.resolve_left ?_⟩
    rintro ⟨c, hc, htell⟩
    obtain ⟨f, hf, hlen⟩ := ResponseCall.tells_iff.1 htell
    exact hsome ⟨f, hheaders ▸ List.mem_flatMap.2 ⟨c, hc, hf⟩, hlen⟩

end Readable

/-- **A response is read** byte for byte. -/
lemma run_serialize (h : build status calls = .ok r) (hr : Readable status calls r) {p : ResponseParser}
    {reading : Reading} (hstate : p.state = .startRes) :
    ∃ q reading', q.state = .startRes ∧ reading'.responses = reading.responses ++ [r.content] ∧
      ResponseReader.run strict ⟨p, 0, reading⟩ r.serialize = some ⟨q, 0, reading'⟩ := by
  obtain ⟨rfl, hheaders⟩ := build_spec h
  have hhead := hr.head
  simp only [serializeHead, List.length_append, List.length_cons, List.length_nil] at hhead
  obtain ⟨q₁, hq₁, hrun₁⟩ : ∃ q₁, InHead r.statusCode.code kUllongMax q₁ ∧
      ResponseReader.run strict ⟨p, 0, reading⟩ (statusLine r.statusCode ++ [0x0D, 0x0A]) = _ :=
    run_statusLine hstate (by omega)
  let begun : Reading := (reading.hear .messageBegin).hear (.data .status r.statusCode.getHttpReasonPhrase)
  let headed : Reading := { begun with headers := r.headers.reverse ++ begun.headers }
  obtain ⟨q₂, hq₂, hrun₂⟩ : ∃ q₂, InHead r.statusCode.code _ q₂ ∧ ∀ c rest, ResponseParser.isBlank c = false →
      ResponseReader.run strict ⟨q₁, (statusLine r.statusCode).length + 2, begun⟩ _ = _ :=
    ResponseReader.run_headers hq₁ rfl (hr.plainHeader hheaders) (hr.tellsLength hheaders) (by omega)
  obtain ⟨q₃, hq₃, hrun₃⟩ : ∃ q₃ : ResponseParser, q₃.state = .startRes ∧ ResponseReader.run strict
      ⟨q₂, (statusLine r.statusCode).length + 2 + (r.headers.flatMap headerLine).length, headed⟩
      ([0x0D, 0x0A] ++ r.body) = _ :=
    ResponseReader.run_end hq₂ (hr.framed hheaders) (by omega)
  have hserialize : r.serialize = (statusLine r.statusCode ++ [0x0D, 0x0A]) ++
      (r.headers.flatMap headerLine ++ 0x0D :: ([0x0A] ++ r.body)) := by
    rw [serialize_eq, serializeHead]
    simp
  refine ⟨q₃, ((headed.hear (.headersComplete r.statusCode.code)).hear (.data .body r.body)).hear .messageComplete, hq₃,
    ?_, ?_⟩
  · simp [Reading.hear, content, headed, begun]
  · rw [hserialize, ResponseReader.run_append, hrun₁, Option.bind_some, hrun₂ 0x0D _ (by decide)]
    exact hrun₃

/-- **A response is read back** as it was made, in whatever reads it arrives, and the client waits for the next one. -/
theorem response_read_back (h : build status calls = .ok r) (hr : Readable status calls r) (strict : Bool)
    {c : ResponseClient} (hc : c.Waiting) {reads : List (List UInt8)} (hreads : ∀ data ∈ reads, data ≠ [])
    (hflatten : reads.flatten = r.serialize) :
    ∃ c', reads.foldlM (ResponseClient.receive strict) c = some c' ∧ c'.Waiting ∧
      c'.reading.responses = c.reading.responses ++ [r.content] := by
  obtain ⟨q, reading', hq, hresponses, hrun⟩ : ∃ q reading', q.state = ParserState.startRes ∧
      reading'.responses = c.reading.responses ++ [r.content] ∧
      ResponseReader.run strict ⟨c.parser, 0, c.reading⟩ r.serialize = some ⟨q, 0, reading'⟩ :=
    run_serialize h hr hc.1
  rw [← hflatten] at hrun
  obtain ⟨c', hc', hat⟩ := ResponseClient.receive_reads hc.atReader hreads hrun
  exact ⟨c', hc', hat.waiting hq rfl, by rw [hat.reading, hresponses]⟩

/-- A body that is set before the headers are complete, and a header besides. -/
def bodyFirst : HttpServerResponseInfo where
  statusCode := .httpOk
  headers := [(kContentLength, [0x32]), (kContentType, [0x41]), ([0x41], [0x42])]
  body := [7, 8]

/-- The reads end within the head, and within the body. -/
theorem response_read_back_run : ∃ c,
    [bodyFirst.serialize.take 30, bodyFirst.serialize.dropLast.drop 30, [8]].foldlM (ResponseClient.receive true) .new =
      some c ∧
    c.reading.responses = [bodyFirst.content] := by
  have h : build .httpOk [.setBody [7, 8] [0x41], .addHeader [0x41] [0x42]] = .ok bodyFirst := rfl
  have hreads : ∀ data ∈ [bodyFirst.serialize.take 30, bodyFirst.serialize.dropLast.drop 30, [8]], data ≠ [] := by
    decide
  obtain ⟨c, hc, -, hresponses⟩ := response_read_back h (by decide +kernel) true ResponseClient.waiting_new hreads
    rfl
  exact ⟨c, hc, hresponses⟩

end HttpServerResponseInfo

/-! ### Responses in order -/

/-- A response that a client can read, and `SendInternal2` can count. -/
structure ReadableResponse where
  status : HttpStatusCode
  calls : List ResponseCall
  response : HttpServerResponseInfo
  built : HttpServerResponseInfo.build status calls = .ok response
  readable : HttpServerResponseInfo.Readable status calls response
  short : response.serialize.length < 2 ^ 32

/-- **One response after the other** is read. -/
lemma run_responses (strict : Bool) (rs : List ReadableResponse) {p : ResponseParser} {reading : Reading}
    (hstate : p.state = .startRes) :
    ∃ q reading', q.state = .startRes ∧
      reading'.responses = reading.responses ++ rs.map (fun r => r.response.content) ∧
      ResponseReader.run strict ⟨p, 0, reading⟩ (rs.map fun r => r.response.serialize).flatten =
        some ⟨q, 0, reading'⟩ := by
  induction rs generalizing p reading with
  | nil => exact ⟨p, reading, hstate, (List.append_nil _).symm, rfl⟩
  | cons r rs ih =>
    obtain ⟨q₁, reading₁, hq₁, hresponses₁, hrun₁⟩ : ∃ q₁ reading₁, q₁.state = ParserState.startRes ∧
        reading₁.responses = reading.responses ++ [r.response.content] ∧
        ResponseReader.run strict ⟨p, 0, reading⟩ r.response.serialize = some ⟨q₁, 0, reading₁⟩ :=
      HttpServerResponseInfo.run_serialize r.built r.readable hstate
    obtain ⟨q, reading', hq, hresponses, hrun⟩ : ∃ q reading', q.state = ParserState.startRes ∧
        reading'.responses = reading₁.responses ++ rs.map (fun r => r.response.content) ∧
        ResponseReader.run strict ⟨q₁, 0, reading₁⟩ (rs.map fun r => r.response.serialize).flatten =
          some ⟨q, 0, reading'⟩ := ih hq₁
    refine ⟨q, reading', hq, ?_, ?_⟩
    · rw [hresponses, hresponses₁, List.map_cons, List.append_assoc, List.singleton_append]
    · rw [List.map_cons, List.flatten_cons, ResponseReader.run_append, hrun₁]
      exact hrun

/-- An event of the connection: the server sends a response, or the socket can be written to. -/
inductive HttpEvent where
  | sendResponse (r : ReadableResponse) (result : SendResult)
  | onWrite (result : SendResult)

namespace HttpEvent

def toSend : HttpEvent → SendEvent
  | sendResponse r result =>
    .sendInternal (Mem.ofList r.response.serialize) (UInt32.ofNat r.response.serialize.length) result
  | onWrite result => .onWrite result

/-- What is sent, in order. -/
def responses (es : List HttpEvent) : List ReadableResponse :=
  es.filterMap fun
    | sendResponse r _ => some r
    | onWrite _ => none

end HttpEvent

/-- An event that can happen, and fits: a `send` that `SendInternal` makes does not fail, not even as it would block. -/
def Responds (t : Transmission) (e : HttpEvent) (t' : Transmission) : Prop := TransmitsFit t e.toSend t'

lemma sent_eq {socket : ℤ} {es : List HttpEvent} {t : Transmission} (h : Run Responds (Transmission.new socket) es t) :
    t.sent = ((HttpEvent.responses es).map fun r => r.response.serialize).flatten := by
  refine h.inv (P := fun es t => t.sent = ((HttpEvent.responses es).map fun r => r.response.serialize).flatten) rfl ?_
  rintro es t e t' hsent ⟨⟨-, he⟩, -⟩
  cases e with
  | sendResponse r result =>
    obtain ⟨⟨handler, out⟩, -, he⟩ := bind_eq_ok.1 he
    obtain rfl := Except.ok.inj he
    have hlength : (UInt32.ofNat r.response.serialize.length).toNat = r.response.serialize.length := by
      simpa using r.short
    simp [hsent, hlength, Mem.bytes_ofList, HttpEvent.responses]
  | onWrite result =>
    obtain ⟨⟨handler, out⟩, -, he⟩ := bind_eq_ok.1 he
    obtain rfl := Except.ok.inj he
    simpa [HttpEvent.responses] using hsent

/-- **Responses are read in order**: in every run in which no `send` that `SendInternal` makes fails, and none that
`OnWrite` makes otherwise than by blocking, a client has read the first of the responses from the first `n` bytes on
the wire, as they were made, whatever its reads were. Once `write_buf_` is empty and all has arrived it has read all of
them, and waits for another. -/
theorem responses_in_order {socket : ℤ} {es : List HttpEvent} {t : Transmission}
    (h : Run Responds (Transmission.new socket) es t) (hfailed : t.failed = false) (strict : Bool) {n : ℕ}
    {reads : List (List UInt8)} (hreads : ∀ data ∈ reads, data ≠ []) (hflatten : reads.flatten = t.kernel.take n) :
    ∃ c, reads.foldlM (ResponseClient.receive strict) .new = some c ∧
      c.reading.responses <+: (HttpEvent.responses es).map (fun r => r.response.content) ∧
      (t.handler.writeBuf.readable = [] → t.kernel.length ≤ n →
        c.reading.responses = (HttpEvent.responses es).map (fun r => r.response.content) ∧ c.Waiting) := by
  have hintact : t.kernel ++ t.handler.writeBuf.readable = t.sent := by
    refine (h.inv (P := fun _ t => t.handler.writeBuf.Ok ∧ t.Intact) ⟨IOBuffer.new_ok 64, fun _ => rfl⟩ ?_).2 hfailed
    rintro es t e t' ⟨hok, hint⟩ ⟨⟨hlegal, he⟩, hfit⟩
    obtain ⟨t'', he', hok', hint', -⟩ := e.toSend.exec_spec hok hint hlegal hfit
    obtain rfl : t' = t'' := Except.ok.inj (he.symm.trans he')
    exact ⟨hok', hint'⟩
  have hstream : reads.flatten ++ (t.kernel.drop n ++ t.handler.writeBuf.readable) =
      ((HttpEvent.responses es).map fun r => r.response.serialize).flatten := by
    rw [hflatten, ← List.append_assoc, List.take_append_drop, hintact, sent_eq h]
  obtain ⟨q, reading, hq, hresponses, hrun⟩ : ∃ q reading, q.state = ParserState.startRes ∧
      reading.responses = Reading.empty.responses ++ (HttpEvent.responses es).map (fun r => r.response.content) ∧
      ResponseReader.run strict .new ((HttpEvent.responses es).map fun r => r.response.serialize).flatten =
        some ⟨q, 0, reading⟩ := run_responses strict _ rfl
  rw [← hstream, ResponseReader.run_append] at hrun
  obtain ⟨s, hs, hrest⟩ := Option.bind_eq_some_iff.1 hrun
  obtain ⟨c, hc, hat⟩ := ResponseClient.receive_reads ResponseClient.at_new hreads hs
  have hresponses : reading.responses = (HttpEvent.responses es).map (fun r => r.response.content) := hresponses
  refine ⟨c, hc, ?_, fun hbuf hn => ?_⟩
  · rw [hat.reading, ← hresponses]
    exact ResponseReader.run_grows hrest
  · -- nothing is left behind what has arrived
    rw [hbuf, List.drop_eq_nil_of_le hn] at hrest
    obtain rfl := Option.some.inj hrest
    exact ⟨by rw [hat.reading, hresponses], hat.waiting hq rfl⟩

/-- `CreateFor500("m")`. -/
def internalServerError : ReadableResponse where
  status := .httpInternalServerError
  calls := [.setBody [0x6D] (ascii "text/html".toList)]
  response := _
  built := rfl
  readable := by decide +kernel
  short := by decide +kernel

/-- What is on the wire after two `send`s. -/
theorem responses_in_order_run : ∃ t : Transmission,
    Run Responds (.new 5) [.sendResponse internalServerError (.accepted 3), .onWrite (.accepted 78)] t ∧
    ∃ c, [t.kernel.take 50, t.kernel.drop 50].foldlM (ResponseClient.receive false) .new = some c ∧
      c.reading.responses = [internalServerError.response.content] := by
  have h : Run Responds (.new 5) [.sendResponse internalServerError (.accepted 3), .onWrite (.accepted 78)]
      ⟨_, internalServerError.response.serialize, _, _⟩ :=
    (Run.nil.snoc ⟨⟨fun _ => by decide, rfl⟩, fun _ => .inl (by decide)⟩).snoc
      ⟨⟨fun _ => by decide, rfl⟩, fun _ => by decide⟩
  have hreads : ∀ data ∈ [internalServerError.response.serialize.take 50,
      internalServerError.response.serialize.drop 50], data ≠ [] := by decide
  obtain ⟨c, hc, -, hall⟩ := responses_in_order h rfl false (n := 81) hreads rfl
  exact ⟨_, h, c, hc, (hall rfl (by decide)).1⟩

end Zutils.Net
