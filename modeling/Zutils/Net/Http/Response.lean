import Zutils.Net.IoHandler
import Zutils.Base.CString

/-!
# HTTP responses (`net/http/http_server_response_info`, `http_status_code`, `http_request_codec`)

A response is a status, headers in the order in which they were added, and a body. `SetBody` adds the headers
`Content-Length` and `Content-Type`; `AddHeader` adds any header, and checks nothing. `Serialize` writes a status line,
a line for each header, an empty line and the body, and `SendResponse` hands this to `SendInternal2` of the handler.
-/

namespace Zutils.Net

/-- `enum HttpStatusCode`. -/
inductive HttpStatusCode where
  | httpContinue | httpSwitchingProtocols | httpOk | httpCreated | httpAccepted | httpNonAuthoritativeInformation
  | httpNoContent | httpResetContent | httpPartialContent | httpMultipleChoices | httpMovedPermanently | httpFound
  | httpSeeOther | httpNotModified | httpUseProxy | httpTemporaryRedirect | httpPermanentRedirect | httpBadRequest
  | httpUnauthorized | httpPaymentRequired | httpForbidden | httpNotFound | httpMethodNotAllowed
  | httpNotAcceptable | httpProxyAuthenticationRequired | httpRequestTimeout | httpConflict | httpGone
  | httpLengthRequired | httpPreconditionFailed | httpRequestEntityTooLarge | httpRequestUriTooLong
  | httpUnsupportedMediaType | httpRequestedRangeNotSatisfiable | httpExpectationFailed | httpInternalServerError
  | httpNotImplemented | httpBadGateway | httpServiceUnavailable | httpGatewayTimeout | httpVersionNotSupported
  deriving DecidableEq, Repr

namespace HttpStatusCode

/-- The value of the enumerator. -/
def code : HttpStatusCode → ℕ
  | httpContinue => 100
  | httpSwitchingProtocols => 101
  | httpOk => 200
  | httpCreated => 201
  | httpAccepted => 202
  | httpNonAuthoritativeInformation => 203
  | httpNoContent => 204
  | httpResetContent => 205
  | httpPartialContent => 206
  | httpMultipleChoices => 300
  | httpMovedPermanently => 301
  | httpFound => 302
  | httpSeeOther => 303
  | httpNotModified => 304
  | httpUseProxy => 305
  | httpTemporaryRedirect => 307
  | httpPermanentRedirect => 308
  | httpBadRequest => 400
  | httpUnauthorized => 401
  | httpPaymentRequired => 402
  | httpForbidden => 403
  | httpNotFound => 404
  | httpMethodNotAllowed => 405
  | httpNotAcceptable => 406
  | httpProxyAuthenticationRequired => 407
  | httpRequestTimeout => 408
  | httpConflict => 409
  | httpGone => 410
  | httpLengthRequired => 411
  | httpPreconditionFailed => 412
  | httpRequestEntityTooLarge => 413
  | httpRequestUriTooLong => 414
  | httpUnsupportedMediaType => 415
  | httpRequestedRangeNotSatisfiable => 416
  | httpExpectationFailed => 417
  | httpInternalServerError => 500
  | httpNotImplemented => 501
  | httpBadGateway => 502
  | httpServiceUnavailable => 503
  | httpGatewayTimeout => 504
  | httpVersionNotSupported => 505

/-- `GetHttpReasonPhrase(code)`. -/
def getHttpReasonPhrase : HttpStatusCode → List UInt8
  | httpContinue => ascii "Continue".toList
  | httpSwitchingProtocols => ascii "Switching Protocols".toList
  | httpOk => ascii "OK".toList
  | httpCreated => ascii "Created".toList
  | httpAccepted => ascii "Accepted".toList
  | httpNonAuthoritativeInformation => ascii "Non-Authoritative Information".toList
  | httpNoContent => ascii "No Content".toList
  | httpResetContent => ascii "Reset Content".toList
  | httpPartialContent => ascii "Partial Content".toList
  | httpMultipleChoices => ascii "Multiple Choices".toList
  | httpMovedPermanently => ascii "Moved Permanently".toList
  | httpFound => ascii "Found".toList
  | httpSeeOther => ascii "See Other".toList
  | httpNotModified => ascii "Not Modified".toList
  | httpUseProxy => ascii "Use Proxy".toList
  | httpTemporaryRedirect => ascii "Temporary Redirect".toList
  | httpPermanentRedirect => ascii "Permanent Redirect".toList
  | httpBadRequest => ascii "Bad Request".toList
  | httpUnauthorized => ascii "Unauthorized".toList
  | httpPaymentRequired => ascii "Payment Required".toList
  | httpForbidden => ascii "Forbidden".toList
  | httpNotFound => ascii "Not Found".toList
  | httpMethodNotAllowed => ascii "Method Not Allowed".toList
  | httpNotAcceptable => ascii "Not Acceptable".toList
  | httpProxyAuthenticationRequired => ascii "Proxy Authentication Required".toList
  | httpRequestTimeout => ascii "Request Timeout".toList
  | httpConflict => ascii "Conflict".toList
  | httpGone => ascii "Gone".toList
  | httpLengthRequired => ascii "Length Required".toList
  | httpPreconditionFailed => ascii "Precondition Failed".toList
  | httpRequestEntityTooLarge => ascii "Request Entity Too Large".toList
  | httpRequestUriTooLong => ascii "Request-URI Too Long".toList
  | httpUnsupportedMediaType => ascii "Unsupported Media Type".toList
  | httpRequestedRangeNotSatisfiable => ascii "Requested Range Not Satisfiable".toList
  | httpExpectationFailed => ascii "Expectation Failed".toList
  | httpInternalServerError => ascii "Internal Server Error".toList
  | httpNotImplemented => ascii "Not Implemented".toList
  | httpBadGateway => ascii "Bad Gateway".toList
  | httpServiceUnavailable => ascii "Service Unavailable".toList
  | httpGatewayTimeout => ascii "Gateway Timeout".toList
  | httpVersionNotSupported => ascii "HTTP Version Not Supported".toList

end HttpStatusCode

def kContentLength : List UInt8 := ascii "Content-Length".toList

def kContentType : List UInt8 := ascii "Content-Type".toList

/-- `class HttpServerResponseInfo`. -/
structure HttpServerResponseInfo where
  statusCode : HttpStatusCode
  headers : List (List UInt8 × List UInt8)
  body : List UInt8
  deriving DecidableEq, Repr

namespace HttpServerResponseInfo

/-- `HttpServerResponseInfo(status_code)`. -/
def new (statusCode : HttpStatusCode) : HttpServerResponseInfo := ⟨statusCode, [], []⟩

variable (r : HttpServerResponseInfo)

def addHeader (name value : List UInt8) : HttpServerResponseInfo := { r with headers := r.headers ++ [(name, value)] }

/-- `SetBody(body, content_type)`. -/
def setBody (body contentType : List UInt8) : Except Fault HttpServerResponseInfo := do
  dcheck (r.body = [])
  let r := { r with body }
  let r := r.addHeader kContentLength (decimal body.length)
  return r.addHeader kContentType contentType

/-- `CreateFor404()`. -/
def createFor404 : Except Fault HttpServerResponseInfo := (new .httpNotFound).setBody [] (ascii "text/html".toList)

/-- `CreateFor500(body)`. -/
def createFor500 (body : List UInt8) : Except Fault HttpServerResponseInfo :=
  (new .httpInternalServerError).setBody body (ascii "text/html".toList)

/-- `"HTTP/1.1 %d %s"`. -/
def statusLine (status : HttpStatusCode) : List UInt8 :=
  ascii "HTTP/1.1 ".toList ++ decimal status.code ++ 0x20 :: status.getHttpReasonPhrase

def serialize : List UInt8 :=
  let response := statusLine r.statusCode ++ ascii "\r\n".toList
  let response := r.headers.foldl
    (fun response header => response ++ (header.1 ++ 0x3A :: header.2 ++ ascii "\r\n".toList)) response
  response ++ ascii "\r\n".toList ++ r.body

end HttpServerResponseInfo

/-- A call on a response. -/
inductive ResponseCall where
  | addHeader (name value : List UInt8)
  | setBody (body contentType : List UInt8)
  deriving DecidableEq, Repr

def ResponseCall.exec : ResponseCall → HttpServerResponseInfo → Except Fault HttpServerResponseInfo
  | addHeader name value, r => .ok (r.addHeader name value)
  | setBody body contentType, r => r.setBody body contentType

/-- The response with a status after some calls. -/
def HttpServerResponseInfo.build (status : HttpStatusCode) (calls : List ResponseCall) :
    Except Fault HttpServerResponseInfo :=
  calls.foldlM (fun r c => c.exec r) (new status)

/-- `HttpRequestCodec::SendResponse(ih, response)`. -/
def IOHandler.sendResponse (h : IOHandler) (dcheckIsOn : Bool) (response : HttpServerResponseInfo) (r : SendResult) :
    Except Fault (IOHandler × List UInt8) :=
  h.sendInternal2 dcheckIsOn response.serialize r

end Zutils.Net
