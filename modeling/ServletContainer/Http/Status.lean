namespace ServletContainer

/-!
# Status codes

A response carries its status as a bare number; `StatusCode` names the codes with a reason phrase.
-/

/-- The status codes that have a reason phrase. -/
inductive StatusCode where
  | continue_
  | ok
  | created
  | accepted
  | noContent
  | movedPermanently
  | found
  | seeOther
  | notModified
  | temporaryRedirect
  | permanentRedirect
  | badRequest
  | unauthorized
  | forbidden
  | notFound
  | methodNotAllowed
  | requestTimeout
  | conflict
  | gone
  | lengthRequired
  | payloadTooLarge
  | uriTooLong
  | unsupportedMediaType
  | tooManyRequests
  | requestHeaderFieldsTooLarge
  | internalServerError
  | notImplemented
  | badGateway
  | serviceUnavailable
  | gatewayTimeout
  | httpVersionNotSupported
  deriving DecidableEq, Repr

namespace StatusCode

/-- Every status code, ascending. -/
def all : List StatusCode := [
  .continue_, .ok, .created, .accepted, .noContent, .movedPermanently, .found, .seeOther, .notModified,
  .temporaryRedirect, .permanentRedirect, .badRequest, .unauthorized, .forbidden, .notFound,
  .methodNotAllowed, .requestTimeout, .conflict, .gone, .lengthRequired, .payloadTooLarge, .uriTooLong,
  .unsupportedMediaType, .tooManyRequests, .requestHeaderFieldsTooLarge, .internalServerError,
  .notImplemented, .badGateway, .serviceUnavailable, .gatewayTimeout, .httpVersionNotSupported]

/-- The number of a status code. -/
def code : StatusCode → Nat
  | .continue_ => 100
  | .ok => 200
  | .created => 201
  | .accepted => 202
  | .noContent => 204
  | .movedPermanently => 301
  | .found => 302
  | .seeOther => 303
  | .notModified => 304
  | .temporaryRedirect => 307
  | .permanentRedirect => 308
  | .badRequest => 400
  | .unauthorized => 401
  | .forbidden => 403
  | .notFound => 404
  | .methodNotAllowed => 405
  | .requestTimeout => 408
  | .conflict => 409
  | .gone => 410
  | .lengthRequired => 411
  | .payloadTooLarge => 413
  | .uriTooLong => 414
  | .unsupportedMediaType => 415
  | .tooManyRequests => 429
  | .requestHeaderFieldsTooLarge => 431
  | .internalServerError => 500
  | .notImplemented => 501
  | .badGateway => 502
  | .serviceUnavailable => 503
  | .gatewayTimeout => 504
  | .httpVersionNotSupported => 505

/-- The name of a status code and the reason phrase of the status line. -/
def nameAndReason : StatusCode → String × String
  | .continue_ => ("Continue", "Continue")
  | .ok => ("Ok", "OK")
  | .created => ("Created", "Created")
  | .accepted => ("Accepted", "Accepted")
  | .noContent => ("NoContent", "No Content")
  | .movedPermanently => ("MovedPermanently", "Moved Permanently")
  | .found => ("Found", "Found")
  | .seeOther => ("SeeOther", "See Other")
  | .notModified => ("NotModified", "Not Modified")
  | .temporaryRedirect => ("TemporaryRedirect", "Temporary Redirect")
  | .permanentRedirect => ("PermanentRedirect", "Permanent Redirect")
  | .badRequest => ("BadRequest", "Bad Request")
  | .unauthorized => ("Unauthorized", "Unauthorized")
  | .forbidden => ("Forbidden", "Forbidden")
  | .notFound => ("NotFound", "Not Found")
  | .methodNotAllowed => ("MethodNotAllowed", "Method Not Allowed")
  | .requestTimeout => ("RequestTimeout", "Request Timeout")
  | .conflict => ("Conflict", "Conflict")
  | .gone => ("Gone", "Gone")
  | .lengthRequired => ("LengthRequired", "Length Required")
  | .payloadTooLarge => ("PayloadTooLarge", "Content Too Large")
  | .uriTooLong => ("UriTooLong", "URI Too Long")
  | .unsupportedMediaType => ("UnsupportedMediaType", "Unsupported Media Type")
  | .tooManyRequests => ("TooManyRequests", "Too Many Requests")
  | .requestHeaderFieldsTooLarge => ("RequestHeaderFieldsTooLarge", "Request Header Fields Too Large")
  | .internalServerError => ("InternalServerError", "Internal Server Error")
  | .notImplemented => ("NotImplemented", "Not Implemented")
  | .badGateway => ("BadGateway", "Bad Gateway")
  | .serviceUnavailable => ("ServiceUnavailable", "Service Unavailable")
  | .gatewayTimeout => ("GatewayTimeout", "Gateway Timeout")
  | .httpVersionNotSupported => ("HttpVersionNotSupported", "HTTP Version Not Supported")

/-- The name of a status code. -/
def name (s : StatusCode) : String := s.nameAndReason.1

/-- The reason phrase that the status line shows. -/
def reason (s : StatusCode) : String := s.nameAndReason.2

/-- The status code with a given number. -/
def ofCode? (n : Nat) : Option StatusCode := all.find? fun s => s.code == n

theorem ofCode?_code (s : StatusCode) : ofCode? s.code = some s := by cases s <;> rfl

theorem code_of_ofCode? {n : Nat} {s : StatusCode} (h : ofCode? n = some s) : s.code = n := by
  simpa using List.find?_some h

/-- Whether a code reports a failure of the client or of the server. -/
def isError (s : StatusCode) : Bool := 400 ≤ s.code

/-- The number and the reason phrase. -/
def display (s : StatusCode) : String := toString s.code ++ " " ++ s.reason

end StatusCode

end ServletContainer
