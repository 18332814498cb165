/-
  ChaosController.Api.Message

  The messages that go to the API server and come back from it.

  A response with a code from 400 to 599 is a refusal. It says why in its body; a body that
  does not is put into the error as it is, with the code and its name as the status.
-/

import ChaosController.Api.Address
import ChaosController.Json.Decoding

namespace ChaosController

open Json

/-- The methods of messages. -/
inductive Method
  | get | post | patch | delete
deriving DecidableEq, Repr

/-- The name of a method. -/
def Method.text : Method → String
  | get => "GET"
  | post => "POST"
  | patch => "PATCH"
  | delete => "DELETE"

/-- A message to the API server. -/
structure Message where
  method : Method
  address : Address
  accept : Option String
  contentType : Option String
  /-- The body, unless it is empty. -/
  body : Option Json

/-- What comes back for a message. -/
inductive Response
  | answered (code : Nat) (body : String)
  /-- The message or its answer is lost. -/
  | lost (message : String)
deriving DecidableEq, Repr

/-- The name of a code for refusals. -/
def reasonPhrase? : Nat → Option String
  | 400 => some "Bad Request"
  | 401 => some "Unauthorized"
  | 402 => some "Payment Required"
  | 403 => some "Forbidden"
  | 404 => some "Not Found"
  | 405 => some "Method Not Allowed"
  | 406 => some "Not Acceptable"
  | 407 => some "Proxy Authentication Required"
  | 408 => some "Request Timeout"
  | 409 => some "Conflict"
  | 410 => some "Gone"
  | 411 => some "Length Required"
  | 412 => some "Precondition Failed"
  | 413 => some "Payload Too Large"
  | 414 => some "URI Too Long"
  | 415 => some "Unsupported Media Type"
  | 416 => some "Range Not Satisfiable"
  | 417 => some "Expectation Failed"
  | 418 => some "I'm a teapot"
  | 421 => some "Misdirected Request"
  | 422 => some "Unprocessable Entity"
  | 423 => some "Locked"
  | 424 => some "Failed Dependency"
  | 425 => some "Too Early"
  | 426 => some "Upgrade Required"
  | 428 => some "Precondition Required"
  | 429 => some "Too Many Requests"
  | 431 => some "Request Header Fields Too Large"
  | 451 => some "Unavailable For Legal Reasons"
  | 500 => some "Internal Server Error"
  | 501 => some "Not Implemented"
  | 502 => some "Bad Gateway"
  | 503 => some "Service Unavailable"
  | 504 => some "Gateway Timeout"
  | 505 => some "HTTP Version Not Supported"
  | 506 => some "Variant Also Negotiates"
  | 507 => some "Insufficient Storage"
  | 508 => some "Loop Detected"
  | 510 => some "Not Extended"
  | 511 => some "Network Authentication Required"
  | _ => none

/-- A code and its name. -/
def codeText (code : Nat) : String :=
  toString code ++ " " ++ (reasonPhrase? code).getD "<unknown status code>"

namespace ApiError

/-- Decodes a code. -/
def decodeCode (j : Json) : Decoded Int := decodeInt "u16" 0 65535 j

/-- The fields of a refusal. -/
def shape : Shape :=
  ⟨"struct ErrorResponse",
    [field "status" decodeString, field "message" decodeString, field "reason" decodeString,
      field "code" decodeCode]⟩

/-- Decodes a refusal. -/
def decode : (source : Source) → Json → Decoded ApiError :=
  decodeRecord shape fun parts => do
    let status ← shape.required parts 0 "status" decodeString
    let message ← optional parts 1 "message" "" decodeString
    let reason ← optional parts 2 "reason" "" decodeString
    let code ← shape.required parts 3 "code" decodeCode
    return ⟨status, message, reason, code.toNat⟩

/-- The refusal of a response with the given code and body. -/
def ofResponse (code : Nat) (body : String) : ApiError :=
  match decodeText decode body with
  | .ok e => e
  | .error _ => ⟨codeText code, quoted body, "Failed to parse error data", code⟩

end ApiError

/-- The body of a response, unless it is a refusal. -/
def Response.accepted : Response → Except ClusterError String
  | lost message => .error (.service message)
  | answered code body =>
    if 400 ≤ code ∧ code ≤ 599 then .error (.api (ApiError.ofResponse code body)) else .ok body

/-- Decodes the body of a response. -/
def decodeBody {α : Type} (decode : Source → Json → Decoded α) (body : String) :
    Except ClusterError α :=
  (decodeText decode body).mapError fun e => .malformedResponse e.message

end ChaosController
