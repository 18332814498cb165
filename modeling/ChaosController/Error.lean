/-
  ChaosController.Error

  What can go wrong in the controller, and what can go wrong in talking to the cluster.

  Errors name the experiment they concern wherever there is one. An error is retryable
  unless only a change to the experiment can mend it.
-/

import ChaosController.Duration.Shortform
import ChaosController.Text.Quoted

namespace ChaosController

/-! ## Errors of the cluster -/

/-- The refusal of a request by the API server. -/
structure ApiError where
  status : String
  message : String
  reason : String
  code : Nat
deriving DecidableEq, Repr

/-- The wording of a refusal, with all of its parts in brackets. -/
def ApiError.text (e : ApiError) : String :=
  e.message ++ ": " ++ e.reason ++ " (ErrorResponse \x7b status: " ++ quoted e.status ++
    ", message: " ++ quoted e.message ++ ", reason: " ++ quoted e.reason ++ ", code: " ++
    toString e.code ++ " \x7d)"

/-- Why a request cannot be built. -/
inductive RequestError
  | emptyName
  | invalidAddress
  | addressTooLong
deriving DecidableEq, Repr

/-- The wording of an error. -/
def RequestError.message : RequestError → String
  | emptyName => "failed to validate request: A non-empty name is required"
  | invalidAddress => "failed to build request: invalid uri character"
  | addressTooLong => "failed to build request: uri too long"

/-- Why a call to the cluster fails. -/
inductive ClusterError
  /-- The API server refuses the request. -/
  | api (response : ApiError)
  /-- The request or its response is lost. -/
  | service (message : String)
  /-- The response does not hold what was asked for. -/
  | malformedResponse (message : String)
  /-- The request cannot be built. -/
  | invalidRequest (cause : RequestError)
  | tlsRequired
  | lineBreakMissing
deriving DecidableEq, Repr

/-- The wording of an error. -/
def ClusterError.message : ClusterError → String
  | api response => "ApiError: " ++ response.text
  | service message => "ServiceError: " ++ message
  | malformedResponse message => "Error deserializing response: " ++ message
  | invalidRequest cause => "Failed to build request: " ++ cause.message
  | tlsRequired => "TLS required but no TLS stack selected"
  | lineBreakMissing => "Error finding newline character"

/-- A client error, other than a conflict or a request to slow down, stays one when the
    request is repeated. -/
def ClusterError.isPermanent : ClusterError → Bool
  | api response =>
    400 ≤ response.code && response.code < 500 && response.code != 409 && response.code != 429
  | _ => false

/-! ## Errors of the controller -/

/-- What can go wrong in the controller. -/
inductive Error
  | cluster (cause : ClusterError)
  /-- The spec of an experiment is invalid. -/
  | validation (experiment message : String)
  /-- A status was written to a record that had changed since it was read. -/
  | conflict (experiment : String)
  /-- Pods could not be listed or disrupted. -/
  | attack (experiment attack message : String)
  | serialization (message : String)
  /-- An invocation took longer than it may. -/
  | timeout (experiment : String) (deadline : Duration)
  | internal (context message : String)
deriving DecidableEq, Repr

namespace Error

/-- The wording of an error. -/
def message : Error → String
  | cluster cause => "kubernetes error: " ++ cause.message
  | validation experiment message => "validation error for " ++ experiment ++ ": " ++ message
  | conflict experiment =>
    "status conflict for " ++ experiment ++ ": record changed since it was read"
  | attack experiment kind message =>
    "attack error [" ++ kind ++ "] for " ++ experiment ++ ": " ++ message
  | serialization message => "serialization error: " ++ message
  | timeout experiment deadline =>
    "reconcile of " ++ experiment ++ " timed out after " ++ deadline.shortform
  | internal context message => "internal error [" ++ context ++ "]: " ++ message

/-- Whether the same work may succeed later without a change to the experiment. -/
def isRetryable : Error → Bool
  | cluster cause => !cause.isPermanent
  | validation _ _ | serialization _ => false
  | conflict _ | attack _ _ _ | timeout _ _ | internal _ _ => true

/-- The experiment an error concerns. -/
def experiment? : Error → Option String
  | validation e _ | conflict e | attack e _ _ | timeout e _ => some e
  | cluster _ | serialization _ | internal _ _ => none

/-- The context of an error that has none. -/
def unknownContext : String := "unknown"

/-- The error of a failed status write: the code 409 says that the record has changed. -/
def ofStatusWrite (experiment : String) : ClusterError → Error
  | .api response =>
    if response.code = 409 then conflict experiment else cluster (.api response)
  | cause => cluster cause

end Error

end ChaosController
