import MernChat.Runtime.Postgres

/-!
# Errors

What a request can throw, and the response the error handler makes of it.

## Main definitions

* `AppError`, `Thrown`
* `ApiErrorResponse`, `errorHandler`
-/

namespace MernChat

inductive ErrorCode
  | VALIDATION_ERROR
  | UNAUTHENTICATED
  | NOT_FOUND
  | CONFLICT
  | INTERNAL_ERROR
  | INVALID_CREDENTIALS
  | RATE_LIMITED
  | RATE_LIMIT_UNAVAILABLE
deriving DecidableEq

/-- Texts keyed by the field they are about. -/
abbrev FieldErrors := List (JsString × JsString)

structure AppError where
  message : JsString
  statusCode : Nat
  code : ErrorCode
  details : Option FieldErrors := none
deriving DecidableEq

/-- A thrown value: an `AppError`, an error of the database with its SQLSTATE, or another
error. -/
inductive Thrown
  | app (error : AppError)
  | database (code : SqlState)
  | error (message : JsString)
deriving DecidableEq

/-- The body of an error response, without the id of the request. -/
structure ApiErrorResponse where
  statusCode : Nat
  error : JsString
  code : ErrorCode
  details : Option FieldErrors
deriving DecidableEq

/-- The `AppError` the handler takes a thrown value for. -/
def toAppError : Thrown → AppError
  | .app error => error
  | .database .unique_violation => ⟨js "Resource already exists", 409, .CONFLICT, none⟩
  | .database .foreign_key_violation =>
    ⟨js "Referenced resource was not found", 400, .VALIDATION_ERROR, none⟩
  | .database .invalid_text_representation =>
    ⟨js "Invalid resource identifier", 400, .VALIDATION_ERROR, none⟩
  | _ => ⟨js "Internal server error", 500, .INTERNAL_ERROR, none⟩

def errorHandler (error : Thrown) : ApiErrorResponse :=
  let appError := toAppError error
  { statusCode := appError.statusCode
    error := appError.message
    code := appError.code
    details := appError.details }

end MernChat
