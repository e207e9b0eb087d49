import Mathlib.Data.Nat.Notation

/-!
# Application errors

The errors that handlers answer with and their reading as an RFC 7807 problem: slug, status, title
and detail. The texts are those of the source. An internal error keeps no cause, since none leaves
the service.
-/

namespace Egras

/-- Canonical error slugs. -/
inductive ErrorSlug
  | validationInvalidRequest
  | authUnauthenticated
  | authInvalidCredentials
  | permissionDenied
  | requiresUserCredentials
  | resourceNotFound
  | resourceConflict
  | userNoOrganisation
  | featureUnknown
  | featureNotSelfService
  | featureInvalidValue
  | internalError
deriving DecidableEq

/-- The text of a slug. -/
def ErrorSlug.asStr : ErrorSlug → String
  | .validationInvalidRequest => "validation.invalid_request"
  | .authUnauthenticated => "auth.unauthenticated"
  | .authInvalidCredentials => "auth.invalid_credentials"
  | .permissionDenied => "permission.denied"
  | .requiresUserCredentials => "auth.requires_user_credentials"
  | .resourceNotFound => "resource.not_found"
  | .resourceConflict => "resource.conflict"
  | .userNoOrganisation => "user.no_organisation"
  | .featureUnknown => "feature.unknown"
  | .featureNotSelfService => "feature.not_self_service"
  | .featureInvalidValue => "feature.invalid_value"
  | .internalError => "internal.error"

/-- An error of a handler, before it becomes a response. -/
inductive AppError
  | validation (errors : List (String × List String))
  | unauthenticated (reason : String)
  | invalidCredentials
  | permissionDenied (code : String)
  | requiresUserCredentials
  | notFound (resource : String)
  | conflict (reason : String)
  | userNoOrganisation
  | featureUnknown
  | featureNotSelfService
  | featureInvalidValue (reason : String)
  | internal
deriving DecidableEq

namespace AppError

/-- The slug of an error. -/
def slug : AppError → ErrorSlug
  | .validation _ => .validationInvalidRequest
  | .unauthenticated _ => .authUnauthenticated
  | .invalidCredentials => .authInvalidCredentials
  | .permissionDenied _ => .permissionDenied
  | .requiresUserCredentials => .requiresUserCredentials
  | .notFound _ => .resourceNotFound
  | .conflict _ => .resourceConflict
  | .userNoOrganisation => .userNoOrganisation
  | .featureUnknown => .featureUnknown
  | .featureNotSelfService => .featureNotSelfService
  | .featureInvalidValue _ => .featureInvalidValue
  | .internal => .internalError

/-- The status that an error is answered with. -/
def httpStatus : AppError → ℕ
  | .validation _ => 400
  | .unauthenticated _ => 401
  | .invalidCredentials => 401
  | .permissionDenied _ => 403
  | .requiresUserCredentials => 403
  | .notFound _ => 404
  | .conflict _ => 409
  | .userNoOrganisation => 403
  | .featureUnknown => 404
  | .featureNotSelfService => 403
  | .featureInvalidValue _ => 400
  | .internal => 500

/-- The title of an error. -/
def title (e : AppError) : String :=
  match e.slug with
  | .validationInvalidRequest => "Invalid request"
  | .authUnauthenticated => "Unauthenticated"
  | .authInvalidCredentials => "Invalid credentials"
  | .permissionDenied => "Permission denied"
  | .requiresUserCredentials => "Requires user credentials"
  | .resourceNotFound => "Not found"
  | .resourceConflict => "Conflict"
  | .userNoOrganisation => "User has no organisation"
  | .featureUnknown => "Unknown feature"
  | .featureNotSelfService => "Feature not self-service"
  | .featureInvalidValue => "Invalid feature value"
  | .internalError => "Internal error"

/-- What is told about an error. -/
def detail : AppError → String
  | .validation _ => "One or more fields failed validation."
  | .unauthenticated reason => "Authentication required (" ++ reason ++ ")."
  | .invalidCredentials => "Invalid username or password."
  | .permissionDenied code => "missing permission: " ++ code
  | .requiresUserCredentials =>
    "this endpoint requires user credentials and cannot be called with an API key"
  | .notFound resource => resource ++ " was not found."
  | .conflict reason => reason
  | .userNoOrganisation => "The user does not belong to any organisation."
  | .featureUnknown => "No feature with the given slug exists."
  | .featureNotSelfService => "This flag is not self-service; operator privileges required."
  | .featureInvalidValue reason => "Value does not match declared type: " ++ reason ++ "."
  | .internal => "An internal error occurred."

/-- The problem body of an error response. -/
structure ErrorBody where
  typeUri : String
  title : String
  status : ℕ
  detail : String
  errors : Option (List (String × List String))
deriving DecidableEq

/-- The body that an error is answered with. -/
def intoResponse (e : AppError) : ErrorBody where
  typeUri := "https://egras.dev/errors/" ++ e.slug.asStr
  title := e.title
  status := e.httpStatus
  detail := e.detail
  errors :=
    match e with
    | .validation errors => some errors
    | _ => none

/-- A validation error about one field. -/
def fieldError (field code : String) : AppError := .validation [(field, [code])]

end AppError
end Egras
