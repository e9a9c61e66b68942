import Vynor.Contracts.Content
import Vynor.Iam.ActorContext

/-!
# The guards

Two guards stand before every handler.  `AuthGuard` verifies the bearer token and
resolves the actor, `PermissionGuard` compares the actor's permissions with those
the handler declares.  A public handler passes both.

The lookups of `resolveActorContext` are queries of their own, so each is a
function here and sees the tables as they are by then.
-/

namespace Vynor.Iam

/-! ## Errors -/

/-- `IamErrorCode`. -/
inductive ErrorCode where
  | authTokenMissing
  | authTokenExpired
  | authTokenInvalid
  /-- The codes of `ActorContextService`. -/
  | actor (code : IamErrorCode)
  | permissionDenied
deriving DecidableEq, Repr

/-- `IAM_ERROR_DEFINITIONS`: the status code and the default message. -/
def ErrorCode.definition : ErrorCode → Nat × String
  | .authTokenMissing =>
      (401, "Authentication required. Bearer token missing from Authorization header.")
  | .authTokenExpired =>
      (401, "Authentication token has expired. Please refresh your session.")
  | .authTokenInvalid =>
      (401, "Authentication token is invalid or signature verification failed.")
  | .actor .userAccountDisabled =>
      (403, "Your user account has been deactivated or disabled.")
  | .actor .membershipNotFound =>
      (403, "You do not have an active membership in the requested workspace.")
  | .actor .membershipInactive =>
      (403, "Your membership in this workspace has been suspended or deactivated.")
  | .actor .workspaceHeaderMissing =>
      (400, "Workspace context header (x-workspace-id or x-workspace-slug) is required.")
  | .actor .workspaceAccessDenied =>
      (403, "Access to the specified workspace is denied.")
  | .permissionDenied =>
      (403, "You do not have the required permission to perform this action.")

/-- The `details` of a denial. -/
structure Denial where
  required : List String
  missing : List String
  granted : List String
deriving DecidableEq, Repr

/-- `IamErrorResponse`. -/
structure ErrorResponse where
  statusCode : Nat
  code : ErrorCode
  message : String
  details : Option Denial := none
  correlationId : Option String
  timestamp : Date
deriving DecidableEq, Repr

/-- `buildHttpError`. -/
def buildHttpError (code : ErrorCode) (customMessage correlationId : Option String) (now : Date) :
    ErrorResponse where
  statusCode := code.definition.1
  code := code
  message := customMessage.getD code.definition.2
  correlationId := correlationId
  timestamp := now

/-! ## Tokens -/

/-- Why a token is refused. -/
inductive JwtFailure where
  | expired
  | other
deriving DecidableEq, Repr

/-- `JwtVerifierService`: the two ways to verify a token, each with the subject
among the claims. -/
structure JwtVerifier where
  withSecretKey : Date → String → Except JwtFailure (Option String)
  withRemoteJwks : Date → String → Except JwtFailure (Option String)

/-- `verify`.  An expired token is final. -/
def JwtVerifier.verify (J : JwtVerifier) (now : Date) (token : String) :
    Except (ErrorCode × String) (Option String) :=
  let expired := (ErrorCode.authTokenExpired,
    "Authentication token has expired. Please refresh your session.")
  if token = "" then .error (.authTokenMissing, "Authentication token is missing or empty")
  else
    match J.withSecretKey now token with
    | .ok sub => .ok sub
    | .error .expired => .error expired
    | .error .other =>
        match J.withRemoteJwks now token with
        | .ok sub => .ok sub
        | .error .expired => .error expired
        | .error .other =>
            .error (.authTokenInvalid,
              "Authentication token is invalid or signature verification failed.")

/-! ## `AuthGuard` -/

/-- The headers `AuthGuard` reads, and the correlation id that is with the request
by then. -/
structure Headers where
  authorization : Option String := none
  xCorrelationId : Option String := none
  xWorkspaceId : Option String := none
  xWorkspaceSlug : Option String := none
  correlationId : Option String := none
deriving DecidableEq, Repr

/-- The token of an `Authorization` header. -/
def bearerToken (authorization : Option String) : Option String :=
  (truthy authorization).bind fun header =>
    if "Bearer ".toList <+: header.toList then
      truthy (some (trim (String.ofList (header.toList.drop 7))))
    else none

/-- A request past the verification of its token. -/
structure Authentication where
  sub : Option String
  workspaceIdentifier : Option String
  correlationId : String
deriving DecidableEq, Repr

/-- `AuthGuard.canActivate` up to the actor.  `generated` is the id it makes where
none was sent. -/
def authenticate (J : JwtVerifier) (now : Date) (generated : String) (headers : Headers) :
    Except ErrorResponse Authentication :=
  match bearerToken headers.authorization with
  | none => .error (buildHttpError .authTokenMissing none headers.correlationId now)
  | some token =>
      let correlationId := (truthy headers.xCorrelationId).getD generated
      match J.verify now token with
      | .error (code, message) =>
          .error (buildHttpError code (some message) (some correlationId) now)
      | .ok sub =>
          .ok
            { sub := sub
              workspaceIdentifier :=
                (truthy headers.xWorkspaceId).or (truthy headers.xWorkspaceSlug)
              correlationId := correlationId }

/-- What the guard makes of an `IamException`. -/
def Authentication.refuse (auth : Authentication) (now : Date) (exception : IamException) :
    ErrorResponse :=
  buildHttpError (.actor exception.code) (some exception.message) (some auth.correlationId) now

/-! ## `PermissionGuard` -/

/-- `hasAllPermissions`. -/
def hasAllPermissions (grantedPermissions requiredPermissions : List String) : Bool :=
  grantedPermissions.contains "*" || requiredPermissions.all grantedPermissions.contains

/-- The metadata of a handler or of its class. -/
structure Metadata where
  isPublic : Option Bool := none
  requiredPermissions : Option (List String) := none
deriving DecidableEq, Repr

/-- `getAllAndOverride`: the handler before its class. -/
def Metadata.override (handler controller : Metadata) : Metadata where
  isPublic := handler.isPublic.or controller.isPublic
  requiredPermissions := handler.requiredPermissions.or controller.requiredPermissions

/-- `PermissionGuard.canActivate`, for the actor with the request. -/
def permit (metadata : Metadata) (actor : Option ActorContext) (correlationId : Option String)
    (now : Date) : Except ErrorResponse Unit :=
  if metadata.isPublic = some true then .ok ()
  else
    match metadata.requiredPermissions with
    | none => .ok ()
    | some [] => .ok ()
    | some requiredPermissions =>
        match actor with
        | none =>
            .error
              { statusCode := 401
                code := .authTokenMissing
                message := "Authentication context required before evaluating permissions."
                correlationId := correlationId
                timestamp := now }
        | some actor =>
            if hasAllPermissions actor.permissions requiredPermissions then .ok ()
            else
              let missing := requiredPermissions.filter fun p => !hasPermission actor.permissions p
              .error
                { statusCode := 403
                  code := .permissionDenied
                  message := "Forbidden: Lacking required permission(s) [" ++
                    ", ".intercalate missing ++ "]."
                  details := some ⟨requiredPermissions, missing, actor.permissions⟩
                  correlationId := correlationId
                  timestamp := now }

/-! ## Who passes -/

theorem hasAllPermissions_iff {grantedPermissions requiredPermissions : List String} :
    hasAllPermissions grantedPermissions requiredPermissions = true ↔
      ∀ p ∈ requiredPermissions, hasPermission grantedPermissions p = true := by
  unfold hasAllPermissions hasPermission
  cases hroot : grantedPermissions.contains "*" with
  | true => simp
  | false => simp

/-- A handler that is not public is only reached with the permissions it declares,
and where some are declared by an actor. -/
theorem hasPermission_of_permit {metadata : Metadata} {actor : ActorContext}
    {correlationId : Option String} {now : Date} {requiredPermissions : List String}
    (hprivate : metadata.isPublic ≠ some true)
    (hrequired : metadata.requiredPermissions = some requiredPermissions)
    (h : permit metadata (some actor) correlationId now = .ok ()) :
    ∀ p ∈ requiredPermissions, hasPermission actor.permissions p = true := by
  rw [permit, if_neg hprivate, hrequired] at h
  cases requiredPermissions with
  | nil => exact fun p hp => (List.not_mem_nil hp).elim
  | cons p rest =>
      simp only at h
      split at h
      next hall => exact hasAllPermissions_iff.mp hall
      next => cases h

end Vynor.Iam
