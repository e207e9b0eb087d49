import Egras.Security.Interface

/-!
# Service accounts and their API keys

The use cases on service accounts and keys, and their handlers. A handler that creates or lists
service accounts takes the organisation from its request and refuses another than the caller's own;
all others work in the organisation of the token.

`create_api_key` and `rotate_api_key` draw a fresh key and try again once when its prefix is taken;
their loops are `createApiKeyLoop` and `rotateApiKeyLoop`, by recursion on the attempts left.
-/

namespace Egras
open Lib

/-! ## Service accounts -/

/-- What a service account is created from. -/
structure CreateServiceAccountInput where
  organisationId : Uuid
  name : String
  description : Option String
  actorUserId : Uuid
  actorOrgId : Uuid
deriving DecidableEq

/-- Why no service account is created. -/
inductive CreateServiceAccountError
  | duplicateName
  | other
deriving DecidableEq

/-- The errors of the repository as the service tells them. -/
def mapCreateServiceAccountError : ServiceAccountRepoError → CreateServiceAccountError
  | .duplicateName => .duplicateName
  | .other _ => .other

/-- Create a service account with its user, and record it. -/
def createServiceAccount [CaseMapping] (input : CreateServiceAccountInput) :
    Action CreateServiceAccountError ServiceAccount := do
  let sa ← (createServiceAccountRows
    ⟨input.organisationId, input.name, input.description, input.actorUserId⟩).mapErr
    mapCreateServiceAccountError
  record (fun s => .serviceAccountCreated s input.actorUserId input.actorOrgId sa.userId
    input.organisationId input.name)
  return sa

/-- Which service account is deleted, and by whom. -/
structure DeleteServiceAccountInput where
  organisationId : Uuid
  saUserId : Uuid
  actorUserId : Uuid
  actorOrgId : Uuid
deriving DecidableEq

/-- Why no service account is deleted. -/
inductive DeleteServiceAccountError
  | notFound
  | other
deriving DecidableEq

/-- Delete a service account of the organisation, and record it. -/
def deleteServiceAccount (input : DeleteServiceAccountInput) :
    Action DeleteServiceAccountError Unit := do
  let removed ← (deleteServiceAccountRows input.organisationId input.saUserId).mapErr
    (fun _ => DeleteServiceAccountError.other)
  require removed .notFound
  record (fun s => .serviceAccountDeleted s input.actorUserId input.actorOrgId input.saUserId
    input.organisationId)

/-- Which page of service accounts is asked for. -/
structure ListServiceAccountsInput where
  organisationId : Uuid
  limit : ℕ
  after : Option Cursor
deriving DecidableEq

/-- A page of service accounts with the cursor of the next one. -/
structure ListServiceAccountsOutput where
  items : List ServiceAccount
  nextCursor : Option Cursor
deriving DecidableEq

/-- List the service accounts of an organisation, one more than asked to see if there are more. -/
def listServiceAccounts (input : ListServiceAccountsInput) :
    Action Anyhow ListServiceAccountsOutput := do
  let limit := max 1 (min input.limit 200)
  let items ← (listServiceAccountRows input.organisationId (limit + 1) input.after).mapErr
    (fun _ => Anyhow.mk)
  if limit < items.length then
    return ⟨items.dropLast, items.getLast?.map (fun extra => ⟨extra.createdAt, extra.userId⟩)⟩
  else return ⟨items, none⟩

/-! ## API keys -/

/-- A key that was just made, with its plaintext. -/
structure ApiKeyMaterial where
  key : ApiKey
  plaintext : String
deriving DecidableEq

/-- What an API key is created from. -/
structure CreateApiKeyInput where
  organisationId : Uuid
  saUserId : Uuid
  name : String
  scopes : Option (List String)
  actorUserId : Uuid
  actorOrgId : Uuid
deriving DecidableEq

/-- Why no API key is created. -/
inductive CreateApiKeyError
  | notFound
  | emptyScopes
  | prefixCollision
  | other
deriving DecidableEq

section Keys
variable [Argon2] [Base64]

/-- A fresh key and the row that stores it. -/
def freshKeyRow (saUserId : Uuid) (name : String) (scopes : Option (List String))
    (createdBy : Uuid) : Action Anyhow (GeneratedKey × NewApiKeyRow) := do
  let g ← generateKey
  let id ← nowV7
  let secretHash ← hashPassword g.secret
  return (g, ⟨id, saUserId, g.keyPrefix, secretHash, name, scopes, createdBy⟩)

/-- Draw a key until its prefix is free, for as many attempts as are left. -/
def createApiKeyLoop (input : CreateApiKeyInput) : ℕ → Action CreateApiKeyError ApiKeyMaterial
  | 0 => .fail .prefixCollision
  | attempts + 1 => do
    let (g, row) ← (freshKeyRow input.saUserId input.name input.scopes input.actorUserId).mapErr
      (fun _ => CreateApiKeyError.other)
    match ← (createKey row).attempt with
    | .ok key =>
      record (fun s => .apiKeyCreated s input.actorUserId input.actorOrgId input.saUserId
        input.organisationId key.id key.keyPrefix)
      return ⟨key, g.plaintext⟩
    | .error .duplicatePrefix => createApiKeyLoop input attempts
    | .error (.other _) => .fail .other

/-- Create a key for a service account of the organisation, and record it. -/
def createApiKey (input : CreateApiKeyInput) : Action CreateApiKeyError ApiKeyMaterial := do
  require (input.scopes ≠ some []) .emptyScopes
  let sa ← (findServiceAccount input.organisationId input.saUserId).mapErr
    (fun _ => CreateApiKeyError.other)
  require sa.isSome .notFound
  createApiKeyLoop input 2

/-- Which key is rotated, by whom and into what. -/
structure RotateApiKeyInput where
  organisationId : Uuid
  saUserId : Uuid
  oldKeyId : Uuid
  name : Option String
  scopes : Option (Option (List String))
  actorUserId : Uuid
  actorOrgId : Uuid
deriving DecidableEq

/-- Why no key is rotated. -/
inductive RotateApiKeyError
  | notFound
  | keyNotFound
  | emptyScopes
  | prefixCollision
  | other
deriving DecidableEq

/-- Draw the new key until its prefix is free, and replace the old one by it. -/
def rotateApiKeyLoop (input : RotateApiKeyInput) (newName : String)
    (newScopes : Option (List String)) : ℕ → Action RotateApiKeyError ApiKeyMaterial
  | 0 => .fail .prefixCollision
  | attempts + 1 => do
    let (g, row) ← (freshKeyRow input.saUserId newName newScopes input.actorUserId).mapErr
      (fun _ => RotateApiKeyError.other)
    match ← (rotateKey input.oldKeyId row).attempt with
    | .ok key =>
      record (fun s => .apiKeyRotated s input.actorUserId input.actorOrgId input.saUserId
        input.organisationId input.oldKeyId key.id)
      return ⟨key, g.plaintext⟩
    | .error .duplicatePrefix => rotateApiKeyLoop input newName newScopes attempts
    | .error (.other _) => .fail .other

/-- Replace a key of a service account of the organisation, and record it. -/
def rotateApiKey (input : RotateApiKeyInput) : Action RotateApiKeyError ApiKeyMaterial := do
  let sa ← (findServiceAccount input.organisationId input.saUserId).mapErr
    (fun _ => RotateApiKeyError.other)
  require sa.isSome .notFound
  match ← (findKey input.saUserId input.oldKeyId).mapErr (fun _ => RotateApiKeyError.other) with
  | none => .fail .keyNotFound
  | some old =>
    require (input.scopes ≠ some (some [])) .emptyScopes
    rotateApiKeyLoop input (input.name.getD old.name) (input.scopes.getD old.scopes) 2

end Keys

/-- Whose keys are listed. -/
structure ListApiKeysInput where
  organisationId : Uuid
  saUserId : Uuid
deriving DecidableEq

/-- Why no keys are listed. -/
inductive ListApiKeysError
  | notFound
  | other
deriving DecidableEq

/-- List the keys of a service account of the organisation. -/
def listApiKeys (input : ListApiKeysInput) : Action ListApiKeysError (List ApiKey) := do
  let sa ← (findServiceAccount input.organisationId input.saUserId).mapErr
    (fun _ => ListApiKeysError.other)
  require sa.isSome .notFound
  (listKeysBySa input.saUserId).mapErr (fun _ => ListApiKeysError.other)

/-- Which key is revoked, and by whom. -/
structure RevokeApiKeyInput where
  organisationId : Uuid
  saUserId : Uuid
  keyId : Uuid
  actorUserId : Uuid
  actorOrgId : Uuid
deriving DecidableEq

/-- Why no key is revoked. -/
inductive RevokeApiKeyError
  | notFound
  | keyNotFound
  | other
deriving DecidableEq

/-- Revoke a key of a service account of the organisation, and record it. -/
def revokeApiKey (input : RevokeApiKeyInput) : Action RevokeApiKeyError Unit := do
  let sa ← (findServiceAccount input.organisationId input.saUserId).mapErr
    (fun _ => RevokeApiKeyError.other)
  require sa.isSome .notFound
  let revoked ← (revokeKey input.saUserId input.keyId).mapErr (fun _ => RevokeApiKeyError.other)
  require revoked .keyNotFound
  record (fun s => .apiKeyRevoked s input.actorUserId input.actorOrgId input.saUserId
    input.organisationId input.keyId)

/-! ## Cursors -/

section Cursors
variable [Base64] [CursorText]

/-- The cursor as the next request brings it back. -/
def encodeSaCursor (c : Cursor) : String :=
  Base64.urlSafeEncode (CursorText.toRfc3339 c.createdAt ++ "|" ++ uuidToString c.id).toUTF8.toList

/-- The cursor that a request brings. -/
def decodeSaCursor (s : String) : Except AppError Cursor :=
  let invalid := AppError.fieldError "after" "invalid_cursor"
  match Base64.urlSafeDecode s with
  | none => .error invalid
  | some bytes =>
    match String.fromUTF8? ⟨bytes.toArray⟩ with
    | none => .error invalid
    | some raw =>
      match splitN 2 '|' raw.toList with
      | [ts, id] =>
        match CursorText.parseFromRfc3339 (String.ofList ts) with
        | none => .error invalid
        | some createdAt =>
          match CursorText.parseUuid (String.ofList id) with
          | none => .error invalid
          | some id => .ok ⟨createdAt, id⟩
      | _ => .error invalid

end Cursors

/-! ## Handlers -/

/-- The body of a creation. -/
structure CreateServiceAccountRequest where
  organisationId : Uuid
  name : String
  description : Option String
deriving DecidableEq

/-- A service account as it is answered. -/
structure ServiceAccountResponse where
  userId : Uuid
  organisationId : Uuid
  name : String
  description : Option String
  createdAt : Timestamp
  lastUsedAt : Option Timestamp
deriving DecidableEq

/-- The answer for a row. -/
def ServiceAccount.toResponse (sa : ServiceAccount) : ServiceAccountResponse :=
  ⟨sa.userId, sa.organisationId, sa.name, sa.description, sa.createdAt, sa.lastUsedAt⟩

/-- The query of a listing. -/
structure ListServiceAccountsQuery where
  organisationId : Uuid
  limit : Option ℕ
  after : Option String
deriving DecidableEq

/-- A page as it is answered. -/
structure ListServiceAccountsResponse where
  items : List ServiceAccountResponse
  nextCursor : Option String
deriving DecidableEq

/-- The body of a new key. -/
structure CreateApiKeyRequest where
  name : String
  scopes : Option (List String)
deriving DecidableEq

/-- A key as it is answered, without its secret. -/
structure ApiKeyResponse where
  id : Uuid
  keyPrefix : String
  name : String
  scopes : Option (List String)
  createdAt : Timestamp
  lastUsedAt : Option Timestamp
  revokedAt : Option Timestamp
deriving DecidableEq

/-- The answer for a row. -/
def ApiKey.toResponse (k : ApiKey) : ApiKeyResponse :=
  ⟨k.id, k.keyPrefix, k.name, k.scopes, k.createdAt, k.lastUsedAt, k.revokedAt⟩

/-- A new key as it is answered, with its plaintext this once. -/
structure CreateApiKeyResponse where
  key : ApiKeyResponse
  plaintext : String
deriving DecidableEq

/-- The body of a rotation. -/
structure RotateApiKeyRequest where
  name : Option String
  scopes : Option (List String)
deriving DecidableEq

/-- The answer for an error of the creation. -/
def CreateServiceAccountError.toApp : CreateServiceAccountError → AppError
  | .duplicateName => .conflict "service-account name already used in this organisation"
  | .other => .internal

/-- The answer for an error of the deletion. -/
def DeleteServiceAccountError.toApp : DeleteServiceAccountError → AppError
  | .notFound => .notFound "service_account"
  | .other => .internal

/-- The answer for an error of a new key. -/
def CreateApiKeyError.toApp : CreateApiKeyError → AppError
  | .notFound => .notFound "service_account"
  | .emptyScopes => .fieldError "scopes" "empty_scopes"
  | .prefixCollision => .internal
  | .other => .internal

/-- The answer for an error of the key listing. -/
def ListApiKeysError.toApp : ListApiKeysError → AppError
  | .notFound => .notFound "service_account"
  | .other => .internal

/-- The answer for an error of the revocation. -/
def RevokeApiKeyError.toApp : RevokeApiKeyError → AppError
  | .notFound => .notFound "api_key"
  | .keyNotFound => .notFound "api_key"
  | .other => .internal

/-- The answer for an error of the rotation. -/
def RotateApiKeyError.toApp : RotateApiKeyError → AppError
  | .notFound => .notFound "api_key"
  | .keyNotFound => .notFound "api_key"
  | .emptyScopes => .fieldError "scopes" "empty_scopes"
  | .prefixCollision => .internal
  | .other => .internal

/-- `POST /service-accounts`, for humans that may manage them, in the caller's organisation. -/
def postCreateServiceAccount [CaseMapping] (ext : Extensions) (req : CreateServiceAccountRequest) :
    Action AppError (ℕ × ServiceAccountResponse) := do
  Prog.ofExcept (requireHumanCaller ext)
  let caller ← Prog.ofExcept (authedCaller ext)
  Prog.ofExcept (perm .serviceAccountsManage ext)
  Prog.ofExcept (requireOwnOrganisation caller req.organisationId)
  let sa ← (createServiceAccount ⟨req.organisationId, req.name, req.description,
    caller.claims.sub, caller.claims.org⟩).mapErr CreateServiceAccountError.toApp
  return (201, sa.toResponse)

/-- `GET /service-accounts`, for humans that may read them. -/
def getListServiceAccounts [Base64] [CursorText] (ext : Extensions)
    (q : ListServiceAccountsQuery) : Action AppError ListServiceAccountsResponse := do
  Prog.ofExcept (requireHumanCaller ext)
  let caller ← Prog.ofExcept (authedCaller ext)
  Prog.ofExcept (perm .serviceAccountsRead ext)
  Prog.ofExcept (requireOwnOrganisation caller q.organisationId)
  let limit := max 1 (min (q.limit.getD 50) 200)
  let after ← Prog.ofExcept (match q.after with
    | none => .ok none
    | some s => (decodeSaCursor s).map some)
  let out ← (listServiceAccounts ⟨q.organisationId, limit, after⟩).mapErr
    (fun _ => AppError.internal)
  return ⟨out.items.map ServiceAccount.toResponse, out.nextCursor.map encodeSaCursor⟩

/-- `GET /service-accounts/:sa_id`, for humans that may read them. -/
def getServiceAccount (ext : Extensions) (saId : Uuid) : Action AppError ServiceAccountResponse := do
  Prog.ofExcept (requireHumanCaller ext)
  let caller ← Prog.ofExcept (authedCaller ext)
  Prog.ofExcept (perm .serviceAccountsRead ext)
  match ← (findServiceAccount caller.claims.org saId).mapErr (fun _ => AppError.internal) with
  | none => .fail (.notFound "service_account")
  | some sa => return sa.toResponse

/-- `DELETE /service-accounts/:sa_id`, for humans that may manage them. -/
def deleteServiceAccountHandler (ext : Extensions) (saId : Uuid) : Action AppError ℕ := do
  Prog.ofExcept (requireHumanCaller ext)
  let caller ← Prog.ofExcept (authedCaller ext)
  Prog.ofExcept (perm .serviceAccountsManage ext)
  (deleteServiceAccount ⟨caller.claims.org, saId, caller.claims.sub, caller.claims.org⟩).mapErr
    DeleteServiceAccountError.toApp
  return 204

/-- `POST /service-accounts/:sa_id/api-keys`, for humans that may manage them. -/
def postCreateApiKey [Argon2] [Base64] (ext : Extensions) (saId : Uuid)
    (req : CreateApiKeyRequest) : Action AppError (ℕ × CreateApiKeyResponse) := do
  Prog.ofExcept (requireHumanCaller ext)
  let caller ← Prog.ofExcept (authedCaller ext)
  Prog.ofExcept (perm .serviceAccountsManage ext)
  let mat ← (createApiKey ⟨caller.claims.org, saId, req.name, req.scopes, caller.claims.sub,
    caller.claims.org⟩).mapErr CreateApiKeyError.toApp
  return (201, ⟨mat.key.toResponse, mat.plaintext⟩)

/-- `GET /service-accounts/:sa_id/api-keys`, for humans that may read them. -/
def getListApiKeys (ext : Extensions) (saId : Uuid) : Action AppError (List ApiKeyResponse) := do
  Prog.ofExcept (requireHumanCaller ext)
  let caller ← Prog.ofExcept (authedCaller ext)
  Prog.ofExcept (perm .serviceAccountsRead ext)
  let keys ← (listApiKeys ⟨caller.claims.org, saId⟩).mapErr ListApiKeysError.toApp
  return keys.map ApiKey.toResponse

/-- `DELETE /service-accounts/:sa_id/api-keys/:key_id`, for humans that may manage them. -/
def deleteApiKeyHandler (ext : Extensions) (saId keyId : Uuid) : Action AppError ℕ := do
  Prog.ofExcept (requireHumanCaller ext)
  let caller ← Prog.ofExcept (authedCaller ext)
  Prog.ofExcept (perm .serviceAccountsManage ext)
  (revokeApiKey ⟨caller.claims.org, saId, keyId, caller.claims.sub, caller.claims.org⟩).mapErr
    RevokeApiKeyError.toApp
  return 204

/-- `POST /service-accounts/:sa_id/api-keys/:key_id/rotate`, for humans that may manage them. -/
def postRotateApiKey [Argon2] [Base64] (ext : Extensions) (saId keyId : Uuid)
    (req : RotateApiKeyRequest) : Action AppError (ℕ × CreateApiKeyResponse) := do
  Prog.ofExcept (requireHumanCaller ext)
  let caller ← Prog.ofExcept (authedCaller ext)
  Prog.ofExcept (perm .serviceAccountsManage ext)
  let mat ← (rotateApiKey ⟨caller.claims.org, saId, keyId, req.name, req.scopes.map some,
    caller.claims.sub, caller.claims.org⟩).mapErr RotateApiKeyError.toApp
  return (201, ⟨mat.key.toResponse, mat.plaintext⟩)

end Egras
