import Egras.Auth.Permissions
import Egras.Db.Constraints
import Egras.Security.Secrets
import Mathlib.Data.List.Sort

/-!
# Users, service accounts and API keys in the database

The statements of the security repositories. A repository function is a sequence of statements or
one transaction, with its errors mapped as the source maps them.

Rust → Lean naming: `find_by_username_or_email` → `findByUsernameOrEmail`, `create_and_add_to_org` →
`createAndAddToOrg`, `list_memberships_for_users` → `listMembershipsForUsers`,
`find_active_by_prefix` → `findActiveByPrefix`, `is_revoked` → `isRevoked`; the functions of the
service-account and API-key repositories carry the table in their name (`findServiceAccount`,
`revokeKey`).
-/

namespace Egras
open Lib

/-! ## Users -/

/-- An organisation a user belongs to, with its roles there. -/
structure UserMembership where
  orgId : Uuid
  orgName : String
  roleCodes : List String
  joinedAt : Timestamp
deriving DecidableEq

namespace Tables

/-- The role rows of a user in an organisation whose role is stored. -/
def knownRolesOf (t : Tables) (userId organisationId : Uuid) : List UserOrganisationRole :=
  (t.rolesOf userId organisationId).filter (fun r => t.hasRoleId r.roleId)

/-- `array_agg(DISTINCT r.code)`. -/
def roleCodesOf (t : Tables) (rows : List UserOrganisationRole) : List String :=
  ((rows.filterMap (fun r => (t.roles.find? r.roleId).map Role.code)).dedup).insertionSort (· ≤ ·)

/-- The membership of a user in an organisation, when there is one. -/
def membership (t : Tables) (userId : Uuid) (o : Organisation) : Option UserMembership :=
  match t.knownRolesOf userId o.id with
  | [] => none
  | r :: rs => some
    { orgId := o.id
      orgName := o.name
      roleCodes := t.roleCodesOf (r :: rs)
      joinedAt := rs.foldl (fun m q => min m q.createdAt) r.createdAt }

/-- The memberships of a user, oldest first. -/
def membershipsOf (t : Tables) (userId : Uuid) : List UserMembership :=
  (t.organisations.rows.filterMap (t.membership userId)).insertionSort
    (fun a b => a.joinedAt ≤ b.joinedAt)

/-- The first role with a code. -/
def roleByCode (t : Tables) (code : String) : Option Role :=
  t.roles.rows.find? (fun r => r.code = code)

/-- Whether a user has a role row in an organisation. -/
def isMember (t : Tables) (userId organisationId : Uuid) : Bool :=
  t.userOrganisationRoles.any (fun r => r.userId = userId && r.organisationId = organisationId)

end Tables

/-- Why no user is created with its membership. -/
inductive CreateAndAddError
  | duplicateUsername (username : String)
  | duplicateEmail (email : String)
  | orgNotFound
  | unknownRoleCode (code : String)
  | db (e : SqlError)
deriving DecidableEq

/-- `SELECT ... FROM users WHERE username = $1 OR email = $1 LIMIT 1`. -/
def findByUsernameOrEmail (s : String) : Action SqlError (Option User) :=
  query (fun w => w.tables.users.rows.find? (fun u => u.username = s || u.email = s))

/-- `SELECT ... FROM users WHERE id = $1`. -/
def findById (id : Uuid) : Action SqlError (Option User) := query (fun w => w.tables.users.find? id)

/-- A user keeps its id with a new password. -/
lemma setPasswordHash_id (now : Timestamp) (hash : String) (u : User) :
    User.id { u with passwordHash := hash, updatedAt := now } = u.id := rfl

/-- `UPDATE users SET password_hash = $1, updated_at = NOW() WHERE id = $2`. -/
def updatePasswordHash (userId : Uuid) (newHash : String) : Action SqlError Unit :=
  execute (fun w => .ok ((), { w.tables with
    users := w.tables.users.updateWhere (fun u => u.id = userId)
      (fun u => { u with passwordHash := newHash, updatedAt := w.now })
      (setPasswordHash_id w.now newHash) }))

/-- `SELECT` the memberships of a user. -/
def listMemberships (userId : Uuid) : Action SqlError (List UserMembership) :=
  query (fun w => w.tables.membershipsOf userId)

/-- Whether a row comes after a position in ascending `(created_at, id)` order. -/
def Cursor.before (c : Cursor) (createdAt : Timestamp) (id : Uuid) : Bool :=
  c.createdAt < createdAt || (c.createdAt = createdAt && c.id < id)

/-- Whether a row comes after a position in descending `(created_at, id)` order. -/
def Cursor.after (c : Cursor) (createdAt : Timestamp) (id : Uuid) : Bool :=
  createdAt < c.createdAt || (createdAt = c.createdAt && id < c.id)

/-- `format!("%{query}%")`, the pattern that a query is matched with. -/
def queryPattern (q : String) : String := "%" ++ q ++ "%"

/-- The database can hold the pattern of a query exactly when it can hold the query. -/
lemma any_hasNul_queryPattern {q : Option String} :
    (q.map queryPattern).toList.any hasNul = q.any hasNul := by
  have hpattern : ∀ s, hasNul (queryPattern s) = hasNul s := by
    intro s
    unfold hasNul queryPattern
    rw [String.toList_append, String.toList_append]
    show (['%'] ++ s.toList ++ ['%']).contains (Char.ofNat 0) = _
    simp
  cases q with
  | none => rfl
  | some s => simp [hpattern]

section CaseMapping
variable [CaseMapping]

/-- `text ILIKE pattern`. -/
def ilike (text pattern : String) : Bool :=
  like (CaseMapping.lower pattern).toList (CaseMapping.lower text).toList

/-- The eight `SELECT`s of `list_users`: an organisation, a query and a position each narrow the
rows when they are given. The pattern is a parameter of the statement. -/
def listUserRows (orgId : Option Uuid) (q : Option String) (cursor : Option Cursor) (limit : ℕ) :
    Action SqlError (List User) :=
  queryWith (q.map queryPattern).toList (fun w =>
    let rows := w.tables.users.select (fun u =>
      orgId.all (fun org => w.tables.isMember u.id org) &&
      q.all (fun s => ilike u.username (queryPattern s) || ilike u.email (queryPattern s)) &&
      cursor.all (fun c => c.before u.createdAt u.id))
    (rows.insertionSort (fun a b => a.createdAt < b.createdAt ∨
      a.createdAt = b.createdAt ∧ a.id ≤ b.id)).take limit)

/-- The memberships of several users, by user. -/
def listMembershipsForUsers (userIds : List Uuid) : Action SqlError (List (Uuid × UserMembership)) :=
  if userIds.isEmpty then return []
  else query (fun w => (userIds.dedup.insertionSort (· ≤ ·)).flatMap (fun u =>
    (w.tables.membershipsOf u).map (fun m => (u, m))))

/-- The taken name is told by its constraint. -/
def mapInsertUserError (username email : String) : SqlError → CreateAndAddError
  | .database "23505" "users_username_key" => .duplicateUsername username
  | .database "23505" "users_email_key" => .duplicateEmail email
  | e => .db e

/-- A missing organisation is told by its foreign key. -/
def mapInsertMembershipError : SqlError → CreateAndAddError
  | .database "23503" _ => .orgNotFound
  | e => .db e

/-- `SELECT id FROM roles WHERE code = $1`. -/
def findRoleId (code : String) : Action SqlError (Option Uuid) :=
  query (fun w => (w.tables.roleByCode code).map Role.id)

/-- Create a user and add it to an organisation, in one transaction. -/
def createAndAddToOrg (username email passwordHash : String) (orgId : Uuid) (roleCode : String) :
    Action CreateAndAddError User :=
  transaction .db (do
    let id ← nowV7
    let row ← (execute (fun w => do
      let u : User := ⟨id, username, email, passwordHash, .human, w.now, w.now⟩
      let t ← w.tables.insertUser u
      return (u, t))).mapErr (mapInsertUserError username email)
    match ← (findRoleId roleCode).mapErr .db with
    | none => .fail (.unknownRoleCode roleCode)
    | some roleId =>
      (execute (fun w => do
        let t ← w.tables.insertUserOrganisationRole ⟨row.id, orgId, roleId, w.now⟩
        return ((), t))).mapErr mapInsertMembershipError
      return row)

/-! ## Service accounts -/

/-- Why the repository refuses a service account. -/
inductive ServiceAccountRepoError
  | duplicateName
  | other (e : SqlError)
deriving DecidableEq

/-- What a service account row is made from. -/
structure NewServiceAccount where
  organisationId : Uuid
  name : String
  description : Option String
  createdBy : Uuid
deriving DecidableEq

/-- Every unique constraint means a taken name. -/
def mapInsertServiceAccountError : SqlError → ServiceAccountRepoError
  | .database "23505" _ => .duplicateName
  | e => .other e

/-- Insert the `users` row of a service account and its `service_accounts` row, in one
transaction. -/
def createServiceAccountRows (req : NewServiceAccount) :
    Action ServiceAccountRepoError ServiceAccount :=
  transaction .other (do
    let userId ← nowV7
    let synthUsername := "sa_" ++ uuidToString userId
    let synthEmail := "sa_" ++ uuidToString userId ++ "@service-account.invalid"
    (execute (fun w => do
      let t ← w.tables.insertUser
        ⟨userId, synthUsername, synthEmail, "!", .serviceAccount, w.now, w.now⟩
      return ((), t))).mapErr .other
    (execute (fun w => do
      let sa : ServiceAccount :=
        ⟨userId, req.organisationId, req.name, req.description, w.now, req.createdBy, none⟩
      let t ← w.tables.insertServiceAccount sa
      return (sa, t))).mapErr mapInsertServiceAccountError)

end CaseMapping

/-- The service account of an organisation with an identifier. -/
def Tables.serviceAccount (t : Tables) (organisationId saUserId : Uuid) : Option ServiceAccount :=
  (t.serviceAccounts.find? saUserId).filter (fun sa => sa.organisationId = organisationId)

/-- What a lookup of a service account finds. -/
lemma Tables.serviceAccount_eq_some {t : Tables} {organisationId saUserId : Uuid}
    {sa : ServiceAccount} :
    t.serviceAccount organisationId saUserId = some sa ↔
      sa ∈ t.serviceAccounts ∧ sa.userId = saUserId ∧ sa.organisationId = organisationId := by
  unfold serviceAccount
  rw [Option.filter_eq_some_iff, Table.find?_eq_some, and_assoc, decide_eq_true_iff]

/-- `SELECT ... FROM service_accounts WHERE organisation_id = $1 AND user_id = $2`. -/
def findServiceAccount (organisationId saUserId : Uuid) :
    Action SqlError (Option ServiceAccount) :=
  query (fun w => w.tables.serviceAccount organisationId saUserId)

/-- `SELECT ... FROM service_accounts WHERE organisation_id = $1 ... LIMIT`. -/
def listServiceAccountRows (organisationId : Uuid) (limit : ℕ) (after : Option Cursor) :
    Action SqlError (List ServiceAccount) :=
  query (fun w =>
    let rows := w.tables.serviceAccounts.select (fun sa =>
      sa.organisationId = organisationId && after.all (fun c => c.before sa.createdAt sa.userId))
    (rows.insertionSort (fun a b => a.createdAt < b.createdAt ∨
      a.createdAt = b.createdAt ∧ a.userId ≤ b.userId)).take limit)

/-- Delete the `users` row of a service account of an organisation, with all that cascades. -/
def deleteServiceAccountRows (organisationId saUserId : Uuid) : Action SqlError Bool := do
  match ← findServiceAccount organisationId saUserId with
  | none => return false
  | some _ =>
    execute (fun w =>
      if w.tables.users.any (fun u => u.id = saUserId && u.kind = .serviceAccount) then do
        let t ← w.tables.deleteUser saUserId
        return (true, t)
      else .ok (false, w.tables))

/-- Whether a last use has to be written again: never, or more than 60 seconds ago. -/
def staleUse (lastUsedAt : Option Timestamp) (now : Timestamp) : Bool :=
  lastUsedAt.all (fun last => last < now - 60000000)

/-- A service account keeps its id when it is used. -/
lemma touchServiceAccount_key (now : Timestamp) (sa : ServiceAccount) :
    ServiceAccount.userId { sa with lastUsedAt := some now } = sa.userId := rfl

/-- `UPDATE service_accounts SET last_used_at = NOW() ...`. -/
def touchServiceAccount (saUserId : Uuid) : Action SqlError Unit :=
  execute (fun w => .ok ((), { w.tables with
    serviceAccounts := w.tables.serviceAccounts.updateWhere
      (fun sa => sa.userId = saUserId && staleUse sa.lastUsedAt w.now)
      (fun sa => { sa with lastUsedAt := some w.now }) (touchServiceAccount_key w.now) }))

/-! ## API keys -/

/-- Why the repository refuses a key. -/
inductive ApiKeyRepoError
  | duplicatePrefix
  | other (e : SqlError)
deriving DecidableEq

/-- What a key row is made from. -/
structure NewApiKeyRow where
  id : Uuid
  serviceAccountUserId : Uuid
  keyPrefix : String
  secretHash : String
  name : String
  scopes : Option (List String)
  createdBy : Uuid
deriving DecidableEq

/-- A key with its hash and the home organisation of its service account. -/
structure ApiKeyRow where
  key : ApiKey
  secretHash : String
  organisationId : Uuid
deriving DecidableEq

/-- Every unique constraint means a taken prefix. -/
def mapInsertKeyError : SqlError → ApiKeyRepoError
  | .database "23505" _ => .duplicatePrefix
  | e => .other e

/-- The row that `insert_key` writes. -/
def NewApiKeyRow.record (new : NewApiKeyRow) (now : Timestamp) : ApiKeyRecord where
  id := new.id
  serviceAccountUserId := new.serviceAccountUserId
  keyPrefix := new.keyPrefix
  name := new.name
  scopes := new.scopes
  createdAt := now
  createdBy := new.createdBy
  lastUsedAt := none
  revokedAt := none
  secretHash := new.secretHash

/-- `INSERT INTO api_keys`. -/
def insertKey (new : NewApiKeyRow) : Action ApiKeyRepoError ApiKey :=
  (execute (fun w => do
    let t ← w.tables.insertApiKey (new.record w.now)
    return ((new.record w.now).toApiKey, t))).mapErr mapInsertKeyError

/-- Take a connection and insert a key on it. -/
def createKey (new : NewApiKeyRow) : Action ApiKeyRepoError ApiKey := do
  (query (fun _ => ())).mapErr .other
  insertKey new

/-- The active key with a prefix, with the home organisation of its service account. -/
def Tables.activeByPrefix (t : Tables) (keyPrefix : String) : Option ApiKeyRow :=
  (t.apiKeys.select (fun k => k.keyPrefix = keyPrefix && k.revokedAt = none)).findSome? (fun k =>
    (t.serviceAccounts.find? k.serviceAccountUserId).map (fun sa =>
      ⟨k.toApiKey, k.secretHash, sa.organisationId⟩))

/-- `SELECT ... FROM api_keys k JOIN service_accounts sa ... WHERE k.prefix = $1 AND
k.revoked_at IS NULL`. -/
def findActiveByPrefix (keyPrefix : String) : Action SqlError (Option ApiKeyRow) :=
  query (fun w => w.tables.activeByPrefix keyPrefix)

/-- The key of a service account with an identifier. -/
def Tables.keyOf (t : Tables) (saUserId keyId : Uuid) : Option ApiKey :=
  ((t.apiKeys.find? keyId).filter (fun k => k.serviceAccountUserId = saUserId)).map
    ApiKeyRecord.toApiKey

/-- `SELECT ... FROM api_keys WHERE id = $1 AND service_account_user_id = $2`. -/
def findKey (saUserId keyId : Uuid) : Action SqlError (Option ApiKey) :=
  query (fun w => w.tables.keyOf saUserId keyId)

/-- `SELECT ... FROM api_keys WHERE service_account_user_id = $1 ORDER BY created_at, id`. -/
def listKeysBySa (saUserId : Uuid) : Action SqlError (List ApiKey) :=
  query (fun w =>
    ((w.tables.apiKeys.select (fun k => k.serviceAccountUserId = saUserId)).map
      ApiKeyRecord.toApiKey).insertionSort
      (fun a b => a.createdAt < b.createdAt ∨ a.createdAt = b.createdAt ∧ a.id ≤ b.id))

/-- A key keeps its keys when it is revoked. -/
lemma revokedKey_key (now : Timestamp) (k : ApiKeyRecord) :
    ApiKeyRecord.key { k with revokedAt := some now } = k.key := rfl

/-- Stamp `revoked_at` on the keys a predicate selects. -/
def Tables.revokeKeys (t : Tables) (p : ApiKeyRecord → Bool) (now : Timestamp) : Tables :=
  { t with
    apiKeys := t.apiKeys.updateWhere p (fun k => { k with revokedAt := some now })
      (revokedKey_key now) }

/-- `UPDATE api_keys SET revoked_at = NOW() WHERE id = $1 AND service_account_user_id = $2 AND
revoked_at IS NULL`. -/
def revokeKey (saUserId keyId : Uuid) : Action SqlError Bool :=
  execute (fun w =>
    let p := fun k : ApiKeyRecord =>
      k.id = keyId && k.serviceAccountUserId = saUserId && k.revokedAt = none
    .ok (w.tables.apiKeys.any p, w.tables.revokeKeys p w.now))

/-- A key keeps its keys when it is used. -/
lemma touchKey_key (now : Timestamp) (k : ApiKeyRecord) :
    ApiKeyRecord.key { k with lastUsedAt := some now } = k.key := rfl

/-- `UPDATE api_keys SET last_used_at = NOW() ...`. -/
def touchKey (keyId : Uuid) : Action SqlError Unit :=
  execute (fun w => .ok ((), { w.tables with
    apiKeys := w.tables.apiKeys.updateWhere
      (fun k => k.id = keyId && staleUse k.lastUsedAt w.now)
      (fun k => { k with lastUsedAt := some w.now }) (touchKey_key w.now) }))

/-- Revoke a key and insert its successor, in one transaction. -/
def rotateKey (oldKeyId : Uuid) (new : NewApiKeyRow) : Action ApiKeyRepoError ApiKey :=
  transaction .other (do
    (execute (fun w => .ok ((), w.tables.revokeKeys
      (fun k => k.id = oldKeyId && k.revokedAt = none) w.now))).mapErr .other
    insertKey new)

/-! ## Revoked tokens -/

/-- Whether an unexpired revocation of a token is stored. -/
def Tables.revoked (t : Tables) (jti : Uuid) (now : Timestamp) : Bool :=
  t.revokedTokens.any (fun r => r.jti = jti && now < r.expiresAt)

/-- `SELECT EXISTS (SELECT 1 FROM revoked_tokens WHERE jti = $1 AND expires_at > NOW())`. -/
def isRevoked (jti : Uuid) : Action SqlError Bool := query (fun w => w.tables.revoked jti w.now)

end Egras
