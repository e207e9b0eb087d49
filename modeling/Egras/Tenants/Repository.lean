import Egras.Security.Repository

/-!
# Organisations and roles in the database

The statements on `organisations`, `roles` and `user_organisation_roles`.

Rust → Lean naming: `create` → `createOrganisationRow`, `create_with_initial_owner` →
`createWithInitialOwner`, `is_member` → `isMember`, `add_member` → `addMember`,
`remove_member_checked` → `removeMemberChecked`; of the role repository, `find_by_code` →
`findByCode`, `has_role` → `hasRole`, `assign` → `assign`.
-/

namespace Egras
open Lib

/-- Why the repository refuses. -/
inductive RepoError
  | duplicateName (name : String)
  | unknownRoleCode (code : String)
  | unknownUser (id : Uuid)
  | db (e : SqlError)
  | notFound
  | notMember
  | lastOwner
deriving DecidableEq

/-- The taken name is told by its constraint. -/
def mapOrgInsertError (name : String) : SqlError → RepoError
  | .database "23505" "organisations_name_key" => .duplicateName name
  | e => .db e

/-- `INSERT INTO organisations ... RETURNING ...`. -/
def insertOrganisationRow (name business : String) : Action RepoError Organisation := do
  let id ← nowV7
  (execute (fun w => do
    let o : Organisation := ⟨id, name, business, false, w.now, w.now⟩
    let t ← w.tables.insertOrganisation o
    return (o, t))).mapErr (mapOrgInsertError name)

/-- `INSERT INTO organisations`, of no operator. -/
def createOrganisationRow (name business : String) : Action RepoError Organisation :=
  insertOrganisationRow name business

/-- A missing creator is told by its foreign key. -/
def mapOwnerInsertError (creator : Uuid) : SqlError → RepoError
  | .database "23503" "user_organisation_roles_user_id_fkey" => .unknownUser creator
  | e => .db e

/-- Create an organisation and give its creator a role in it, in one transaction. -/
def createWithInitialOwner (name business : String) (creator : Uuid) (ownerRoleCode : String) :
    Action RepoError Organisation :=
  transaction .db (do
    let org ← insertOrganisationRow name business
    match ← (findRoleId ownerRoleCode).mapErr .db with
    | none => .fail (.unknownRoleCode ownerRoleCode)
    | some roleId =>
      (execute (fun w => do
        let t ← w.tables.insertUserOrganisationRole ⟨creator, org.id, roleId, w.now⟩
        return ((), t))).mapErr (mapOwnerInsertError creator)
      return org)

/-- `SELECT EXISTS(SELECT 1 FROM user_organisation_roles WHERE user_id = $1 AND
organisation_id = $2)`. -/
def isMember (userId organisationId : Uuid) : Action RepoError Bool :=
  (query (fun w => w.tables.isMember userId organisationId)).mapErr .db

/-- Every foreign key means a missing organisation or user. -/
def mapAddMemberError : SqlError → RepoError
  | .database "23503" _ => .notFound
  | e => .db e

/-- Add a user to an organisation with a role; nothing happens when it has the role already. -/
def addMember (userId orgId : Uuid) (roleCode : String) : Action RepoError Unit := do
  match ← (findRoleId roleCode).mapErr .db with
  | none => .fail (.unknownRoleCode roleCode)
  | some roleId =>
    (execute (fun w => do
      let t ← w.tables.assignRole ⟨userId, orgId, roleId, w.now⟩
      return ((), t))).mapErr mapAddMemberError

namespace Tables

/-- Whether a role row is one of `org_owner`. -/
def isOwnerRow (t : Tables) (r : UserOrganisationRole) : Bool :=
  (t.roles.find? r.roleId).any (fun role => role.code = "org_owner")

/-- The owners of an organisation other than a user. -/
def otherOwners (t : Tables) (userId orgId : Uuid) : List UserOrganisationRole :=
  t.userOrganisationRoles.select
    (fun r => r.organisationId = orgId && t.isOwnerRow r && r.userId ≠ userId)

/-- Whether a user is an owner of an organisation. -/
def isOwner (t : Tables) (userId orgId : Uuid) : Bool :=
  t.userOrganisationRoles.any
    (fun r => r.userId = userId && r.organisationId = orgId && t.isOwnerRow r)

/-- `DELETE FROM user_organisation_roles WHERE user_id = $1 AND organisation_id = $2`. -/
def removeMember (t : Tables) (userId orgId : Uuid) : Tables :=
  { t with
    userOrganisationRoles := t.userOrganisationRoles.deleteWhere
      (fun r => r.userId = userId && r.organisationId = orgId) }

end Tables

/-- Remove all roles of a user in an organisation, unless this takes the last owner. -/
def removeMemberChecked (userId orgId : Uuid) : Action RepoError Unit :=
  transaction .db (do
    let member ← isMember userId orgId
    require member .notMember
    let otherOwners ← (query (fun w => (w.tables.otherOwners userId orgId).length)).mapErr .db
    let targetIsOwner ← (query (fun w => w.tables.isOwner userId orgId)).mapErr .db
    require (!(targetIsOwner && otherOwners = 0)) .lastOwner
    (execute (fun w => .ok ((), w.tables.removeMember userId orgId))).mapErr .db)

/-- `SELECT id, code FROM roles WHERE code = $1`. -/
def findByCode (code : String) : Action RepoError (Option Role) :=
  (query (fun w => w.tables.roleByCode code)).mapErr .db

/-- `SELECT EXISTS(SELECT 1 FROM user_organisation_roles WHERE user_id = $1 AND
organisation_id = $2 AND role_id = $3)`. -/
def hasRole (userId organisationId roleId : Uuid) : Action RepoError Bool :=
  (query (fun w => w.tables.hasRole userId organisationId roleId)).mapErr .db

/-- A missing user is told by its foreign key. -/
def mapAssignError (userId : Uuid) : SqlError → RepoError
  | .database "23503" "user_organisation_roles_user_id_fkey" => .unknownUser userId
  | e => .db e

/-- Give a user a role in an organisation; nothing happens when it has the role already. -/
def assign (userId organisationId roleId : Uuid) : Action RepoError Unit :=
  (execute (fun w => do
    let t ← w.tables.assignRole ⟨userId, organisationId, roleId, w.now⟩
    return ((), t))).mapErr (mapAssignError userId)

end Egras
