import Egras.Tenants.Repository

/-!
# Use cases of organisations and memberships

`create_organisation`, `assign_role`, `add_user_to_organisation` and
`remove_user_from_organisation`: the checks, the repository call and the audit event of each. The
service trusts its caller for permissions; only `assign_role` looks at the organisation it is asked
to write in, by asking whether the actor is a member.
-/

namespace Egras
open Lib

/-! ## Create an organisation -/

/-- What an organisation is created from. -/
structure CreateOrganisationInput where
  name : String
  business : String
  seedCreatorAsOwner : Bool
deriving DecidableEq

/-- The new organisation with the roles of its creator. -/
structure CreateOrganisationOutput where
  id : Uuid
  name : String
  business : String
  roleCodes : List String
deriving DecidableEq

/-- Why no organisation is created. -/
inductive CreateOrganisationError
  | duplicateName
  | invalidName
  | invalidBusiness
  | repo (e : RepoError)
deriving DecidableEq

/-- The errors of the repository as the service tells them. -/
def mapCreateOrganisationError : RepoError → CreateOrganisationError
  | .duplicateName _ => .duplicateName
  | e => .repo e

/-- Between 1 and 120 characters. -/
def validOrganisationText (s : String) : Bool := !s.isEmpty && s.length ≤ 120

/-- Create an organisation with valid texts, with its creator as owner if asked, and record it. -/
def createOrganisation (creator actorOrg : Uuid) (input : CreateOrganisationInput) :
    Action CreateOrganisationError CreateOrganisationOutput := do
  let name := trimWs input.name
  let business := trimWs input.business
  require (validOrganisationText name) .invalidName
  require (validOrganisationText business) .invalidBusiness
  let org ←
    if input.seedCreatorAsOwner then
      (createWithInitialOwner name business creator "org_owner").mapErr mapCreateOrganisationError
    else (createOrganisationRow name business).mapErr mapCreateOrganisationError
  record (fun s => .organisationCreated s creator actorOrg org.id name)
  return ⟨org.id, org.name, org.business, if input.seedCreatorAsOwner then ["org_owner"] else []⟩

/-! ## Add and remove members -/

/-- Who is added where, and with which role. -/
structure AddUserToOrganisationInput where
  userId : Uuid
  orgId : Uuid
  roleCode : String
deriving DecidableEq

/-- Why no user is added. -/
inductive AddUserToOrganisationError
  | notFound
  | unknownRoleCode
  | repo (e : RepoError)
deriving DecidableEq

/-- The errors of the repository as the service tells them. -/
def mapAddUserError : RepoError → AddUserToOrganisationError
  | .notFound => .notFound
  | .unknownRoleCode _ => .unknownRoleCode
  | e => .repo e

/-- Add a user to an organisation, and record it. -/
def addUserToOrganisation (actorUserId actorOrgId : Uuid) (input : AddUserToOrganisationInput) :
    Action AddUserToOrganisationError Unit := do
  (addMember input.userId input.orgId input.roleCode).mapErr mapAddUserError
  record (fun s =>
    .organisationMemberAdded s actorUserId actorOrgId input.orgId input.userId input.roleCode)

/-- Who is removed from where. -/
structure RemoveUserFromOrganisationInput where
  userId : Uuid
  orgId : Uuid
deriving DecidableEq

/-- Why no user is removed. -/
inductive RemoveUserFromOrganisationError
  | notMember
  | lastOwner
  | repo (e : RepoError)
deriving DecidableEq

/-- The errors of the repository as the service tells them. -/
def mapRemoveUserError : RepoError → RemoveUserFromOrganisationError
  | .notMember => .notMember
  | .lastOwner => .lastOwner
  | e => .repo e

/-- Remove a member that is not the last owner, and record it. -/
def removeUserFromOrganisation (actorUserId actorOrgId : Uuid)
    (input : RemoveUserFromOrganisationInput) : Action RemoveUserFromOrganisationError Unit := do
  (removeMemberChecked input.userId input.orgId).mapErr mapRemoveUserError
  record (fun s =>
    .organisationMemberRemoved s actorUserId actorOrgId input.orgId input.userId)

/-! ## Assign a role -/

/-- Who gets which role where. -/
structure AssignRoleInput where
  organisationId : Uuid
  targetUserId : Uuid
  roleCode : String
deriving DecidableEq

/-- Whether the role is a new one. -/
structure AssignRoleOutput where
  wasNew : Bool
deriving DecidableEq

/-- Why no role is assigned. -/
inductive AssignRoleError
  | notFound
  | unknownRoleCode
  | unknownUser
  | serviceAccountCrossOrgForbidden
  | repo (e : RepoError)
  | internal (e : SqlError)
deriving DecidableEq

/-- Service accounts hold roles in their home organisation only. -/
def guardServiceAccount (target : Option User) (organisationId targetUserId : Uuid) :
    Action AssignRoleError Unit :=
  match target with
  | none => .ret ()
  | some user =>
    if user.kind = .serviceAccount then do
      let sa ← (findServiceAccount organisationId targetUserId).mapErr .internal
      require sa.isSome .serviceAccountCrossOrgForbidden
    else .ret ()

/-- Assign a role to a member, asked by a member or by an operator. -/
def assignRole (actor actorOrg : Uuid) (isOperator : Bool) (input : AssignRoleInput) :
    Action AssignRoleError AssignRoleOutput := do
  if isOperator then pure ()
  else
    let member ← (isMember actor input.organisationId).mapErr .repo
    require member .notFound
  let target ← (findById input.targetUserId).mapErr .internal
  guardServiceAccount target input.organisationId input.targetUserId
  match ← (findByCode input.roleCode).mapErr .repo with
  | none => .fail .unknownRoleCode
  | some role =>
    let targetIsMember ← (isMember input.targetUserId input.organisationId).mapErr .repo
    require targetIsMember .unknownUser
    let already ← (hasRole input.targetUserId input.organisationId role.id).mapErr .repo
    (assign input.targetUserId input.organisationId role.id).mapErr .repo
    if already then return ⟨false⟩
    else
      record (fun s => .organisationRoleAssigned s actor actorOrg input.organisationId
        input.targetUserId input.roleCode)
      return ⟨true⟩

end Egras
