import Egras.Security.Interface

/-!
# Seeding the first administrator

`bootstrap_seed_admin`, the command that creates the first user of the operator organisation. It
runs its statements one by one on the pool, so that an error leaves what was written before it.
-/

namespace Egras
open Lib

/-- What the administrator is seeded from. -/
structure SeedAdminInput where
  email : String
  username : String
  password : String
  roleCode : String
  operatorOrgName : String
deriving DecidableEq

/-- The administrator and its organisation. -/
structure SeedAdminOutput where
  userId : Uuid
deriving DecidableEq

/-- Why no administrator is seeded. -/
inductive SeedAdminError
  | operatorOrgNotFound (name : String)
  | userAlreadyExists (email : String)
  | internal
deriving DecidableEq

/-- `AuditRepositoryPg::insert`. -/
def insertAuditEvent (e : AuditEvent) : Action SqlError Unit :=
  execute (fun w => do
    let t ← w.tables.insertAuditEvent e
    return ((), t))

/-- `SELECT id FROM organisations WHERE name = $1`. -/
def organisationByName (name : String) : Action SqlError (Option Uuid) :=
  query (fun w => (w.tables.organisations.rows.find? (fun o => o.name = name)).map Organisation.id)

/-- `SELECT EXISTS(SELECT 1 FROM users WHERE email = $1)`. -/
def emailExists (email : String) : Action SqlError Bool :=
  query (fun w => w.tables.users.any (fun u => u.email = email))

variable [Argon2] [CaseMapping]

/-- Seed an administrator of the operator organisation, and record it. -/
def bootstrapSeedAdmin (input : SeedAdminInput) : Action SeedAdminError SeedAdminOutput := do
  let org ← (organisationByName input.operatorOrgName).mapErr (fun _ => SeedAdminError.internal)
  match org with
  | none => .fail (.operatorOrgNotFound input.operatorOrgName)
  | some orgId =>
    let taken ← (emailExists input.email).mapErr (fun _ => SeedAdminError.internal)
    require (!taken) (.userAlreadyExists input.email)
    let passwordHash ← (hashPassword input.password).mapErr (fun _ => SeedAdminError.internal)
    let userId ← nowV7
    (execute (fun w => do
      let t ← w.tables.insertUser
        ⟨userId, input.username, input.email, passwordHash, .human, w.now, w.now⟩
      return ((), t))).mapErr (fun _ => SeedAdminError.internal)
    match ← (findRoleId input.roleCode).mapErr (fun _ => SeedAdminError.internal) with
    | none => .fail .internal
    | some roleId =>
      (execute (fun w => do
        let t ← w.tables.assignRole ⟨userId, orgId, roleId, w.now⟩
        return ((), t))).mapErr (fun _ => SeedAdminError.internal)
      let stamp ← newStamp
      (insertAuditEvent (.adminSeeded stamp userId orgId input.roleCode)).mapErr
        (fun _ => SeedAdminError.internal)
      return ⟨userId⟩

end Egras
