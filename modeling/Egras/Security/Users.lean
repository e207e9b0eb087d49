import Egras.Security.Interface

/-!
# Listing users

`list_users` and its handler: a caller that does not operate on all users sees the members of its
own organisation, each with its membership there only.
-/

namespace Egras
open Lib

/-- Which page of users is asked for. -/
structure ListUsersInput where
  orgId : Option Uuid
  q : Option String
  after : Option String
  limit : ℕ
deriving DecidableEq

/-- A user with its memberships. -/
structure UserWithMemberships where
  id : Uuid
  username : String
  email : String
  createdAt : Timestamp
  memberships : List UserMembership
deriving DecidableEq

/-- A page of users with the cursor of the next one. -/
structure ListUsersOutput where
  items : List UserWithMemberships
  nextCursor : Option String
deriving DecidableEq

/-- Why no page is listed. -/
inductive ListUsersError
  | invalidCursor
  | repo (e : SqlError)
deriving DecidableEq

section
variable [CaseMapping] [CursorText]

/-- A user with the memberships that the caller may see. -/
def withMemberships (isOperator : Bool) (callerOrgId : Option Uuid)
    (raw : List (Uuid × UserMembership)) (u : User) : UserWithMemberships where
  id := u.id
  username := u.username
  email := u.email
  createdAt := u.createdAt
  memberships :=
    ((raw.filter (fun m => m.1 = u.id)).map Prod.snd).filter
      (fun m => isOperator || callerOrgId.all (fun org => m.orgId = org))

/-- List the users that the caller may see, one more than asked to see if there are more. -/
def listUsers (isOperator : Bool) (callerOrgId : Option Uuid) (input : ListUsersInput) :
    Action ListUsersError ListUsersOutput := do
  let cursor ← Prog.ofExcept (decodeCursor CursorText.decodeUserCursor input.after .invalidCursor)
  let effectiveOrgId := if isOperator then input.orgId else callerOrgId
  let found ← (listUserRows effectiveOrgId input.q cursor (input.limit + 1)).mapErr .repo
  let users := found.take input.limit
  let nextCursor :=
    if input.limit < found.length then
      users.getLast?.map (fun last => CursorText.encodeUserCursor ⟨last.createdAt, last.id⟩)
    else none
  let raw ← (listMembershipsForUsers (users.map User.id)).mapErr .repo
  return ⟨users.map (withMemberships isOperator callerOrgId raw), nextCursor⟩

/-- The query of a listing. -/
structure ListUsersQuery where
  after : Option String
  limit : Option ℕ
  orgId : Option Uuid
  q : Option String
deriving DecidableEq

/-- The answer for an error of the listing. -/
def ListUsersError.toApp : ListUsersError → AppError
  | .invalidCursor => .fieldError "after" "invalid_cursor"
  | .repo _ => .internal

/-- List users, of every organisation to operators, of the own one to others. -/
def getListUsers (ext : Extensions) (q : ListUsersQuery) : Action AppError ListUsersOutput := do
  let caller ← Prog.ofExcept (authedCaller ext)
  Prog.ofExcept (perm .usersRead ext)
  let isOperator := caller.permissions.isOperatorOverUsers
  let callerOrgId := if isOperator then none else some caller.claims.org
  let limit := q.limit.getD 20
  require (1 ≤ limit && limit ≤ 100) (AppError.fieldError "limit" "invalid_limit")
  let out ← (listUsers isOperator callerOrgId ⟨q.orgId, q.q, q.after, limit⟩).mapErr
    ListUsersError.toApp
  record (fun s => .usersList s caller.claims.sub caller.claims.org)
  return out

end
end Egras
