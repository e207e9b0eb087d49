import Egras.Tenants.Channels

/-!
# Listing organisations and members

`list_my_organisations` and `list_organisation_members` with their handlers. Both statements join
role rows with roles and group them: there is a row for each organisation, or each user, that some
role row joins with, however many there are.

Rust → Lean naming: `list_for_user` → `listForUser`, `list_members` → `listMembers`; use cases and
handlers keep their names (`get_list_members` → `getListMembers`).
-/

namespace Egras
open Lib

/-! ## Statements -/

/-- An organisation with the roles that the caller has in it. -/
structure OrganisationSummary where
  id : Uuid
  name : String
  business : String
  roleCodes : List String
  createdAt : Timestamp
deriving DecidableEq

/-- A member with its roles. -/
structure MemberSummary where
  userId : Uuid
  username : String
  email : String
  roleCodes : List String
  joinedAt : Timestamp
deriving DecidableEq

namespace Tables

/-- The group of an organisation in `list_for_user`, when it has a row. -/
def organisationSummary (t : Tables) (userId : Uuid) (o : Organisation) :
    Option OrganisationSummary :=
  match t.knownRolesOf userId o.id with
  | [] => none
  | r :: rs => some ⟨o.id, o.name, o.business, t.roleCodesOf (r :: rs), o.createdAt⟩

/-- The group of a user in `list_members`, when it has a row. -/
def memberSummary (t : Tables) (organisationId : Uuid) (u : User) : Option MemberSummary :=
  match t.knownRolesOf u.id organisationId with
  | [] => none
  | r :: rs => some ⟨u.id, u.username, u.email, t.roleCodesOf (r :: rs),
    rs.foldl (fun m q => min m q.createdAt) r.createdAt⟩

end Tables

/-- `SELECT ... WHERE uor.user_id = $1 AND (o.created_at, o.id) < ($2, $3) GROUP BY o.id
ORDER BY o.created_at DESC, o.id DESC LIMIT`. -/
def listForUser (userId : Uuid) (after : Option Cursor) (limit : ℕ) :
    Action RepoError (List OrganisationSummary) :=
  (query (fun w =>
    let rows := (w.tables.organisations.select (fun o =>
      after.all (fun c => c.after o.createdAt o.id))).filterMap
        (w.tables.organisationSummary userId)
    (rows.insertionSort (fun a b => b.createdAt < a.createdAt ∨
      b.createdAt = a.createdAt ∧ b.id ≤ a.id)).take limit)).mapErr .db

/-- `SELECT ... WHERE uor.organisation_id = $1 GROUP BY u.id ... HAVING (MIN(uor.created_at), u.id)
< ($2, $3) ORDER BY joined_at DESC, u.id DESC LIMIT`. -/
def listMembers (organisationId : Uuid) (after : Option Cursor) (limit : ℕ) :
    Action RepoError (List MemberSummary) :=
  (query (fun w =>
    let rows := (w.tables.users.rows.filterMap (w.tables.memberSummary organisationId)).filter
      (fun m => after.all (fun c => c.after m.joinedAt m.userId))
    (rows.insertionSort (fun a b => b.joinedAt < a.joinedAt ∨
      b.joinedAt = a.joinedAt ∧ b.userId ≤ a.userId)).take limit)).mapErr .db

/-! ## Use cases -/

section UseCases
variable [CursorText]

/-- Which page of organisations is asked for. -/
structure ListMyOrganisationsInput where
  after : Option String
  limit : ℕ
deriving DecidableEq

/-- A summary as the service returns it. -/
structure OrganisationSummaryDto where
  id : Uuid
  name : String
  business : String
  roleCodes : List String
deriving DecidableEq

/-- A page of organisations with the cursor of the next one. -/
structure ListMyOrganisationsOutput where
  items : List OrganisationSummaryDto
  nextCursor : Option String
deriving DecidableEq

/-- Why no page of organisations is listed. -/
inductive ListError
  | invalidCursor
  | repo (e : RepoError)
deriving DecidableEq

/-- The summary as it is returned, without its date. -/
def OrganisationSummary.toDto (o : OrganisationSummary) : OrganisationSummaryDto :=
  ⟨o.id, o.name, o.business, o.roleCodes⟩

/-- List the organisations of the caller, one more than asked to see if there are more. -/
def listMyOrganisations (caller : Uuid) (input : ListMyOrganisationsInput) :
    Action ListError ListMyOrganisationsOutput := do
  let limit := max 1 (min input.limit 100)
  let cursor ← Prog.ofExcept (decodeCursor CursorText.decodeIdCursor input.after .invalidCursor)
  let rows ← (listForUser caller cursor (limit + 1)).mapErr .repo
  if limit < rows.length then
    let rows := rows.take limit
    return ⟨rows.map OrganisationSummary.toDto,
      rows.getLast?.map (fun last => CursorText.encodeIdCursor ⟨last.createdAt, last.id⟩)⟩
  else return ⟨rows.map OrganisationSummary.toDto, none⟩

/-- Which page of members is asked for. -/
structure ListMembersInput where
  organisationId : Uuid
  after : Option String
  limit : ℕ
deriving DecidableEq

/-- A member as the service returns it. -/
structure MemberSummaryDto where
  userId : Uuid
  username : String
  email : String
  roleCodes : List String
deriving DecidableEq

/-- A page of members with the cursor of the next one. -/
structure ListMembersOutput where
  items : List MemberSummaryDto
  nextCursor : Option String
deriving DecidableEq

/-- Why no page of members is listed. -/
inductive ListMembersError
  | notFound
  | invalidCursor
  | repo (e : RepoError)
deriving DecidableEq

/-- The member as it is returned, without its date. -/
def MemberSummary.toDto (m : MemberSummary) : MemberSummaryDto :=
  ⟨m.userId, m.username, m.email, m.roleCodes⟩

/-- List the members of an organisation to one of them or to an operator. -/
def listOrganisationMembers (caller : Uuid) (isOperator : Bool) (input : ListMembersInput) :
    Action ListMembersError ListMembersOutput := do
  let limit := max 1 (min input.limit 100)
  let cursor ← Prog.ofExcept (decodeCursor CursorText.decodeUserCursor input.after .invalidCursor)
  if !isOperator then
    let member ← (isMember caller input.organisationId).mapErr .repo
    require member .notFound
  let rows ← (listMembers input.organisationId cursor (limit + 1)).mapErr .repo
  if limit < rows.length then
    let rows := rows.take limit
    return ⟨rows.map MemberSummary.toDto,
      rows.getLast?.map (fun last => CursorText.encodeUserCursor ⟨last.joinedAt, last.userId⟩)⟩
  else return ⟨rows.map MemberSummary.toDto, none⟩

/-! ## Handlers -/

/-- A page of organisations as it is answered. -/
structure PagedOrganisations where
  items : List OrganisationBody
  nextCursor : Option String
deriving DecidableEq

/-- The body of a member has the fields of the summary. -/
abbrev MemberBody := MemberSummaryDto

/-- A page of members as it is answered. -/
structure PagedMembers where
  items : List MemberBody
  nextCursor : Option String
deriving DecidableEq

/-- The answer for a summary. -/
def OrganisationSummaryDto.toBody (o : OrganisationSummaryDto) : OrganisationBody :=
  ⟨o.id, o.name, o.business, o.roleCodes⟩

/-- The answer for an error of the organisation listing. -/
def ListError.toApp : ListError → AppError
  | .invalidCursor => .fieldError "after" "invalid_cursor"
  | .repo _ => .internal

/-- The answer for an error of the member listing. -/
def ListMembersError.toApp : ListMembersError → AppError
  | .notFound => .notFound "organisation"
  | .invalidCursor => .fieldError "after" "invalid_cursor"
  | .repo _ => .internal

/-- List the caller's own organisations. -/
def getListMyOrganisations (ext : Extensions) (q : ListQuery) :
    Action AppError PagedOrganisations := do
  let caller ← Prog.ofExcept (authedCaller ext)
  let out ← (listMyOrganisations caller.claims.sub ⟨q.after, q.limit.getD 50⟩).mapErr
    ListError.toApp
  return ⟨out.items.map OrganisationSummaryDto.toBody, out.nextCursor⟩

/-- List the members of an organisation. -/
def getListMembers (ext : Extensions) (id : Uuid) (q : ListQuery) :
    Action AppError PagedMembers := do
  Prog.ofExcept (perm .tenantsMembersList ext)
  let caller ← Prog.ofExcept (authedCaller ext)
  let out ← (listOrganisationMembers caller.claims.sub caller.permissions.isOperatorOverTenants
    ⟨id, q.after, q.limit.getD 50⟩).mapErr ListMembersError.toApp
  return ⟨out.items, out.nextCursor⟩

end UseCases
end Egras
