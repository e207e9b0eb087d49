import Egras.Tenants.Interface

/-!
# Inbound channels

The inbound channels of an organisation: the statements on `inbound_channels`, the use cases and the
handlers, which take the organisation from the path and refuse any but the caller's own unless the
caller operates on all tenants (`requireOwnOrganisation`).

Rust → Lean naming: of the repository `create` → `createChannelRow`, `list` → `listChannelRows`,
`get` → `getChannelRow`, `update` → `updateChannelRow`, `delete` → `deleteChannelRow`; the use cases
and handlers keep their names (`create_inbound_channel` → `createInboundChannel`,
`post_create_channel` → `postCreateChannel`).
-/

namespace Egras
open Lib

/-! ## Statements -/

/-- Why the repository refuses a channel. -/
inductive ChannelRepoError
  | duplicateName (name : String)
  | notFound
  | db (e : SqlError)
deriving DecidableEq

/-- 32 random bytes in hexadecimal. -/
def generateApiKey {ε} : Action ε String := do
  let bytes ← randomBytes 32
  return hexEncode bytes

/-- A taken name is told from the other errors by its constraint. -/
def mapChannelInsertError (name : String) : SqlError → ChannelRepoError
  | .database "23505" constraint =>
    if containsStr "organisation_id_name" constraint then .duplicateName name
    else .db (.database "23505" constraint)
  | e => .db e

/-- `INSERT INTO inbound_channels`, under a new id and with a new key. -/
def createChannelRow (organisationId : Uuid) (name : String) (description : Option String)
    (channelType : ChannelType) (isActive : Bool) : Action ChannelRepoError InboundChannel := do
  let id ← nowV7
  let apiKey ← generateApiKey
  (execute (fun w => do
    let c : InboundChannel :=
      ⟨id, organisationId, name, description, channelType, apiKey, isActive, w.now, w.now⟩
    let t ← w.tables.insertChannel c
    return (c, t))).mapErr (mapChannelInsertError name)

/-- `SELECT ... WHERE organisation_id = $1 ... ORDER BY created_at DESC, id DESC LIMIT`. -/
def listChannelRows (organisationId : Uuid) (after : Option Cursor) (limit : ℕ) :
    Action ChannelRepoError (List InboundChannel) :=
  (query (fun w =>
    let rows := w.tables.inboundChannels.select (fun c =>
      c.organisationId = organisationId && after.all (fun cursor => cursor.after c.createdAt c.id))
    (rows.insertionSort (fun a b => b.createdAt < a.createdAt ∨
      b.createdAt = a.createdAt ∧ b.id ≤ a.id)).take limit)).mapErr .db

/-- The channel of an organisation with an identifier. -/
def Tables.channel (t : Tables) (organisationId channelId : Uuid) : Option InboundChannel :=
  t.inboundChannels.rows.find? (fun c => c.id = channelId && c.organisationId = organisationId)

/-- `SELECT` a channel of an organisation. -/
def getChannelRow (organisationId channelId : Uuid) : Action ChannelRepoError InboundChannel := do
  match ← (query (fun w => w.tables.channel organisationId channelId)).mapErr .db with
  | none => .fail .notFound
  | some c => return c

/-- `UPDATE` a channel of an organisation. -/
def updateChannelRow (organisationId channelId : Uuid) (name : String)
    (description : Option String) (channelType : ChannelType) (isActive : Bool) :
    Action ChannelRepoError InboundChannel := do
  match ← (execute (fun w => w.tables.updateChannel organisationId channelId name description
      channelType isActive w.now)).mapErr (mapChannelInsertError name) with
  | none => .fail .notFound
  | some c => return c

/-- `DELETE` a channel of an organisation. -/
def deleteChannelRow (organisationId channelId : Uuid) : Action ChannelRepoError Unit := do
  let p := fun c : InboundChannel => c.id = channelId && c.organisationId = organisationId
  let affected ← (execute (fun w => .ok ((w.tables.inboundChannels.select p).length,
    { w.tables with inboundChannels := w.tables.inboundChannels.deleteWhere p }))).mapErr .db
  require (affected ≠ 0) .notFound

/-! ## Use cases -/

/-- What a channel is created from. -/
structure CreateChannelInput where
  organisationId : Uuid
  name : String
  description : Option String
  channelType : ChannelType
  isActive : Bool
deriving DecidableEq

/-- Why no channel is created. -/
inductive CreateChannelError
  | duplicateName
  | invalidName
  | invalidDescription
  | repo (e : ChannelRepoError)
deriving DecidableEq

/-- The errors of the repository as the service tells them. -/
def mapCreateChannelError : ChannelRepoError → CreateChannelError
  | .duplicateName _ => .duplicateName
  | e => .repo e

/-- Between 1 and 120 characters. -/
def validChannelName (name : String) : Bool := !name.isEmpty && name.length ≤ 120

/-- At most 1000 characters. -/
def validChannelDescription (description : Option String) : Bool :=
  description.all (fun d => d.length ≤ 1000)

/-- Create a channel with a valid name and description, and record it. -/
def createInboundChannel (actorUserId actorOrg : Uuid) (input : CreateChannelInput) :
    Action CreateChannelError InboundChannel := do
  let name := trimWs input.name
  require (validChannelName name) .invalidName
  require (validChannelDescription input.description) .invalidDescription
  let ch ← (createChannelRow input.organisationId name input.description input.channelType
    input.isActive).mapErr mapCreateChannelError
  record (fun s => .channelCreated s actorUserId actorOrg ch.id ch.organisationId ch.name)
  return ch

/-- Which page of channels is asked for. -/
structure ListChannelsInput where
  organisationId : Uuid
  after : Option String
  limit : ℕ
deriving DecidableEq

/-- A page of channels with the cursor of the next one. -/
structure ListChannelsOutput where
  items : List InboundChannel
  nextCursor : Option String
deriving DecidableEq

/-- Why no page is listed. -/
inductive ListChannelsError
  | invalidCursor
  | repo (e : ChannelRepoError)
deriving DecidableEq

/-- List the channels of an organisation, one more than asked to see if there are more. -/
def listInboundChannels [CursorText] (input : ListChannelsInput) :
    Action ListChannelsError ListChannelsOutput := do
  let after ← Prog.ofExcept (decodeCursor CursorText.decodeIdCursor input.after .invalidCursor)
  let items ← (listChannelRows input.organisationId after (input.limit + 1)).mapErr .repo
  if input.limit < items.length then
    let items := items.take input.limit
    return ⟨items, items.getLast?.map (fun c => CursorText.encodeIdCursor ⟨c.createdAt, c.id⟩)⟩
  else return ⟨items, none⟩

/-- Why no channel is found. -/
inductive GetChannelError
  | notFound
  | repo (e : ChannelRepoError)
deriving DecidableEq

/-- The errors of the repository as the service tells them. -/
def mapGetChannelError : ChannelRepoError → GetChannelError
  | .notFound => .notFound
  | e => .repo e

/-- Read a channel of an organisation. -/
def getInboundChannel (organisationId channelId : Uuid) : Action GetChannelError InboundChannel :=
  (getChannelRow organisationId channelId).mapErr mapGetChannelError

/-- What a channel becomes. -/
structure UpdateChannelInput where
  organisationId : Uuid
  channelId : Uuid
  name : String
  description : Option String
  channelType : ChannelType
  isActive : Bool
deriving DecidableEq

/-- Why a channel is not updated. -/
inductive UpdateChannelError
  | notFound
  | duplicateName
  | invalidName
  | invalidDescription
  | repo (e : ChannelRepoError)
deriving DecidableEq

/-- The errors of the repository as the service tells them. -/
def mapUpdateChannelError : ChannelRepoError → UpdateChannelError
  | .notFound => .notFound
  | .duplicateName _ => .duplicateName
  | e => .repo e

/-- Update a channel with a valid name and description, and record it. -/
def updateInboundChannel (actorUserId actorOrg : Uuid) (input : UpdateChannelInput) :
    Action UpdateChannelError InboundChannel := do
  let name := trimWs input.name
  require (validChannelName name) .invalidName
  require (validChannelDescription input.description) .invalidDescription
  let ch ← (updateChannelRow input.organisationId input.channelId name input.description
    input.channelType input.isActive).mapErr mapUpdateChannelError
  record (fun s => .channelUpdated s actorUserId actorOrg ch.id ch.organisationId ch.name)
  return ch

/-- Why a channel is not deleted. -/
inductive DeleteChannelError
  | notFound
  | repo (e : ChannelRepoError)
deriving DecidableEq

/-- The errors of the repository as the service tells them. -/
def mapDeleteChannelError : ChannelRepoError → DeleteChannelError
  | .notFound => .notFound
  | e => .repo e

/-- Delete a channel of the organisation, and record it. -/
def deleteInboundChannel (actorUserId actorOrg organisationId channelId : Uuid) :
    Action DeleteChannelError Unit := do
  (deleteChannelRow organisationId channelId).mapErr mapDeleteChannelError
  record (fun s => .channelDeleted s actorUserId actorOrg channelId organisationId)

/-! ## Handlers -/

/-- The body of a channel has the fields of its row. -/
abbrev ChannelBody := InboundChannel

/-- The body of a creation. -/
structure CreateChannelRequest where
  name : String
  description : Option String
  channelType : ChannelType
  isActive : Bool
deriving DecidableEq

/-- The body of an update. -/
structure UpdateChannelRequest where
  name : String
  description : Option String
  channelType : ChannelType
  isActive : Bool
deriving DecidableEq

/-- The query of a listing. -/
structure ListQuery where
  after : Option String
  limit : Option ℕ
deriving DecidableEq

/-- A page as it is answered. -/
structure PagedChannels where
  items : List ChannelBody
  nextCursor : Option String
deriving DecidableEq

/-- The answer for an error of the creation. -/
def CreateChannelError.toApp : CreateChannelError → AppError
  | .duplicateName => .conflict "channel name already taken in this organisation"
  | .invalidName => .fieldError "name" "invalid"
  | .invalidDescription => .fieldError "description" "invalid"
  | .repo _ => .internal

/-- The answer for an error of the update. -/
def UpdateChannelError.toApp : UpdateChannelError → AppError
  | .notFound => .notFound "channel"
  | .duplicateName => .conflict "channel name already taken"
  | .invalidName => .fieldError "name" "invalid"
  | .invalidDescription => .fieldError "description" "invalid"
  | .repo _ => .internal

/-- The answer for an error of the listing. -/
def ListChannelsError.toApp : ListChannelsError → AppError
  | .invalidCursor => .fieldError "after" "invalid_cursor"
  | .repo _ => .internal

/-- The answer for an error of the reading. -/
def GetChannelError.toApp : GetChannelError → AppError
  | .notFound => .notFound "channel"
  | .repo _ => .internal

/-- The answer for an error of the deletion. -/
def DeleteChannelError.toApp : DeleteChannelError → AppError
  | .notFound => .notFound "channel"
  | .repo _ => .internal

/-- Create a channel in the caller's organisation, or as an operator in any. -/
def postCreateChannel (ext : Extensions) (orgId : Uuid) (req : CreateChannelRequest) :
    Action AppError (ℕ × ChannelBody) := do
  let caller ← Prog.ofExcept (authedCaller ext)
  Prog.ofExcept (perm .channelsManage ext)
  Prog.ofExcept (requireOwnOrganisation caller orgId)
  Prog.ofExcept (validateFields (validateLength "name" 1 120 req.name))
  let ch ← (createInboundChannel caller.claims.sub caller.claims.org
    ⟨orgId, req.name, req.description, req.channelType, req.isActive⟩).mapErr
    CreateChannelError.toApp
  return (201, ch)

/-- List the channels of an organisation, at most 200 of them. -/
def getListChannels [CursorText] (ext : Extensions) (orgId : Uuid) (q : ListQuery) :
    Action AppError PagedChannels := do
  let caller ← Prog.ofExcept (authedCaller ext)
  Prog.ofExcept (perm .channelsManage ext)
  Prog.ofExcept (requireOwnOrganisation caller orgId)
  let limit := min (q.limit.getD 50) 200
  let out ← (listInboundChannels ⟨orgId, q.after, limit⟩).mapErr ListChannelsError.toApp
  return ⟨out.items, out.nextCursor⟩

/-- Read a channel of an organisation. -/
def getChannel (ext : Extensions) (orgId channelId : Uuid) : Action AppError ChannelBody := do
  let caller ← Prog.ofExcept (authedCaller ext)
  Prog.ofExcept (perm .channelsManage ext)
  Prog.ofExcept (requireOwnOrganisation caller orgId)
  (getInboundChannel orgId channelId).mapErr GetChannelError.toApp

/-- Update a channel of an organisation. -/
def putUpdateChannel (ext : Extensions) (orgId channelId : Uuid) (req : UpdateChannelRequest) :
    Action AppError ChannelBody := do
  let caller ← Prog.ofExcept (authedCaller ext)
  Prog.ofExcept (perm .channelsManage ext)
  Prog.ofExcept (requireOwnOrganisation caller orgId)
  Prog.ofExcept (validateFields (validateLength "name" 1 120 req.name))
  (updateInboundChannel caller.claims.sub caller.claims.org
    ⟨orgId, channelId, req.name, req.description, req.channelType, req.isActive⟩).mapErr
    UpdateChannelError.toApp

/-- Delete a channel of an organisation. -/
def deleteChannel (ext : Extensions) (orgId channelId : Uuid) : Action AppError ℕ := do
  let caller ← Prog.ofExcept (authedCaller ext)
  Prog.ofExcept (perm .channelsManage ext)
  Prog.ofExcept (requireOwnOrganisation caller orgId)
  (deleteInboundChannel caller.claims.sub caller.claims.org orgId channelId).mapErr
    DeleteChannelError.toApp
  return 204

end Egras
