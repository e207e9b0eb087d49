import Egras.Auth.Extractors
import Egras.Db.World

/-!
# The echo endpoint

`GET` and `POST /api/v1/echo`: who the service takes the caller for, the payload of the request and
the time. The extractor of a `Caller` is `callerOf`.

Rust → Lean naming: `build_echo` → `buildEcho`, `get_echo` → `getEcho`, `post_echo` → `postEcho`,
`org_id` → `orgId`, `principal_user_id` → `principalUserId`.
-/

namespace Egras
open Lib

namespace Caller

/-- The organisation of the caller. -/
def orgId : Caller → Uuid
  | .user _ org _ => org
  | .apiKey _ _ org => org

/-- The user that the caller is, or its service account. -/
def principalUserId : Caller → Uuid
  | .user userId _ _ => userId
  | .apiKey _ saUserId _ => saUserId

/-- The key that the caller came with. -/
def keyId? : Caller → Option Uuid
  | .user _ _ _ => none
  | .apiKey keyId _ _ => some keyId

end Caller

/-- Extract the kind of credential. -/
def callerOf (ext : Extensions) : Except AppError Caller :=
  match ext.caller with
  | none => .error (.unauthenticated "no_caller")
  | some caller => .ok caller

/-- What the echo answers. -/
structure EchoResponse where
  method : String
  payload : Option Value
  orgId : Uuid
  keyId : Option Uuid
  principalUserId : Uuid
  receivedAt : Timestamp
deriving DecidableEq

/-- The answer to a caller. -/
def buildEcho (method : String) (body : Option Value) (caller : Caller) (now : Timestamp) :
    EchoResponse :=
  ⟨method, body, caller.orgId, caller.keyId?, caller.principalUserId, now⟩

/-- Echo the caller. -/
def getEcho (ext : Extensions) : Action AppError EchoResponse := do
  let caller ← Prog.ofExcept (callerOf ext)
  Prog.ofExcept (perm .echoInvoke ext)
  let now ← utcNow
  return buildEcho "GET" none caller now

/-- Echo the caller with the body. -/
def postEcho (ext : Extensions) (body : Option Value) : Action AppError EchoResponse := do
  let caller ← Prog.ofExcept (callerOf ext)
  Prog.ofExcept (perm .echoInvoke ext)
  let now ← utcNow
  return buildEcho "POST" body caller now

end Egras
