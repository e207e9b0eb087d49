import Egras.Service.Policy

/-!
# What the operations leave alone

But for the logout and the requests for guarded resources no operation concerns revocations, service
accounts or API keys, and none of them takes a user away or gives one another kind: the effects that
they are permitted are quiet (`Operation.Permits.quiet`). `OperationCall.outcome` says what each
operation does to these tables: a logout stores a revocation, a request for a guarded resource does
what `Changes` says, and everything else is `Quiet`.
-/

namespace Egras
open Lib

/-! ## Quiet changes -/

namespace Tables
variable {t t' t'' : Tables}

/-- Between two states of the tables the revocations are the same, no user has gone and none has
another kind, and the service accounts and the API keys are the same as far as their identifiers and
their creators go, if they are still there. -/
structure Quiet (t t' : Tables) : Prop where
  revocations : t'.revokedTokens = t.revokedTokens
  users : ∀ q ∈ t.users, ∃ q' ∈ t'.users, q'.id = q.id ∧ q'.kind = q.kind
  accounts : ∀ sa ∈ t'.serviceAccounts,
    ∃ sa' ∈ t.serviceAccounts, sa'.userId = sa.userId ∧ sa'.createdBy = sa.createdBy
  keys : ∀ k ∈ t'.apiKeys, ∃ k' ∈ t.apiKeys, k'.createdBy = k.createdBy

/-- Statements on other tables. -/
lemma Quiet.of_eq (hrevocations : t'.revokedTokens = t.revokedTokens) (husers : t'.users = t.users)
    (haccounts : t'.serviceAccounts = t.serviceAccounts) (hkeys : t'.apiKeys = t.apiKeys) :
    t.Quiet t' where
  revocations := hrevocations
  users q hq := ⟨q, husers ▸ hq, rfl, rfl⟩
  accounts sa hsa := ⟨sa, haccounts ▸ hsa, rfl, rfl⟩
  keys k hk := ⟨k, hkeys ▸ hk, rfl⟩

/-- Nothing has changed. -/
lemma Quiet.refl : t.Quiet t := .of_eq rfl rfl rfl rfl

/-- One change after another. -/
lemma Quiet.trans (h : t.Quiet t') (h' : t'.Quiet t'') : t.Quiet t'' where
  revocations := h'.revocations.trans h.revocations
  users q hq := by
    obtain ⟨q', hq', hid, hkind⟩ := h.users q hq
    obtain ⟨q'', hq'', hid', hkind'⟩ := h'.users q' hq'
    exact ⟨q'', hq'', hid'.trans hid, hkind'.trans hkind⟩
  accounts sa hsa := by
    obtain ⟨sa', hsa', hid, hcreator⟩ := h'.accounts sa hsa
    obtain ⟨sa'', hsa'', hid', hcreator'⟩ := h.accounts sa' hsa'
    exact ⟨sa'', hsa'', hid'.trans hid, hcreator'.trans hcreator⟩
  keys k hk := by
    obtain ⟨k', hk', hcreator⟩ := h'.keys k hk
    obtain ⟨k'', hk'', hcreator'⟩ := h.keys k' hk'
    exact ⟨k'', hk'', hcreator'.trans hcreator⟩

/-- A new organisation ends no session. -/
lemma quiet_addOrganisation {org : Organisation} : t.Quiet (t.addOrganisation org) := by
  unfold addOrganisation
  split <;> exact .of_eq rfl rfl rfl rfl

/-- A new role row ends no session. -/
lemma quiet_addRole {r : UserOrganisationRole} : t.Quiet (t.addRole r) := by
  unfold addRole
  split <;> exact .of_eq rfl rfl rfl rfl

/-- A new user leaves the revoked tokens alone. -/
@[simp] lemma addUser_revokedTokens {new : User} :
    (t.addUser new).revokedTokens = t.revokedTokens := by
  unfold addUser
  split <;> rfl

/-- A new user ends no session. -/
lemma quiet_addUser [CaseMapping] {new : User} (hfree : t.FreeUser new) :
    t.Quiet (t.addUser new) where
  revocations := addUser_revokedTokens
  users q hq := ⟨q, (mem_addUser hfree).mpr (Or.inl hq), rfl, rfl⟩
  accounts sa hsa := ⟨sa, addUser_serviceAccounts ▸ hsa, rfl, rfl⟩
  keys k hk := ⟨k, addUser_apiKeys ▸ hk, rfl⟩

/-- A new password ends no session. -/
lemma quiet_setPasswordHash {u : Uuid} {hash : String} {now : Timestamp} :
    t.Quiet (t.setPasswordHash u hash now) where
  revocations := rfl
  users q hq := by
    by_cases hid : q.id = u
    · exact ⟨_, mem_setPasswordHash.mpr (Or.inr ⟨q, hq, hid, rfl⟩), rfl, rfl⟩
    · exact ⟨q, mem_setPasswordHash.mpr (Or.inl ⟨hq, hid⟩), rfl, rfl⟩
  accounts sa hsa := ⟨sa, hsa, rfl, rfl⟩
  keys k hk := ⟨k, hk, rfl⟩

/-- Rewriting keys under their creators. -/
lemma quiet_updateKeys {p : ApiKeyRecord → Bool} {f : ApiKeyRecord → ApiKeyRecord}
    {hf : ∀ k, (f k).key = k.key} (hcreator : ∀ k, (f k).createdBy = k.createdBy) :
    t.Quiet { t with apiKeys := t.apiKeys.updateWhere p f hf } where
  revocations := rfl
  users q hq := ⟨q, hq, rfl, rfl⟩
  accounts sa hsa := ⟨sa, hsa, rfl, rfl⟩
  keys k hk := by
    obtain ⟨k', hk', rfl⟩ := (@Table.mem_updateWhere _ _ _ t.apiKeys p f hf k).mp hk
    refine ⟨k', hk', ?_⟩
    split
    · exact (hcreator k').symm
    · rfl

/-- A revoked key ends no session. -/
lemma quiet_revokeKeys {p : ApiKeyRecord → Bool} {now : Timestamp} : t.Quiet (t.revokeKeys p now) :=
  quiet_updateKeys fun _ => rfl

/-- Rewriting service accounts under their creators. -/
lemma quiet_updateAccounts {p : ServiceAccount → Bool} {f : ServiceAccount → ServiceAccount}
    {hf : ∀ sa, (f sa).userId = sa.userId} (hcreator : ∀ sa, (f sa).createdBy = sa.createdBy) :
    t.Quiet { t with serviceAccounts := t.serviceAccounts.updateWhere p f hf } where
  revocations := rfl
  users q hq := ⟨q, hq, rfl, rfl⟩
  accounts sa hsa := by
    obtain ⟨sa', hsa', rfl⟩ :=
      (@Table.mem_updateWhere _ _ _ t.serviceAccounts p f hf sa).mp hsa
    refine ⟨sa', hsa', ?_⟩
    split
    · exact ⟨(hf sa').symm, (hcreator sa').symm⟩
    · exact ⟨rfl, rfl⟩
  keys k hk := ⟨k, hk, rfl⟩

/-- An assignment ends no session. -/
lemma quiet_assignRole {r : UserOrganisationRole} (h : t.assignRole r = .ok t') : t.Quiet t' := by
  by_cases hadd : t.Addable r
  · rw [assignRole_of_addable hadd] at h
    cases h
    exact quiet_addRole
  · exact assignRole_eq_ok h hadd ▸ .refl

/-- A new event ends no session. -/
lemma quiet_insertAuditEvent {e : AuditEvent} (h : t.insertAuditEvent e = .ok t') :
    t.Quiet t' := by
  rw [(insertAuditEvent_eq_ok h).2.2]
  exact .of_eq rfl rfl rfl rfl

/-- A new reset token ends no session. -/
lemma quiet_insertPasswordResetToken {p : PasswordResetToken}
    (h : t.insertPasswordResetToken p = .ok t') : t.Quiet t' := by
  obtain ⟨rows, -, rfl⟩ := insertPasswordResetToken_eq_ok h
  exact .of_eq rfl rfl rfl rfl

end Tables

/-! ## Quiet effects -/

/-- The effects that are quiet. -/
def Effect.IsQuiet : Effect → Prop
  | deleteUser _ | revokeToken _ | addServiceAccount _ | addKey _ => False
  | _ => True

section Effects
variable [CaseMapping] {t t' : Tables} {e : Effect}

/-- A quiet effect makes a quiet change. -/
lemma Effect.quiet (he : e.IsQuiet) (h : Effect.apply t e = .ok t') : t.Quiet t' := by
  cases e with
  | addOrganisation o =>
    obtain ⟨-, rfl⟩ := Tables.insertOrganisation_eq_ok h
    exact Tables.quiet_addOrganisation
  | addUser u =>
    obtain ⟨hfree, rfl⟩ := Tables.insertUser_eq_ok h
    exact Tables.quiet_addUser hfree
  | addRole r => exact Tables.quiet_assignRole h
  | addResetToken p => exact Tables.quiet_insertPasswordResetToken h
  | addEvent e => exact Tables.quiet_insertAuditEvent h
  | addChannel c =>
    obtain ⟨rows, -, rfl⟩ := Tables.insertChannel_eq_ok h
    exact .of_eq rfl rfl rfl rfl
  | updateChannel org channelId name description channelType isActive now =>
    obtain ⟨a, hupdate⟩ := Effect.apply_updateChannel h
    rcases Tables.updateChannel_cases hupdate with ⟨-, rfl⟩ | ⟨-, rfl⟩
    · exact .refl
    · exact .of_eq rfl rfl rfl rfl
  | setFlag f =>
    obtain ⟨-, rfl⟩ := Tables.upsertFeature_eq_ok h
    exact .of_eq rfl rfl rfl rfl
  | revokeKey id owner now =>
    cases owner <;> cases h <;> exact Tables.quiet_revokeKeys
  | setPassword u hash now =>
    cases h
    exact Tables.quiet_setPasswordHash
  | touchServiceAccount u now =>
    cases h
    exact Tables.quiet_updateAccounts fun _ => rfl
  | touchKey id now =>
    cases h
    exact Tables.quiet_updateKeys fun _ => rfl
  | removeMember _ _ | dropOldestPending _ _ | consumeToken _ _ | deleteChannel _ _ | clearFlag _ _ =>
    cases h
    exact .of_eq rfl rfl rfl rfl
  | deleteUser _ | revokeToken _ | addServiceAccount _ | addKey _ => exact False.elim he

/-- Quiet effects one after the other make a quiet change. -/
lemma Effect.quiet_of_follows {A : Tables → Effect → Prop} (hA : ∀ t e, A t e → e.IsQuiet)
    (h : Relation.ReflTransGen (Effect.Step A) t t') : t.Quiet t' :=
  Effect.invariant (fun _ _ _ he happly hs => hs.trans (Effect.quiet (hA _ _ he) happly)) h .refl

end Effects

section Permits
variable [Argon2] [CaseMapping] {c : AuthedCaller} {t₀ t : Tables} {now : Timestamp} {w : World}
  {e : Effect}

/-- A request has quiet effects only, unless it is a logout or one for a guarded resource. -/
lemma Route.Permits.quiet {route : Route} (h : route.Permits c t₀ now t e) (hlogout : route ≠ .logout)
    (hresource : ∀ n action, route ≠ .resource n action) : e.IsQuiet := by
  cases route with
  | logout => exact absurd rfl hlogout
  | resource n action => exact absurd rfl (hresource n action)
  | _ => cases e <;> trivial

/-- An operation has quiet effects only, unless it is a logout or a request for a guarded resource. -/
lemma Operation.Permits.quiet [Sha256] {operation : Operation} (h : operation.Permits w t e)
    (hlogout : ∀ c kind, operation ≠ .request c kind .logout)
    (hresource : ∀ c kind n action, operation ≠ .request c kind (.resource n action)) :
    e.IsQuiet := by
  cases operation with
  | request c kind req =>
    obtain ⟨route, hroute, -, hpermits⟩ := h
    refine hpermits.quiet ?_ fun n action => ?_
    · rintro rfl
      cases req <;> cases hroute
      exact hlogout c kind rfl
    · rintro rfl
      cases req <;> cases hroute
      exact hresource c kind _ _ rfl
  | _ => cases e <;> trivial

end Permits

/-! ## What an operation does -/

namespace OperationCall

/-- What an operation does to revocations, users, service accounts and API keys. -/
inductive Outcome [CaseMapping] (x : OperationCall) (t t' : Tables) : Prop
  | quiet (h : t.Quiet t')
  | revokes (c : AuthedCaller) (kind : Caller) (op : x.operation = .request c kind .logout)
      (h : t.insertRevokedToken (c.claims.revocation x.world.now) = .ok t')
  | resource (c : AuthedCaller) (kind : Caller) (n : Names) (action : ResourceAction)
      (op : x.operation = .request c kind (.resource n action))
      (deletes : action = .deleteServiceAccount → x.Deletes n.serviceAccount)
      (h : action.Changes c kind n t t')

section Outcome
variable {w : World} {c : AuthedCaller} {kind : Caller}

/-- A logout revokes its token or changes nothing. -/
lemma outcome_logout [CaseMapping] :
    Outcome ⟨w, .request c kind .logout⟩ w.tables
      ((postLogout (c.extensions kind)).run w).2.tables := by
  cases hrun : (postLogout (c.extensions kind)).run w with
  | mk r v =>
    cases r with
    | ok code => exact .revokes c kind rfl (postLogout_eq_ok hrun).1
    | error e =>
      have hsame : v.tables = w.tables := atomic_postLogout _ _ _ hrun
      exact .quiet (hsame ▸ .refl)

variable [Platform]

/-- A request on a resource is quiet. -/
lemma outcome_resource {n : Names} {action : ResourceAction} :
    Outcome ⟨w, .request c kind (.resource n action)⟩ w.tables
      ((action.serve (c.extensions kind) n).run w).2.tables := by
  by_cases hdelete : action = .deleteServiceAccount
  · subst hdelete
    have hanswer :
        ((ResourceAction.serve (c.extensions kind) n .deleteServiceAccount).run w).2.tables =
        ((deleteServiceAccountHandler (c.extensions kind) n.serviceAccount).run w).2.tables :=
      Prog.Reads.after_bind (V := World.tables) fun _ => Prog.Reads.ret
    rw [hanswer, deleteServiceAccountHandler_tables]
    split
    · rename_i hgate
      obtain ⟨hhuman, haccept⟩ := (Bool.and_eq_true _ _).mp hgate
      by_cases hdismisses : Dismisses w c.claims.org n.serviceAccount
      · rw [deleteServiceAccountRows_of_dismisses hdismisses]
        exact .resource c kind n _ rfl (fun _ => ⟨rfl, hhuman, haccept, hdismisses⟩)
          (.dismisses rfl hhuman hdismisses.homed hdismisses.isServiceAccount
            hdismisses.unreferenced)
      · exact .quiet (deleteServiceAccountRows_of_not_dismisses hdismisses ▸ .refl)
    · exact .quiet .refl
  · have hwrites : Prog.Writes World.tables (action.Changes c kind n)
        (action.serve (c.extensions kind) n) := writes_serve
    rcases hwrites w with h | h
    · exact .quiet (h ▸ .refl)
    · exact .resource c kind n action rfl (fun h => absurd h hdelete) h

variable [Sha256] [AuditCursorText] {config : JwtConfig}

/-- What an operation does. -/
theorem outcome {x : OperationCall} : Outcome x x.world.tables (x.serve config).tables := by
  by_cases hlogout : ∃ c kind, x.operation = .request c kind .logout
  · obtain ⟨w, operation⟩ := x
    obtain ⟨c, kind, rfl⟩ := hlogout
    exact outcome_logout
  by_cases hresource : ∃ c kind n action, x.operation = .request c kind (.resource n action)
  · obtain ⟨w, operation⟩ := x
    obtain ⟨c, kind, n, action, rfl⟩ := hresource
    exact outcome_resource
  · refine .quiet (Effect.quiet_of_follows (fun t e he => ?_) serve_follows)
    exact Operation.Permits.quiet he (fun c kind h => hlogout ⟨c, kind, h⟩)
      fun c kind n action h => hresource ⟨c, kind, n, action, h⟩

/-- What a step does. -/
lemma Step.outcome {x : OperationCall} {i j : Instant} (step : x.Step config i j) :
    x.Outcome i.tables j.tables :=
  step.pre ▸ step.post ▸ OperationCall.outcome

end Outcome
end OperationCall
end Egras
