import Egras.Resources.Outcome

/-!
# Which rows the requests for guarded resources change

Each of the changes that a request can make is confined to the organisation whose rows it selects,
one lemma for each (`confined_channels`, `confined_flags`, `confined_hired` and so on). The changes
of a caller that operates on no other tenants are confined to its own organisation
(`Changes.confined`), provided that service accounts have roles at home only: the roles of an
account that is deleted go with its user, wherever they are.
-/

namespace Egras
open Lib

namespace Tables
variable {t t' : Tables} {org : Uuid}

/-- Nothing has changed. -/
lemma Confined.refl : t.Confined org t where
  organisations := rfl
  users := .refl
  passwordResetTokens := .refl
  revokedTokens := .refl
  roles := rfl
  permissions := rfl
  rolePermissions := rfl
  userOrganisationRoles := .refl
  inboundChannels := .refl
  serviceAccounts := .refl
  apiKeys := .refl
  featureDefinitions := rfl
  organisationFeatures := .refl
  auditEvents := rfl

/-- Changes of an organisation's channels are confined to it. -/
lemma confined_channels (h : ChannelsChanged org t t') : t.Confined org t' := by
  obtain ⟨rows, rfl, hrows⟩ := h
  exact { (Confined.refl : t.Confined org t) with inboundChannels := hrows }

/-- An organisation sets only flags that are its own to set. -/
lemma MaySet.selfService {slug : String} (h : t.MaySet false slug) : t.SelfService slug := by
  obtain ⟨d, hfind, hself⟩ := h
  obtain ⟨hd, hslug⟩ := Table.find?_eq_some.mp hfind
  exact ⟨d, hd, hslug, by simpa using hself⟩

/-- Changes of an organisation's flags are confined to it. -/
lemma confined_flags {actor : Uuid} (h : FlagsChanged org actor false t t') : t.Confined org t' := by
  obtain ⟨rows, rfl, hrows⟩ := h
  refine { (Confined.refl : t.Confined org t) with organisationFeatures := ?_ }
  exact ⟨fun f hf hn => (hrows.removed f hf hn).imp_right MaySet.selfService,
    fun f hf hn => ⟨(hrows.added f hf hn).1, (hrows.added f hf hn).2.1.selfService⟩⟩

/-- Changes of its service accounts' keys are confined to it. -/
lemma confined_keys {rows : Table ApiKeyRecord ApiKeyRecord.key}
    (h : Table.ChangedIn (fun k => t.OwnsAccount org k.serviceAccountUserId)
      (fun k => t.OwnsAccount org k.serviceAccountUserId) t.apiKeys rows) :
    t.Confined org { t with apiKeys := rows } :=
  { (Confined.refl : t.Confined org t) with apiKeys := h }

/-- An insertable key is a row of its own. -/
lemma Insertable.addKey_eq {k : ApiKeyRecord} (h : t.Insertable k) :
    ∃ rows, t.apiKeys.insert? k = some rows ∧ t.addKey k = { t with apiKeys := rows } := by
  cases hrows : t.apiKeys.insert? k with
  | none =>
    obtain ⟨q, hq, hkey⟩ := Table.insert?_eq_none.mp hrows
    exact absurd hkey (h.id q hq)
  | some rows => exact ⟨rows, rfl, by simp [addKey, hrows]⟩

/-- A new key of its service account is confined to it. -/
lemma confined_addKey {k : ApiKeyRecord} (hins : t.Insertable k)
    (h : t.OwnsAccount org k.serviceAccountUserId) : t.Confined org (t.addKey k) := by
  obtain ⟨rows, hrows, heq⟩ := hins.addKey_eq
  rw [heq]
  exact confined_keys (Table.changedIn_insert? hrows h)

/-- Keys of the organisation's accounts are revoked. -/
lemma changedIn_revokeKeys {p : ApiKeyRecord → Bool} {now : Timestamp}
    (h : ∀ k ∈ t.apiKeys, p k = true → t.OwnsAccount org k.serviceAccountUserId) :
    Table.ChangedIn (fun k => t.OwnsAccount org k.serviceAccountUserId)
      (fun k => t.OwnsAccount org k.serviceAccountUserId) t.apiKeys (t.revokeKeys p now).apiKeys :=
  @Table.changedIn_updateWhere _ _ _ _ _ _ _ _ (revokedKey_key now)
    fun k hk hp => ⟨h k hk hp, h k hk hp⟩

/-- A rotated key of its service account is confined to it. -/
lemma confined_rotate {k : ApiKeyRecord} {keyId : Uuid} {now : Timestamp}
    (hheld : t.HoldsKey k.serviceAccountUserId keyId)
    (hins : (t.revokeActive keyId now).Insertable k)
    (h : t.OwnsAccount org k.serviceAccountUserId) :
    t.Confined org ((t.revokeActive keyId now).addKey k) := by
  obtain ⟨rows, hrows, heq⟩ := hins.addKey_eq
  rw [heq]
  refine confined_keys ((changedIn_revokeKeys fun q hq hp => ?_).trans
    (Table.changedIn_insert? hrows h))
  obtain ⟨old, hold, hid, haccount⟩ := hheld
  obtain ⟨hqid, -⟩ := (Bool.and_eq_true _ _).mp hp
  have hsame : q = old := key_eq_of_id hq hold ((of_decide_eq_true hqid).trans hid.symm)
  rw [hsame, haccount]
  exact h

/-- A revoked key of its service account is confined to it. -/
lemma confined_revoke {saUserId keyId : Uuid} {now : Timestamp} (h : t.OwnsAccount org saUserId) :
    t.Confined org (t.revokeOwn saUserId keyId now) := by
  refine confined_keys (changedIn_revokeKeys fun k _ hp => ?_)
  simp only [Bool.and_eq_true, decide_eq_true_eq] at hp
  rw [hp.1.2]
  exact h

/-- A new service account of the organisation comes with its user. -/
lemma confined_hired [CaseMapping] {w : World} {req : NewServiceAccount} (h : Hires w req) :
    w.tables.Confined req.organisationId (hired w req) := by
  obtain ⟨users, husers⟩ := users_insert?_of_free h.free
  have hadd : w.tables.addUser (serviceAccountUser w) = { w.tables with users := users } := by
    simp [addUser, husers]
  obtain ⟨-, accounts, haccounts⟩ := insertServiceAccount_eq_ok h.accepted
  have heq : hired w req = { w.tables with users := users, serviceAccounts := accounts } := by
    unfold hired addServiceAccount
    rw [haccounts, hadd]
  rw [hadd] at haccounts
  rw [heq]
  have hstored : newServiceAccount w req ∈ accounts :=
    (Table.mem_insert? haccounts).mpr (Or.inr rfl)
  exact { (Confined.refl : w.tables.Confined req.organisationId w.tables) with
    users := Table.changedIn_insert? husers ⟨_, hstored, rfl, rfl⟩
    serviceAccounts := Table.changedIn_insert? haccounts rfl
    apiKeys := .refl }

/-- With a service account of the organisation goes what hangs on its user; its roles are in the
organisation, when accounts have roles at home only. -/
lemma confined_cascadeUser {u : Uuid} (homed : t.Homed) (hu : t.isServiceAccount u = true)
    (howns : t.OwnsAccount org u) : t.Confined org (t.cascadeUser u) := by
  have hrow : ∀ v, decide (v = u) = true → t.OwnsAccount org v := by
    intro v hv
    rw [of_decide_eq_true hv]
    exact howns
  obtain ⟨sa, hsa, hid, horg⟩ := howns
  have hhome : ∀ r ∈ t.userOrganisationRoles, decide (r.userId = u) = true →
      r.organisationId = org := by
    intro r hr hru
    have hsame := of_decide_eq_true hru
    obtain ⟨sa', hfind⟩ := Option.isSome_iff_exists.mp (homed r hr (hsame ▸ hu))
    obtain ⟨hsa', hid', horg'⟩ := serviceAccount_eq_some.mp hfind
    have heq : sa' = sa := Table.eq_of_key hsa' hsa (hid'.trans (hsame.trans hid.symm))
    rw [← horg', heq, horg]
  have haccount : ∀ other ∈ t.serviceAccounts, decide (other.userId = u) = true →
      other.organisationId = org := by
    intro other hother hou
    have heq : other = sa := Table.eq_of_key hother hsa ((of_decide_eq_true hou).trans hid.symm)
    rw [heq, horg]
  exact { (Confined.refl : t.Confined org t) with
    users := Table.changedIn_deleteWhere fun q _ hq => hrow _ hq
    passwordResetTokens := Table.changedIn_deleteWhere fun p _ hp => hrow _ hp
    revokedTokens := Table.changedIn_deleteWhere fun r _ hr => hrow _ hr
    userOrganisationRoles := Table.changedIn_deleteWhere hhome
    serviceAccounts := Table.changedIn_deleteWhere haccount
    apiKeys := Table.changedIn_deleteWhere fun k _ hk => hrow _ hk }

end Tables

section Confined
variable {c : AuthedCaller} {kind : Caller} {n : Names} {act : ResourceAction}
  {t t' : Tables}

/-- A caller that operates on no other tenants names its own organisation. -/
lemma AuthedCaller.eq_of_mayName {orgId : Uuid} (h : c.mayName orgId = true)
    (hop : c.permissions.isOperatorOverTenants = false) : orgId = c.claims.org := by
  unfold mayName at h
  rw [hop] at h
  simpa [eq_comm] using h

/-- A lookup in the organisation of the token finds an account of it. -/
lemma Tables.ownsAccount_of_serviceAccount {org u : Uuid}
    (h : (t.serviceAccount org u).isSome = true) : t.OwnsAccount org u := by
  obtain ⟨sa, hfind⟩ := Option.isSome_iff_exists.mp h
  exact ⟨sa, Tables.serviceAccount_eq_some.mp hfind⟩

/-- What an ordinary caller changes is its organisation's. -/
lemma ResourceAction.Changes.confined [CaseMapping] (h : act.Changes c kind n t t') (homed : t.Homed)
    (hop : c.permissions.isOperatorOverTenants = false) : t.Confined c.claims.org t' := by
  cases h with
  | channels may h =>
    rw [AuthedCaller.eq_of_mayName may hop] at h
    exact Tables.confined_channels h
  | flags may h =>
    rw [AuthedCaller.eq_of_mayName may hop, hop] at h
    exact Tables.confined_flags h
  | hires w name description _ may tables hires h =>
    have horg := AuthedCaller.eq_of_mayName may hop
    have hconfined := Tables.confined_hired hires
    rw [← h, tables] at hconfined
    exact horg ▸ hconfined
  | dismisses _ _ hhome haccount h =>
    rw [Tables.deleteUser_eq_ok h]
    exact Tables.confined_cascadeUser homed haccount (Tables.ownsAccount_of_serviceAccount hhome)
  | adds k _ hhome new insertable h =>
    rw [h]
    refine Tables.confined_addKey insertable ?_
    rw [new.account]
    exact Tables.ownsAccount_of_serviceAccount hhome
  | rotates k now _ hhome held new insertable h =>
    rw [h]
    refine Tables.confined_rotate (new.account ▸ held) insertable ?_
    rw [new.account]
    exact Tables.ownsAccount_of_serviceAccount hhome
  | revokes now _ hhome h =>
    rw [h]
    exact Tables.confined_revoke (Tables.ownsAccount_of_serviceAccount hhome)

end Confined
end Egras
