import Egras.Service.Quiet

/-!
# Who stands behind service accounts and API keys

In every run of the service each service account has its user, and service accounts and API keys
were created by human users (`Attributed`): only humans may create them, users never change their
kind, and human users are never deleted. `Attributed.serve` is the step lemma and `Attributed.run`
the run lemma.
-/

namespace Egras
open Lib

namespace Tables
variable {t t' : Tables} {u : Uuid}

/-- A human user is stored under an identifier. -/
def IsHuman (t : Tables) (u : Uuid) : Prop := ∃ q ∈ t.users, q.id = u ∧ q.kind = .human

/-- Each service account has its user, and service accounts and API keys were created by humans. -/
structure Attributed (t : Tables) : Prop where
  user : ∀ sa ∈ t.serviceAccounts, ∃ q ∈ t.users, q.id = sa.userId ∧ q.kind = .serviceAccount
  account : ∀ sa ∈ t.serviceAccounts, t.IsHuman sa.createdBy
  key : ∀ k ∈ t.apiKeys, t.IsHuman k.createdBy

/-- Users that keep their kind stay human. -/
lemma IsHuman.preserved (h : t.IsHuman u)
    (husers : ∀ q ∈ t.users, ∃ q' ∈ t'.users, q'.id = q.id ∧ q'.kind = q.kind) : t'.IsHuman u := by
  obtain ⟨q, hq, rfl, hkind⟩ := h
  obtain ⟨q', hq', hid, hkind'⟩ := husers q hq
  exact ⟨q', hq', hid, hkind'.trans hkind⟩

/-- Quiet changes keep the tables attributed. -/
lemma Attributed.quiet (h : t.Attributed) (hquiet : t.Quiet t') : t'.Attributed where
  user sa hsa := by
    obtain ⟨sa', hsa', hid, -⟩ := hquiet.accounts sa hsa
    obtain ⟨q, hq, hqid, hkind⟩ := h.user sa' hsa'
    obtain ⟨q', hq', hid', hkind'⟩ := hquiet.users q hq
    exact ⟨q', hq', hid'.trans (hqid.trans hid), hkind'.trans hkind⟩
  account sa hsa := by
    obtain ⟨sa', hsa', -, hcreator⟩ := hquiet.accounts sa hsa
    rw [← hcreator]
    exact (h.account sa' hsa').preserved hquiet.users
  key k hk := by
    obtain ⟨k', hk', hcreator⟩ := hquiet.keys k hk
    rw [← hcreator]
    exact (h.key k' hk').preserved hquiet.users

/-- A new key of a human keeps the tables attributed. -/
lemma Attributed.addKey {k : ApiKeyRecord} (h : t.Attributed) (hins : t.Insertable k)
    (hcreator : t.IsHuman k.createdBy) : (t.addKey k).Attributed where
  user sa hsa := by
    rw [addKey_serviceAccounts] at hsa
    rw [addKey_users]
    exact h.user sa hsa
  account sa hsa := by
    rw [addKey_serviceAccounts] at hsa
    unfold IsHuman
    rw [addKey_users]
    exact h.account sa hsa
  key q hq := by
    unfold IsHuman
    rw [addKey_users]
    rcases hins.mem_addKey.mp hq with hold | rfl
    · exact h.key q hold
    · exact hcreator

/-- A new service account comes with its user; when a human creates it, the tables stay
attributed. -/
lemma Attributed.hired [CaseMapping] {w : World} {req : NewServiceAccount} (h : w.tables.Attributed)
    (hhires : Hires w req) (hcreator : w.tables.IsHuman req.createdBy) :
    (Egras.hired w req).Attributed := by
  have husers := (quiet_addUser hhires.free).users
  obtain ⟨-, rows, hrows⟩ := insertServiceAccount_eq_ok hhires.accepted
  have hmem : ∀ sa, sa ∈ (Egras.hired w req).serviceAccounts ↔
      sa ∈ w.tables.serviceAccounts ∨ sa = newServiceAccount w req := by
    intro sa
    have haccounts : (Egras.hired w req).serviceAccounts = rows := by
      unfold Egras.hired addServiceAccount
      rw [hrows]
    rw [haccounts, Table.mem_insert? hrows, addUser_serviceAccounts]
  have hstored : (Egras.hired w req).users = (w.tables.addUser (serviceAccountUser w)).users :=
    addServiceAccount_users
  constructor
  case user =>
    intro sa hsa
    rw [hstored]
    rcases (hmem sa).mp hsa with hold | rfl
    · obtain ⟨q, hq, hid, hkind⟩ := h.user sa hold
      exact ⟨q, (mem_addUser hhires.free).mpr (Or.inl hq), hid, hkind⟩
    · exact ⟨serviceAccountUser w, (mem_addUser hhires.free).mpr (Or.inr rfl), rfl, rfl⟩
  case account =>
    intro sa hsa
    unfold IsHuman
    rw [hstored]
    rcases (hmem sa).mp hsa with hold | rfl
    · exact (h.account sa hold).preserved husers
    · exact hcreator.preserved husers
  case key =>
    intro k hk
    unfold IsHuman
    rw [hstored]
    have hold : k ∈ w.tables.apiKeys := by
      rwa [Egras.hired, addServiceAccount_apiKeys, addUser_apiKeys] at hk
    exact (h.key k hold).preserved husers

/-- The user of a service account is no human. -/
lemma Attributed.not_human {sa : ServiceAccount} (h : t.Attributed) (hsa : sa ∈ t.serviceAccounts)
    (hu : t.IsHuman u) : u ≠ sa.userId := by
  rintro rfl
  obtain ⟨q, hq, hid, hkind⟩ := h.user sa hsa
  obtain ⟨q', hq', hid', hkind'⟩ := hu
  rw [Table.eq_of_key hq hq' (hid.trans hid'.symm), hkind'] at hkind
  cases hkind

/-- The deletion of a service account keeps the tables attributed. -/
lemma Attributed.cascadeUser {sa : ServiceAccount} (h : t.Attributed)
    (hsa : sa ∈ t.serviceAccounts) : (t.cascadeUser sa.userId).Attributed := by
  have hhuman : ∀ {u}, t.IsHuman u → (t.cascadeUser sa.userId).IsHuman u := by
    intro u hu
    have hne := h.not_human hsa hu
    obtain ⟨q, hq, rfl, hkind⟩ := hu
    exact ⟨q, Table.mem_deleteWhere.mpr ⟨hq, decide_eq_false hne⟩, rfl, hkind⟩
  constructor
  case user =>
    intro other hother
    obtain ⟨hother, hne⟩ := Table.mem_deleteWhere.mp hother
    obtain ⟨q, hq, hid, hkind⟩ := h.user other hother
    refine ⟨q, Table.mem_deleteWhere.mpr ⟨hq, ?_⟩, hid, hkind⟩
    rw [hid]
    exact hne
  case account =>
    exact fun other hother => hhuman (h.account other (Table.mem_deleteWhere.mp hother).1)
  case key => exact fun k hk => hhuman (h.key k (Table.mem_deleteWhere.mp hk).1)

end Tables

/-- A request for guarded resources keeps the tables attributed, when humans are humans. -/
lemma ResourceAction.Changes.attributed [CaseMapping] {c : AuthedCaller} {kind : Caller} {n : Names}
    {act : ResourceAction} {t t' : Tables} (h : act.Changes c kind n t t') (ht : t.Attributed)
    (genuine : kind.isHuman = true → t.IsHuman c.claims.sub) : t'.Attributed := by
  cases h with
  | channels _ h =>
    obtain ⟨rows, rfl, -⟩ := h
    exact ht.quiet (.of_eq rfl rfl rfl rfl)
  | flags _ h =>
    obtain ⟨rows, rfl, -⟩ := h
    exact ht.quiet (.of_eq rfl rfl rfl rfl)
  | hires w name description human _ tables hires h =>
    subst tables
    rw [h]
    exact ht.hired hires (genuine human)
  | dismisses _ _ homed _ h =>
    obtain ⟨sa, hfind⟩ := Option.isSome_iff_exists.mp homed
    obtain ⟨hsa, hid, -⟩ := Tables.serviceAccount_eq_some.mp hfind
    rw [Tables.deleteUser_eq_ok h, ← hid]
    exact ht.cascadeUser hsa
  | adds k human _ new insertable h =>
    rw [h]
    exact ht.addKey insertable (new.creator ▸ genuine human)
  | rotates k now human _ _ new insertable h =>
    rw [h]
    exact (ht.quiet Tables.quiet_revokeKeys).addKey insertable (new.creator ▸ genuine human)
  | revokes now _ _ h =>
    rw [h]
    exact ht.quiet Tables.quiet_revokeKeys

namespace OperationCall
variable {x : OperationCall}

/-- A caller that is no API key is a human user. -/
def Genuine (x : OperationCall) : Prop :=
  ∀ c kind req, x.operation = .request c kind req → kind.isHuman = true →
    x.world.tables.IsHuman c.claims.sub

variable [Platform] [Sha256] [AuditCursorText] {config : JwtConfig}

/-- An operation keeps the tables attributed. -/
lemma attributed_serve (h : x.world.tables.Attributed) (genuine : x.Genuine) :
    (x.serve config).tables.Attributed := by
  have houtcome : x.Outcome x.world.tables (x.serve config).tables := outcome
  cases houtcome with
  | quiet hquiet => exact h.quiet hquiet
  | revokes c kind op hinsert =>
    obtain ⟨⟨rows, hrows⟩, -⟩ := Tables.insertRevokedToken_eq_ok hinsert
    rw [hrows]
    exact ⟨h.user, h.account, h.key⟩
  | resource c kind n action op _ hchanges => exact hchanges.attributed h (genuine c kind _ op)

/-- In every run by genuine callers the tables stay attributed. -/
theorem attributed_run {i₀ i : Instant} {ms : List (Move Instant OperationCall)}
    (init : i₀.tables.Attributed) (run : Run (Step config) i₀ ms i)
    (genuine : ∀ m ∈ ms, m.label.Genuine) : i.tables.Attributed := by
  refine run.invariant (fun i => i.tables.Attributed) (fun m => m.label.Genuine) init ?_ genuine
  rintro a x b ⟨hpre, -, hpost, -⟩ hgenuine h
  rw [← hpost]
  exact attributed_serve (hpre ▸ h) hgenuine

end OperationCall
end Egras
