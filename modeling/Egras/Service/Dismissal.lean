import Egras.Service.Attribution

/-!
# Whether a service account can be deleted

A service account is deleted through its user, and everything that hangs on the user goes with it,
with three exceptions: the creators of service accounts and of API keys, who are humans in every
reachable state, and the last author of a flag, who need not be one. So in every reachable state a
service account can be deleted exactly when no flag was last set by one of its keys
(`dismissible_iff`).
-/

namespace Egras
open Lib

namespace Tables
variable {t t' : Tables} {u : Uuid} {sa : ServiceAccount}

/-- No row refers to a user. -/
structure Forgets (t : Tables) (u : Uuid) : Prop where
  users : ∀ q ∈ t.users, q.id ≠ u
  accounts : ∀ sa ∈ t.serviceAccounts, sa.userId ≠ u ∧ sa.createdBy ≠ u
  keys : ∀ k ∈ t.apiKeys, k.serviceAccountUserId ≠ u ∧ k.createdBy ≠ u
  roles : ∀ r ∈ t.userOrganisationRoles, r.userId ≠ u

/-- No flag was last set by a user. -/
def NotAuthor (t : Tables) (u : Uuid) : Prop := ∀ f ∈ t.organisationFeatures, f.updatedBy ≠ u

/-- After its user has been deleted no row refers to a service account. -/
lemma Attributed.forgets (h : t.Attributed) (hsa : sa ∈ t.serviceAccounts) :
    (t.cascadeUser sa.userId).Forgets sa.userId where
  users q hq := of_decide_eq_false (Table.mem_deleteWhere.mp hq).2
  accounts other hother := by
    obtain ⟨hother, hne⟩ := Table.mem_deleteWhere.mp hother
    exact ⟨of_decide_eq_false hne, h.not_human hsa (h.account other hother)⟩
  keys k hk := by
    obtain ⟨hk, hne⟩ := Table.mem_deleteWhere.mp hk
    exact ⟨of_decide_eq_false hne, h.not_human hsa (h.key k hk)⟩
  roles r hr := of_decide_eq_false (Table.mem_deleteWhere.mp hr).2

/-- The user of a service account can be deleted exactly when it is the author of no flag. -/
lemma Attributed.deleteUser_iff (h : t.Attributed) (hsa : sa ∈ t.serviceAccounts) :
    t.deleteUser sa.userId = .ok (t.cascadeUser sa.userId) ↔ t.NotAuthor sa.userId := by
  have hforgets := h.forgets hsa
  have haccounts : (t.cascadeUser sa.userId).serviceAccounts.any
      (fun other => other.createdBy = sa.userId) = false :=
    Table.any_eq_false.mpr fun other hother => by simpa using (hforgets.accounts other hother).2
  have hkeys : (t.cascadeUser sa.userId).apiKeys.any (fun k => k.createdBy = sa.userId) = false :=
    Table.any_eq_false.mpr fun k hk => by simpa using (hforgets.keys k hk).2
  have hfeatures : t.NotAuthor sa.userId ↔ (t.cascadeUser sa.userId).organisationFeatures.any
      (fun f => f.updatedBy = sa.userId) = false := by
    rw [Table.any_eq_false]
    exact forall₂_congr fun f _ => by rw [decide_eq_true_eq]
  rw [hfeatures]
  unfold deleteUser
  dsimp only
  rw [haccounts, hkeys, if_neg Bool.false_ne_true, if_neg Bool.false_ne_true]
  cases (t.cascadeUser sa.userId).organisationFeatures.any (fun f => f.updatedBy = sa.userId) with
  | false => exact ⟨fun _ => rfl, fun _ => rfl⟩
  | true => simp

end Tables

/-! ## The deletion -/

section Delete
variable {w v : World} {input : DeleteServiceAccountInput} {sa : ServiceAccount}

/-- A deletion that is answered and accepted returns. -/
lemma deleteServiceAccount_of_dismisses (h : Dismisses w input.organisationId input.saUserId) :
    ∃ v, (deleteServiceAccount input).run w = (.ok (), v) ∧
      v.tables = w.tables.cascadeUser input.saUserId :=
  ⟨_, Prog.run_bind_ok (Prog.run_mapErr_ok (run_deleteServiceAccountRows h)) rfl, rfl⟩

/-- What a deletion that returns tells. -/
lemma deleteServiceAccount_eq_ok (h : (deleteServiceAccount input).run w = (.ok (), v)) :
    w.tables.deleteUser input.saUserId = .ok (w.tables.cascadeUser input.saUserId) := by
  obtain ⟨removed, w₁, hdelete, h₁⟩ := Prog.bind_eq_ok h
  obtain ⟨_, w₂, hrequire, -⟩ := Prog.bind_eq_ok h₁
  obtain ⟨rfl, rfl⟩ := require_eq_ok hrequire
  obtain ⟨found, w₃, hquery, hrows⟩ := Prog.bind_eq_ok (Prog.mapErr_eq_ok hdelete)
  obtain ⟨-, rfl, -⟩ := query_eq_ok hquery
  cases found with
  | none => cases hrows
  | some sa =>
    obtain ⟨t, heffect, rfl, -⟩ := execute_eq_ok hrows
    split at heffect
    · obtain ⟨hdeleted, -⟩ := return_eq_ok.mp heffect
      have hcascade := Tables.deleteUser_eq_ok hdeleted
      exact hcascade ▸ hdeleted
    · cases heffect

/-- The deletion of an account of no such organisation changes nothing. -/
lemma deleteServiceAccount_of_foreign
    (h : w.tables.serviceAccount input.organisationId input.saUserId = none) :
    ((deleteServiceAccount input).run w).2.tables = w.tables := by
  unfold deleteServiceAccount
  rw [Prog.Reads.after_bind (V := World.tables), Prog.run_mapErr]
  · exact deleteServiceAccountRows_of_not_dismisses fun hd => by simpa [h] using hd.homed
  · exact fun _ => Prog.Reads.bind reads_require fun _ => reads_tables_record

end Delete

/-- Whoever deletes a service account from its organisation, when the database answers: the deletion
returns, no row refers to the account afterwards, and no key that it had is verified. -/
def Tables.Dismissible [Argon2] (t : Tables) (sa : ServiceAccount) : Prop :=
  ∀ (w : World) (input : DeleteServiceAccountInput), w.tables = t → w.answersAll 2 = true →
    input.organisationId = sa.organisationId → input.saUserId = sa.userId →
    ∃ v, (deleteServiceAccount input).run w = (.ok (), v) ∧ v.tables.Forgets sa.userId ∧
      ∀ k ∈ t.apiKeys, k.serviceAccountUserId = sa.userId →
        ∀ (w' v' : World) (keyPrefix secret : String) (verified : VerifiedKey),
          w'.tables = v.tables → (verifyKey keyPrefix secret).run w' = (.ok (some verified), v') →
          verified.keyId ≠ k.id

/-- The deletion of an account of another organisation changes nothing. -/
def Tables.Shielded (t : Tables) : Prop :=
  ∀ (w : World) (input : DeleteServiceAccountInput), w.tables = t →
    (∀ sa ∈ t.serviceAccounts, sa.userId = input.saUserId →
      sa.organisationId ≠ input.organisationId) →
    ((deleteServiceAccount input).run w).2.tables = t

/-- All tables are shielded: the deletion names the organisation. -/
lemma Tables.shielded (t : Tables) : t.Shielded := by
  intro w input hw hforeign
  subst hw
  refine deleteServiceAccount_of_foreign (Option.eq_none_iff_forall_ne_some.mpr fun sa hfind => ?_)
  obtain ⟨hsa, hid, horg⟩ := Tables.serviceAccount_eq_some.mp hfind
  exact hforeign sa hsa hid horg

section Runs
variable [Platform] [Sha256] [AuditCursorText] {config : JwtConfig} {sa : ServiceAccount}

/-- In every state that genuine callers reach by any operations, a service account can be deleted
from its organisation, without a trace, and from no other, exactly when it is the last author of no
flag. -/
theorem dismissible_iff {i₀ i : Instant} {ms : List (Move Instant OperationCall)}
    (init : i₀.tables.Attributed) (run : Run (OperationCall.Step config) i₀ ms i)
    (genuine : ∀ m ∈ ms, m.label.Genuine) (hsa : sa ∈ i.tables.serviceAccounts) :
    i.tables.Dismissible sa ∧ i.tables.Shielded ↔ i.tables.NotAuthor sa.userId := by
  have hattributed := OperationCall.attributed_run init run genuine
  obtain ⟨t, now⟩ := i
  rw [← hattributed.deleteUser_iff hsa, and_iff_left t.shielded]
  constructor
  · intro hdismissible
    obtain ⟨v, hrun, -⟩ := hdismissible (.calm t now) ⟨sa.organisationId, sa.userId, 0, 0⟩
      rfl rfl rfl rfl
    exact deleteServiceAccount_eq_ok hrun
  · rintro hdelete w ⟨o, u, actor, actorOrg⟩ hw hanswers horg hu
    subst hw
    obtain rfl : o = sa.organisationId := horg
    obtain rfl : u = sa.userId := hu
    have hfound : w.tables.serviceAccount sa.organisationId sa.userId = some sa :=
      Tables.serviceAccount_eq_some.mpr ⟨hsa, rfl, rfl⟩
    obtain ⟨q, hq, hid, hkind⟩ := hattributed.user sa hsa
    have hdismisses : Dismisses w sa.organisationId sa.userId :=
      ⟨hanswers, by rw [hfound]; rfl, Table.any_eq_true.mpr ⟨q, hq, by simp [hid, hkind]⟩, hdelete⟩
    have hreturns : ∃ v,
        (deleteServiceAccount ⟨sa.organisationId, sa.userId, actor, actorOrg⟩).run w = (.ok (), v) ∧
          v.tables = w.tables.cascadeUser sa.userId :=
      deleteServiceAccount_of_dismisses hdismisses
    obtain ⟨v, hrun, hv⟩ := hreturns
    have hforgets : v.tables.Forgets sa.userId := hv ▸ hattributed.forgets hsa
    refine ⟨v, hrun, hforgets, ?_⟩
    intro k hk hksa w' v' keyPrefix secret verified hw' hverify hkey
    -- the key that verifies is stored, and the key of the account with its identifier is not
    obtain ⟨k', hk', sa', -, -, -, -, -, rfl, -⟩ := verifyKey_eq_ok hverify
    rw [hw'] at hk'
    have hold : k' ∈ w.tables.apiKeys := by
      rw [hv] at hk'
      exact (Table.mem_deleteWhere.mp hk').1
    obtain rfl := Tables.key_eq_of_id hold hk hkey
    exact (hforgets.keys k' hk').1 hksa

end Runs

/-! ## A service account of the operator -/

/-- A service account of the operator organisation with the role of an operator, and its key. -/
def operatorKey : Tables where
  __ := Tables.twoTenants
  users := ⟨Tables.twoTenants.users.rows ++
    [⟨0x13, "carol", "carol@operator.example", "", .human, 0, 0⟩,
      ⟨0x41, "sa_desk", "sa_desk@service-account.invalid", "!", .serviceAccount, 0, 0⟩], by decide⟩
  userOrganisationRoles := ⟨Tables.twoTenants.userOrganisationRoles.rows ++
    [⟨0x13, 1, 0x101, 0⟩, ⟨0x41, 1, 0x101, 0⟩], by decide⟩
  serviceAccounts := ⟨[⟨0x41, 1, "desk", none, 0, 0x13, none⟩], by decide⟩
  apiKeys := ⟨[⟨⟨0x51, 0x41, "00000051", "desk", none, 0, 0x13, none, none⟩,
    "m=19456,t=2,p=1$first"⟩], by decide⟩

/-- With the key the headers that carry keys at `acme` are restricted. -/
def keySetsFlag : OperationCall where
  world := .calm operatorKey 5
  operation := .request (.loaded operatorKey 0x41 1) (.apiKey 0x51 0x41 1)
    (.resource ⟨0xa, 0, 0, 0⟩ (.putFeature "auth.api_key_headers" (.array [.string "x-api-key"])))

/-- The tables after that. -/
def flagSet : Tables :=
  (@OperationCall.serve plainPlatform ⟨id⟩ ⟨fun _ => "", fun _ => none⟩ ⟨"secret", "egras", 3600⟩
    keySetsFlag).tables

/-- The operator's account and key were created by a human. -/
lemma operatorKey_attributed : operatorKey.Attributed where
  user := by decide
  account sa hsa := by
    obtain rfl := List.mem_singleton.mp hsa
    exact ⟨_, List.mem_append_right _ List.mem_cons_self, rfl, rfl⟩
  key k hk := by
    obtain rfl := List.mem_singleton.mp hk
    exact ⟨_, List.mem_append_right _ List.mem_cons_self, rfl, rfl⟩

/-- Once its key has set a flag the service account cannot be deleted. -/
theorem flag_author_stays :
    operatorKey.Attributed ∧ keySetsFlag.Genuine ∧
      @OperationCall.Step plainPlatform ⟨id⟩ ⟨fun _ => "", fun _ => none⟩
        ⟨"secret", "egras", 3600⟩ ⟨operatorKey, 0⟩ keySetsFlag ⟨flagSet, 5⟩ ∧
      (flagSet.serviceAccount 1 0x41).isSome = true ∧
      ((deleteServiceAccount ⟨1, 0x41, 0x13, 1⟩).run (.calm flagSet 9)).1 = .error .other := by
  refine ⟨operatorKey_attributed, ?_, ?_, by decide +kernel, by decide +kernel⟩
  · rintro c kind req ⟨⟩ hhuman
    cases hhuman
  · exact @OperationCall.Step.mk plainPlatform ⟨id⟩ ⟨fun _ => "", fun _ => none⟩ _ _ _ _ rfl
      (by decide) rfl rfl

/-- Before that it can be deleted; once it has set the flag it cannot. -/
theorem dismissible_iff_operatorKey :
    (@Tables.Dismissible plainPlatform.toArgon2 operatorKey ⟨0x41, 1, "desk", none, 0, 0x13, none⟩ ∧
      operatorKey.Shielded) ∧
    ¬(@Tables.Dismissible plainPlatform.toArgon2 flagSet ⟨0x41, 1, "desk", none, 0, 0x13, none⟩ ∧
      flagSet.Shielded) := by
  have hrun : Run (@OperationCall.Step plainPlatform ⟨id⟩ ⟨fun _ => "", fun _ => none⟩
      ⟨"secret", "egras", 3600⟩) ⟨operatorKey, 0⟩ [⟨⟨operatorKey, 0⟩, keySetsFlag, ⟨flagSet, 5⟩⟩]
      ⟨flagSet, 5⟩ :=
    .single (@OperationCall.Step.mk plainPlatform ⟨id⟩ ⟨fun _ => "", fun _ => none⟩ _ _ _ _ rfl
      (by decide) rfl rfl)
  have hgenuine : keySetsFlag.Genuine := by
    rintro c kind req ⟨⟩ hhuman
    cases hhuman
  constructor
  · exact (@dismissible_iff plainPlatform ⟨id⟩ ⟨fun _ => "", fun _ => none⟩
      ⟨"secret", "egras", 3600⟩ ⟨0x41, 1, "desk", none, 0, 0x13, none⟩ ⟨operatorKey, 0⟩
      ⟨operatorKey, 0⟩ [] operatorKey_attributed .nil (by simp) List.mem_cons_self).mpr
      fun _ hf => absurd hf List.not_mem_nil
  · rw [@dismissible_iff plainPlatform ⟨id⟩ ⟨fun _ => "", fun _ => none⟩
      ⟨"secret", "egras", 3600⟩ ⟨0x41, 1, "desk", none, 0, 0x13, none⟩ ⟨operatorKey, 0⟩
      ⟨flagSet, 5⟩ _ operatorKey_attributed hrun (by simpa using hgenuine) List.mem_cons_self]
    exact fun hauthor => hauthor _ List.mem_cons_self rfl

end Egras
