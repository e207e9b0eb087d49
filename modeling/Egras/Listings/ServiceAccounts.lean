import Egras.Listings.Keyset
import Egras.Security.ServiceAccounts

/-!
# Whether the listing of service accounts is complete

The use case fetches one row more than a page holds, cuts it off and takes the cursor from it, while
the statement goes on strictly after the cursor: the row is on neither page. So a client gets all
service accounts of an organisation exactly when they fit one page (`accounts_complete_iff`).
-/

namespace Egras
open Lib

/-- The codecs that the cursor of the service accounts is made of give back what they encode. -/
structure SaCursorRoundTrips [Base64] [CursorText] : Prop where
  base64 : ∀ bytes, Base64.urlSafeDecode (Base64.urlSafeEncode bytes) = some bytes
  rfc3339 : ∀ at_, CursorText.parseFromRfc3339 (CursorText.toRfc3339 at_) = some at_
  noBar : ∀ at_, '|' ∉ (CursorText.toRfc3339 at_).toList
  uuid : ∀ id, CursorText.parseUuid (uuidToString id) = some id

/-- Where a service account stands in the listing. -/
def ServiceAccount.position (sa : ServiceAccount) : Cursor := ⟨sa.createdAt, sa.userId⟩

/-- A request for a page of the service accounts of an organisation. -/
def accountsPage (orgId : Uuid) (limit : ℕ) (after : Option Cursor) :
    Action Anyhow (Page ServiceAccount Cursor) := do
  let out ← listServiceAccounts ⟨orgId, limit, after⟩
  return ⟨out.items, out.nextCursor⟩

/-- The same request to the handler. -/
def accountsResponsePage [Base64] [CursorText] (ext : Extensions) (orgId : Uuid)
    (limit : Option ℕ) (after : Option String) :
    Action AppError (Page ServiceAccountResponse String) := do
  let out ← getListServiceAccounts ext ⟨orgId, limit, after⟩
  return ⟨out.items, out.nextCursor⟩

/-- The service accounts of an organisation in the order of the listing. -/
def Tables.accountsOf (t : Tables) (orgId : Uuid) : List ServiceAccount :=
  (t.serviceAccounts.select (fun sa => sa.organisationId = orgId)).insertionSort
    (fun a b => a.createdAt < b.createdAt ∨ a.createdAt = b.createdAt ∧ a.userId ≤ b.userId)

section Accounts
variable {t : Tables} {orgId : Uuid}

/-- The accounts of the listing are those of the organisation. -/
lemma mem_accountsOf {sa : ServiceAccount} :
    sa ∈ t.accountsOf orgId ↔ sa ∈ t.serviceAccounts ∧ sa.organisationId = orgId := by
  unfold Tables.accountsOf
  rw [List.mem_insertionSort, Table.mem_select, decide_eq_true_eq]

/-- The listing has as many accounts as the organisation. -/
lemma length_accountsOf : (t.accountsOf orgId).length =
    (t.serviceAccounts.select (fun sa => sa.organisationId = orgId)).length :=
  List.length_insertionSort _ _

/-- Two accounts have two positions. -/
lemma accountPosition_injective : ∀ a ∈ t.serviceAccounts.rows, ∀ b ∈ t.serviceAccounts.rows,
    ServiceAccount.position a = ServiceAccount.position b → a = b :=
  fun _ ha _ hb h => Table.eq_of_key ha hb (congrArg Cursor.id h)

/-- The accounts are in the order of their positions. -/
lemma ascending_accountsOf :
    Ascending ServiceAccount.position Cursor.lt (t.accountsOf orgId) := by
  refine Cursor.keyOrder_lt.ascending ?_ ?_ ?_
  · exact fun a b => Cursor.ascending_iff a.position b.position
  · exact (List.filter_sublist).nodup (List.Nodup.of_map _ t.serviceAccounts.nodup)
  · intro a ha b hb
    exact accountPosition_injective a (List.mem_filter.mp ha).1 b (List.mem_filter.mp hb).1

/-- The accounts after a cursor, in order, are the end of the listing. -/
lemma select_accounts_since {after : Option Cursor} :
    (t.serviceAccounts.select (fun sa => sa.organisationId = orgId &&
      after.all (fun c => c.before sa.createdAt sa.userId))).insertionSort
        (fun a b => a.createdAt < b.createdAt ∨ a.createdAt = b.createdAt ∧ a.userId ≤ b.userId) =
      since ServiceAccount.position Cursor.lt (t.accountsOf orgId) after := by
  refine Cursor.keyOrder_lt.insertionSort_since ?_ accountPosition_injective after
  exact fun a b => Cursor.ascending_iff a.position b.position

/-- What is served past a position. -/
lemma run_listServiceAccounts {n : ℕ} {after : Option Cursor} {w : World} :
    (listServiceAccounts ⟨orgId, n, after⟩).run w =
      if w.answers then
        let page := cutAtExtra ServiceAccount.position (max 1 (min n 200))
          ((since ServiceAccount.position Cursor.lt (w.tables.accountsOf orgId) after).take
            (max 1 (min n 200) + 1))
        (.ok ⟨page.items, page.next⟩, w.tick)
      else (.error .mk, w.tick) := by
  unfold listServiceAccounts listServiceAccountRows
  dsimp only
  rw [Prog.run_bind, Prog.run_mapErr, run_query, select_accounts_since]
  cases w.answers with
  | false => rfl
  | true =>
    simp only [if_true, Except.mapError]
    unfold cutAtExtra
    split <;> rfl

/-- A page of the use case. -/
lemma serves_accountsPage {n : ℕ} (after : Option Cursor) (page : Page ServiceAccount Cursor) :
    Serves (accountsPage orgId n) t (after.map id) page ↔
      page = (cutAtExtra ServiceAccount.position (max 1 (min n 200))
        ((since ServiceAccount.position Cursor.lt (t.accountsOf orgId) after).take
          (max 1 (min n 200) + 1))).map id id := by
  refine serves_of_run .mk (fun w htables => ?_) page
  unfold accountsPage
  rw [Option.map_id, id, Prog.run_bind, run_listServiceAccounts, htables]
  cases w.answers with
  | false => rfl
  | true =>
    simp only [if_true, Page.map, List.map_id, Option.map_id, id]
    rfl

variable [Base64] [CursorText] {c : AuthedCaller} {kind : Caller} {limit : Option ℕ}

omit t orgId c kind limit in
/-- A cursor that was handed out is accepted. -/
lemma decodeSaCursor_encode (hcodec : SaCursorRoundTrips) (position : Cursor) :
    decodeSaCursor (encodeSaCursor position) = .ok position := by
  have htext : (CursorText.toRfc3339 position.createdAt ++ "|" ++ uuidToString position.id).toList =
      (CursorText.toRfc3339 position.createdAt).toList ++ '|' :: (uuidToString position.id).toList := by
    rw [String.toList_append, String.toList_append, List.append_assoc]
    rfl
  have hsplit : splitN 2 '|' ((CursorText.toRfc3339 position.createdAt).toList ++ '|' ::
      (uuidToString position.id).toList) =
        [(CursorText.toRfc3339 position.createdAt).toList, (uuidToString position.id).toList] := by
    rw [splitN_append (hcodec.noBar _)]
    rfl
  unfold decodeSaCursor encodeSaCursor
  rw [hcodec.base64]
  dsimp only
  rw [fromUTF8_toUTF8]
  dsimp only
  rw [htext, hsplit]
  simp only [String.ofList_toList, hcodec.rfc3339, hcodec.uuid]

/-- A page that the handler serves. -/
lemma serves_accountsResponsePage (hcodec : SaCursorRoundTrips) (hhuman : kind.isHuman = true)
    (haccept : Permission.serviceAccountsRead.accepts c.permissions = true)
    (hown : c.mayName orgId = true) (after : Option Cursor)
    (page : Page ServiceAccountResponse String) :
    Serves (accountsResponsePage (c.extensions kind) orgId limit) t (after.map encodeSaCursor) page ↔
      page = (cutAtExtra ServiceAccount.position (max 1 (min (limit.getD 50) 200))
        ((since ServiceAccount.position Cursor.lt (t.accountsOf orgId) after).take
          (max 1 (min (limit.getD 50) 200) + 1))).map ServiceAccount.toResponse encodeSaCursor := by
  refine serves_of_run .internal (fun w htables => ?_) page
  have hserve : (getListServiceAccounts (c.extensions kind)
      ⟨orgId, limit, after.map encodeSaCursor⟩).run w =
      ((do
        let out ← (listServiceAccounts ⟨orgId, max 1 (min (limit.getD 50) 200), after⟩).mapErr
          (fun _ => AppError.internal)
        return ⟨out.items.map ServiceAccount.toResponse, out.nextCursor.map encodeSaCursor⟩ :
          Action AppError ListServiceAccountsResponse)).run w := by
    unfold getListServiceAccounts
    rw [run_requireHumanCaller_bind, if_pos hhuman, run_authedCaller_bind, run_perm_bind,
      if_pos haccept, run_requireOwnOrganisation_bind, if_pos hown]
    cases after with
    | none => rfl
    | some position =>
      simp only [Option.map_some, decodeSaCursor_encode hcodec]
      rfl
  unfold accountsResponsePage
  rw [Prog.run_bind, hserve, Prog.run_bind, Prog.run_mapErr, run_listServiceAccounts, htables]
  cases w.answers with
  | false => rfl
  | true =>
    have hclamp : max 1 (min (max 1 (min (limit.getD 50) 200)) 200) =
        max 1 (min (limit.getD 50) 200) := by omega
    simp only [if_true, Except.mapError, hclamp, Page.map]
    rfl

omit [Base64] [CursorText] c kind limit in
/-- A client that pages through the use case gets all exactly when one page holds all. -/
lemma accountsPage_complete_iff {n : ℕ} :
    Complete (Serves (accountsPage orgId n) t) ServiceAccount.position Cursor.lt
        (fun sa => sa ∈ t.serviceAccounts ∧ sa.organisationId = orgId) id ↔
      (t.serviceAccounts.select (fun sa => sa.organisationId = orgId)).length ≤
        max 1 (min n 200) := by
  rw [complete_iff Cursor.keyOrder_lt ascending_accountsOf fun _ => mem_accountsOf,
    yields_extra_iff serves_accountsPage Cursor.keyOrder_lt ascending_accountsOf, length_accountsOf]

/-- A client that pages through the service accounts of an organisation gets them all, each once and
earliest first, exactly when one page holds all of them. -/
theorem accounts_complete_iff (hcodec : SaCursorRoundTrips) (hhuman : kind.isHuman = true)
    (haccept : Permission.serviceAccountsRead.accepts c.permissions = true)
    (hown : c.mayName orgId = true) :
    (∀ n, Complete (Serves (accountsPage orgId n) t) ServiceAccount.position Cursor.lt
        (fun sa => sa ∈ t.serviceAccounts ∧ sa.organisationId = orgId) id ↔
      (t.serviceAccounts.select (fun sa => sa.organisationId = orgId)).length ≤
        max 1 (min n 200)) ∧
    (Complete (Serves (accountsResponsePage (c.extensions kind) orgId limit) t)
        ServiceAccount.position Cursor.lt
        (fun sa => sa ∈ t.serviceAccounts ∧ sa.organisationId = orgId) ServiceAccount.toResponse ↔
      (t.serviceAccounts.select (fun sa => sa.organisationId = orgId)).length ≤
        max 1 (min (limit.getD 50) 200)) := by
  refine ⟨fun n => accountsPage_complete_iff, ?_⟩
  rw [complete_iff Cursor.keyOrder_lt ascending_accountsOf fun _ => mem_accountsOf,
    yields_extra_iff (serves_accountsResponsePage hcodec hhuman haccept hown) Cursor.keyOrder_lt
      ascending_accountsOf, length_accountsOf]

end Accounts

section Runs

/-- `acme` has two service accounts, made at the same instant. -/
def twoAccounts : Tables where
  __ := Tables.twoTenants
  serviceAccounts := ⟨[⟨0x41, 0xa, "deploy", none, 0, 0x11, none⟩,
    ⟨0x42, 0xa, "report", none, 0, 0x11, none⟩], by decide⟩

/-- The cursors of the platform come back as they were. -/
lemma saCursorRoundTrips_paging :
    @SaCursorRoundTrips pagingPlatform.toBase64 pagingPlatform.toCursorText := by
  let _ : Platform := pagingPlatform
  refine ⟨base64Decode_encode, instantOfText_instantText _, ?_, uuidOfText_uuidToString⟩
  exact fun at_ => not_mem_instantText (by decide) (by decide) (by decide)

/-- With pages of one row, the second of two service accounts is lost. -/
theorem second_account_lost :
    ¬ Complete (Serves (accountsPage 0xa 1) twoAccounts) ServiceAccount.position Cursor.lt
      (fun sa => sa ∈ twoAccounts.serviceAccounts ∧ sa.organisationId = 0xa) id := by
  rw [accountsPage_complete_iff]
  decide +kernel

/-- With pages of two rows, none is. -/
theorem accounts_complete_iff_twoAccounts :
    (∀ n, Complete (Serves (accountsPage 0xa n) twoAccounts) ServiceAccount.position Cursor.lt
        (fun sa => sa ∈ twoAccounts.serviceAccounts ∧ sa.organisationId = 0xa) id ↔
      (twoAccounts.serviceAccounts.select (fun sa => sa.organisationId = 0xa)).length ≤
        max 1 (min n 200)) ∧
    (Complete (Serves (@accountsResponsePage pagingPlatform.toBase64 pagingPlatform.toCursorText
        ((AuthedCaller.loaded twoAccounts 0x11 0xa).extensions (.user 0x11 0xa 0x31)) 0xa (some 2))
        twoAccounts) ServiceAccount.position Cursor.lt
        (fun sa => sa ∈ twoAccounts.serviceAccounts ∧ sa.organisationId = 0xa)
        ServiceAccount.toResponse ↔
      (twoAccounts.serviceAccounts.select (fun sa => sa.organisationId = 0xa)).length ≤
        max 1 (min ((some 2).getD 50) 200)) :=
  @accounts_complete_iff _ _ pagingPlatform.toBase64 pagingPlatform.toCursorText
    (.loaded twoAccounts 0x11 0xa) (.user 0x11 0xa 0x31) (some 2) saCursorRoundTrips_paging rfl
    (by decide +kernel) (by decide +kernel)

end Runs
end Egras
