import Egras.Listings.Keyset
import Egras.Tenants.Channels

/-!
# Whether the listing of channels is complete

The handler caps the limit at 200 and lets 0 through, the statement fetches one row more than that,
and the use case takes the cursor from the last row of the page. With a limit of 0 the page has no
last row, so that the client is told that there is nothing more (`channels_complete_iff`).
-/

namespace Egras
open Lib

/-- Where a channel stands in the listing. -/
def InboundChannel.position (ch : InboundChannel) : Cursor := ⟨ch.createdAt, ch.id⟩

/-- A request for a page of the channels of an organisation. -/
def channelsPage [CursorText] (ext : Extensions) (orgId : Uuid) (limit : Option ℕ)
    (after : Option String) : Action AppError (Page ChannelBody String) := do
  let out ← getListChannels ext orgId ⟨after, limit⟩
  return ⟨out.items, out.nextCursor⟩

/-- The channels of an organisation in the order of the listing. -/
def Tables.channelsOf (t : Tables) (orgId : Uuid) : List InboundChannel :=
  (t.inboundChannels.select (fun ch => ch.organisationId = orgId)).insertionSort
    (fun a b => b.createdAt < a.createdAt ∨ b.createdAt = a.createdAt ∧ b.id ≤ a.id)

section Channels
variable {t : Tables} {orgId : Uuid}

/-- The channels of the listing are those of the organisation. -/
lemma mem_channelsOf {ch : InboundChannel} :
    ch ∈ t.channelsOf orgId ↔ ch ∈ t.inboundChannels ∧ ch.organisationId = orgId := by
  unfold Tables.channelsOf
  rw [List.mem_insertionSort, Table.mem_select, decide_eq_true_eq]

/-- Two channels have two positions. -/
lemma position_injective : ∀ a ∈ t.inboundChannels.rows, ∀ b ∈ t.inboundChannels.rows,
    InboundChannel.position a = InboundChannel.position b → a = b :=
  fun _ ha _ hb h => Table.eq_of_key ha hb (congrArg Cursor.id h)

/-- The channels are in the order of their positions. -/
lemma ascending_channelsOf :
    Ascending InboundChannel.position Cursor.gt (t.channelsOf orgId) := by
  refine Cursor.keyOrder_gt.ascending ?_ ?_ ?_
  · exact fun a b => Cursor.descending_iff a.position b.position
  · exact (List.filter_sublist).nodup (List.Nodup.of_map _ t.inboundChannels.nodup)
  · intro a ha b hb
    exact position_injective a (List.mem_filter.mp ha).1 b (List.mem_filter.mp hb).1

/-- The channels after a cursor, in order, are the end of the listing. -/
lemma select_since {after : Option Cursor} :
    (t.inboundChannels.select (fun ch => ch.organisationId = orgId &&
      after.all (fun c => c.after ch.createdAt ch.id))).insertionSort
        (fun a b => b.createdAt < a.createdAt ∨ b.createdAt = a.createdAt ∧ b.id ≤ a.id) =
      since InboundChannel.position Cursor.gt (t.channelsOf orgId) after := by
  refine Cursor.keyOrder_gt.insertionSort_since ?_ position_injective after
  exact fun a b => Cursor.descending_iff a.position b.position

variable [CursorText] {c : AuthedCaller} {kind : Caller} {limit : Option ℕ}

/-- What is served past a position. -/
lemma run_listInboundChannels (hcodec : CursorRoundTrips) {n : ℕ} {after : Option Cursor}
    {w : World} :
    (listInboundChannels ⟨orgId, after.map CursorText.encodeIdCursor, n⟩).run w =
      if w.answers then
        let page := cutAtLast InboundChannel.position n ((since InboundChannel.position Cursor.gt
          (w.tables.channelsOf orgId) after).take (n + 1))
        (.ok ⟨page.items, page.next.map CursorText.encodeIdCursor⟩, w.tick)
      else (.error (.repo (.db .io)), w.tick) := by
  unfold listInboundChannels listChannelRows
  dsimp only
  rw [decodeCursor_map hcodec.id, Prog.run_bind, Prog.run_ofExcept]
  dsimp only
  rw [Prog.run_bind, Prog.run_mapErr, Prog.run_mapErr, run_query, select_since]
  cases w.answers with
  | false => rfl
  | true =>
    simp only [if_true, Except.mapError]
    unfold cutAtLast
    split
    · simp
      rfl
    · rfl

/-- A page that the handler serves. -/
lemma serves_channelsPage (hcodec : CursorRoundTrips)
    (haccept : Permission.channelsManage.accepts c.permissions = true)
    (hown : c.mayName orgId = true) (after : Option Cursor) (page : Page ChannelBody String) :
    Serves (channelsPage (c.extensions kind) orgId limit) t
        (after.map CursorText.encodeIdCursor) page ↔
      page = (cutAtLast InboundChannel.position (min (limit.getD 50) 200)
        ((since InboundChannel.position Cursor.gt (t.channelsOf orgId) after).take
          (min (limit.getD 50) 200 + 1))).map id CursorText.encodeIdCursor := by
  refine serves_of_run .internal (fun w htables => ?_) page
  have hserve : (getListChannels (c.extensions kind) orgId
      ⟨after.map CursorText.encodeIdCursor, limit⟩).run w =
      ((do
        let out ← (listInboundChannels ⟨orgId, after.map CursorText.encodeIdCursor,
          min (limit.getD 50) 200⟩).mapErr ListChannelsError.toApp
        return ⟨out.items, out.nextCursor⟩ : Action AppError PagedChannels)).run w := by
    unfold getListChannels
    rw [run_authedCaller_bind, run_perm_bind, if_pos haccept, run_requireOwnOrganisation_bind,
      if_pos hown]
  unfold channelsPage
  rw [Prog.run_bind, hserve, Prog.run_bind, Prog.run_mapErr, run_listInboundChannels hcodec, htables]
  cases w.answers with
  | false => rfl
  | true =>
    simp only [if_true, Except.mapError, Page.map, List.map_id]
    rfl

/-- A client that pages through the channels of an organisation gets them all, each once and latest
first, exactly when it does not ask for pages of 0 rows or there is none. -/
theorem channels_complete_iff (hcodec : CursorRoundTrips)
    (haccept : Permission.channelsManage.accepts c.permissions = true)
    (hown : c.mayName orgId = true) :
    Complete (Serves (channelsPage (c.extensions kind) orgId limit) t) InboundChannel.position
        Cursor.gt (fun ch => ch ∈ t.inboundChannels ∧ ch.organisationId = orgId) id ↔
      (limit = some 0 → ∀ ch ∈ t.inboundChannels, ch.organisationId ≠ orgId) := by
  have hempty : Yields (Serves (channelsPage (c.extensions kind) orgId (some 0)) t) none [] :=
    yields_of_empty (serves_channelsPage hcodec haccept hown)
  rw [complete_iff Cursor.keyOrder_gt ascending_channelsOf fun _ => mem_channelsOf]
  constructor
  · rintro hyields rfl ch hch hid
    have hnil : t.channelsOf orgId = [] := by simpa using hyields.unique hempty
    have hmem := mem_channelsOf.mpr ⟨hch, hid⟩
    rw [hnil] at hmem
    cases hmem
  · intro hlimit
    by_cases hzero : limit = some 0
    · have hnil : t.channelsOf orgId = [] := by
        refine List.eq_nil_iff_forall_not_mem.mpr fun ch hch => ?_
        obtain ⟨hch, hid⟩ := mem_channelsOf.mp hch
        exact hlimit hzero ch hch hid
      subst hzero
      rw [hnil]
      exact hempty
    · have hpos : 0 < min (limit.getD 50) 200 := by
        cases limit with
        | none => decide
        | some n =>
          have hn : n ≠ 0 := fun hn => hzero (by rw [hn])
          simp only [Option.getD_some]
          omega
      exact yields_of_last hpos Cursor.keyOrder_gt ascending_channelsOf
        (serves_channelsPage hcodec haccept hown)

end Channels

section Runs

/-- `acme` has a channel. -/
def oneChannel : Tables where
  __ := Tables.twoTenants
  inboundChannels := ⟨[⟨0x51, 0xa, "orders", none, .websocket, "key", true, 0, 0⟩], by decide⟩

/-- The owner of `acme` asks for its channels. -/
def ownerChannelsPage (limit : Option ℕ) : Option String → Action AppError (Page ChannelBody String) :=
  @channelsPage pagingPlatform.toCursorText
    ((AuthedCaller.loaded oneChannel 0x11 0xa).extensions (.user 0x11 0xa 0x31)) 0xa limit

/-- With a limit of 0, the channel is not listed. -/
theorem channel_not_listed :
    ¬ Complete (Serves (ownerChannelsPage (some 0)) oneChannel) InboundChannel.position Cursor.gt
      (fun ch => ch ∈ oneChannel.inboundChannels ∧ ch.organisationId = 0xa) id := by
  let _ : Platform := pagingPlatform
  have hempty : Yields (Serves (ownerChannelsPage (some 0)) oneChannel) none [] :=
    yields_of_empty (serves_channelsPage cursorRoundTrips_paging (by decide +kernel)
      (by decide +kernel))
  rw [complete_iff Cursor.keyOrder_gt ascending_channelsOf fun _ => mem_channelsOf]
  intro hyields
  exact absurd (hyields.unique hempty) (by decide +kernel)

/-- With a limit of 1, it is. -/
theorem channels_complete_iff_oneChannel :
    Complete (Serves (ownerChannelsPage (some 1)) oneChannel) InboundChannel.position Cursor.gt
        (fun ch => ch ∈ oneChannel.inboundChannels ∧ ch.organisationId = 0xa) id ↔
      (some 1 = some 0 → ∀ ch ∈ oneChannel.inboundChannels, ch.organisationId ≠ 0xa) :=
  @channels_complete_iff _ _ pagingPlatform.toCursorText (.loaded oneChannel 0x11 0xa)
    (.user 0x11 0xa 0x31) (some 1) cursorRoundTrips_paging (by decide +kernel) (by decide +kernel)

end Runs
end Egras
