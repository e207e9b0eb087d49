import Egras.Resources.Confinement

/-!
# What the requests for guarded resources answer

`ResourceAction.within`: a request of a caller that operates on no other tenants and on no other
users is answered with rows of the caller's organisation only.
-/

namespace Egras
open Lib

/-! ## Channels -/

section Channels
variable {w v : World} {orgId channelId actor actorOrg : Uuid} {ch : InboundChannel}

/-- A channel that is created is stored, in its organisation. -/
lemma createInboundChannel_eq_ok {input : CreateChannelInput}
    (h : (createInboundChannel actor actorOrg input).run w = (.ok ch, v)) :
    ch ∈ v.tables.inboundChannels ∧ ch.organisationId = input.organisationId := by
  obtain ⟨_, _, hname, h₁⟩ := Prog.bind_eq_ok h
  obtain ⟨-, rfl⟩ := require_eq_ok hname
  obtain ⟨_, _, hdescription, h₂⟩ := Prog.bind_eq_ok h₁
  obtain ⟨-, rfl⟩ := require_eq_ok hdescription
  obtain ⟨created, w₁, hcreate, h₃⟩ := Prog.bind_eq_ok h₂
  obtain ⟨_, w₂, hrecord, h₄⟩ := Prog.bind_eq_ok h₃
  cases h₄
  obtain ⟨id, _, -, h₅⟩ := Prog.bind_eq_ok (Prog.mapErr_eq_ok hcreate)
  obtain ⟨apiKey, u, -, hinsert⟩ := Prog.bind_eq_ok h₅
  obtain ⟨t, heffect, rfl, -⟩ := execute_eq_ok (Prog.mapErr_eq_ok hinsert)
  obtain ⟨hstored, rfl⟩ := return_eq_ok.mp heffect
  obtain ⟨rows, hrows, rfl⟩ := Tables.insertChannel_eq_ok hstored
  rw [reads_tables_record.of_run hrecord]
  exact ⟨(Table.mem_insert? hrows).mpr (Or.inr rfl), rfl⟩

/-- An updated channel is one of the organisation. -/
lemma updateChannel_eq_ok {t t' : Tables} {name : String} {description : Option String}
    {channelType : ChannelType} {isActive : Bool} {now : Timestamp}
    (h : t.updateChannel orgId channelId name description channelType isActive now =
      .ok (some ch, t')) :
    ch ∈ t'.inboundChannels ∧ ch.organisationId = orgId := by
  unfold Tables.updateChannel at h
  dsimp only at h
  split at h
  · cases h
  · rename_i old hold
    split at h
    · cases h
    · cases h
      have hselected := List.find?_some hold
      obtain ⟨-, horg⟩ := (Bool.and_eq_true _ _).mp hselected
      refine ⟨?_, of_decide_eq_true horg⟩
      apply Table.mem_updateWhere.mpr
      · exact ⟨old, List.mem_of_find?_eq_some hold, if_pos hselected⟩
      · exact fun _ => rfl

/-- A channel that is updated is stored, in its organisation. -/
lemma updateInboundChannel_eq_ok {input : UpdateChannelInput}
    (h : (updateInboundChannel actor actorOrg input).run w = (.ok ch, v)) :
    ch ∈ v.tables.inboundChannels ∧ ch.organisationId = input.organisationId := by
  obtain ⟨_, _, hname, h₁⟩ := Prog.bind_eq_ok h
  obtain ⟨-, rfl⟩ := require_eq_ok hname
  obtain ⟨_, _, hdescription, h₂⟩ := Prog.bind_eq_ok h₁
  obtain ⟨-, rfl⟩ := require_eq_ok hdescription
  obtain ⟨updated, w₁, hupdate, h₃⟩ := Prog.bind_eq_ok h₂
  obtain ⟨_, w₂, hrecord, h₄⟩ := Prog.bind_eq_ok h₃
  cases h₄
  obtain ⟨found, w₃, hfound, h₅⟩ := Prog.bind_eq_ok (Prog.mapErr_eq_ok hupdate)
  obtain ⟨t, heffect, rfl, -⟩ := execute_eq_ok (Prog.mapErr_eq_ok hfound)
  rw [reads_tables_record.of_run hrecord]
  cases found with
  | none => cases h₅
  | some c =>
    cases h₅
    exact updateChannel_eq_ok heffect

/-- A channel that is read is stored, in its organisation. -/
lemma getInboundChannel_eq_ok (h : (getInboundChannel orgId channelId).run w = (.ok ch, v)) :
    ch ∈ v.tables.inboundChannels ∧ ch.organisationId = orgId := by
  obtain ⟨found, w₁, hquery, h₁⟩ := Prog.bind_eq_ok (Prog.mapErr_eq_ok h)
  obtain ⟨rfl, rfl, -⟩ := query_eq_ok (Prog.mapErr_eq_ok hquery)
  cases hfind : w.tables.channel orgId channelId with
  | none =>
    rw [hfind] at h₁
    cases h₁
  | some c =>
    rw [hfind] at h₁
    cases h₁
    unfold Tables.channel at hfind
    have hselected := List.find?_some hfind
    obtain ⟨-, horg⟩ := (Bool.and_eq_true _ _).mp hselected
    exact ⟨List.mem_of_find?_eq_some hfind, of_decide_eq_true horg⟩

/-- The listed channels are those of the organisation. -/
lemma listChannelRows_eq_ok {after : Option Cursor} {limit : ℕ} {rows : List InboundChannel}
    (h : (listChannelRows orgId after limit).run w = (.ok rows, v)) :
    ∀ c ∈ rows, c ∈ v.tables.inboundChannels ∧ c.organisationId = orgId := by
  obtain ⟨rfl, rfl, -⟩ := query_eq_ok (Prog.mapErr_eq_ok h)
  intro c hc
  have hsorted := List.mem_of_mem_take hc
  rw [List.mem_insertionSort, Table.mem_select] at hsorted
  obtain ⟨hmem, hselected⟩ := hsorted
  obtain ⟨horg, -⟩ := (Bool.and_eq_true _ _).mp hselected
  exact ⟨hmem, of_decide_eq_true horg⟩

/-- The channels that are listed are stored, in their organisation; so is the one of the cursor. -/
lemma listInboundChannels_eq_ok [CursorText] {input : ListChannelsInput} {out : ListChannelsOutput}
    (h : (listInboundChannels input).run w = (.ok out, v)) :
    (∀ c ∈ out.items, c ∈ v.tables.inboundChannels ∧ c.organisationId = input.organisationId) ∧
      ∀ s, out.nextCursor = some s → ∃ c ∈ v.tables.inboundChannels,
        c.organisationId = input.organisationId ∧
          s = CursorText.encodeIdCursor ⟨c.createdAt, c.id⟩ := by
  obtain ⟨after, w₁, hdecode, h₁⟩ := Prog.bind_eq_ok h
  obtain ⟨rows, w₂, hquery, h₂⟩ := Prog.bind_eq_ok h₁
  have hrows := listChannelRows_eq_ok (Prog.mapErr_eq_ok hquery)
  split at h₂
  · cases h₂
    refine ⟨fun c hc => hrows c (List.mem_of_mem_take hc), fun s hs => ?_⟩
    obtain ⟨c, hc, rfl⟩ := Option.map_eq_some_iff.mp hs
    obtain ⟨hmem, horg⟩ := hrows c (List.mem_of_mem_take (List.mem_of_getLast? hc))
    exact ⟨c, hmem, horg, rfl⟩
  · cases h₂
    exact ⟨hrows, fun s hs => nomatch hs⟩

end Channels

/-! ## Features -/

section Features
variable {w v : World} {org : Uuid} {slug : String} {t : Tables}
  {cache : Table CachedValue CachedValue.key}

/-- The tables are given ones, and what is cached for an organisation is shown to it. -/
structure Showing (cache : Table CachedValue CachedValue.key) (org : Uuid) (t : Tables)
    (w : World) : Prop where
  tables : w.tables = t
  cached : ∀ e ∈ w.cache, e.organisationId = org → t.Shows cache org e.slug e.value

/-- What is cached at first is shown. -/
lemma showing_of_subset (hcache : ∀ e ∈ w.cache, e ∈ cache) : Showing cache org w.tables w :=
  ⟨rfl, fun e he horg => Or.inl ⟨e, hcache e he, horg, rfl, rfl⟩⟩

/-- An effective value is shown. -/
lemma shows_of_effective {value : Value} (h : t.effective org slug = some value) :
    t.Shows cache org slug value := by
  unfold Tables.effective at h
  split at h
  · rename_i ov hov
    cases h
    obtain ⟨hmem, hkey⟩ := Table.find?_eq_some.mp hov
    obtain ⟨horg, hslug⟩ := Prod.mk.inj hkey
    exact Or.inr (Or.inl ⟨ov, hmem, horg, hslug, rfl⟩)
  · obtain ⟨d, hd, rfl⟩ := Option.map_eq_some_iff.mp h
    obtain ⟨hmem, hslug⟩ := Table.find?_eq_some.mp hd
    exact Or.inr (Or.inr ⟨d, hmem, hslug, rfl⟩)

/-- An evaluation answers what is shown and caches nothing else. -/
lemma ensures_evaluate : Prog.Ensures (Showing cache org t) (evaluate org slug)
    (fun value w => Showing cache org t w ∧ t.Shows cache org slug value) := by
  intro w value v hw h
  obtain ⟨now, w₁, hclock, h₁⟩ := Prog.bind_eq_ok h
  cases hclock
  obtain ⟨entry, w₂, hget, h₂⟩ := Prog.bind_eq_ok h₁
  cases hget
  split at h₂
  · rename_i e hfresh
    cases h₂
    obtain ⟨he, hkey⟩ := Table.find?_eq_some.mp (Option.filter_eq_some_iff.mp hfresh).1
    obtain ⟨horg, rfl⟩ := Prod.mk.inj hkey
    exact ⟨hw, hw.cached e he horg⟩
  · obtain ⟨value, w₃, hmiss, h₃⟩ := Prog.bind_eq_ok h₂
    obtain ⟨_, w₄, hinsert, h₄⟩ := Prog.bind_eq_ok h₃
    cases hinsert
    cases h₄
    obtain ⟨heffective, htables, -⟩ := evaluateMiss_eq_ok hmiss
    rw [hw.tables] at heffective htables
    have hshows : t.Shows cache org slug value := shows_of_effective heffective
    have hcache : w₃.cache = w.cache := (reads_evaluateMiss fun _ => rfl).of_run hmiss
    refine ⟨⟨htables, fun e he horg => ?_⟩, hshows⟩
    rcases Table.mem_upsert.mp he with ⟨hold, -⟩ | rfl
    · exact hw.cached e (hcache ▸ hold) horg
    · exact hshows

/-- Every evaluated flag shows what the organisation has. -/
lemma ensures_evaluateAll {overrides : List OrgFeatureOverride}
    (hoverrides : ∀ ov ∈ overrides, ov ∈ t.organisationFeatures ∧ ov.organisationId = org)
    {definitions : List FeatureDefinition} (hdefinitions : ∀ d ∈ definitions, d ∈ t.featureDefinitions) :
    Prog.Ensures (Showing cache org t) (evaluateAll org overrides definitions)
      (fun fs w => Showing cache org t w ∧ ∀ f ∈ fs, f.ShownTo org cache t) := by
  induction definitions with
  | nil => exact Prog.Ensures.ret fun w hw => ⟨hw, fun f hf => nomatch hf⟩
  | cons d ds ih =>
    have hd := hdefinitions d List.mem_cons_self
    intro w fs v hw h
    obtain ⟨value, w₁, hevaluate, h₁⟩ := Prog.bind_eq_ok h
    obtain ⟨hw₁, hshows⟩ := ensures_evaluate w value w₁ hw (Prog.mapErr_eq_ok hevaluate)
    obtain ⟨rest, w₂, hrest, h₂⟩ := Prog.bind_eq_ok h₁
    obtain ⟨hw₂, hfeatures⟩ :=
      ih (fun d hd => hdefinitions d (List.mem_cons_of_mem _ hd)) w₁ rest w₂ hw₁ hrest
    cases h₂
    refine ⟨hw₂, fun f hf => ?_⟩
    rcases List.mem_cons.mp hf with rfl | hf
    · refine ⟨⟨d, hd, rfl, rfl, rfl⟩, hshows, fun hsource => ?_⟩
      dsimp only at hsource
      split at hsource
      · rename_i hany
        obtain ⟨ov, hov, hslug⟩ := List.any_eq_true.mp hany
        obtain ⟨hmem, horg⟩ := hoverrides ov hov
        exact ⟨ov, hmem, horg, of_decide_eq_true hslug⟩
      · cases hsource
    · exact hfeatures f hf

/-- The listed flags are those that an organisation sees. -/
lemma ensures_listOrgFeatures : Prog.Ensures (Showing cache org t) (listOrgFeatures org)
    (fun fs w => w.tables = t ∧ ∀ f ∈ fs, f.ShownTo org cache t) := by
  intro w fs v hw h
  obtain ⟨definitions, w₁, hdefinitions, h₁⟩ := Prog.bind_eq_ok h
  obtain ⟨rfl, rfl, -⟩ := query_eq_ok (Prog.mapErr_eq_ok (Prog.mapErr_eq_ok hdefinitions))
  obtain ⟨overrides, w₂, hoverrides, h₂⟩ := Prog.bind_eq_ok h₁
  obtain ⟨rfl, rfl, -⟩ := query_eq_ok (Prog.mapErr_eq_ok (Prog.mapErr_eq_ok hoverrides))
  have hshowing : Showing cache org t w.tick.tick := ⟨hw.tables, hw.cached⟩
  refine (ensures_evaluateAll ?_ ?_ _ _ _ hshowing h₂).imp_left Showing.tables
  · intro ov hov
    obtain ⟨hmem, horg⟩ := Table.mem_select.mp ((List.mem_insertionSort _).mp hov)
    exact ⟨hw.tables ▸ hmem, of_decide_eq_true horg⟩
  · intro d hd
    rw [← hw.tables]
    exact (List.mem_insertionSort _).mp hd

/-- Setting a flag caches nothing. -/
lemma keeps_cache_setOrgFeature {input : SetOrgFeatureInput} :
    Prog.Keeps (fun w => ∀ e ∈ w.cache, e ∈ cache) (setOrgFeature input) := by
  have hreads : ∀ {ε α : Type} {p : Action ε α}, Prog.Reads World.cache p →
      Prog.Keeps (fun w => ∀ e ∈ w.cache, e ∈ cache) p :=
    fun hp => Prog.Keeps.of_reads (V := World.cache) (J := fun c => ∀ e ∈ c, e ∈ cache) hp
  refine Prog.Keeps.bind (hreads (reads_query fun _ => rfl).mapErr.mapErr) fun found => ?_
  cases found with
  | none => exact Prog.Keeps.fail
  | some d =>
    refine Prog.Keeps.bind Prog.Keeps.ofExcept.mapErr fun _ => ?_
    refine Prog.Keeps.bind (hreads reads_require) fun _ => ?_
    refine Prog.Keeps.bind (hreads ?_) fun oldValue => ?_
    · exact (reads_execute (fun _ => rfl) fun _ _ _ _ => rfl).mapErr.mapErr
    · refine Prog.Keeps.bind (Prog.Keeps.lift fun w hw e he => ?_) fun _ => ?_
      · exact hw e (Table.mem_deleteWhere.mp he).1
      · exact hreads (reads_record (fun _ _ => rfl) fun _ _ => rfl)

end Features

/-! ## Service accounts and keys -/

section Accounts
variable {w v : World} {orgId saUserId : Uuid} {sa : ServiceAccount}

/-- A service account that is created is stored, in its organisation. -/
lemma createServiceAccount_eq_ok [CaseMapping] {input : CreateServiceAccountInput}
    (h : (createServiceAccount input).run w = (.ok sa, v)) :
    sa ∈ v.tables.serviceAccounts ∧ sa.organisationId = input.organisationId := by
  obtain ⟨created, w₁, hrows, h₁⟩ := Prog.bind_eq_ok h
  obtain ⟨_, w₂, hrecord, h₂⟩ := Prog.bind_eq_ok h₁
  cases h₂
  rw [reads_tables_record.of_run hrecord]
  obtain ⟨u, hbody, rfl, -⟩ := transaction_eq_ok (Prog.mapErr_eq_ok hrows)
  obtain ⟨id, u₁, -, h₃⟩ := Prog.bind_eq_ok hbody
  obtain ⟨_, u₂, -, h₄⟩ := Prog.bind_eq_ok h₃
  obtain ⟨t, heffect, rfl, -⟩ := execute_eq_ok (Prog.mapErr_eq_ok h₄)
  obtain ⟨hinsert, rfl⟩ := return_eq_ok.mp heffect
  obtain ⟨rfl, rows, hinserted⟩ := Tables.insertServiceAccount_eq_ok hinsert
  unfold Tables.addServiceAccount
  rw [World.tick_tables, hinserted]
  exact ⟨(Table.mem_insert? hinserted).mpr (Or.inr rfl), rfl⟩

/-- The listed service accounts are those of the organisation. -/
lemma listServiceAccountRows_eq_ok {limit : ℕ} {after : Option Cursor} {rows : List ServiceAccount}
    (h : (listServiceAccountRows orgId limit after).run w = (.ok rows, v)) :
    ∀ sa ∈ rows, sa ∈ v.tables.serviceAccounts ∧ sa.organisationId = orgId := by
  obtain ⟨rfl, rfl, -⟩ := query_eq_ok h
  intro sa hsa
  have hsorted := List.mem_of_mem_take hsa
  rw [List.mem_insertionSort, Table.mem_select] at hsorted
  obtain ⟨hmem, hselected⟩ := hsorted
  obtain ⟨horg, -⟩ := (Bool.and_eq_true _ _).mp hselected
  exact ⟨hmem, of_decide_eq_true horg⟩

/-- The service accounts that are listed are stored, in their organisation; so is the one of the
cursor. -/
lemma listServiceAccounts_eq_ok {input : ListServiceAccountsInput}
    {out : ListServiceAccountsOutput} (h : (listServiceAccounts input).run w = (.ok out, v)) :
    (∀ sa ∈ out.items, sa ∈ v.tables.serviceAccounts ∧ sa.organisationId = input.organisationId) ∧
      ∀ c, out.nextCursor = some c → ∃ sa ∈ v.tables.serviceAccounts,
        sa.organisationId = input.organisationId ∧ c = ⟨sa.createdAt, sa.userId⟩ := by
  obtain ⟨rows, w₁, hquery, h₁⟩ := Prog.bind_eq_ok h
  have hrows := listServiceAccountRows_eq_ok (Prog.mapErr_eq_ok hquery)
  split at h₁
  · cases h₁
    refine ⟨fun sa hsa => hrows sa (List.mem_of_mem_dropLast hsa), fun c hc => ?_⟩
    obtain ⟨extra, hextra, rfl⟩ := Option.map_eq_some_iff.mp hc
    obtain ⟨hmem, horg⟩ := hrows extra (List.mem_of_getLast? hextra)
    exact ⟨extra, hmem, horg, rfl⟩
  · cases h₁
    exact ⟨hrows, fun c hc => nomatch hc⟩

/-- The keys that are listed are stored, of an account of the organisation. -/
lemma listApiKeys_eq_ok {input : ListApiKeysInput} {keys : List ApiKey}
    (h : (listApiKeys input).run w = (.ok keys, v)) :
    ∀ key ∈ keys, ∃ k ∈ v.tables.apiKeys,
      v.tables.OwnsAccount input.organisationId k.serviceAccountUserId ∧ key = k.toApiKey := by
  obtain ⟨found, w₁, hfind, h₁⟩ := Prog.bind_eq_ok h
  obtain ⟨rfl, rfl, -⟩ := query_eq_ok (Prog.mapErr_eq_ok hfind)
  obtain ⟨_, w₂, hrequire, h₂⟩ := Prog.bind_eq_ok h₁
  obtain ⟨hsome, rfl⟩ := require_eq_ok hrequire
  obtain ⟨rfl, rfl, -⟩ := query_eq_ok (Prog.mapErr_eq_ok h₂)
  obtain ⟨sa, hfound⟩ := Option.isSome_iff_exists.mp hsome
  intro key hkey
  obtain ⟨k, hk, rfl⟩ := List.mem_map.mp ((List.mem_insertionSort _).mp hkey)
  obtain ⟨hmem, haccount⟩ := Table.mem_select.mp hk
  refine ⟨k, hmem, ?_, rfl⟩
  rw [of_decide_eq_true haccount]
  exact ⟨sa, Tables.serviceAccount_eq_some.mp hfound⟩

/-- A key that is added is stored, of the account that it was of. -/
lemma shows_addKey {t : Tables} {k : ApiKeyRecord} (hins : t.Insertable k)
    (h : t.OwnsAccount orgId k.serviceAccountUserId) :
    ∃ k' ∈ (t.addKey k).apiKeys, (t.addKey k).OwnsAccount orgId k'.serviceAccountUserId ∧
      k.toApiKey.toResponse = k'.toApiKey.toResponse := by
  refine ⟨k, hins.mem_addKey.mpr (Or.inr rfl), ?_, rfl⟩
  unfold Tables.OwnsAccount
  rw [Tables.addKey_serviceAccounts]
  exact h

end Accounts

/-! ## Users -/

section Users
variable {w v : World} {org : Uuid}

/-- The listed users are those of the query. -/
lemma listUserRows_eq_ok {q : Option String} {cursor : Option Cursor} {limit : ℕ}
    [CaseMapping] {rows : List User}
    (h : (listUserRows (some org) q cursor limit).run w = (.ok rows, v)) :
    v.tables = w.tables ∧ ∀ u ∈ rows, u ∈ w.tables.users ∧ w.tables.isMember u.id org = true := by
  obtain ⟨rfl, rfl, -⟩ := queryWith_eq_ok h
  refine ⟨rfl, fun u hu => ?_⟩
  have hsorted := List.mem_of_mem_take hu
  rw [List.mem_insertionSort, Table.mem_select] at hsorted
  obtain ⟨hmem, hselected⟩ := hsorted
  simp only [Bool.and_eq_true, Option.all_some] at hselected
  exact ⟨hmem, hselected.1.1⟩

/-- The listed memberships are those of the users. -/
lemma listMembershipsForUsers_eq_ok {ids : List Uuid} {raw : List (Uuid × UserMembership)}
    (h : (listMembershipsForUsers ids).run w = (.ok raw, v)) :
    v.tables = w.tables ∧ ∀ m ∈ raw, m.2 ∈ w.tables.membershipsOf m.1 := by
  unfold listMembershipsForUsers at h
  split at h
  · cases h
    exact ⟨rfl, fun m hm => nomatch hm⟩
  · obtain ⟨rfl, rfl, -⟩ := query_eq_ok h
    refine ⟨rfl, fun m hm => ?_⟩
    obtain ⟨u, -, hmu⟩ := List.mem_flatMap.mp hm
    obtain ⟨membership, hmembership, rfl⟩ := List.mem_map.mp hmu
    exact hmembership

/-- A member is shown with its memberships in the organisation. -/
lemma shownTo_withMemberships {t : Tables} {raw : List (Uuid × UserMembership)} {u : User}
    (hraw : ∀ m ∈ raw, m.2 ∈ t.membershipsOf m.1) (hu : u ∈ t.users)
    (hmember : t.isMember u.id org = true) :
    (withMemberships false (some org) raw u).ShownTo org t where
  user := ⟨u, hu, rfl, rfl, rfl, rfl⟩
  member := hmember
  memberships m hm := by
    obtain ⟨hm, hvisible⟩ := List.mem_filter.mp hm
    obtain ⟨⟨id, membership⟩, hpair, rfl⟩ := List.mem_map.mp hm
    obtain ⟨hpair, hid⟩ := List.mem_filter.mp hpair
    obtain rfl : id = u.id := of_decide_eq_true hid
    have hmembership := (List.mem_insertionSort _).mp (hraw _ hpair)
    obtain ⟨o, ho, hsome⟩ := List.mem_filterMap.mp hmembership
    exact ⟨by simpa using hvisible, o, ho, hsome⟩

variable [CaseMapping] [CursorText]

/-- The users that are listed in an organisation are its members, with their membership there. -/
lemma listUsers_eq_ok {input : ListUsersInput} {out : ListUsersOutput}
    (h : (listUsers false (some org) input).run w = (.ok out, v)) :
    (∀ u ∈ out.items, u.ShownTo org v.tables) ∧
      ∀ s, out.nextCursor = some s → ∃ row ∈ v.tables.users, v.tables.isMember row.id org = true ∧
        s = CursorText.encodeUserCursor ⟨row.createdAt, row.id⟩ := by
  obtain ⟨cursor, w₁, hdecode, h₁⟩ := Prog.bind_eq_ok h
  obtain ⟨found, w₂, hquery, h₂⟩ := Prog.bind_eq_ok h₁
  obtain ⟨hsame, hfound⟩ := listUserRows_eq_ok (Prog.mapErr_eq_ok hquery)
  obtain ⟨raw, w₃, hmemberships, h₃⟩ := Prog.bind_eq_ok h₂
  obtain ⟨hsame', hraw⟩ := listMembershipsForUsers_eq_ok (Prog.mapErr_eq_ok hmemberships)
  cases h₃
  rw [← hsame] at hfound
  rw [← hsame'] at hfound hraw
  constructor
  · intro item hitem
    obtain ⟨u, hu, rfl⟩ := List.mem_map.mp hitem
    obtain ⟨hmem, hmember⟩ := hfound u (List.mem_of_mem_take hu)
    exact shownTo_withMemberships hraw hmem hmember
  · intro s hs
    dsimp only at hs
    split at hs
    · obtain ⟨last, hlast, rfl⟩ := Option.map_eq_some_iff.mp hs
      obtain ⟨hmem, hmember⟩ := hfound last (List.mem_of_mem_take (List.mem_of_getLast? hlast))
      exact ⟨last, hmem, hmember, rfl⟩
    · cases hs

end Users

/-! ## Requests -/

section Handlers
variable {α : Type} {c : AuthedCaller} {kind : Caller} {p : Permission} {P : World → Prop}
  {R : α → World → Prop}

/-- Behind the gate for humans the same is ensured. -/
lemma ensures_human_bind {k : Unit → Action AppError α} (hk : Prog.Ensures P (k ()) R) :
    Prog.Ensures P (Prog.ofExcept (requireHumanCaller (c.extensions kind)) >>= k) R :=
  Prog.Ensures.ofExcept_bind fun _ _ => hk

/-- Behind the gate of a permission the same is ensured. -/
lemma ensures_perm_bind {k : AuthedCaller → Action AppError α} (hk : Prog.Ensures P (k c) R) :
    Prog.Ensures P (do
      let caller ← Prog.ofExcept (authedCaller (c.extensions kind))
      Prog.ofExcept (perm p (c.extensions kind))
      k caller) R :=
  Prog.Ensures.ofExcept_bind fun _ h => by
    cases h
    exact Prog.Ensures.ofExcept_bind fun _ _ => hk

/-- Behind the gate of the own organisation the caller may name it. -/
lemma ensures_own_bind {orgId : Uuid} {k : Unit → Action AppError α}
    (hk : c.mayName orgId = true → Prog.Ensures P (k ()) R) :
    Prog.Ensures P (Prog.ofExcept (requireOwnOrganisation c orgId) >>= k) R :=
  Prog.Ensures.ofExcept_bind fun _ h => hk (mayName_of_ok h)

/-- An answer ensures what its reply does. -/
lemma ensures_answering {p : Action AppError α} {reply : α → ResourceReply}
    {Q : ResourceReply → World → Prop} (hp : Prog.Ensures P p (fun a => Q (reply a))) :
    Prog.Ensures P (answering p reply) Q :=
  Prog.Ensures.bind hp fun _ => Prog.Ensures.ret fun _ h => h

end Handlers

section Serve
variable [Argon2] [Base64] [CaseMapping] [CursorText] {c : AuthedCaller} {kind : Caller} {n : Names}
  {act : ResourceAction} {w : World}

/-- An ordinary caller is answered with rows of its organisation only. -/
theorem ensures_serve (hop : c.permissions.isOperatorOverTenants = false)
    (husers : c.permissions.isOperatorOverUsers = false) :
    Prog.Ensures (fun u => u = w) (act.serve (c.extensions kind) n)
      (fun reply v => reply.Within c.claims.org w.cache v.tables) := by
  have hown : ∀ {orgId}, c.mayName orgId = true → orgId = c.claims.org :=
    fun may => AuthedCaller.eq_of_mayName may hop
  cases act with
  | createChannel req =>
    refine ensures_answering (ensures_perm_bind (ensures_own_bind fun hmay => ?_))
    refine Prog.Ensures.ofExcept_bind fun _ _ => Prog.Ensures.bind (Prog.Ensures.mapErr
      fun _ ch v _ h => createInboundChannel_eq_ok h) fun ch => Prog.Ensures.ret fun v h => ?_
    exact hown hmay ▸ h
  | listChannels q =>
    refine ensures_answering (ensures_perm_bind (ensures_own_bind fun hmay => ?_))
    refine Prog.Ensures.bind (Prog.Ensures.mapErr fun _ out v _ h => listInboundChannels_eq_ok h)
      fun out => Prog.Ensures.ret fun v h => ?_
    exact hown hmay ▸ h
  | getChannel =>
    refine ensures_answering (ensures_perm_bind (ensures_own_bind fun hmay => ?_))
    exact Prog.Ensures.mapErr fun _ ch v _ h => hown hmay ▸ getInboundChannel_eq_ok h
  | updateChannel req =>
    refine ensures_answering (ensures_perm_bind (ensures_own_bind fun hmay => ?_))
    refine Prog.Ensures.ofExcept_bind fun _ _ => Prog.Ensures.mapErr fun _ ch v _ h => ?_
    exact hown hmay ▸ updateInboundChannel_eq_ok h
  | deleteChannel => exact ensures_answering fun _ _ _ _ _ => trivial
  | listFeatures =>
    refine ensures_answering (ensures_perm_bind (ensures_own_bind fun hmay => ?_))
    refine Prog.Ensures.mapErr fun u fs v hu h => ?_
    subst hu
    have hshowing : Showing u.cache n.organisation u.tables u := showing_of_subset fun _ he => he
    obtain ⟨htables, hfeatures⟩ := ensures_listOrgFeatures u fs v hshowing h
    rw [htables]
    exact hown hmay ▸ hfeatures
  | putFeature slug value =>
    refine ensures_answering (ensures_perm_bind (ensures_own_bind fun hmay => ?_))
    intro u f v hu h
    subst hu
    obtain ⟨_, u₁, hset, h₁⟩ := Prog.bind_eq_ok h
    have hkept := keeps_cache_setOrgFeature.of_run (fun _ he => he) (Prog.mapErr_eq_ok hset)
    obtain ⟨fs, u₂, hlist, h₂⟩ := Prog.bind_eq_ok h₁
    have hshowing : Showing u.cache n.organisation u₁.tables u₁ := showing_of_subset hkept
    obtain ⟨htables, hfeatures⟩ :=
      ensures_listOrgFeatures u₁ fs u₂ hshowing (Prog.mapErr_eq_ok hlist)
    split at h₂
    · cases h₂
    · rename_i evaluated hfind
      cases h₂
      rw [htables]
      exact hown hmay ▸ hfeatures f (List.mem_of_find?_eq_some hfind)
  | deleteFeature slug => exact ensures_answering fun _ _ _ _ _ => trivial
  | createServiceAccount name description =>
    refine ensures_answering (ensures_human_bind (ensures_perm_bind
      (ensures_own_bind fun hmay => ?_)))
    refine Prog.Ensures.bind (Prog.Ensures.mapErr fun _ sa v _ h => createServiceAccount_eq_ok h)
      fun sa => Prog.Ensures.ret fun v h => ?_
    exact ⟨sa, h.1, hown hmay ▸ h.2, rfl⟩
  | listServiceAccounts limit after =>
    refine ensures_answering (ensures_human_bind (ensures_perm_bind
      (ensures_own_bind fun hmay => ?_)))
    refine Prog.Ensures.ofExcept_bind fun _ _ => Prog.Ensures.bind
      (Prog.Ensures.mapErr fun _ out v _ h => listServiceAccounts_eq_ok h)
      fun out => Prog.Ensures.ret fun v h => ?_
    obtain ⟨hitems, hcursor⟩ := hown hmay ▸ h
    constructor
    · intro r hr
      obtain ⟨sa, hsa, rfl⟩ := List.mem_map.mp hr
      obtain ⟨hmem, horg⟩ := hitems sa hsa
      exact ⟨sa, hmem, horg, rfl⟩
    · intro s hs
      obtain ⟨cursor, hnext, rfl⟩ := Option.map_eq_some_iff.mp hs
      obtain ⟨sa, hmem, horg, rfl⟩ := hcursor cursor hnext
      exact ⟨sa, hmem, horg, rfl⟩
  | getServiceAccount =>
    refine ensures_answering (ensures_human_bind (ensures_perm_bind ?_))
    intro u r v hu h
    obtain ⟨found, u₁, hquery, h₁⟩ := Prog.bind_eq_ok h
    obtain ⟨rfl, rfl, -⟩ := query_eq_ok (Prog.mapErr_eq_ok hquery)
    split at h₁
    · cases h₁
    · rename_i sa hfind
      cases h₁
      obtain ⟨hmem, -, horg⟩ := Tables.serviceAccount_eq_some.mp hfind
      exact ⟨sa, hmem, horg, rfl⟩
  | deleteServiceAccount => exact ensures_answering fun _ _ _ _ _ => trivial
  | createApiKey req =>
    refine ensures_answering (ensures_human_bind (ensures_perm_bind ?_))
    refine Prog.Ensures.bind (Prog.Ensures.mapErr ?_) fun mat => Prog.Ensures.ret fun v h => h
    intro u mat v hu h
    subst hu
    obtain ⟨hhome, k, hnew, hins, hkey, htables⟩ := createApiKey_eq_ok h
    show ∃ k ∈ v.tables.apiKeys, v.tables.OwnsAccount c.claims.org k.serviceAccountUserId ∧
      mat.key.toResponse = k.toApiKey.toResponse
    rw [htables, hkey]
    refine shows_addKey hins ?_
    rw [hnew.account]
    exact Tables.ownsAccount_of_serviceAccount hhome
  | listApiKeys =>
    refine ensures_answering (ensures_human_bind (ensures_perm_bind ?_))
    refine Prog.Ensures.bind (Prog.Ensures.mapErr fun _ keys v _ h => listApiKeys_eq_ok h)
      fun keys => Prog.Ensures.ret fun v h => ?_
    intro r hr
    obtain ⟨key, hkey, rfl⟩ := List.mem_map.mp hr
    obtain ⟨k, hmem, howns, rfl⟩ := h key hkey
    exact ⟨k, hmem, howns, rfl⟩
  | deleteApiKey => exact ensures_answering fun _ _ _ _ _ => trivial
  | rotateApiKey req =>
    refine ensures_answering (ensures_human_bind (ensures_perm_bind ?_))
    refine Prog.Ensures.bind (Prog.Ensures.mapErr ?_) fun mat => Prog.Ensures.ret fun v h => h
    intro u mat v hu h
    subst hu
    obtain ⟨hhome, -, k, now, hnew, hins, hkey, htables, -⟩ := rotateApiKey_eq_ok h
    show ∃ k ∈ v.tables.apiKeys, v.tables.OwnsAccount c.claims.org k.serviceAccountUserId ∧
      mat.key.toResponse = k.toApiKey.toResponse
    rw [htables, hkey]
    refine shows_addKey hins ?_
    rw [hnew.account]
    exact Tables.ownsAccount_of_serviceAccount hhome
  | listUsers after limit named q =>
    refine ensures_answering (ensures_perm_bind ?_)
    rw [husers]
    refine Prog.Ensures.bind (Q := fun _ _ => True) (fun _ _ _ _ _ => trivial) fun _ => ?_
    refine Prog.Ensures.bind (Prog.Ensures.mapErr fun _ out v _ h => listUsers_eq_ok h)
      fun out u r v hu h => ?_
    obtain ⟨_, u₁, hrecord, h₁⟩ := Prog.bind_eq_ok h
    cases h₁
    rw [reads_tables_record.of_run hrecord]
    exact hu

end Serve
end Egras
