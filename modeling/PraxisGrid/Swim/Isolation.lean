/-
PraxisGrid/Swim/Isolation.lean

What an item of one origin can change of another site.

`SameSite` says that nothing a handler holds for a site changed: its records, the owners
and revisions of its scopes, its lanes and its spend.  The elementary changes of a handler
are each local to one origin, with one exception: records are filed under the flattened
string `network/site/provider`, so an accepted record can land on the key of another
site's record and supersede it (`Overwrites`).  A received item is isolated exactly when
that does not happen (`receiveItem_isolated_iff`).
-/
import PraxisGrid.Swim.Ownership

namespace PraxisGrid

open Std OrdMap Bincode Scenario RetainedOrigins StateBroadcast

namespace StateBroadcastHandler

variable {c : Crypto} {h h' h'' : StateBroadcastHandler} {now : Clock} {data : Bytes}
  {b : StateBroadcast} {s incoming o : String} {f : ModelInventoryBroadcast}

/-! ### The state of one site -/

/-- The merged snapshot holds the same records of a site. -/
def SameRecords (h h' : StateBroadcastHandler) (s : String) : Prop :=
  ∀ (k : String) (p : ProviderState), p.siteId = s →
    (h'.state.providers[k]? = some p ↔ h.state.providers[k]? = some p)

def SameSpend (h h' : StateBroadcastHandler) (s : String) : Prop :=
  ∀ tenant, h'.state.spendSlot tenant s = h.state.spendSlot tenant s

structure SameLane (h h' : StateBroadcastHandler) (s : String) (lane : Lane) : Prop where
  value : (h'.retained.lanes lane).values[s]? = (h.retained.lanes lane).values[s]?
  guard : (h'.retained.lanes lane).revisions[s]? = (h.retained.lanes lane).revisions[s]?
  published : (h'.published lane)[s]? = (h.published lane)[s]?

/-- The owners of a site's identities and everything kept by its scopes are the same. -/
structure SameScopes (h h' : StateBroadcastHandler) (s : String) : Prop where
  owners : ∀ id : ProviderIdentity, id.site = s →
    h'.retained.providerOwners[id]? = h.retained.providerOwners[id]?
  latest : ∀ scope : ProviderStateScope, scope.originSite = s →
    h'.retained.latestByScope[scope]? = h.retained.latestByScope[scope]?
  unverified : ∀ scope : ProviderStateScope, scope.originSite = s →
    (scope ∈ h'.retained.unverifiedScopes ↔ scope ∈ h.retained.unverifiedScopes)
  networks : ∀ scope : ProviderStateScope, scope.originSite = s →
    h'.retained.providerNetworksByScope[scope]? = h.retained.providerNetworksByScope[scope]?
  uids : ∀ scope : ProviderStateScope, scope.originSite = s →
    h'.retained.providerUidsByScope[scope]? = h.retained.providerUidsByScope[scope]?
  inventories : ∀ scope : ProviderStateScope, scope.originSite = s →
    (scope ∈ h'.retained.inventoryScopes ↔ scope ∈ h.retained.inventoryScopes)

/-- Nothing held for a site changed. -/
structure SameSite (h h' : StateBroadcastHandler) (s : String) : Prop where
  records : h.SameRecords h' s
  scopes : h.SameScopes h' s
  spend : h.SameSpend h' s
  lanes : ∀ lane, h.SameLane h' s lane

theorem SameSite.refl (h : StateBroadcastHandler) (s : String) : h.SameSite h s where
  records _ _ _ := Iff.rfl
  scopes := ⟨fun _ _ => rfl, fun _ _ => rfl, fun _ _ => Iff.rfl, fun _ _ => rfl, fun _ _ => rfl,
    fun _ _ => Iff.rfl⟩
  spend _ := rfl
  lanes _ := ⟨rfl, rfl, rfl⟩

theorem SameLane.trans {lane : Lane} (h₁ : h.SameLane h' s lane) (h₂ : h'.SameLane h'' s lane) :
    h.SameLane h'' s lane :=
  ⟨h₂.value.trans h₁.value, h₂.guard.trans h₁.guard, h₂.published.trans h₁.published⟩

theorem SameScopes.trans (h₁ : h.SameScopes h' s) (h₂ : h'.SameScopes h'' s) :
    h.SameScopes h'' s where
  owners id hid := (h₂.owners id hid).trans (h₁.owners id hid)
  latest scope hs := (h₂.latest scope hs).trans (h₁.latest scope hs)
  unverified scope hs := (h₂.unverified scope hs).trans (h₁.unverified scope hs)
  networks scope hs := (h₂.networks scope hs).trans (h₁.networks scope hs)
  uids scope hs := (h₂.uids scope hs).trans (h₁.uids scope hs)
  inventories scope hs := (h₂.inventories scope hs).trans (h₁.inventories scope hs)

theorem SameSite.trans (h₁ : h.SameSite h' s) (h₂ : h'.SameSite h'' s) : h.SameSite h'' s where
  records k p hp := (h₂.records k p hp).trans (h₁.records k p hp)
  scopes := h₁.scopes.trans h₂.scopes
  spend tenant := (h₂.spend tenant).trans (h₁.spend tenant)
  lanes lane := (h₁.lanes lane).trans (h₂.lanes lane)

theorem SameSite.symm (hs : h.SameSite h' s) : h'.SameSite h s where
  records k p hp := (hs.records k p hp).symm
  scopes := ⟨fun id hid => (hs.scopes.owners id hid).symm,
    fun scope hsc => (hs.scopes.latest scope hsc).symm,
    fun scope hsc => (hs.scopes.unverified scope hsc).symm,
    fun scope hsc => (hs.scopes.networks scope hsc).symm,
    fun scope hsc => (hs.scopes.uids scope hsc).symm,
    fun scope hsc => (hs.scopes.inventories scope hsc).symm⟩
  spend tenant := (hs.spend tenant).symm
  lanes lane := ⟨(hs.lanes lane).value.symm, (hs.lanes lane).guard.symm,
    (hs.lanes lane).published.symm⟩

/-- Only the snapshot, the retained maps and the published lanes count. -/
theorem SameSite.congr (hs : h.SameSite h' s) (hst : h''.state = h'.state)
    (hrt : h''.retained = h'.retained) (hpb : h''.published = h'.published) :
    h.SameSite h'' s where
  records k p hp := by rw [hst, hs.records k p hp]
  scopes := by
    obtain ⟨how, hlt, hun, hnt, hud, hin⟩ := hs.scopes
    constructor <;> rwa [hrt]
  spend tenant := by rw [hst, hs.spend tenant]
  lanes lane := by
    obtain ⟨hvl, hgr, hpub⟩ := hs.lanes lane
    exact ⟨by rwa [hrt], by rwa [hrt], by rwa [hpb]⟩

/-! ### Local changes -/

theorem SameSite.removeOrigin {v : String} (hne : s ≠ v) : h.SameSite (h.removeOrigin v) s where
  records k p hp := by
    rw [providers_removeOrigin_eq_some, and_iff_left]
    rwa [hp]
  scopes := by
    refine ⟨fun id hid => ?_, fun scope hs => ?_, fun scope hs => ?_, fun scope hs => ?_,
      fun scope hs => ?_, fun scope hs => ?_⟩
    · rw [retained_removeOrigin, providerOwners_remove, if_neg (hid ▸ hne)]
    · rw [retained_removeOrigin, latestByScope_remove, if_neg (hs ▸ hne)]
    · rw [retained_removeOrigin, mem_unverifiedScopes_remove,
        and_iff_left (hs ▸ hne)]
    · rw [retained_removeOrigin, providerNetworksByScope_remove,
        if_neg (hs ▸ hne)]
    · rw [retained_removeOrigin, providerUidsByScope_remove, if_neg (hs ▸ hne)]
    · rw [retained_removeOrigin, mem_inventoryScopes_remove,
        and_iff_left (hs ▸ hne)]
  spend _ := rfl
  lanes lane := by
    refine ⟨?_, ?_, ?_⟩
    · rw [retained_removeOrigin, values_remove, if_neg hne.symm]
    · rw [retained_removeOrigin, revisions_remove, if_neg hne.symm]
    · exact (getElem?_erase ..).trans (if_neg hne.symm)

theorem SameLane.offerMetadata (hne : s ≠ b.originSite) (lane : Lane) :
    h.SameLane (h.offerMetadata now b) s lane where
  value := by rw [lanes_offerMetadata, LaneRecord.values_store, if_neg hne.symm]
  guard := by rw [lanes_offerMetadata, LaneRecord.revisions_store, if_neg hne.symm]
  published := by
    change (publishLane (h.published lane) b.originSite _)[s]? = _
    cases (h.retained.lanes lane).incoming now lane b with
    | none => rfl
    | some value => exact (getElem?_insert ..).trans (if_neg hne.symm)

theorem SameScopes.offerMetadata : h.SameScopes (h.offerMetadata now b) s :=
  ⟨fun _ _ => rfl, fun _ _ => rfl, fun _ _ => Iff.rfl, fun _ _ => rfl, fun _ _ => rfl,
    fun _ _ => Iff.rfl⟩

theorem SameSite.offerMetadata (hne : s ≠ b.originSite) :
    h.SameSite (h.offerMetadata now b) s where
  records _ _ _ := Iff.rfl
  scopes := .offerMetadata
  spend _ := rfl
  lanes := SameLane.offerMetadata hne

/-- A replacement drops nothing of another site. -/
theorem Owned.replaces_eq_false (hi : h.Owned) {id : ProviderIdentity}
    (hne : id.site ≠ b.originSite) (networks : ExtTreeSet String) :
    h.retained.replaces b networks id = false := by
  rw [← Bool.not_eq_true, replaces_eq_true_iff]
  rintro (hin | ⟨-, owner, ho, hsc⟩)
  · exact hne (site_of_mem_incomingIdentities hin).1
  · refine hne ?_
    rw [← hi.site_eq ho, hsc]
    rfl

theorem SameScopes.merged (hi : h.Owned) (hne : s ≠ b.originSite) :
    h.SameScopes (h.merged now b) s := by
  have hsc : ∀ {scope : ProviderStateScope}, scope.originSite = s →
      b.providerStateScope ≠ scope := by
    rintro scope hs rfl
    exact hne hs.symm
  refine ⟨fun id hid => ?_, fun scope hs => ?_, fun scope hs => ?_, fun scope hs => ?_,
    fun scope hs => ?_, fun scope hs => ?_⟩
  · exact providerOwners_merged_of_not_replaces fun _ => hi.replaces_eq_false (hid ▸ hne) _
  · rw [retained_merged, latestByScope_mergedRetained, if_neg (hsc hs)]
  · rw [retained_merged, mem_unverifiedScopes_mergedRetained, if_neg (hsc hs)]
  · rw [retained_merged, providerNetworksByScope_mergedRetained,
      if_neg fun heq => hsc hs heq.1]
  · rw [retained_merged, providerUidsByScope_mergedRetained, if_neg fun heq => hsc hs heq.1]
  · rw [retained_merged, inventoryScopes_mergedRetained]

theorem SameSpend.merged (hne : s ≠ b.originSite) : h.SameSpend (h.merged now b) s := by
  intro tenant
  rw [state_merged, spendSlot_mergedState]
  exact h.state.spendSlot_mergeTenantSpendFromOrigin_of_ne hne.symm b.snapshot.tenantSpend tenant

/-- **A record of another site survives a merge** unless an accepted record with the same
flattened key supersedes it. -/
theorem Owned.providers_merged_iff (hi : h.Owned) {k : String} {p : ProviderState}
    (hp : h.state.providers[k]? = some p) (hne : p.siteId ≠ b.originSite) :
    (h.merged now b).state.providers[k]? = some p ↔
      ¬ (b.carriesProviderState = true ∧
        ∃ q ∈ b.acceptedProviders (h.replacedNetworks b), q.key = k ∧ q.supersedes p = true) := by
  rw [state_merged, providers_mergedState]
  rcases hcar : b.carriesProviderState with - | -
  · simp [hp]
  have hkp : (h.retained.withdrawn h.state b (h.replacedNetworks b)).providers[k]? = some p :=
    providers_withdrawn_eq_some.mpr ⟨hp, hi.replaces_eq_false hne _⟩
  rw [if_pos rfl, providers_replaceProviders, hkp]
  rcases hfn : (b.acceptedProviders (h.replacedNetworks b)).find? (fun q => q.key == k) with - | q
  · rw [hfn]
    simp only [List.find?_eq_none, beq_iff_eq] at hfn
    refine iff_of_true rfl ?_
    rintro ⟨-, q, hq, hkey, -⟩
    exact hfn q hq hkey
  · have hq := List.mem_of_find?_eq_some hfn
    have hkey : q.key = k := by simpa using List.find?_some hfn
    obtain ⟨hrev, hwr, hst⟩ := stamped_of_mem_acceptedProviders hq
    simp only [hfn, Option.all_some]
    split_ifs with hsup
    · refine iff_of_false (fun heq => hne ?_) (not_not_intro ⟨trivial, q, hq, hkey, hsup⟩)
      rw [← Option.some.inj heq, hst]
    · refine iff_of_true rfl ?_
      rintro ⟨-, q', hq', -, hsup'⟩
      -- all accepted records rank the same
      obtain ⟨hrev', hwr', -⟩ := stamped_of_mem_acceptedProviders hq'
      rw [ProviderState.supersedes_eq (hrev'.trans hrev.symm) (hwr'.trans hwr.symm)]
        at hsup'
      exact hsup hsup'

/-! ### Room and settling -/

/-- The origin that is evicted to make room for another, if any. -/
def victim (h : StateBroadcastHandler) (incoming : String) : Option String :=
  let origins := h.retained.knownOrigins
  if origins.contains incoming || origins.size < h.maxOrigins then none
  else origins.toList.find? h.evictable

theorem eq_of_makeRoomFor (hrm : h.makeRoomFor incoming = some h') :
    h' = (h.victim incoming).elim h h.removeOrigin := by
  simp only [makeRoomFor] at hrm
  simp only [victim]
  split_ifs at hrm ⊢
  · exact (Option.some.inj hrm).symm
  · obtain ⟨v, hfn, rfl⟩ := Option.map_eq_some_iff.mp hrm
    rw [hfn]
    rfl

theorem victim_ne_self (h : StateBroadcastHandler) (incoming : String) :
    h.victim incoming ≠ some incoming := by
  simp only [victim]
  split_ifs with hft
  · exact nofun
  · intro hfn
    refine hft ?_
    rw [Bool.or_eq_true, ExtTreeSet.contains_iff_mem]
    exact .inl (ExtTreeSet.mem_toList.mp (List.mem_of_find?_eq_some hfn))

/-- Making room leaves every site but the evicted one. -/
theorem SameSite.makeRoomFor (hrm : h.makeRoomFor incoming = some h')
    (hkp : h.victim incoming ≠ some s) : h.SameSite h' s := by
  rw [eq_of_makeRoomFor hrm]
  rcases hv : h.victim incoming with - | v
  · exact .refl h s
  · refine .removeOrigin fun heq => hkp ?_
    rw [hv, heq]

theorem Owned.makeRoomFor (hi : h.Owned) (hrm : h.makeRoomFor incoming = some h') : h'.Owned :=
  makeRoomFor_preserves (fun v hi => hi.removeOrigin v) hrm hi

theorem SameLane.merged (lane : Lane) : h.SameLane (h.merged now b) s lane where
  value := by rw [retained_merged, lanes_mergedRetained]
  guard := by rw [retained_merged, lanes_mergedRetained]
  published := by rw [published_merged]

theorem SameSite.merged (hi : h.Owned) (hne : s ≠ b.originSite)
    (hrc : h.SameRecords (h.merged now b) s) : h.SameSite (h.merged now b) s where
  records := hrc
  scopes := .merged hi hne
  spend := .merged hne
  lanes := .merged

theorem SameSite.settleFrame (hne : s ≠ f.originSite) :
    h.SameSite (h.settleFrame c now f) s := by
  have hbf : h.SameSite (h.buffered c now f) s := by
    refine ⟨fun _ _ _ => Iff.rfl, ?_, fun _ => rfl, fun _ => ⟨rfl, rfl, rfl⟩⟩
    refine ⟨fun _ _ => rfl, fun _ _ => rfl, fun _ _ => Iff.rfl, fun _ _ => rfl, fun _ _ => rfl,
      fun scope hs => mem_insert.trans (or_iff_right ?_)⟩
    rintro rfl
    exact hne hs.symm
  unfold StateBroadcastHandler.settleFrame
  split_ifs
  · exact hbf.congr rfl rfl rfl
  · exact hbf

/-- A broadcast settles locally to its origin if a merge leaves the records of others. -/
theorem SameSite.settle (hi : h.Owned) (hne : s ≠ b.originSite)
    (hrc : h.Fresh now b → b.isMetadataOnly = false →
      (h.offerMetadata now b).SameRecords ((h.offerMetadata now b).merged now b) s) :
    h.SameSite (h.settle now b) s := by
  rcases settle_cases h now b with ⟨hs, -⟩ | hs | ⟨hmt, hfr, hs⟩
  · rw [hs]
    exact .refl h s
  · rw [hs]
    exact .offerMetadata hne
  · rw [hs]
    have hof : (h.offerMetadata now b).Owned := ⟨hi.key_eq, hi.owner, hi.site_eq⟩
    exact (SameSite.offerMetadata hne).trans (.merged hof hne (hrc hfr hmt))

/-! ### Items -/

/-- The origin an item claims to come from; none if it does not decode. -/
def claimedOrigin (data : Bytes) : Option String :=
  if ModelInventoryBroadcast.recognizes data then
    (ModelInventoryBroadcast.decode data).toOption.map (·.originSite)
  else (StateBroadcast.decode data).toOption.map (·.originSite)

/-- The item is admitted from an origin, and there is room for the origin. -/
inductive Takes (c : Crypto) (h : StateBroadcastHandler) (now : Clock) (data : Bytes) :
    String → StateBroadcastHandler → Prop
  | state {b : StateBroadcast} {h₁ : StateBroadcastHandler}
      (hkind : ModelInventoryBroadcast.recognizes data = false)
      (hdecode : StateBroadcast.decode data = .ok b) (hadm : h.Admits c now b h₁) :
      Takes c h now data b.originSite h₁
  | frame {f : ModelInventoryBroadcast} {h₁ : StateBroadcastHandler}
      (hkind : ModelInventoryBroadcast.recognizes data = true)
      (hdecode : ModelInventoryBroadcast.decode data = .ok f) (hadm : h.AdmitsFrame c now f h₁) :
      Takes c h now data f.originSite h₁

/-- Receiving the item evicts `v`. -/
def Evicts (c : Crypto) (h : StateBroadcastHandler) (now : Clock) (data : Bytes) (v : String) :
    Prop :=
  ∃ o h₁, h.Takes c now data o h₁ ∧ h.victim o = some v

/-- The item is a merged broadcast, one of whose records has the flattened key of a record
of another site and supersedes it. -/
def Overwrites (c : Crypto) (h : StateBroadcastHandler) (now : Clock) (data : Bytes) : Prop :=
  ∃ b h₁, h.Merges c now data b h₁ ∧ ∃ p ∈ b.ownProviders, ∃ q,
    h₁.state.providers[p.key]? = some q ∧ q.siteId ≠ b.originSite ∧
      (b.stamp p).supersedes q = true

theorem claimedOrigin_of_state (hkn : ModelInventoryBroadcast.recognizes data = false)
    (hdec : decode data = .ok b) : claimedOrigin data = some b.originSite := by
  simp [claimedOrigin, hkn, hdec, Except.toOption]

theorem claimedOrigin_of_frame (hkn : ModelInventoryBroadcast.recognizes data = true)
    (hdec : ModelInventoryBroadcast.decode data = .ok f) :
    claimedOrigin data = some f.originSite := by
  simp [claimedOrigin, hkn, hdec, Except.toOption]

theorem Takes.origin_eq (htk : h.Takes c now data o h') :
    claimedOrigin data = some o := by
  cases htk with
  | state hkn hdec _ => exact claimedOrigin_of_state hkn hdec
  | frame hkn hdec _ => exact claimedOrigin_of_frame hkn hdec

theorem Takes.room (htk : h.Takes c now data o h') :
    h.makeRoomFor o = some h' := by
  cases htk with
  | state _ _ hadm | frame _ _ hadm => exact hadm.room

/-- Without an eviction nothing changes before the item settles. -/
theorem Takes.room_eq (htk : h.Takes c now data o h') (hno : ∀ v, ¬ h.Evicts c now data v) :
    h' = h := by
  rw [eq_of_makeRoomFor htk.room]
  rcases hv : h.victim o with - | v
  · rfl
  · exact absurd ⟨o, h', htk, hv⟩ (hno v)

theorem Evicts.victim_eq {v : String} (hev : h.Evicts c now data v)
    (horig : claimedOrigin data = some o) : h.victim o = some v := by
  obtain ⟨o', h₁, htk, hv⟩ := hev
  obtain rfl : o' = o := Option.some.inj (htk.origin_eq.symm.trans horig)
  exact hv

/-- After room was made, a merge overwrites no record of another site unless its item
`Overwrites`. -/
theorem Merges.sameRecords {h₁ : StateBroadcastHandler} (hi : h.Owned)
    (hm : h.Merges c now data b h₁) (hne : s ≠ b.originSite)
    (hno : ¬ h.Overwrites c now data) :
    (h₁.offerMetadata now b).SameRecords ((h₁.offerMetadata now b).merged now b) s := by
  have hi₁ := hi.makeRoomFor hm.admits.room
  have hof : (h₁.offerMetadata now b).Owned := ⟨hi₁.key_eq, hi₁.owner, hi₁.site_eq⟩
  intro k p hp
  constructor
  · intro hhl
    rcases providers_merged_cases hhl with ⟨-, hacc, -⟩ | ⟨hhl, -⟩
    · obtain ⟨-, -, hst⟩ := stamped_of_mem_acceptedProviders hacc
      exact absurd (hp.symm.trans hst) hne
    · exact hhl
  · intro hhl
    rw [hof.providers_merged_iff hhl (hp ▸ hne)]
    rintro ⟨-, q, hq, rfl, hsup⟩
    obtain ⟨q, hown, -, rfl⟩ := mem_acceptedProviders.mp hq
    exact hno ⟨b, h₁, hm, q, hown, p, hhl, hp ▸ hne, hsup⟩

theorem Overwrites.not_sameRecords (hi : h.Owned) (hat : h.Authorized)
    (horig : claimedOrigin data = some o) (hov : h.Overwrites c now data) :
    ∃ s, s ≠ o ∧ ¬ h.Evicts c now data s ∧
      ¬ h.SameRecords (h.receiveItem c now data).2 s := by
  obtain ⟨b, h₁, hm, p, hp, q, hq, hne, hsup⟩ := hov
  obtain rfl : b.originSite = o :=
    Option.some.inj ((claimedOrigin_of_state hm.recognizes hm.decode).symm.trans horig)
  have hi₁ := hi.makeRoomFor hm.admits.room
  have hof : (h₁.offerMetadata now b).Owned := ⟨hi₁.key_eq, hi₁.owner, hi₁.site_eq⟩
  have hrm := eq_of_makeRoomFor hm.admits.room
  refine ⟨q.siteId, hne, ?_, fun hsm => ?_⟩
  · -- the evicted origin has no records left
    intro hev
    rw [hrm, hev.victim_eq horig] at hq
    exact (providers_removeOrigin_eq_some.mp hq).2 rfl
  · have hhl : h.state.providers[p.key]? = some q := by
      rw [hrm] at hq
      rcases hv : h.victim b.originSite with - | v
      · rw [hv] at hq
        exact hq
      · rw [hv] at hq
        exact (providers_removeOrigin_eq_some.mp hq).1
    have hkp := (hsm p.key q rfl).mpr hhl
    rw [hm.receiveItem, hof.providers_merged_iff hq hne] at hkp
    refine hkp ⟨hm.carries, b.stamp p, ?_, rfl, hsup⟩
    exact mem_acceptedProviders.mpr
      ⟨p, hp, hat.mem_replacedNetworks hm.admits hm.metadataOnly hm.carries hp, rfl⟩

/-- **Origin isolation, exactly.**  In a reachable state, an item of origin `o` leaves
everything of every other site that it does not evict, if and only if it overwrites no
record of another site through its flattened key. -/
theorem receiveItem_isolated_iff (hr : Reachable c h) {o : String}
    (horigin : claimedOrigin data = some o) :
    (∀ s, s ≠ o → ¬ h.Evicts c now data s → h.SameSite (h.receiveItem c now data).2 s) ↔
      ¬ h.Overwrites c now data := by
  have hi := hr.owned
  have hat := hr.authorized
  constructor
  · intro hid hov
    obtain ⟨s, hne, hev, hrc⟩ := hov.not_sameRecords hi hat horigin
    exact hrc (hid s hne hev).records
  · intro hno s hne hev
    rcases receiveItem_cases with
      heq | ⟨b, h₁, hkn, hdc, hadm, heq⟩ | ⟨f, h₁, hkn, hdc, hadm, heq⟩
    · rw [heq]
      exact .refl h s
    · obtain rfl : b.originSite = o :=
        Option.some.inj ((claimedOrigin_of_state hkn hdc).symm.trans horigin)
      have hrm : h.SameSite h₁ s := .makeRoomFor hadm.room fun hv =>
        hev ⟨b.originSite, h₁, .state hkn hdc hadm, hv⟩
      rw [heq]
      refine hrm.trans (.settle (hi.makeRoomFor hadm.room) hne fun hfr hmt => ?_)
      by_cases hcr : b.carriesProviderState = true
      · exact Merges.sameRecords hi ⟨hkn, hdc, hcr, hadm, hfr⟩ hne hno
      · intro k p _
        rw [state_merged, providers_mergedState, if_neg hcr]
    · obtain rfl : f.originSite = o :=
        Option.some.inj ((claimedOrigin_of_frame hkn hdc).symm.trans horigin)
      have hrm : h.SameSite h₁ s := .makeRoomFor hadm.room fun hv =>
        hev ⟨f.originSite, h₁, .frame hkn hdc hadm, hv⟩
      rw [heq]
      exact hrm.trans (.settleFrame hne)

def toolRun : List NodeOp :=
  [deliver (broadcast "site" 1 [record "net" "site" "tool/x"])]

/-- A site named `tool` publishes a provider in a network named `net/site`. -/
def toolCollision : Bytes :=
  wire (broadcast "tool" 2 [record "net/site" "tool" "x"])

theorem receiveItem_isolated_iff_toolRun :
    let h := (withCapacity "self" 4).run crypto toolRun
    (∀ s, s ≠ "tool" → ¬ h.Evicts crypto 0 toolCollision s →
      h.SameSite (h.receiveItem crypto 0 toolCollision).2 s) ↔
      ¬ h.Overwrites crypto 0 toolCollision := by
  exact receiveItem_isolated_iff ⟨_, _, _, rfl⟩ (by decide)

/-- The record of the tool is overwritten by another site's broadcast, which evicts
nobody. -/
theorem receiveItem_overwrites_tool :
    let h := (withCapacity "self" 4).run crypto toolRun
    let h' := (h.receiveItem crypto 0 toolCollision).2
    Reachable crypto h ∧ claimedOrigin toolCollision = some "tool" ∧
      (∀ s, ¬ h.Evicts crypto 0 toolCollision s) ∧
      h.state.providers["net/site/tool/x"]?.map (·.siteId) = some "site" ∧
      h'.state.providers["net/site/tool/x"]?.map (·.siteId) = some "tool" := by
  intro h h'
  have horigin : claimedOrigin toolCollision = some "tool" := by decide
  refine ⟨⟨_, _, _, rfl⟩, horigin, fun s hev => ?_, by decide, by decide⟩
  have hvc : h.victim "tool" = none := by decide
  rw [hev.victim_eq horigin] at hvc
  cases hvc

/-! ### Unsigned broadcasts of a pinned origin -/

/-- A lane that a broadcast carries no value for stays as it is. -/
theorem SameLane.of_laneValue_none {lane : Lane} (hvl : b.laneValue lane = none) :
    h.SameLane (h.offerMetadata now b) s lane := by
  have hin : (h.retained.lanes lane).incoming now lane b = none := by
    simp [LaneRecord.incoming, hvl]
  refine ⟨?_, ?_, ?_⟩
  · rw [lanes_offerMetadata, LaneRecord.store, hin]
  · rw [lanes_offerMetadata, LaneRecord.store, hin]
  · change (publishLane (h.published lane) b.originSite _)[s]? = _
    rw [hin]
    rfl

/-- Without a signature under a key of its scope, a broadcast of a pinned origin is
admitted as a certificate bootstrap or not at all. -/
theorem Admits.bootstrap (hadm : h.Admits c now b h')
    (hpn : h.trust.pinnedInAnyGrid b.originSite = true)
    (hun : ∀ keys key, h.trust.scopedPin b.providerStateScope = some keys → key ∈ keys →
      ¬ b.VerifiesUnder c key) :
    b.isCertOnly = true ∧ h.trust.strictScope b.providerStateScope = true ∧
      h.trust.scopedPin b.providerStateScope = none := by
  have hok := hadm.verified
  rcases hcs : h.admission b with e | way
  · rw [verifySignatureIfPinned, hcs] at hok
    cases hok
  rcases admission_cases hcs with ⟨keys, hpin, -, rfl⟩ | ⟨hpin, hstr, hcr, -⟩ | ⟨-, -, hnot, -⟩
  · obtain ⟨⟨key, hkey, hvr⟩, -⟩ := verified_of_signed hcs hok
    exact absurd hvr (hun keys key hpin hkey)
  · exact ⟨hcr, hstr, hpin⟩
  · rw [hpn] at hnot
    cases hnot

/-- **A pinned origin cannot be spoken for unsigned**, but for its certificate: a
broadcast without a signature under the keys of its own scope changes nothing of an origin
that is pinned in some grid, unless it is the certificate bootstrap of a strict grid where
the origin has no pin, and then nothing but the certificate lane. -/
theorem receiveItem_unsigned_of_pinned {grid : String} {keys : List Bytes}
    (hpin : h.trust.pin (.grid grid b.originSite) = some keys)
    (hkind : ModelInventoryBroadcast.recognizes data = false)
    (hdecode : StateBroadcast.decode data = .ok b)
    (hunsigned : ∀ keys key, h.trust.scopedPin b.providerStateScope = some keys → key ∈ keys →
      ¬ b.VerifiesUnder c key) :
    let h' := (h.receiveItem c now data).2
    h.SameRecords h' b.originSite ∧ h.SameScopes h' b.originSite ∧
      h.SameSpend h' b.originSite ∧
      (∀ lane, lane ≠ .cert → h.SameLane h' b.originSite lane) ∧
      (h.SameLane h' b.originSite .cert ∨
        (b.isCertOnly = true ∧ h.trust.strictScope b.providerStateScope = true ∧
          h.trust.scopedPin b.providerStateScope = none)) := by
  intro h'
  rcases receiveItem_cases with
    heq | ⟨b', h₁, -, hdecode', hadm, heq⟩ | ⟨f, h₁, hkind', -, -, -⟩
  · have hrf := SameSite.refl h b.originSite
    rw [show h' = h from heq]
    exact ⟨hrf.records, hrf.scopes, hrf.spend, fun lane _ => hrf.lanes lane,
      .inl (hrf.lanes .cert)⟩
  · obtain rfl : b = b' := Except.ok.inj (hdecode.symm.trans hdecode')
    obtain ⟨hcr, hst, hnn⟩ := hadm.bootstrap
      (TrustStore.pinnedInAnyGrid_iff.mpr ⟨grid, keys, hpin⟩) hunsigned
    have hrm : h.SameSite h₁ b.originSite :=
      .makeRoomFor hadm.room (h.victim_ne_self b.originSite)
    have hpr := hcr
    simp only [StateBroadcast.isCertOnly, Bool.and_eq_true, Option.isNone_iff_eq_none] at hpr
    obtain ⟨⟨⟨-, hgt⟩, hsg⟩, hmt⟩ := hpr
    rw [show h' = h₁.offerMetadata now b from heq.trans (settle_of_metadataOnly hmt)]
    refine ⟨hrm.records, hrm.scopes.trans .offerMetadata, hrm.spend, fun lane hln => ?_,
      .inr ⟨hcr, hst, hnn⟩⟩
    refine (hrm.lanes lane).trans (SameLane.of_laneValue_none ?_)
    cases lane with
    | gateway => exact hgt
    | signals => exact hsg
    | cert => exact absurd rfl hln
  · rw [hkind] at hkind'
    cases hkind'

/-- Two strict grids; a site is pinned in one of them and has its certificate there. -/
def certRun : List NodeOp :=
  [.enforceSignedGrid "grid" "net", .enforceSignedGrid "other" "net",
    .pinOriginForGrid "grid" "site" [[1]],
    deliver (signed { broadcast "site" 1 [] with
      siteCertPem := some "pinned", gridId := some "grid" })]

def unsignedCert : StateBroadcast :=
  { broadcast "site" 2 [] with siteCertPem := some "unsigned", gridId := some "other" }

theorem receiveItem_unsigned_of_pinned_certRun :
    let h := (withCapacity "self" 4).run crypto certRun
    let h' := (h.receiveItem crypto 0 (wire unsignedCert)).2
    h.SameRecords h' "site" ∧ h.SameLane h' "site" .gateway := by
  intro h h'
  have hpin : h.trust.pin (.grid "grid" unsignedCert.originSite) = some [[1]] := by decide
  have hdc : StateBroadcast.decode (wire unsignedCert) = .ok unsignedCert := rfl
  have hun : ∀ keys key, h.trust.scopedPin unsignedCert.providerStateScope = some keys →
      key ∈ keys → ¬ unsignedCert.VerifiesUnder crypto key := by
    rintro keys key - - ⟨signature, -, hsg, -⟩
    cases hsg
  obtain ⟨hrc, -, -, hln, -⟩ :=
    receiveItem_unsigned_of_pinned hpin (by decide) hdc hun
  exact ⟨hrc, hln .gateway (by decide)⟩

/-- The unsigned certificate replaces the pinned one, with its guard. -/
theorem receiveItem_unsignedCert_replaces :
    let h := (withCapacity "self" 4).run crypto certRun
    let h' := (h.receiveItem crypto 0 (wire unsignedCert)).2
    Reachable crypto h ∧ h.trust.pin (.grid "grid" "site") = some [[1]] ∧
      StateBroadcast.decode (wire unsignedCert) = .ok unsignedCert ∧
      unsignedCert.signature = none ∧
      (h.retained.lanes .cert).values["site"]? = some "pinned" ∧
      (h'.retained.lanes .cert).values["site"]? = some "unsigned" ∧
      (h.retained.lanes .cert).revisions["site"]? = some 1 ∧
      (h'.retained.lanes .cert).revisions["site"]? = some 2 := by
  intro h h'
  exact ⟨⟨_, _, _, rfl⟩, by decide, rfl, rfl, by decide, by decide, by decide, by decide⟩

end StateBroadcastHandler

end PraxisGrid
