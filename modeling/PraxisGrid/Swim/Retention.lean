/-
PraxisGrid/Swim/Retention.lean

What a handler retains is bounded, and every origin that left a trace is known.

`Recorded` says that the scope of every owner has a revision and lists the owner's network,
and that a scope marked unverified owns no verified value.  Removing a grid clears marked
scopes and unverified owners separately, so the two markings have to agree.  They stop
agreeing in one case: after a grid was relaxed, a spend-only broadcast marks the scope and
leaves its verified owners in place.  A run without that case (`LeavesNoVerified`) keeps
`Recorded`, and with it the origins of all maps, owners and records are known.
-/
import PraxisGrid.Swim.Isolation

namespace PraxisGrid

open Std OrdMap Bincode Saturate Scenario RetainedOrigins

namespace StateBroadcastHandler

variable {c : Crypto} {h h' : StateBroadcastHandler} {now : Clock} {b : StateBroadcast}
  {id : ProviderIdentity} {owner : ProviderOwner} {incoming o : String}

/-! ### Recorded scopes -/

/-- The network of every owned identity is among those its scope recorded. -/
def Covered (h : StateBroadcastHandler) : Prop :=
  ∀ ⦃id : ProviderIdentity⦄ ⦃owner : ProviderOwner⦄,
    h.retained.providerOwners[id]? = some owner →
      ∃ networks, h.retained.providerNetworksByScope[owner.scope]? = some networks ∧
        id.network ∈ networks

/-- Owners are recorded by their scope, and markings agree. -/
structure Recorded (h : StateBroadcastHandler) : Prop where
  latest : ∀ {id : ProviderIdentity} {owner : ProviderOwner},
    h.retained.providerOwners[id]? = some owner →
      ∃ revision, h.retained.latestByScope[owner.scope]? = some revision
  network : h.Covered
  unverified : ∀ {scope : ProviderStateScope}, scope ∈ h.retained.unverifiedScopes →
    ∃ revision, h.retained.latestByScope[scope]? = some revision
  unverified_owner : ∀ {id : ProviderIdentity} {owner : ProviderOwner},
    h.retained.providerOwners[id]? = some owner →
      owner.scope ∈ h.retained.unverifiedScopes → owner.verifiedGrid = false
  uids : ∀ {scope : ProviderStateScope} {uids : ExtTreeMap ProviderIdentity String},
    h.retained.providerUidsByScope[scope]? = some uids →
      ∃ revision, h.retained.latestByScope[scope]? = some revision

theorem Recorded.init (siteId : String) (maxOrigins : Nat) :
    (withCapacity siteId maxOrigins).Recorded where
  latest ho := by simp [withCapacity] at ho
  network _ _ ho := by simp [withCapacity] at ho
  unverified hs := by simp [withCapacity] at hs
  unverified_owner ho := by simp [withCapacity] at ho
  uids hs := by simp [withCapacity] at hs

theorem Recorded.congr (hi : h.Recorded)
    (how : h'.retained.providerOwners = h.retained.providerOwners)
    (hlt : h'.retained.latestByScope = h.retained.latestByScope)
    (hun : h'.retained.unverifiedScopes = h.retained.unverifiedScopes)
    (hnt : h'.retained.providerNetworksByScope = h.retained.providerNetworksByScope)
    (hud : h'.retained.providerUidsByScope = h.retained.providerUidsByScope) : h'.Recorded := by
  obtain ⟨hl, hn, hu, huo, hids⟩ := hi
  constructor <;> simpa only [Covered, how, hlt, hun, hnt, hud]

theorem Owned.owner_of_removeOrigin (how : h.Owned) {origin : String}
    (ho : (h.removeOrigin origin).retained.providerOwners[id]? = some owner) :
    h.retained.providerOwners[id]? = some owner ∧ owner.scope.originSite ≠ origin := by
  rw [retained_removeOrigin, providerOwners_remove] at ho
  split_ifs at ho with hst
  refine ⟨ho, fun heq => hst ?_⟩
  rw [← how.site_eq ho, heq]

theorem Covered.removeOrigin (hi : h.Covered) (how : h.Owned) (origin : String) :
    (h.removeOrigin origin).Covered := by
  intro id owner ho
  obtain ⟨ho, hst⟩ := how.owner_of_removeOrigin ho
  simpa [hst] using hi ho

theorem Recorded.removeOrigin (hi : h.Recorded) (how : h.Owned) (origin : String) :
    (h.removeOrigin origin).Recorded := by
  refine ⟨fun ho => ?_, hi.network.removeOrigin how origin, fun hs => ?_, fun ho hs => ?_,
    fun hs => ?_⟩
  · obtain ⟨ho, hst⟩ := how.owner_of_removeOrigin ho
    simpa [hst] using hi.latest ho
  · obtain ⟨hs, hst⟩ := (mem_unverifiedScopes_remove _ _).mp hs
    simpa [hst] using hi.unverified hs
  · exact hi.unverified_owner (how.owner_of_removeOrigin ho).1
      ((mem_unverifiedScopes_remove _ _).mp hs).1
  · rw [retained_removeOrigin, providerUidsByScope_remove] at hs
    split_ifs at hs with hst
    simpa [hst] using hi.uids hs

theorem Recorded.removeGrid (hi : h.Recorded) (gridId : String) (origin : Option String) :
    (h.removeGrid gridId origin).Recorded := by
  -- a cleared scope is of the grid or marked, and then its owners are dropped
  have hlf : ∀ {id : ProviderIdentity} {owner : ProviderOwner},
      (h.removeGrid gridId origin).retained.providerOwners[id]? = some owner →
      h.retained.providerOwners[id]? = some owner ∧
        h.retained.clearsScope gridId origin owner.scope = false := by
    intro id owner ho
    obtain ⟨ho, hkp⟩ := owner_of_removeGrid ho
    refine ⟨ho, ?_⟩
    rw [← Bool.not_eq_true] at hkp ⊢
    rw [removesOwner_eq_true_iff] at hkp
    rw [clearsScope_eq_true_iff]
    rintro ⟨horig, hgr | hmr⟩
    · exact hkp ⟨horig, .inl hgr⟩
    · exact hkp ⟨horig, .inr (hi.unverified_owner ho hmr)⟩
  refine ⟨fun ho => ?_, fun _ _ ho => ?_, fun hs => ?_, fun ho hs => ?_, fun hs => ?_⟩
  · obtain ⟨ho, hcl⟩ := hlf ho
    simpa [hcl] using hi.latest ho
  · obtain ⟨ho, hcl⟩ := hlf ho
    simpa [hcl] using hi.network ho
  · obtain ⟨hs, hcl⟩ := (mem_unverifiedScopes_removeGrid _ _ _).mp hs
    simpa [hcl] using hi.unverified hs
  · exact hi.unverified_owner (hlf ho).1
      ((mem_unverifiedScopes_removeGrid _ _ _).mp hs).1
  · rw [retained_removeGrid, providerUidsByScope_removeGrid] at hs
    split_ifs at hs with hcl
    simpa [hcl] using hi.uids hs

/-! ### Replacement reaches every owner of the scope -/

/-- **The replacement of a scope reaches all it owns**: each of its owners is in a network
that the scope recorded and, if its grid is bound, in the bound one. -/
theorem Covered.replaces (hi : h.Covered) (hat : h.Authorized)
    (ho : h.retained.providerOwners[id]? = some owner) (hsc : owner.scope = b.providerStateScope)
    :
    h.retained.replaces b (h.replacedNetworks b) id = true := by
  obtain ⟨networks, hnt, hmem⟩ := hi ho
  refine replaces_eq_true_iff.mpr (.inr ⟨?_, owner, ho, hsc⟩)
  refine mem_networksToReplace.mpr ⟨.inl ?_, fun allowed hbn => ?_⟩
  · rw [hsc] at hnt
    rw [ExtTreeMap.getD_eq_getD_getElem?, hnt]
    exact hmem
  · obtain ⟨grid, hgr, hbn⟩ := Option.bind_eq_some_iff.mp hbn
    exact hat.network_eq ho ((congrArg ProviderStateScope.gridId hsc).trans hgr) hbn

/-- After a replacement the scope owns what it supplied and nothing else. -/
theorem Covered.owner_merged (hi : h.Covered) (hat : h.Authorized)
    (hcar : b.carriesProviderState = true)
    (ho : (h.merged now b).retained.providerOwners[id]? = some owner)
    (hsc : owner.scope = b.providerStateScope) :
    id ∈ b.incomingIdentities (h.replacedNetworks b) ∧
      owner = ⟨b.providerStateScope, h.mergesVerified b⟩ := by
  rcases providerOwners_merged_cases ho with ⟨-, hid, rfl⟩ | ⟨ho, hrep⟩
  · exact ⟨hid, rfl⟩
  · have hkp := hrep hcar
    rw [hi.replaces hat ho hsc] at hkp
    cases hkp

theorem Covered.merged (hi : h.Covered) (hat : h.Authorized) : (h.merged now b).Covered := by
  intro id owner ho
  rcases providerOwners_merged_cases ho with ⟨hcar, hid, rfl⟩ | ⟨hhl, hrep⟩
  · -- a supplied identity is in an accepted network
    obtain ⟨p, hp, hn, rfl⟩ := StateBroadcast.mem_incomingIdentities.mp hid
    have hmem : p.networkId ∈ h.mergedNetworks b := by
      rw [mergedNetworks, if_pos hcar]
      exact mem_acceptedNetworks.mpr
        ⟨b.stamp p, StateBroadcast.mem_acceptedProviders.mpr ⟨p, hp, hn, rfl⟩, rfl⟩
    refine ⟨h.mergedNetworks b, ?_, hmem⟩
    rw [retained_merged, providerNetworksByScope_mergedRetained,
      if_pos ⟨rfl, isEmpty_eq_false_iff.mpr ⟨_, hmem⟩⟩]
  · rw [retained_merged, providerNetworksByScope_mergedRetained, if_neg]
    · exact hi hhl
    · -- a scope that recorded new networks kept no other identity
      rintro ⟨hsc, hnn⟩
      rcases hcar : b.carriesProviderState with - | -
      · rw [mergedNetworks, hcar] at hnn
        exact absurd hnn (by simp)
      · have hkp := hrep hcar
        rw [hi.replaces hat hhl hsc.symm] at hkp
        cases hkp

/-- A merge keeps `Recorded` unless it marks a scope whose verified owners stay. -/
theorem Recorded.merged (hi : h.Recorded) (hat : h.Authorized)
    (hmr : b.carriesProviderState = false → h.mergesVerified b = false →
      ∀ {id : ProviderIdentity} {owner : ProviderOwner},
        h.retained.providerOwners[id]? = some owner → owner.scope = b.providerStateScope →
          owner.verifiedGrid = false) :
    (h.merged now b).Recorded := by
  -- no revision is lost
  have hlt : ∀ {scope : ProviderStateScope} {revision : UInt64},
      h.retained.latestByScope[scope]? = some revision →
      ∃ revision, (h.merged now b).retained.latestByScope[scope]? = some revision := by
    intro scope revision hhl
    rw [retained_merged, latestByScope_mergedRetained]
    split_ifs
    · exact ⟨_, rfl⟩
    · exact ⟨_, hhl⟩
  have hown : ∃ revision,
      (h.merged now b).retained.latestByScope[b.providerStateScope]? = some revision := by
    rw [retained_merged, latestByScope_mergedRetained, if_pos rfl]
    exact ⟨_, rfl⟩
  refine ⟨fun {id owner} ho => ?_, hi.network.merged hat, fun {scope} hs => ?_,
    fun {id owner} ho hs => ?_, fun {scope uids} hs => ?_⟩
  · rcases providerOwners_merged_cases ho with ⟨-, -, rfl⟩ | ⟨ho, -⟩
    · exact hown
    · obtain ⟨revision, hhl⟩ := hi.latest ho
      exact hlt hhl
  · rw [retained_merged, mem_unverifiedScopes_mergedRetained] at hs
    split_ifs at hs with hsc
    · exact hsc ▸ hown
    · obtain ⟨revision, hhl⟩ := hi.unverified hs
      exact hlt hhl
  · rw [retained_merged, mem_unverifiedScopes_mergedRetained] at hs
    split_ifs at hs with hsc
    · rcases hcar : b.carriesProviderState with - | -
      · rcases providerOwners_merged_cases ho with ⟨hcar', -⟩ | ⟨ho, -⟩
        · rw [hcar] at hcar'
          cases hcar'
        · exact hmr hcar hs ho hsc.symm
      · rw [(hi.network.owner_merged hat hcar ho hsc.symm).2]
        exact hs
    · rcases providerOwners_merged_cases ho with ⟨-, -, rfl⟩ | ⟨ho, -⟩
      · exact absurd rfl hsc
      · exact hi.unverified_owner ho hs
  · rw [retained_merged, providerUidsByScope_mergedRetained] at hs
    split_ifs at hs with hsc
    · exact hsc.1 ▸ hown
    · obtain ⟨revision, hhl⟩ := hi.uids hs
      exact hlt hhl

/-! ### Runs -/

/-- A broadcast without provider state that is merged without a verified grid key leaves no
verified value of its scope behind. -/
def LeavesNoVerified (c : Crypto) (h : StateBroadcastHandler) (op : NodeOp) : Prop :=
  ∀ (now : Clock) (data : Bytes) (b : StateBroadcast) (h₁ : StateBroadcastHandler),
    op = .receiveItem now data → ModelInventoryBroadcast.recognizes data = false →
    StateBroadcast.decode data = .ok b → h.Admits c now b h₁ → h₁.Fresh now b →
    b.isMetadataOnly = false → b.carriesProviderState = false → h₁.mergesVerified b = false →
    ∀ (id : ProviderIdentity) (owner : ProviderOwner),
      h₁.retained.providerOwners[id]? = some owner → owner.scope = b.providerStateScope →
        owner.verifiedGrid = false

/-- The three invariants of the owners. -/
structure Kept (h : StateBroadcastHandler) : Prop where
  owned : h.Owned
  authorized : h.Authorized
  recorded : h.Recorded

theorem Recorded.step (hi : h.Kept) {op : NodeOp} (hop : LeavesNoVerified c h op) :
    (h.step c op).Recorded := by
  refine step_preserves (P := Recorded) (fun _ hi => hi.congr rfl rfl rfl rfl rfl)
    (fun origin hrec => hrec.removeOrigin hi.owned origin)
    (fun gridId origin hrec => hrec.removeGrid gridId origin)
    (fun _ hi => hi.congr rfl rfl rfl rfl rfl) op ?_ hi.recorded
  rintro now data rfl hrec
  refine receiveItem_preserves (P := Recorded) (fun origin hrec => hrec.removeOrigin hi.owned origin)
    (fun _ hi => hi.congr rfl rfl rfl rfl rfl) ?_ (fun _ hi => hi.congr rfl rfl rfl rfl rfl)
    (fun hi => hi.congr rfl rfl rfl rfl rfl) hrec
  intro b h₁ hkn hdec hadm hmt hfr hrec
  have hat : (h₁.offerMetadata now b).Authorized :=
    (hi.authorized.makeRoomFor hadm.room).mono rfl rfl id
  exact hrec.merged hat fun hcar hvr id owner ho hsc =>
    hop now data b h₁ rfl hkn hdec hadm hfr hmt hcar hvr id owner ho hsc

theorem Kept.init (siteId : String) (maxOrigins : Nat) : (withCapacity siteId maxOrigins).Kept :=
  ⟨.init siteId maxOrigins, .init siteId maxOrigins, .init siteId maxOrigins⟩

/-- **A run that leaves no verified values behind keeps the three invariants.** -/
theorem Kept.run {ops : List NodeOp} (hi : h.Kept)
    (hops : Run.Along (StateBroadcastHandler.step c) (LeavesNoVerified c) h ops) :
    (h.run c ops).Kept :=
  Run.run_invariant_along
    (fun _ op hop hi => ⟨hi.owned.step op, hi.authorized.step op, .step hi hop⟩) hops hi

/-! ### Known origins -/

theorem mem_knownOrigins_congr (hsc : h.SameScopes h' o) (hln : ∀ lane, h.SameLane h' o lane)
    :
    o ∈ h'.retained.knownOrigins ↔ o ∈ h.retained.knownOrigins := by
  rw [mem_knownOrigins, mem_knownOrigins]
  refine or_congr ?_ (or_congr ?_ (or_congr ?_ ?_))
  · exact exists_congr fun scope => and_congr_left fun hs => by rw [hsc.latest scope hs]
  · exact exists_congr fun scope => and_congr_left fun hs => by rw [hsc.networks scope hs]
  · exact exists_congr fun scope => and_congr_left fun hs => hsc.inventories scope hs
  · exact exists_congr fun lane => by rw [(hln lane).value, (hln lane).guard]

theorem not_mem_knownOrigins_removeOrigin (v : String) :
    v ∉ (h.removeOrigin v).retained.knownOrigins := by
  rw [mem_knownOrigins]
  rintro (⟨scope, ⟨revision, hhl⟩, rfl⟩ | ⟨scope, ⟨networks, hhl⟩, rfl⟩ | ⟨scope, hhl, rfl⟩ |
    ⟨lane, ⟨value, hhl⟩ | ⟨revision, hhl⟩⟩) <;> simp at hhl

theorem knownOrigins_removeOrigin {v : String} (ho : o ∈ (h.removeOrigin v).retained.knownOrigins) :
    o ≠ v ∧ o ∈ h.retained.knownOrigins := by
  have hne : o ≠ v := by
    rintro rfl
    exact not_mem_knownOrigins_removeOrigin o ho
  have hsm : h.SameSite (h.removeOrigin v) o := .removeOrigin hne
  exact ⟨hne, (mem_knownOrigins_congr hsm.scopes hsm.lanes).mp ho⟩

theorem knownOrigins_removeGrid {gridId : String} {origin : Option String}
    (ho : o ∈ (h.removeGrid gridId origin).retained.knownOrigins) :
    o ∈ h.retained.knownOrigins := by
  rw [mem_knownOrigins] at ho ⊢
  rcases ho with ⟨scope, ⟨revision, hhl⟩, hs⟩ | ⟨scope, ⟨networks, hhl⟩, hs⟩ |
    ⟨scope, hhl, hs⟩ | hln
  · rw [retained_removeGrid, latestByScope_removeGrid] at hhl
    split_ifs at hhl
    exact .inl ⟨scope, ⟨revision, hhl⟩, hs⟩
  · rw [retained_removeGrid, providerNetworksByScope_removeGrid] at hhl
    split_ifs at hhl
    exact .inr (.inl ⟨scope, ⟨networks, hhl⟩, hs⟩)
  · rw [retained_removeGrid, mem_inventoryScopes_removeGrid] at hhl
    exact .inr (.inr (.inl ⟨scope, hhl.1, hs⟩))
  · exact .inr (.inr (.inr hln))

theorem knownOrigins_forgetDeparted {v : String}
    (ho : o ∈ (h.forgetDeparted v).retained.knownOrigins) : o ∈ h.retained.knownOrigins := by
  rw [mem_knownOrigins] at ho ⊢
  rcases ho with hsc | hsc | hsc | ⟨lane, hln⟩
  · exact .inl hsc
  · exact .inr (.inl hsc)
  · exact .inr (.inr (.inl hsc))
  · refine .inr (.inr (.inr ⟨lane, ?_⟩))
    have hes : ∀ {m : ExtTreeMap String String} {value : String},
        (m.erase v)[o]? = some value → ∃ value, m[o]? = some value := by
      intro m value hvl
      rw [getElem?_erase] at hvl
      split_ifs at hvl
      exact ⟨value, hvl⟩
    cases lane with
    | signals => exact hln
    | gateway | cert => exact hln.imp_left fun ⟨_, hvl⟩ => hes hvl

theorem knownOrigins_settle (hi : h.Owned) (ho : o ∈ (h.settle now b).retained.knownOrigins) :
    b.originSite = o ∨ o ∈ h.retained.knownOrigins := by
  by_cases hne : b.originSite = o
  · exact .inl hne
  right
  have hne : o ≠ b.originSite := Ne.symm hne
  rcases settle_cases h now b with ⟨hs, -⟩ | hs | ⟨-, -, hs⟩
  · rwa [hs] at ho
  · rw [hs] at ho
    exact (mem_knownOrigins_congr .offerMetadata (SameLane.offerMetadata hne)).mp ho
  · rw [hs] at ho
    have hi : (h.offerMetadata now b).Owned := ⟨hi.key_eq, hi.owner, hi.site_eq⟩
    have hsc : h.SameScopes ((h.offerMetadata now b).merged now b) o :=
      SameScopes.offerMetadata.trans (.merged hi hne)
    refine (mem_knownOrigins_congr hsc fun lane => ?_).mp ho
    exact (SameLane.offerMetadata hne lane).trans (.merged lane)

theorem knownOrigins_settleFrame {f : ModelInventoryBroadcast}
    (ho : o ∈ (h.settleFrame c now f).retained.knownOrigins) :
    f.originSite = o ∨ o ∈ h.retained.knownOrigins := by
  by_cases hne : f.originSite = o
  · exact .inl hne
  · have hsm : h.SameSite (h.settleFrame c now f) o := .settleFrame (Ne.symm hne)
    exact .inr ((mem_knownOrigins_congr hsm.scopes hsm.lanes).mp ho)

/-! ### Bounds -/

structure Bounded (h : StateBroadcastHandler) : Prop where
  origins : h.retained.knownOrigins.size ≤ h.maxOrigins
  scopes : h.retained.latestByScope.size ≤ h.maxScopes

theorem Bounded.mono (hi : h.Bounded) (hmax : h'.maxOrigins = h.maxOrigins)
    (hmx : h'.maxScopes = h.maxScopes)
    (horigins : ∀ o ∈ h'.retained.knownOrigins, o ∈ h.retained.knownOrigins)
    (hsc : h'.retained.latestByScope.size ≤ h.retained.latestByScope.size) : h'.Bounded where
  origins := by
    rw [hmax]
    exact Nat.le_trans (size_le_of_subset horigins) hi.origins
  scopes := by
    rw [hmx]
    exact Nat.le_trans hsc hi.scopes

theorem Bounded.removeOrigin (hi : h.Bounded) (origin : String) :
    (h.removeOrigin origin).Bounded :=
  hi.mono rfl rfl (fun _ ho => (knownOrigins_removeOrigin ho).2) (size_retain_le _ _)

theorem Bounded.room (hi : h.Bounded) (hrm : h.makeRoomFor incoming = some h') :
    incoming ∈ h'.retained.knownOrigins ∨ h'.retained.knownOrigins.size < h'.maxOrigins := by
  rcases makeRoomFor_cases hrm with ⟨rfl, hft⟩ | ⟨v, hv, -, -, -, rfl⟩
  · exact hft
  · right
    have hsub : ∀ o ∈ (h.removeOrigin v).retained.knownOrigins,
        o ∈ h.retained.knownOrigins.erase v := by
      intro o ho
      obtain ⟨hne, ho⟩ := knownOrigins_removeOrigin ho
      exact mem_erase.mpr ⟨hne.symm, ho⟩
    have hsz := size_le_of_subset hsub
    rw [ExtTreeSet.size_erase, if_pos (ExtTreeSet.contains_iff_mem.mpr hv)] at hsz
    have hpos : 0 < h.retained.knownOrigins.size := by
      rw [← ExtTreeSet.length_toList]
      exact List.length_pos_of_mem (ExtTreeSet.mem_toList.mpr hv)
    have hle := hi.origins
    change (h.removeOrigin v).retained.knownOrigins.size < h.maxOrigins
    omega

/-- A handler that knows one more origin, for which there was room. -/
theorem Bounded.extend (hi : h.Bounded) (hmax : h'.maxOrigins = h.maxOrigins)
    (hmx : h'.maxScopes = h.maxScopes)
    (hrm : o ∈ h.retained.knownOrigins ∨ h.retained.knownOrigins.size < h.maxOrigins)
    (horigins : ∀ x ∈ h'.retained.knownOrigins, o = x ∨ x ∈ h.retained.knownOrigins)
    (hsc : h'.retained.latestByScope.size ≤ h.maxScopes) : h'.Bounded where
  origins := by
    rw [hmax]
    rcases hrm with hkn | hrm
    · refine Nat.le_trans (size_le_of_subset fun x hx => ?_) hi.origins
      rcases horigins x hx with rfl | hx
      · exact hkn
      · exact hx
    · have hsz := size_le_of_subset (t := h.retained.knownOrigins.insert o)
        fun x hx => mem_insert.mpr (horigins x hx)
      have hins := ExtTreeSet.size_insert_le (t := h.retained.knownOrigins) (k := o)
      omega
  scopes := by rwa [hmx]

/-- A merged scope has its revision or there is room for it. -/
theorem size_latestByScope_settle (hi : h.Bounded) :
    (h.settle now b).retained.latestByScope.size ≤ h.maxScopes := by
  rcases settle_cases h now b with ⟨hs, -⟩ | hs | ⟨-, hfresh, hs⟩
  · rw [hs]
    exact hi.scopes
  · rw [hs]
    exact hi.scopes
  · rw [hs, retained_merged]
    change (h.retained.latestByScope.insert b.providerStateScope b.revision).size ≤ h.maxScopes
    have hroom := hfresh.room
    rw [hasRoomForScope, Bool.or_eq_true, decide_eq_true_eq] at hroom
    rw [ExtTreeMap.size_insert]
    split_ifs with hheld
    · exact hi.scopes
    · exact hroom.resolve_left hheld

theorem capacity_settle :
    (h.settle now b).maxOrigins = h.maxOrigins ∧ (h.settle now b).maxScopes = h.maxScopes := by
  rcases settle_cases h now b with ⟨hs, -⟩ | hs | ⟨-, -, hs⟩
  · rw [hs]
    exact ⟨rfl, rfl⟩
  · rw [hs]
    exact ⟨rfl, rfl⟩
  · rw [hs, maxOrigins_merged, maxScopes_merged]
    exact ⟨rfl, rfl⟩

theorem Bounded.settle (hi : h.Bounded) (how : h.Owned)
    (hrm : h.makeRoomFor b.originSite = some h') : (h'.settle now b).Bounded := by
  have hi' : h'.Bounded := makeRoomFor_preserves (fun v hi => hi.removeOrigin v) hrm hi
  exact hi'.extend capacity_settle.1 capacity_settle.2 (hi.room hrm)
    (fun _ ho => knownOrigins_settle (how.makeRoomFor hrm) ho) (size_latestByScope_settle hi')

theorem Bounded.receiveItem (hi : h.Bounded) (how : h.Owned) (now : Clock) (data : Bytes) :
    (h.receiveItem c now data).2.Bounded := by
  rcases receiveItem_cases with
    heq | ⟨b, h₁, -, -, hadm, heq⟩ | ⟨f, h₁, -, -, hadm, heq⟩
  · rwa [heq]
  · rw [heq]
    exact hi.settle how hadm.room
  · rw [heq]
    have hi₁ : h₁.Bounded := makeRoomFor_preserves (fun v hi => hi.removeOrigin v) hadm.room hi
    have hst : (h₁.settleFrame c now f).maxOrigins = h₁.maxOrigins ∧
        (h₁.settleFrame c now f).maxScopes = h₁.maxScopes ∧
        (h₁.settleFrame c now f).retained.latestByScope = h₁.retained.latestByScope := by
      unfold settleFrame
      split_ifs <;> exact ⟨rfl, rfl, rfl⟩
    refine hi₁.extend hst.1 hst.2.1 (hi.room hadm.room)
      (fun _ ho => knownOrigins_settleFrame ho) ?_
    rw [hst.2.2]
    exact hi₁.scopes

theorem Bounded.step (hi : h.Bounded) (how : h.Owned) (op : NodeOp) : (h.step c op).Bounded :=
  step_preserves (P := Bounded) (fun _ hi => ⟨hi.origins, hi.scopes⟩)
    (fun origin hi => hi.removeOrigin origin)
    (fun _ _ hi => hi.mono rfl rfl (fun _ ho => knownOrigins_removeGrid ho) (size_retain_le _ _))
    (fun _ hi => hi.mono rfl rfl (fun _ ho => knownOrigins_forgetDeparted ho) (Nat.le_refl _)) op
    (fun now data _ hi => hi.receiveItem how now data) hi

/-- The bounds are those the node started with. -/
theorem capacity_run (siteId : String) (maxOrigins : Nat) (ops : List NodeOp) :
    let h := (withCapacity siteId maxOrigins).run c ops
    h.maxOrigins = (withCapacity siteId maxOrigins).maxOrigins ∧
      h.maxScopes = (withCapacity siteId maxOrigins).maxScopes := by
  refine Run.run_invariant (P := fun h : StateBroadcastHandler =>
    h.maxOrigins = (withCapacity siteId maxOrigins).maxOrigins ∧
      h.maxScopes = (withCapacity siteId maxOrigins).maxScopes) (fun h op hi => ?_) ⟨rfl, rfl⟩
  refine step_preserves (P := fun h => h.maxOrigins = _ ∧ h.maxScopes = _) (fun _ hi => hi)
    (fun _ hi => hi) (fun _ _ hi => hi) (fun _ hi => hi) op (fun now data _ hi => ?_) hi
  refine receiveItem_preserves (P := fun h => h.maxOrigins = _ ∧ h.maxScopes = _)
    (fun _ hi => hi) (fun _ hi => hi) ?_ (fun _ hi => hi) (fun hi => hi) hi
  intro b h₁ _ _ _ _ _ hi
  rwa [maxOrigins_merged, maxScopes_merged]

theorem Bounded.run (siteId : String) (maxOrigins : Nat) (ops : List NodeOp) :
    ((withCapacity siteId maxOrigins).run c ops).Bounded := by
  have hin : (withCapacity siteId maxOrigins).Bounded := by
    constructor
    · change (0 : Nat) ≤ _
      exact Nat.zero_le _
    · change (0 : Nat) ≤ _
      exact Nat.zero_le _
  exact (Run.run_invariant (P := fun h : StateBroadcastHandler => h.Bounded ∧ h.Owned)
    (fun _ op hi => ⟨hi.1.step hi.2 op, hi.2.step op⟩) ⟨hin, .init siteId maxOrigins⟩).1

/-! ### Bounded retention -/

/-- The origin appears in a retained map, in an owner, or as the site of a record. -/
inductive Mentions (h : StateBroadcastHandler) : String → Prop
  | record {k : String} {p : ProviderState} (hp : h.state.providers[k]? = some p) :
      Mentions h p.siteId
  | identity {id : ProviderIdentity} {owner : ProviderOwner}
      (ho : h.retained.providerOwners[id]? = some owner) : Mentions h id.site
  | owner {id : ProviderIdentity} {owner : ProviderOwner}
      (ho : h.retained.providerOwners[id]? = some owner) : Mentions h owner.scope.originSite
  | latest {scope : ProviderStateScope} {revision : UInt64}
      (hs : h.retained.latestByScope[scope]? = some revision) : Mentions h scope.originSite
  | unverified {scope : ProviderStateScope} (hs : scope ∈ h.retained.unverifiedScopes) :
      Mentions h scope.originSite
  | networks {scope : ProviderStateScope} {networks : ExtTreeSet String}
      (hs : h.retained.providerNetworksByScope[scope]? = some networks) :
      Mentions h scope.originSite
  | uids {scope : ProviderStateScope} {uids : ExtTreeMap ProviderIdentity String}
      (hs : h.retained.providerUidsByScope[scope]? = some uids) : Mentions h scope.originSite
  | inventories {scope : ProviderStateScope} (hs : scope ∈ h.retained.inventoryScopes) :
      Mentions h scope.originSite
  | value {lane : Lane} {o value : String}
      (hs : (h.retained.lanes lane).values[o]? = some value) : Mentions h o
  | guard {lane : Lane} {o : String} {revision : UInt64}
      (hs : (h.retained.lanes lane).revisions[o]? = some revision) : Mentions h o

/-- The origin has a usable pin of its own, or any pin within a grid. -/
def Pinned (h : StateBroadcastHandler) (o : String) : Prop :=
  (∃ keys, h.trust.pin (.site o) = some keys ∧ keys ≠ []) ∨
    ∃ grid keys, h.trust.pin (.grid grid o) = some keys

theorem mem_knownOrigins_of_latest {scope : ProviderStateScope}
    (hs : ∃ revision, h.retained.latestByScope[scope]? = some revision) :
    scope.originSite ∈ h.retained.knownOrigins :=
  mem_knownOrigins.mpr (.inl ⟨scope, hs, rfl⟩)

/-- **Every mentioned origin is known**, in a handler whose owners are recorded. -/
theorem Kept.mem_knownOrigins (hi : h.Kept) (ho : h.Mentions o) :
    o ∈ h.retained.knownOrigins := by
  have how : ∀ {id : ProviderIdentity} {owner : ProviderOwner},
      h.retained.providerOwners[id]? = some owner → id.site ∈ h.retained.knownOrigins :=
    fun ho => hi.owned.site_eq ho ▸ mem_knownOrigins_of_latest (hi.recorded.latest ho)
  cases ho with
  | record hp =>
    obtain ⟨owner, ho⟩ := hi.owned.owner hp
    exact how ho
  | identity ho => exact how ho
  | owner ho => exact mem_knownOrigins_of_latest (hi.recorded.latest ho)
  | latest hs => exact mem_knownOrigins_of_latest ⟨_, hs⟩
  | unverified hs => exact mem_knownOrigins_of_latest (hi.recorded.unverified hs)
  | networks hs => exact RetainedOrigins.mem_knownOrigins.mpr (.inr (.inl ⟨_, ⟨_, hs⟩, rfl⟩))
  | uids hs => exact mem_knownOrigins_of_latest (hi.recorded.uids hs)
  | inventories hs =>
    exact RetainedOrigins.mem_knownOrigins.mpr (.inr (.inr (.inl ⟨_, hs, rfl⟩)))
  | value hs => exact RetainedOrigins.mem_knownOrigins.mpr (.inr (.inr (.inr ⟨_, .inl ⟨_, hs⟩⟩)))
  | guard hs => exact RetainedOrigins.mem_knownOrigins.mpr (.inr (.inr (.inr ⟨_, .inr ⟨_, hs⟩⟩)))

/-- Making room takes nothing from a pinned origin. -/
theorem SameSite.of_pinned (hrm : h.makeRoomFor incoming = some h') (hpn : h.Pinned o) :
    h.SameSite h' o := by
  refine .makeRoomFor hrm fun hv => ?_
  have hev : h.evictable o = true := by
    simp only [victim] at hv
    split_ifs at hv
    exact List.find?_some hv
  rw [evictable, Bool.and_eq_true, Bool.not_eq_true'] at hev
  rcases hpn with ⟨keys, hpin, hne⟩ | hgr
  · rw [hpin, Option.all_some, List.isEmpty_iff] at hev
    exact hne hev.1
  · rw [TrustStore.pinnedInAnyGrid_iff.mpr hgr] at hev
    cases hev.2

/-- **Bounded retention.**  After any run, at most `maxOrigins` origins are known, the guards
are bounded by sixteen for each of them, and room is never made at the cost of a pinned
origin; and if the run left no verified values behind, every origin that appears anywhere is
known. -/
theorem retention_bounded (c : Crypto) (siteId : String) {maxOrigins : Nat}
    (hmax : 1 ≤ maxOrigins) (ops : List NodeOp) :
    let h := (withCapacity siteId maxOrigins).run c ops
    h.retained.knownOrigins.size ≤ maxOrigins ∧
      h.retained.latestByScope.size ≤ 16 * maxOrigins ∧
      (∀ (incoming o : String) (h₁ : StateBroadcastHandler),
        h.makeRoomFor incoming = some h₁ → h.Pinned o → h.SameSite h₁ o) ∧
      (Run.Along (step c) (LeavesNoVerified c) (withCapacity siteId maxOrigins) ops →
        ∀ o, h.Mentions o → o ∈ h.retained.knownOrigins) := by
  intro h
  have hbn : h.Bounded := .run siteId maxOrigins ops
  obtain ⟨horigins, hsc⟩ := capacity_run (c := c) siteId maxOrigins ops
  have hmx : h.maxOrigins = maxOrigins := horigins.trans (Nat.max_eq_left hmax)
  have hms : h.maxScopes ≤ 16 * maxOrigins := by
    rw [show h.maxScopes = _ from hsc]
    simp only [withCapacity, retainedScopeMultiplier, Nat.max_eq_left hmax]
    omega
  refine ⟨?_, Nat.le_trans hbn.scopes hms, ?_, ?_⟩
  · rw [← hmx]
    exact hbn.origins
  · exact fun incoming o h₁ hrm hpn => .of_pinned hrm hpn
  · exact fun hops o ho => ((Kept.init siteId maxOrigins).run hops).mem_knownOrigins ho

theorem retention_bounded_toolRun :
    let h := (withCapacity "self" 1).run crypto toolRun
    h.retained.knownOrigins.size ≤ 1 ∧ h.Mentions "site" ∧ "site" ∈ h.retained.knownOrigins := by
  intro h
  obtain ⟨hsz, -, -, hkn⟩ := retention_bounded crypto "self" (Nat.le_refl 1) toolRun
  have hops : Run.Along (step crypto) (LeavesNoVerified crypto)
      (withCapacity "self" 1) toolRun := by
    refine ⟨fun now data b h₁ hop _ hdc _ _ _ hcr => ?_, trivial⟩
    -- the one broadcast of the run carries a provider
    obtain ⟨-, rfl⟩ := NodeOp.receiveItem.inj hop
    cases hdc
    exact absurd hcr (by decide)
  have hrc : h.state.providers["net/site/tool/x"]? =
      some { record "net" "site" "tool/x" with revision := 1 } := by decide
  have hmn : h.Mentions "site" := .record hrc
  exact ⟨hsz, hmn, hkn hops "site" hmn⟩

/-- A signed provider outlives its relaxed grid; spend marks its scope, and another grid is
enforced. -/
def relaxedRun : List NodeOp :=
  [.enforceSignedGrid "grid" "net", .pinOriginForGrid "grid" "site" [[1]],
    deliver (signed { broadcast "site" 1
      [record "net" "site" "provider"] with gridId := some "grid" }),
    .relaxSignedGrid "grid",
    deliver { spend "site" 2 "tenant" 1 with gridId := some "grid" },
    .enforceSignedGrid "other" "net"]

set_option maxRecDepth 100000 in
/-- The provider is still merged, but its origin is not known. -/
theorem retention_unknown_origin :
    let h := (withCapacity "self" 1).run crypto relaxedRun
    h.Mentions "site" ∧ "site" ∉ h.retained.knownOrigins := by
  intro h
  have hrc : h.state.providers["net/site/provider"]? =
      some { record "net" "site" "provider" with revision := 1 } := by decide
  have hmn : h.Mentions "site" := .record hrc
  exact ⟨hmn, by decide⟩

/-! ### Evicted origins -/

end StateBroadcastHandler

end PraxisGrid
