/-
PraxisGrid/Swim/Outcome.lean

What a node operation can do to a handler, said once.

A received state broadcast either leaves the handler as it is or is admitted, room is made for
its origin, and it settles (`receiveStateBroadcast_cases`, `settle_cases`); an inventory frame
likewise is refused or buffered (`receiveModelInventory_cases`).  The proofs about runs argue by
these cases and never unfold the receive functions.
-/
import PraxisGrid.Swim.HandlerSpec

namespace PraxisGrid

open Std OrdMap Bincode Saturate

/-! ### Known origins -/

namespace RetainedOrigins

/-- **An origin is known** when a scope of it has a revision, networks or inventories, or a
lane has a value or a guard of it. -/
theorem mem_knownOrigins {r : RetainedOrigins} {o : String} :
    o ∈ r.knownOrigins ↔
      (∃ scope : ProviderStateScope, (∃ revision, r.latestByScope[scope]? = some revision) ∧
        scope.originSite = o) ∨
      (∃ scope : ProviderStateScope, (∃ networks,
        r.providerNetworksByScope[scope]? = some networks) ∧ scope.originSite = o) ∨
      (∃ scope ∈ r.inventoryScopes, scope.originSite = o) ∨
      ∃ lane, (∃ value, (r.lanes lane).values[o]? = some value) ∨
        ∃ revision, (r.lanes lane).revisions[o]? = some revision := by
  have hln : ∀ P : Lane → Prop, (∃ lane, P lane) ↔ P .gateway ∨ P .cert ∨ P .signals := by
    refine fun P => ⟨?_, ?_⟩
    · rintro ⟨- | - | -, hP⟩
      · exact .inl hP
      · exact .inr (.inl hP)
      · exact .inr (.inr hP)
    · rintro (hP | hP | hP) <;> exact ⟨_, hP⟩
  simp only [knownOrigins, mem_ofList, List.mem_append, List.mem_map, mem_keys_iff,
    ExtTreeSet.mem_toList, hln, or_assoc]

/-! ### Removed origins and grids -/

section Remove

variable (r : RetainedOrigins) (origin : String)

@[simp] theorem providerOwners_remove (id : ProviderIdentity) :
    (r.remove origin).providerOwners[id]? =
      if id.site = origin then none else r.providerOwners[id]? := by
  simp only [remove, getElem?_retain_key, bne_iff_ne, ne_eq, ite_not]

@[simp] theorem latestByScope_remove (scope : ProviderStateScope) :
    (r.remove origin).latestByScope[scope]? =
      if scope.originSite = origin then none else r.latestByScope[scope]? := by
  simp only [remove, getElem?_retain_key, bne_iff_ne, ne_eq, ite_not]

@[simp] theorem mem_unverifiedScopes_remove {scope : ProviderStateScope} :
    scope ∈ (r.remove origin).unverifiedScopes ↔
      scope ∈ r.unverifiedScopes ∧ scope.originSite ≠ origin := by
  simp only [remove, mem_retainSet, bne_iff_ne]

@[simp] theorem providerNetworksByScope_remove (scope : ProviderStateScope) :
    (r.remove origin).providerNetworksByScope[scope]? =
      if scope.originSite = origin then none else r.providerNetworksByScope[scope]? := by
  simp only [remove, getElem?_retain_key, bne_iff_ne, ne_eq, ite_not]

@[simp] theorem providerUidsByScope_remove (scope : ProviderStateScope) :
    (r.remove origin).providerUidsByScope[scope]? =
      if scope.originSite = origin then none else r.providerUidsByScope[scope]? := by
  simp only [remove, getElem?_retain_key, bne_iff_ne, ne_eq, ite_not]

@[simp] theorem mem_inventoryScopes_remove {scope : ProviderStateScope} :
    scope ∈ (r.remove origin).inventoryScopes ↔
      scope ∈ r.inventoryScopes ∧ scope.originSite ≠ origin := by
  simp only [remove, mem_retainSet, bne_iff_ne]

@[simp] theorem values_remove (lane : Lane) (site : String) :
    ((r.remove origin).lanes lane).values[site]? =
      if origin = site then none else (r.lanes lane).values[site]? :=
  getElem?_erase ..

@[simp] theorem revisions_remove (lane : Lane) (site : String) :
    ((r.remove origin).lanes lane).revisions[site]? =
      if origin = site then none else (r.lanes lane).revisions[site]? :=
  getElem?_erase ..

end Remove

section RemoveGrid

variable (r : RetainedOrigins) (gridId : String) (origin : Option String)

@[simp] theorem providerOwners_removeGrid (id : ProviderIdentity) :
    (r.removeGrid gridId origin).providerOwners[id]? =
      if r.removesIdentity gridId origin id then none else r.providerOwners[id]? := by
  simp only [removeGrid, getElem?_retain_key]
  cases r.removesIdentity gridId origin id <;> rfl

@[simp] theorem latestByScope_removeGrid (scope : ProviderStateScope) :
    (r.removeGrid gridId origin).latestByScope[scope]? =
      if r.clearsScope gridId origin scope then none else r.latestByScope[scope]? := by
  simp only [removeGrid, getElem?_retain_key]
  cases r.clearsScope gridId origin scope <;> rfl

@[simp] theorem mem_unverifiedScopes_removeGrid {scope : ProviderStateScope} :
    scope ∈ (r.removeGrid gridId origin).unverifiedScopes ↔
      scope ∈ r.unverifiedScopes ∧ r.clearsScope gridId origin scope = false := by
  simp only [removeGrid, mem_retainSet, Bool.not_eq_true']

@[simp] theorem providerNetworksByScope_removeGrid (scope : ProviderStateScope) :
    (r.removeGrid gridId origin).providerNetworksByScope[scope]? =
      if r.clearsScope gridId origin scope then none else r.providerNetworksByScope[scope]? := by
  simp only [removeGrid, getElem?_retain_key]
  cases r.clearsScope gridId origin scope <;> rfl

@[simp] theorem providerUidsByScope_removeGrid (scope : ProviderStateScope) :
    (r.removeGrid gridId origin).providerUidsByScope[scope]? =
      if r.clearsScope gridId origin scope then none else r.providerUidsByScope[scope]? := by
  simp only [removeGrid, getElem?_retain_key]
  cases r.clearsScope gridId origin scope <;> rfl

@[simp] theorem mem_inventoryScopes_removeGrid {scope : ProviderStateScope} :
    scope ∈ (r.removeGrid gridId origin).inventoryScopes ↔
      scope ∈ r.inventoryScopes ∧ selectsScope gridId origin scope = false := by
  simp only [removeGrid, mem_retainSet, Bool.not_eq_true']

/-- A grid's purge selects its own scopes, of one origin or of all. -/
theorem selectsScope_eq_true_iff {scope : ProviderStateScope} :
    selectsScope gridId origin scope = true ↔
      scope.gridId = some gridId ∧ ∀ o, origin = some o → scope.originSite = o := by
  cases origin <;> simp [selectsScope]

/-- It removes records of the grid, and those no grid key verified. -/
theorem removesOwner_eq_true_iff {owner : ProviderOwner} :
    removesOwner gridId origin owner = true ↔
      (∀ o, origin = some o → owner.scope.originSite = o) ∧
        (owner.scope.gridId = some gridId ∨ owner.verifiedGrid = false) := by
  cases origin with
  | none => simp [removesOwner, selectsScope]
  | some o =>
    simp only [removesOwner, selectsScope, Option.all_some, Bool.and_eq_true, beq_iff_eq,
      Bool.or_eq_true, Bool.not_eq_true', Option.some.injEq, forall_eq']
    refine and_congr_right fun ho => ?_
    simp [ho]

/-- It clears scopes of the grid, and those no grid key verified. -/
theorem clearsScope_eq_true_iff {scope : ProviderStateScope} :
    r.clearsScope gridId origin scope = true ↔
      (∀ o, origin = some o → scope.originSite = o) ∧
        (scope.gridId = some gridId ∨ scope ∈ r.unverifiedScopes) := by
  cases origin with
  | none => simp [clearsScope, selectsScope]
  | some o =>
    simp only [clearsScope, selectsScope, Option.all_some, Bool.or_eq_true, Bool.and_eq_true,
      beq_iff_eq, ExtTreeSet.contains_iff_mem, Option.some.injEq, forall_eq']
    tauto

end RemoveGrid

end RetainedOrigins

namespace StateBroadcastHandler

variable {c : Crypto} {h : StateBroadcastHandler} {now : Clock} {b : StateBroadcast}
  {incoming : String} {P : StateBroadcastHandler → Prop} {f : ModelInventoryBroadcast}

/-- The records of other origins stay. -/
theorem providers_removeOrigin_eq_some {origin k : String} {p : ProviderState} :
    (h.removeOrigin origin).state.providers[k]? = some p ↔
      h.state.providers[k]? = some p ∧ p.siteId ≠ origin := by
  simp only [removeOrigin, GridStateSnapshot.removeOriginProviders, getElem?_retain_eq_some,
    bne_iff_ne]

theorem providers_removeGrid_eq_some {gridId : String} {origin : Option String} {k : String}
    {p : ProviderState} :
    (h.removeGrid gridId origin).state.providers[k]? = some p ↔
      h.state.providers[k]? = some p ∧
        h.retained.removesIdentity gridId origin (providerIdentity p) = false := by
  simp only [removeGrid, getElem?_retain_eq_some, Bool.not_eq_true']

@[simp] theorem retained_removeOrigin (origin : String) :
    (h.removeOrigin origin).retained = h.retained.remove origin := rfl

@[simp] theorem trust_removeGrid (gridId : String) (origin : Option String) :
    (h.removeGrid gridId origin).trust = h.trust := rfl

@[simp] theorem retained_removeGrid (gridId : String) (origin : Option String) :
    (h.removeGrid gridId origin).retained = h.retained.removeGrid gridId origin := rfl

/-! ### Offered metadata -/

section OfferMetadata

variable (h now b)

@[simp] theorem trust_offerMetadata : (h.offerMetadata now b).trust = h.trust := rfl

@[simp] theorem lanes_offerMetadata (lane : Lane) :
    (h.offerMetadata now b).retained.lanes lane = (h.retained.lanes lane).store now lane b := rfl

end OfferMetadata

/-! ### Merged provider state -/

/-- The handler after `b` passed every check: its provider state is merged. -/
def merged (h : StateBroadcastHandler) (now : Clock) (b : StateBroadcast) :
    StateBroadcastHandler :=
  (h.applyProviderState now b b.providerStateScope
    (h.retained.providerNetworksByScope.getD b.providerStateScope ∅)
    (h.retained.providerUidsByScope.getD b.providerStateScope ∅)).2

/-- The networks that merging `b` replaces. -/
def replacedNetworks (h : StateBroadcastHandler) (b : StateBroadcast) : ExtTreeSet String :=
  h.networksToReplace b (h.retained.providerNetworksByScope.getD b.providerStateScope ∅)

/-- Whether `b` is merged under a verified grid key. -/
def mergesVerified (h : StateBroadcastHandler) (b : StateBroadcast) : Bool :=
  h.trust.verifiedGrid b.gridId b.originSite

/-- The networks of the records that merging `b` accepts. -/
def mergedNetworks (h : StateBroadcastHandler) (b : StateBroadcast) : ExtTreeSet String :=
  if b.carriesProviderState then RetainedOrigins.acceptedNetworks b (h.replacedNetworks b) else ∅

/-- The snapshot after `b` is merged. -/
def mergedState (h : StateBroadcastHandler) (b : StateBroadcast) : GridStateSnapshot :=
  (h.mergeSnapshot b (h.replacedNetworks b) (h.mergesVerified b)).2.2

/-- The retained state after `b` is merged. -/
def mergedRetained (h : StateBroadcastHandler) (b : StateBroadcast) : RetainedOrigins :=
  { h.retained with
    providerOwners :=
      if b.carriesProviderState then
        h.retained.reassigned b (h.replacedNetworks b) (h.mergesVerified b)
      else h.retained.providerOwners
    latestByScope := h.retained.latestByScope.insert b.providerStateScope b.revision
    unverifiedScopes :=
      if h.mergesVerified b then h.retained.unverifiedScopes.erase b.providerStateScope
      else h.retained.unverifiedScopes.insert b.providerStateScope
    providerNetworksByScope :=
      if (h.mergedNetworks b).isEmpty then h.retained.providerNetworksByScope
      else h.retained.providerNetworksByScope.insert b.providerStateScope (h.mergedNetworks b)
    providerUidsByScope :=
      if b.carriesProviderState then
        h.retained.providerUidsByScope.insert b.providerStateScope (incomingUids b)
      else h.retained.providerUidsByScope }

/-- The assembler after `b` is merged. -/
def mergedAssembler (h : StateBroadcastHandler) (b : StateBroadcast) : ModelInventoryAssembler :=
  if b.carriesProviderState then
    (h.invalidateReplacedProviderInventories b.originSite (b.gridId.getD "")
      (h.retained.providerUidsByScope.getD b.providerStateScope ∅) (incomingUids b)).assembler
  else h.assembler

/-- **Merged provider state**, field by field. -/
theorem merged_eq :
    h.merged now b =
      { h with
        state := h.mergedState b
        retained := h.mergedRetained b
        assembler := h.mergedAssembler b }.publishVerifiedInventories now := by
  unfold merged applyProviderState mergedState mergedRetained mergedAssembler mergedNetworks
    mergeSnapshot
  cases b.carriesProviderState with
  | false => rfl
  | true =>
    simp only [if_true, RetainedOrigins.replaceProviders_eq]
    rfl

section Merged

variable (h now b)

@[simp] theorem state_merged : (h.merged now b).state = h.mergedState b := by rw [merged_eq]; rfl

@[simp] theorem retained_merged : (h.merged now b).retained = h.mergedRetained b := by
  rw [merged_eq]; rfl

@[simp] theorem assembler_merged : (h.merged now b).assembler = h.mergedAssembler b := by
  rw [merged_eq]; rfl

@[simp] theorem trust_merged : (h.merged now b).trust = h.trust := by rw [merged_eq]; rfl

@[simp] theorem published_merged : (h.merged now b).published = h.published := by
  rw [merged_eq]; rfl

@[simp] theorem maxOrigins_merged : (h.merged now b).maxOrigins = h.maxOrigins := by
  rw [merged_eq]; rfl

@[simp] theorem maxScopes_merged : (h.merged now b).maxScopes = h.maxScopes := by
  rw [merged_eq]; rfl

end Merged

section MergedRetained

variable (h b) (scope : ProviderStateScope)

theorem latestByScope_mergedRetained :
    (h.mergedRetained b).latestByScope[scope]? =
      if b.providerStateScope = scope then some b.revision
      else h.retained.latestByScope[scope]? :=
  getElem?_insert ..

/-- A merge settles whether its scope counts as verified. -/
theorem mem_unverifiedScopes_mergedRetained :
    scope ∈ (h.mergedRetained b).unverifiedScopes ↔
      if b.providerStateScope = scope then h.mergesVerified b = false
      else scope ∈ h.retained.unverifiedScopes := by
  unfold mergedRetained
  by_cases hsc : b.providerStateScope = scope <;> cases h.mergesVerified b <;> simp [hsc]

/-- Only a merge with records renews the networks of its scope. -/
theorem providerNetworksByScope_mergedRetained :
    (h.mergedRetained b).providerNetworksByScope[scope]? =
      if b.providerStateScope = scope ∧ (h.mergedNetworks b).isEmpty = false then
        some (h.mergedNetworks b)
      else h.retained.providerNetworksByScope[scope]? := by
  unfold mergedRetained
  cases (h.mergedNetworks b).isEmpty <;> simp

theorem providerUidsByScope_mergedRetained :
    (h.mergedRetained b).providerUidsByScope[scope]? =
      if b.providerStateScope = scope ∧ b.carriesProviderState = true then some (incomingUids b)
      else h.retained.providerUidsByScope[scope]? := by
  unfold mergedRetained
  cases b.carriesProviderState <;> simp

theorem inventoryScopes_mergedRetained :
    (h.mergedRetained b).inventoryScopes = h.retained.inventoryScopes := rfl

theorem lanes_mergedRetained : (h.mergedRetained b).lanes = h.retained.lanes := rfl

end MergedRetained

/-- Records after a merge: as the replacement leaves them, or as they were. -/
theorem providers_mergedState :
    (h.mergedState b).providers =
      if b.carriesProviderState then
        (h.retained.replaceProviders h.state b (h.replacedNetworks b)
          (h.mergesVerified b)).2.2.providers
      else h.state.providers := by
  unfold mergedState mergeSnapshot
  cases b.carriesProviderState with
  | false => simp
  | true =>
    refine ExtTreeMap.ext_getElem? fun k => ?_
    simp only [if_true, RetainedOrigins.providers_replaceProviders, RetainedOrigins.withdrawn,
      GridStateSnapshot.providers_mergeTenantSpendFromOrigin]
    rfl

/-- Spend after a merge: as the origin's claims leave it. -/
theorem tenantSpend_mergedState :
    (h.mergedState b).tenantSpend =
      (h.state.mergeTenantSpendFromOrigin b.originSite b.snapshot.tenantSpend).tenantSpend := by
  have hsp := congrArg GridStateSnapshot.tenantSpend
    (h.state.mergeTenantSpendFromOrigin_capabilities
      (h.state.capabilities.merge b.snapshot.capabilities) b.originSite b.snapshot.tenantSpend)
  unfold mergedState mergeSnapshot
  cases b.carriesProviderState with
  | false => exact hsp
  | true =>
    simp only [if_true, RetainedOrigins.replaceProviders_eq]
    rw [GridStateSnapshot.tenantSpend_foldl_upsertProvider]
    exact hsp

/-- The slots after a merge are those of the merged claims. -/
theorem spendSlot_mergedState (tenant site : String) :
    (h.mergedState b).spendSlot tenant site =
      (h.state.mergeTenantSpendFromOrigin b.originSite b.snapshot.tenantSpend).spendSlot tenant
        site := by
  unfold GridStateSnapshot.spendSlot
  rw [tenantSpend_mergedState]

/-! ### Room for an origin -/

theorem makeRoomFor_of_fits (hft : (h.retained.knownOrigins.contains incoming ||
      decide (h.retained.knownOrigins.size < h.maxOrigins)) = true) :
    h.makeRoomFor incoming = some h := if_pos hft

/-- **Making room** changes nothing, or evicts one known origin without a pin. -/
theorem makeRoomFor_cases {h₁ : StateBroadcastHandler} (hrm : h.makeRoomFor incoming = some h₁) :
    (h₁ = h ∧ (incoming ∈ h.retained.knownOrigins ∨
        h.retained.knownOrigins.size < h.maxOrigins)) ∨
      ∃ v, v ∈ h.retained.knownOrigins ∧ h.evictable v = true ∧
        incoming ∉ h.retained.knownOrigins ∧ h.maxOrigins ≤ h.retained.knownOrigins.size ∧
        h₁ = h.removeOrigin v := by
  simp only [makeRoomFor] at hrm
  split_ifs at hrm with hft
  · simp only [Bool.or_eq_true, ExtTreeSet.contains_iff_mem, decide_eq_true_eq] at hft
    exact .inl ⟨(Option.some.inj hrm).symm, hft⟩
  · simp only [Bool.or_eq_true, ExtTreeSet.contains_iff_mem, decide_eq_true_eq, not_or,
      Nat.not_lt] at hft
    obtain ⟨v, hfn, rfl⟩ := Option.map_eq_some_iff.mp hrm
    exact .inr ⟨v, ExtTreeSet.mem_toList.mp (List.mem_of_find?_eq_some hfn),
      List.find?_some hfn, hft.1, hft.2, rfl⟩

/-- A property that evictions preserve survives making room. -/
theorem makeRoomFor_preserves (hrem : ∀ v, P h → P (h.removeOrigin v))
    {h₁ : StateBroadcastHandler} (hrm : h.makeRoomFor incoming = some h₁) (hP : P h) : P h₁ := by
  rcases makeRoomFor_cases hrm with ⟨rfl, -⟩ | ⟨v, -, -, -, -, rfl⟩
  · exact hP
  · exact hrem v hP

theorem trust_of_makeRoomFor {h₁ : StateBroadcastHandler} (hrm : h.makeRoomFor incoming = some h₁)
    : h₁.trust = h.trust :=
  makeRoomFor_preserves (P := fun h' => h'.trust = h.trust) (fun _ _ => rfl) hrm rfl

/-! ### Receiving a state broadcast -/

/-- The broadcast is admitted, and `h₁` is the handler with room for its origin. -/
structure Admits (c : Crypto) (h : StateBroadcastHandler) (now : Clock) (b : StateBroadcast)
    (h₁ : StateBroadcastHandler) : Prop where
  version : b.version = stateBroadcastVersion
  verified : h.verifySignatureIfPinned c now b = .ok ()
  room : h.makeRoomFor b.originSite = some h₁

/-- The revision of the broadcast is new to its scope, and the scope can be retained. -/
structure Fresh (h : StateBroadcastHandler) (now : Clock) (b : StateBroadcast) : Prop where
  room : h.hasRoomForScope b.providerStateScope = true
  rank : ∀ held, h.retained.latestByScope[b.providerStateScope]? = some held →
    outranks held b.revision (maxLeasedRevision (wallMs now)) = false
  new : h.retained.latestByScope[b.providerStateScope]? ≠ some b.revision

theorem Fresh.any_rank (hfr : h.Fresh now b) :
    (h.retained.latestByScope[b.providerStateScope]?.any fun held =>
      outranks held b.revision (maxLeasedRevision (wallMs now))) = false :=
  (Option.any_eq_false ..).mpr hfr.rank

/-- The handler after an admitted broadcast, once there is room for its origin. -/
def settle (h : StateBroadcastHandler) (now : Clock) (b : StateBroadcast) :
    StateBroadcastHandler :=
  let latest := h.retained.latestByScope[b.providerStateScope]?
  if b.isMetadataOnly then h.offerMetadata now b
  else if !h.hasRoomForScope b.providerStateScope then h
  else if latest.any fun held => outranks held b.revision (maxLeasedRevision (wallMs now)) then h
  else if latest = some b.revision then h.offerMetadata now b
  else (h.offerMetadata now b).merged now b

/-- An admitted broadcast settles once there is room. -/
theorem receiveStateBroadcast_of_admits {h₁ : StateBroadcastHandler}
    (hadm : h.Admits c now b h₁) : (h.receiveStateBroadcast c now b).2 = h₁.settle now b := by
  simp only [receiveStateBroadcast, hadm.version, ne_eq, not_true, if_false, hadm.verified,
    hadm.room, settle, storeMetadata_snd]
  split_ifs <;> rfl

/-- A broadcast that is not admitted changes nothing and is not passed on. -/
theorem receiveStateBroadcast_of_not_admits (hadm : ∀ h₁, ¬ h.Admits c now b h₁) :
    (h.receiveStateBroadcast c now b).2 = h ∧
      ∀ key, (h.receiveStateBroadcast c now b).1 ≠ .ok (some key) := by
  by_cases hver : b.version = stateBroadcastVersion
  · rcases hvr : h.verifySignatureIfPinned c now b with e | ⟨⟩
    · simp [receiveStateBroadcast, hver, hvr]
    · rcases hrm : h.makeRoomFor b.originSite with - | h₁
      · simp [receiveStateBroadcast, hver, hvr, hrm]
      · exact absurd ⟨hver, hvr, hrm⟩ (hadm h₁)
  · simp [receiveStateBroadcast, hver]

/-- **What a received state broadcast can do**: nothing, or it is admitted and settles. -/
theorem receiveStateBroadcast_cases :
    (h.receiveStateBroadcast c now b).2 = h ∨
      ∃ h₁, h.Admits c now b h₁ ∧ (h.receiveStateBroadcast c now b).2 = h₁.settle now b := by
  by_cases hadm : ∃ h₁, h.Admits c now b h₁
  · obtain ⟨h₁, hadm⟩ := hadm
    exact .inr ⟨h₁, hadm, receiveStateBroadcast_of_admits hadm⟩
  · exact .inl (receiveStateBroadcast_of_not_admits fun h₁ h => hadm ⟨h₁, h⟩).1

theorem settle_of_metadataOnly (hmt : b.isMetadataOnly = true) :
    h.settle now b = h.offerMetadata now b := if_pos hmt

/-- A fresh broadcast with grid state is merged. -/
theorem settle_of_fresh (hmt : b.isMetadataOnly = false) (hfr : h.Fresh now b) :
    h.settle now b = (h.offerMetadata now b).merged now b := by
  simp only [settle, hmt, hfr.room, hfr.any_rank, hfr.new, Bool.false_eq_true, if_false,
    Bool.not_true]

/-- **How an admitted broadcast settles**: it is ignored, offered to the lanes only, or
merged. -/
theorem settle_cases (h : StateBroadcastHandler) (now : Clock) (b : StateBroadcast) :
    (h.settle now b = h ∧ b.isMetadataOnly = false) ∨
      h.settle now b = h.offerMetadata now b ∨
      (b.isMetadataOnly = false ∧ h.Fresh now b ∧
        h.settle now b = (h.offerMetadata now b).merged now b) := by
  rcases hmt : b.isMetadataOnly with - | -
  · by_cases hfr : h.Fresh now b
    · exact .inr (.inr ⟨rfl, hfr, settle_of_fresh hmt hfr⟩)
    · simp only [settle, hmt, Bool.false_eq_true, if_false]
      split_ifs with hrm hrn hnew
      · exact .inl ⟨rfl, trivial⟩
      · exact .inl ⟨rfl, trivial⟩
      · exact .inr (.inl rfl)
      · refine absurd ⟨?_, ?_, hnew⟩ hfr
        · simpa using hrm
        · rw [Bool.not_eq_true] at hrn
          exact (Option.any_eq_false ..).mp hrn
  · exact .inr (.inl (settle_of_metadataOnly hmt))

/-- **When provider state is merged**: a broadcast with grid state is passed on exactly when
it is admitted and its revision is fresh. -/
theorem receiveStateBroadcast_passes_iff (hmt : b.isMetadataOnly = false) :
    (∃ key, (h.receiveStateBroadcast c now b).1 = .ok (some key)) ↔
      ∃ h₁, h.Admits c now b h₁ ∧ h₁.Fresh now b := by
  by_cases hadm : ∃ h₁, h.Admits c now b h₁
  · obtain ⟨h₁, hadm⟩ := hadm
    have hun : ∀ {h₂}, h.Admits c now b h₂ → h₂ = h₁ := fun hadm₂ =>
      Option.some.inj (hadm₂.room.symm.trans hadm.room)
    simp only [receiveStateBroadcast, hadm.version, ne_eq, not_true, if_false, hadm.verified,
      hadm.room, hmt, Bool.false_eq_true]
    constructor
    · rintro ⟨key, hkey⟩
      split_ifs at hkey with hrm hrn hnew
      · cases hkey
      · cases hkey
      · cases hkey
      · refine ⟨h₁, hadm, ⟨by simpa using hrm, ?_, hnew⟩⟩
        rw [Bool.not_eq_true] at hrn
        exact (Option.any_eq_false ..).mp hrn
    · rintro ⟨h₂, hadm₂, hfr⟩
      obtain rfl := hun hadm₂
      simp only [hfr.room, hfr.any_rank, hfr.new, Bool.not_true, Bool.false_eq_true, if_false]
      exact ⟨_, rfl⟩
  · refine iff_of_false ?_ (fun ⟨h₁, h, _⟩ => hadm ⟨h₁, h⟩)
    rintro ⟨key, hkey⟩
    exact (receiveStateBroadcast_of_not_admits fun h₁ h => hadm ⟨h₁, h⟩).2 key hkey

/-! ### Receiving an inventory frame -/

/-- The frame is authentic and authorized, and `h₁` is the handler with room for its
origin. -/
structure AdmitsFrame (c : Crypto) (h : StateBroadcastHandler) (now : Clock)
    (b : ModelInventoryBroadcast) (h₁ : StateBroadcastHandler) : Prop where
  keys : ∃ keys, h.trust.pin (.grid b.gridId b.originSite) = some keys ∧ keys ≠ [] ∧
    b.frame.verifies c now b.originSite b.gridId keys = true
  networks : h.validateProviderNetworks b.gridId [b.frame.networkId] = .ok ()
  room : h.makeRoomFor b.originSite = some h₁

/-- Whether the outcome of a frame makes the handler publish its inventories again. -/
def publishes : Except InventoryFrameError InventoryAssemblyResult → Bool
  | .ok .incomplete | .ok .duplicate | .error .staleRevision => false
  | .ok (.complete _) | .error _ => true

/-- The handler with the frame in its assembler. -/
def buffered (c : Crypto) (h : StateBroadcastHandler) (now : Clock)
    (b : ModelInventoryBroadcast) : StateBroadcastHandler :=
  { h with
    retained := { h.retained with
      inventoryScopes := h.retained.inventoryScopes.insert ⟨b.originSite, some b.gridId⟩ }
    assembler := (h.assembler.push c b (wallMs now)).2 }

/-- The handler after an admitted frame, once there is room for its origin. -/
def settleFrame (c : Crypto) (h : StateBroadcastHandler) (now : Clock)
    (b : ModelInventoryBroadcast) : StateBroadcastHandler :=
  if publishes (h.assembler.push c b (wallMs now)).1 then
    (h.buffered c now b).publishVerifiedInventories now
  else h.buffered c now b

open ModelInventoryBroadcast

theorem receiveModelInventory_of_admits {data : Bytes} {h₁ : StateBroadcastHandler}
    (hdec : decode data = .ok f) (hadm : h.AdmitsFrame c now f h₁) :
    (h.receiveModelInventory c now data).2 = h₁.settleFrame c now f := by
  obtain ⟨keys, hpin, hne, hvr⟩ := hadm.keys
  obtain ⟨key, keys, rfl⟩ := List.exists_cons_of_ne_nil hne
  simp only [receiveModelInventory, hdec, hpin, hvr, hadm.networks, hadm.room,
    Bool.not_true, Bool.false_eq_true, if_false, settleFrame, buffered]
  rcases h₁.assembler.push c f (wallMs now) with ⟨result, assembler⟩
  rcases result with e | result
  · cases e <;> rfl
  · cases result <;> rfl

/-- **What a received inventory frame can do**: nothing, or it is admitted and buffered. -/
theorem receiveModelInventory_cases :
    (h.receiveModelInventory c now data).2 = h ∨
      ∃ f h₁, decode data = .ok f ∧ h.AdmitsFrame c now f h₁ ∧
        (h.receiveModelInventory c now data).2 = h₁.settleFrame c now f := by
  by_cases hadm : ∃ f h₁, decode data = .ok f ∧ h.AdmitsFrame c now f h₁
  · obtain ⟨f, h₁, hdec, hadm⟩ := hadm
    exact .inr ⟨f, h₁, hdec, hadm, receiveModelInventory_of_admits hdec hadm⟩
  · left
    rcases hdec : decode data with e | f
    · simp [receiveModelInventory, hdec]
    · rcases hpin : h.trust.pin (.grid f.gridId f.originSite) with - | (- | ⟨key, keys⟩)
      · simp [receiveModelInventory, hdec, hpin]
      · simp [receiveModelInventory, hdec, hpin]
      · rcases hvr : f.frame.verifies c now f.originSite f.gridId (key :: keys) with - | -
        · simp [receiveModelInventory, hdec, hpin, hvr]
        · rcases hnt : h.validateProviderNetworks f.gridId [f.frame.networkId] with e | ⟨⟩
          · simp [receiveModelInventory, hdec, hpin, hvr, hnt]
          · rcases hrm : h.makeRoomFor f.originSite with - | h₁
            · simp [receiveModelInventory, hdec, hpin, hvr, hnt, hrm]
            · refine absurd ⟨f, h₁, hdec, ⟨?_, hnt, hrm⟩⟩ hadm
              exact ⟨key :: keys, hpin, List.cons_ne_nil key keys, hvr⟩

/-! ### Receiving an item -/

/-- **What a received item can do.** -/
theorem receiveItem_cases :
    (h.receiveItem c now data).2 = h ∨
      (∃ b h₁, recognizes data = false ∧
        StateBroadcast.decode data = .ok b ∧ h.Admits c now b h₁ ∧
        (h.receiveItem c now data).2 = h₁.settle now b) ∨
      ∃ f h₁, recognizes data = true ∧
        decode data = .ok f ∧ h.AdmitsFrame c now f h₁ ∧
        (h.receiveItem c now data).2 = h₁.settleFrame c now f := by
  unfold receiveItem
  split_ifs with hkn
  · rcases receiveModelInventory_cases with heq | ⟨f, h₁, hfr⟩
    · exact .inl heq
    · exact .inr (.inr ⟨f, h₁, hkn, hfr⟩)
  · rcases StateBroadcast.decode data with e | b
    · exact .inl rfl
    · rcases receiveStateBroadcast_cases with heq | ⟨h₁, hadm, heq⟩
      · exact .inl heq
      · exact .inr (.inl ⟨b, h₁, Bool.not_eq_true _ ▸ hkn, rfl, hadm, heq⟩)

theorem receiveItem_of_admits {data : Bytes} {h₁ : StateBroadcastHandler}
    (hkn : recognizes data = false)
    (hdec : StateBroadcast.decode data = .ok b) (hadm : h.Admits c now b h₁) :
    (h.receiveItem c now data).2 = h₁.settle now b := by
  simp only [receiveItem, hkn, hdec, Bool.false_eq_true, if_false,
    receiveStateBroadcast_of_admits hadm]

theorem receiveItem_of_admitsFrame {data : Bytes} {h₁ : StateBroadcastHandler}
    (hkn : recognizes data = true)
    (hdec : decode data = .ok f) (hadm : h.AdmitsFrame c now f h₁) :
    (h.receiveItem c now data).2 = h₁.settleFrame c now f := by
  simp only [receiveItem, hkn, if_true, receiveModelInventory_of_admits hdec hadm]

/-- The item is a state broadcast with provider state that is merged; `h₁` is the handler
with room for its origin. -/
structure Merges (c : Crypto) (h : StateBroadcastHandler) (now : Clock) (data : Bytes)
    (b : StateBroadcast) (h₁ : StateBroadcastHandler) : Prop where
  recognizes : ModelInventoryBroadcast.recognizes data = false
  decode : StateBroadcast.decode data = .ok b
  carries : b.carriesProviderState = true
  admits : h.Admits c now b h₁
  fresh : h₁.Fresh now b

variable {data : Bytes} {h₁ : StateBroadcastHandler}

theorem Merges.metadataOnly (hm : h.Merges c now data b h₁) : b.isMetadataOnly = false :=
  StateBroadcast.isMetadataOnly_eq_false_of_carriesProviderState hm.carries

theorem Merges.receiveStateBroadcast (hm : h.Merges c now data b h₁) :
    (h.receiveStateBroadcast c now b).2 = (h₁.offerMetadata now b).merged now b := by
  rw [receiveStateBroadcast_of_admits hm.admits, settle_of_fresh hm.metadataOnly hm.fresh]

/-- An item that merges leaves the merged handler. -/
theorem Merges.receiveItem (hm : h.Merges c now data b h₁) :
    (h.receiveItem c now data).2 = (h₁.offerMetadata now b).merged now b := by
  rw [receiveItem_of_admits hm.recognizes hm.decode hm.admits,
    settle_of_fresh hm.metadataOnly hm.fresh]

theorem trust_settle : (h.settle now b).trust = h.trust := by
  rcases settle_cases h now b with ⟨hs, -⟩ | hs | ⟨-, -, hs⟩
  · rw [hs]
  · rw [hs, trust_offerMetadata]
  · rw [hs, trust_merged, trust_offerMetadata]

/-- No item changes whom the node trusts. -/
theorem trust_receiveItem : (h.receiveItem c now data).2.trust = h.trust := by
  rcases receiveItem_cases with
    heq | ⟨b, h₁, -, -, hadm, heq⟩ | ⟨f, h₁, -, -, hadm, heq⟩
  · rw [heq]
  · rw [heq, trust_settle, trust_of_makeRoomFor hadm.room]
  · rw [heq, settleFrame, ← trust_of_makeRoomFor hadm.room]
    split_ifs <;> rfl

/-! ### Node operations -/

/-- **Invariants and received items.**  A property that evictions and the ways to settle
preserve is preserved by receiving an item. -/
theorem receiveItem_preserves {data : Bytes}
    (hrm : ∀ origin, P h → P (h.removeOrigin origin))
    (hof : ∀ {h₁} b, P h₁ → P (h₁.offerMetadata now b))
    (hmr : ∀ {b h₁}, recognizes data = false →
      StateBroadcast.decode data = .ok b → h.Admits c now b h₁ → b.isMetadataOnly = false →
      h₁.Fresh now b → P (h₁.offerMetadata now b) → P ((h₁.offerMetadata now b).merged now b))
    (hbf : ∀ {h₁} f, P h₁ → P (h₁.buffered c now f))
    (hpb : ∀ {h₁}, P h₁ → P (h₁.publishVerifiedInventories now)) (hP : P h) :
    P (h.receiveItem c now data).2 := by
  have hro : ∀ {incoming h₁}, h.makeRoomFor incoming = some h₁ → P h₁ :=
    fun hro => makeRoomFor_preserves hrm hro hP
  rcases receiveItem_cases with
    heq | ⟨b, h₁, hkn, hdec, hadm, heq⟩ | ⟨f, h₁, -, -, hadm, heq⟩
  · rwa [heq]
  · rw [heq]
    rcases settle_cases h₁ now b with ⟨hs, -⟩ | hs | ⟨hmt, hfr, hs⟩
    · rw [hs]
      exact hro hadm.room
    · rw [hs]
      exact hof b (hro hadm.room)
    · rw [hs]
      exact hmr hkn hdec hadm hmt hfr (hof b (hro hadm.room))
  · rw [heq, settleFrame]
    split_ifs
    · exact hpb (hbf f (hro hadm.room))
    · exact hbf f (hro hadm.room)

/-- **Invariants that do not look at the trust store.**  A property that removals and
received items preserve is preserved by every node operation. -/
theorem step_preserves (htr : ∀ {h} (t : TrustStore), P h → P { h with trust := t })
    (hrn : ∀ origin, P h → P (h.removeOrigin origin))
    (hrm : ∀ gridId origin, P h → P (h.removeGrid gridId origin))
    (hfr : ∀ origin, P h → P (h.forgetDeparted origin)) (op : NodeOp)
    (hrc : ∀ now data, op = .receiveItem now data → P h → P (h.receiveItem c now data).2)
    (hP : P h) : P (h.step c op) := by
  cases op with
  | pinOrigin origin keys =>
    simp only [step, pinOrigin]
    split_ifs
    · exact hP
    · exact htr _ (hrn _ hP)
    · exact htr _ hP
  | pinOriginForGrid gridId origin keys =>
    simp only [step, pinOriginForGrid]
    split_ifs
    · exact hP
    · exact htr _ (hrm _ _ hP)
    · exact htr _ hP
  | enforceSignedGrid gridId networkName =>
    simp only [step, enforceSignedGrid]
    split_ifs
    · exact hP
    · exact htr _ (hrm _ _ hP)
  | relaxSignedGrid gridId | unpinOrigin origin => exact htr _ hP
  | unpinOriginForGrid gridId origin | clearOriginPinForGrid gridId origin =>
    exact htr _ (hrm _ _ hP)
  | holdStateAdmission | openStateAdmission => exact htr _ hP
  | evictOrigin origin => exact hrn _ hP
  | forgetDepartedOrigin origin => exact hfr _ hP
  | receiveItem now data => exact hrc now data rfl hP

end StateBroadcastHandler

end PraxisGrid
