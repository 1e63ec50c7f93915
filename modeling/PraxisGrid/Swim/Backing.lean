/-
PraxisGrid/Swim/Backing.lean

When published inventories are backed by the merged provider state.

The published list is computed anew after a merge and after a completed or failed frame, and
only filtered when a grid or an origin is removed.  Computing it looks at owners and UIDs
(`backs`), not at the records, so two things have to be kept in between:

* an owner has its record, which another with the same flattened key could overwrite, but not if
  its names have no separator, and a UID is only known for such names (`Parsed`, `HasRecords`);
* a removal keeps owner and UID of every inventory it leaves.  It does for what was admitted under a
  verified key of its grid, but it clears what was admitted without one in every grid.

After a grid is relaxed its origin can state a provider again without a signature; removing any
other grid then takes the provider and leaves the inventory (`relaxed_inventory_unbacked`).  There is
no other way (`published_inventories_backed_iff`).
-/
import PraxisGrid.Swim.Ownership

namespace PraxisGrid

open Std OrdMap Bincode Scenario RetainedOrigins Option StateBroadcast StateBroadcastHandler

namespace ModelInventory

def ownScope (inventory : ModelInventory) : ProviderStateScope :=
  ⟨inventory.originSite, some inventory.gridId⟩

def identity (inventory : ModelInventory) : ProviderIdentity :=
  ⟨inventory.networkId, inventory.originSite, inventory.providerId⟩

end ModelInventory

namespace StateBroadcastHandler

variable {c : Crypto} {h : StateBroadcastHandler} {now : Clock} {b : StateBroadcast}
  {inventory : ModelInventory}

structure IsBacked (h : StateBroadcastHandler) (inventory : ModelInventory) : Prop where
  record : ∃ (k : String) (p : ProviderState), h.state.providers[k]? = some p ∧
    providerIdentity p = inventory.identity
  owner : ∃ owner, h.retained.providerOwners[inventory.identity]? = some owner ∧
    owner.scope = inventory.ownScope
  uid : ∃ uids, h.retained.providerUidsByScope[inventory.ownScope]? = some uids ∧
    uids[inventory.identity]? = some inventory.providerUid

theorem backs_eq_true_iff {r : RetainedOrigins} :
    backs r inventory = true ↔
      (∃ uids, r.providerUidsByScope[inventory.ownScope]? = some uids ∧
        uids[inventory.identity]? = some inventory.providerUid) ∧
      ∃ owner, r.providerOwners[inventory.identity]? = some owner ∧
        owner.scope = inventory.ownScope := by
  have hun : backs r inventory =
      ((r.providerUidsByScope[inventory.ownScope]?.bind fun uids => uids[inventory.identity]?) ==
          some inventory.providerUid &&
        r.providerOwners[inventory.identity]?.any fun owner => owner.scope == inventory.ownScope) :=
    rfl
  rw [hun, Bool.and_eq_true, beq_iff_eq, bind_eq_some_iff, any_eq_true]
  simp only [beq_iff_eq]

/-! ### UIDs are of plain identities -/

theorem plain_of_decode {data : Bytes} (hdec : decode data = .ok b)
    {u : ProviderUid} (hu : u ∈ b.providerUids) : u.identity.Plain := by
  unfold decode at hdec
  rcases hbs : Wire.base.decode ⟨data, none⟩ with e | ⟨v1, rest⟩
  · rw [hbs] at hdec
    cases hdec
  · rw [hbs] at hdec
    cases hdec
    obtain ⟨⟨key, metadata⟩, -, huid⟩ := List.mem_filterMap.mp hu
    obtain ⟨uid, -, hpr⟩ := bind_eq_some_iff.mp huid
    obtain ⟨identity, hid, rfl⟩ := map_eq_some_iff.mp hpr
    exact ProviderIdentity.plain_of_parse hid

theorem plain_of_incomingUids {data : Bytes} (hdec : decode data = .ok b)
    {id : ProviderIdentity} {uid : String} (huid : (incomingUids b)[id]? = some uid) :
    id.Plain := by
  have hmem : id ∈ incomingUids b := ExtTreeMap.mem_iff_isSome_getElem?.mpr (huid ▸ rfl)
  rw [incomingUids, ExtTreeMap.mem_ofList, List.contains_iff_mem, List.map_map, List.mem_map] at hmem
  obtain ⟨u, hu, rfl⟩ := hmem
  exact plain_of_decode hdec (List.mem_filter.mp hu).1

def Parsed (h : StateBroadcastHandler) : Prop :=
  ∀ (scope : ProviderStateScope) (uids : ExtTreeMap ProviderIdentity String),
    h.retained.providerUidsByScope[scope]? = some uids →
      ∀ (id : ProviderIdentity) (uid : String), uids[id]? = some uid → id.Plain

theorem Parsed.init (siteId : String) (maxOrigins : Nat) :
    (withCapacity siteId maxOrigins).Parsed := by
  intro scope uids hud
  simp [withCapacity] at hud

theorem Parsed.removeOrigin (hi : h.Parsed) (origin : String) : (h.removeOrigin origin).Parsed := by
  intro scope uids hud
  rw [retained_removeOrigin, providerUidsByScope_remove] at hud
  split_ifs at hud
  exact hi scope uids hud

theorem Parsed.removeGrid (hi : h.Parsed) (gridId : String) (origin : Option String) :
    (h.removeGrid gridId origin).Parsed := by
  intro scope uids hud
  rw [retained_removeGrid, providerUidsByScope_removeGrid] at hud
  split_ifs at hud
  exact hi scope uids hud

theorem Parsed.merged (hi : h.Parsed) {data : Bytes} (hdec : decode data = .ok b) :
    (h.merged now b).Parsed := by
  intro scope uids hud id uid huid
  rw [retained_merged, providerUidsByScope_mergedRetained] at hud
  split_ifs at hud
  · rw [← some.inj hud] at huid
    exact plain_of_incomingUids hdec huid
  · exact hi scope uids hud id uid huid

/-! ### Owners have records -/

def HasRecords (h : StateBroadcastHandler) : Prop :=
  ∀ (id : ProviderIdentity) (owner : ProviderOwner),
    h.retained.providerOwners[id]? = some owner → id.Plain →
      ∃ p, h.state.providers[p.key]? = some p ∧ providerIdentity p = id

theorem HasRecords.init (siteId : String) (maxOrigins : Nat) :
    (withCapacity siteId maxOrigins).HasRecords := by
  intro id owner how
  simp [withCapacity] at how

theorem HasRecords.removeOrigin (hi : h.HasRecords) (origin : String) :
    (h.removeOrigin origin).HasRecords := by
  intro id owner how hpl
  rw [retained_removeOrigin, providerOwners_remove] at how
  split_ifs at how with hst
  obtain ⟨p, hp, rfl⟩ := hi id owner how hpl
  exact ⟨p, providers_removeOrigin_eq_some.mpr ⟨hp, hst⟩, rfl⟩

theorem HasRecords.removeGrid (hi : h.HasRecords) (gridId : String) (origin : Option String) :
    (h.removeGrid gridId origin).HasRecords := by
  intro id owner how hpl
  rw [retained_removeGrid, providerOwners_removeGrid] at how
  split_ifs at how with hrm
  obtain ⟨p, hp, rfl⟩ := hi id owner how hpl
  exact ⟨p, providers_removeGrid_eq_some.mpr ⟨hp, Bool.not_eq_true _ ▸ hrm⟩, rfl⟩

theorem providers_merged_of_supplied (how : h.Owned) (hcar : b.carriesProviderState = true)
    {p : ProviderState} (hpl : (providerIdentity p).Plain)
    (hp : b.stamp p ∈ b.acceptedProviders (h.replacedNetworks b)) :
    ∃ q, (h.merged now b).state.providers[q.key]? = some q ∧
      providerIdentity q = providerIdentity p := by
  have hinc := providerIdentity_mem_incomingIdentities hp
  rw [providerIdentity_stamp] at hinc
  rw [state_merged, providers_mergedState, if_pos hcar]
  simp only [providers_replaceProviders]
  rcases hfn : (b.acceptedProviders (h.replacedNetworks b)).find? (fun q => q.key == p.key)
    with - | q
  · exact absurd (beq_self_eq_true p.key) (List.find?_eq_none.mp hfn (b.stamp p) hp)
  · have hfd := List.find?_some hfn
    have hkey : q.key = p.key := beq_iff_eq.mp hfd
    -- nothing stays under the key: it would be of the same identity, which is replaced
    have hfr : (h.retained.withdrawn h.state b (h.replacedNetworks b)).providers[p.key]? = none := by
      rcases hhl : (h.retained.withdrawn h.state b (h.replacedNetworks b)).providers[p.key]?
        with - | held
      · rfl
      · obtain ⟨hhl, hkp⟩ := providers_withdrawn_eq_some.mp hhl
        rw [hpl.eq_of_key_eq (how.key_eq hhl),
          replaces_eq_true_iff.mpr (.inl hinc)] at hkp
        cases hkp
    refine ⟨q, ?_, hpl.eq_of_key_eq hkey⟩
    rw [hkey, hfn]
    simp [hfr]

theorem providers_merged_of_kept (hcar : b.carriesProviderState = true) {p : ProviderState}
    (hpl : (providerIdentity p).Plain) (hp : h.state.providers[p.key]? = some p)
    (hkp : h.retained.replaces b (h.replacedNetworks b) (providerIdentity p) = false) :
    (h.merged now b).state.providers[p.key]? = some p := by
  rw [state_merged, providers_mergedState, if_pos hcar,
    providers_replaceProviders]
  have hhl : (h.retained.withdrawn h.state b (h.replacedNetworks b)).providers[p.key]? = some p :=
    providers_withdrawn_eq_some.mpr ⟨hp, hkp⟩
  rcases hfn : (b.acceptedProviders (h.replacedNetworks b)).find? (fun q => q.key == p.key)
    with - | q
  · rw [hfn]
    exact hhl
  · -- a supplied record under this key would be of the same identity
    have hfd := List.find?_some hfn
    have hkey : q.key = p.key := beq_iff_eq.mp hfd
    have hinc :=
      providerIdentity_mem_incomingIdentities (List.mem_of_find?_eq_some hfn)
    rw [hpl.eq_of_key_eq hkey] at hinc
    rw [replaces_eq_true_iff.mpr (.inl hinc)] at hkp
    cases hkp

/-- **A merge leaves every owner of a plain identity its record.** -/
theorem HasRecords.merged (hi : h.HasRecords) (hod : h.Owned) : (h.merged now b).HasRecords := by
  intro id owner how hpl
  rcases providerOwners_merged_cases how with ⟨hcar, hid, -⟩ | ⟨how, hkp⟩
  · obtain ⟨p, hp, hnet, rfl⟩ := mem_incomingIdentities.mp hid
    exact providers_merged_of_supplied hod hcar hpl
      (mem_acceptedProviders.mpr ⟨p, hp, hnet, rfl⟩)
  · obtain ⟨p, hp, rfl⟩ := hi id owner how hpl
    refine ⟨p, ?_, rfl⟩
    rcases hcar : b.carriesProviderState with - | -
    · rw [state_merged, providers_mergedState, hcar]
      exact hp
    · exact providers_merged_of_kept hcar hpl hp (hkp hcar)

/-! ### What a removal leaves in the list -/

/-- The inventory's provider was last stated, and is owned, under a verified key of its grid. -/
def Verified (h : StateBroadcastHandler) (inventory : ModelInventory) : Prop :=
  inventory.ownScope ∉ h.retained.unverifiedScopes ∧
    ∀ owner, h.retained.providerOwners[inventory.identity]? = some owner →
      owner.verifiedGrid = true

/-- All published inventories match owners and UIDs. -/
def Matched (h : StateBroadcastHandler) : Prop :=
  ∀ inventory ∈ h.modelInventories, backs h.retained inventory = true

/-- Removing a grid, of one origin or of all, leaves no inventory whose provider it clears. -/
def RemovesWhole (h : StateBroadcastHandler) (gridId : String) (origin : Option String) : Prop :=
  ∀ inventory ∈ h.modelInventories, inventory.gridId ≠ gridId →
    (∀ o, origin = some o → inventory.originSite = o) → h.Verified inventory

theorem Matched.removeOrigin (hi : h.Matched) (origin : String) :
    (h.removeOrigin origin).Matched := by
  intro inventory hmem
  obtain ⟨hmem, hst⟩ := List.mem_filter.mp hmem
  have hsc : inventory.ownScope.originSite ≠ origin := bne_iff_ne.mp hst
  have hid : inventory.identity.site ≠ origin := bne_iff_ne.mp hst
  obtain ⟨huid, how⟩ := backs_eq_true_iff.mp (hi inventory hmem)
  rw [backs_eq_true_iff, retained_removeOrigin, providerUidsByScope_remove,
    providerOwners_remove, if_neg hsc, if_neg hid]
  exact ⟨huid, how⟩

section RemoveGrid

variable {gridId : String} {origin : Option String}

/-- **What a removal clears of an inventory of another grid**: nothing, if and only if it is
verified. -/
theorem backs_removeGrid_iff (hbc : backs h.retained inventory = true)
    (hgr : inventory.gridId ≠ gridId)
    (hst : ∀ o, origin = some o → inventory.originSite = o) :
    backs (h.retained.removeGrid gridId origin) inventory = true ↔ h.Verified inventory := by
  obtain ⟨huid, owner, how, hsc⟩ := backs_eq_true_iff.mp hbc
  have hcl : h.retained.clearsScope gridId origin inventory.ownScope = true ↔
      inventory.ownScope ∈ h.retained.unverifiedScopes := by
    rw [clearsScope_eq_true_iff]
    refine ⟨fun hcd => ?_, fun hun => ⟨hst, .inr hun⟩⟩
    exact hcd.2.resolve_left fun heq => hgr (some.inj heq)
  have hrm : h.retained.removesIdentity gridId origin inventory.identity = true ↔
      owner.verifiedGrid = false := by
    rw [removesIdentity, how, any_some,
      removesOwner_eq_true_iff, hsc]
    refine ⟨fun hrd => ?_, fun hun => ⟨hst, .inr hun⟩⟩
    exact hrd.2.resolve_left fun heq => hgr (some.inj heq)
  rw [backs_eq_true_iff, providerUidsByScope_removeGrid,
    providerOwners_removeGrid]
  constructor
  · rintro ⟨⟨uids, hud, -⟩, owner', how', -⟩
    refine ⟨fun hun => ?_, fun owner'' how'' => ?_⟩
    · rw [hcl.mpr hun] at hud
      cases hud
    · cases how.symm.trans how''
      rcases hvr : owner.verifiedGrid with - | -
      · rw [hrm.mpr hvr] at how'
        cases how'
      · rfl
  · intro hvr
    have hkp : h.retained.clearsScope gridId origin inventory.ownScope = false := by
      rw [← Bool.not_eq_true, hcl]
      exact hvr.1
    have hss : h.retained.removesIdentity gridId origin inventory.identity = false := by
      rw [← Bool.not_eq_true, hrm, hvr.2 owner how]
      exact Bool.noConfusion
    rw [hkp, hss]
    exact ⟨huid, owner, how, hsc⟩

theorem backs_removeGrid_of_other {o : String} (hbc : backs h.retained inventory = true)
    (hne : inventory.originSite ≠ o) :
    backs (h.retained.removeGrid gridId (some o)) inventory = true := by
  obtain ⟨huid, owner, how, hsc⟩ := backs_eq_true_iff.mp hbc
  have hcs : h.retained.clearsScope gridId (some o) inventory.ownScope = false := by
    rw [← Bool.not_eq_true, clearsScope_eq_true_iff]
    exact fun hcl => hne (hcl.1 o rfl)
  have hrm : h.retained.removesIdentity gridId (some o) inventory.identity = false := by
    rw [removesIdentity, how, any_some, ← Bool.not_eq_true,
      removesOwner_eq_true_iff, hsc]
    exact fun hrd => hne (hrd.1 o rfl)
  rw [backs_eq_true_iff, providerUidsByScope_removeGrid,
    providerOwners_removeGrid, hcs, hrm]
  exact ⟨huid, owner, how, hsc⟩

theorem mem_modelInventories_removeGrid :
    inventory ∈ (h.removeGrid gridId origin).modelInventories ↔
      inventory ∈ h.modelInventories ∧
        (inventory.gridId ≠ gridId ∨ ∃ o, origin = some o ∧ inventory.originSite ≠ o) := by
  unfold removeGrid
  rw [List.mem_filter, Bool.or_eq_true, bne_iff_ne, any_eq_true]
  simp only [bne_iff_ne]

/-- **A removal keeps the list matched if and only if it removes whole.** -/
theorem Matched.removeGrid_iff (hi : h.Matched) :
    (h.removeGrid gridId origin).Matched ↔ h.RemovesWhole gridId origin := by
  constructor
  · intro hmt inventory hmem hgr hst
    exact (backs_removeGrid_iff (hi inventory hmem) hgr hst).mp
      (hmt inventory (mem_modelInventories_removeGrid.mpr ⟨hmem, .inl hgr⟩))
  · intro hwh inventory hlf
    obtain ⟨hmem, hlf⟩ := mem_modelInventories_removeGrid.mp hlf
    by_cases hst : ∀ o, origin = some o → inventory.originSite = o
    · have hgr : inventory.gridId ≠ gridId := by
        rcases hlf with hgr | ⟨o, horig, hne⟩
        · exact hgr
        · exact absurd (hst o horig) hne
      exact (backs_removeGrid_iff (hi inventory hmem) hgr hst).mpr
        (hwh inventory hmem hgr hst)
    · push Not at hst
      obtain ⟨o, rfl, hne⟩ := hst
      exact backs_removeGrid_of_other (hi inventory hmem) hne

end RemoveGrid

/-! ### Runs -/

def removal (h : StateBroadcastHandler) : NodeOp → Option (String × Option String)
  | .pinOriginForGrid gridId origin keys =>
    if maxPinnedKeysPerOrigin < keys.length then none
    else
      let previous := h.trust.pin (.grid gridId origin)
      let purge := previous.all List.isEmpty ||
        previous.any fun previous => previous.any fun old => !keys.contains old
      if purge || keys.isEmpty then some (gridId, some origin) else none
  | .enforceSignedGrid gridId networkName =>
    if h.trust.isStrict gridId && h.trust.providerNetwork gridId == some networkName then none
    else some (gridId, none)
  | .unpinOriginForGrid gridId origin | .clearOriginPinForGrid gridId origin =>
    some (gridId, some origin)
  | _ => none

/-- The operation removes no grid, or leaves no inventory whose provider it clears. -/
def KeepsBacking (h : StateBroadcastHandler) (op : NodeOp) : Prop :=
  ∀ gridId origin, h.removal op = some (gridId, origin) → h.RemovesWhole gridId origin

theorem step_of_removal {op : NodeOp} {gridId : String} {origin : Option String}
    (hrm : h.removal op = some (gridId, origin)) :
    ∃ store, h.step c op = { h.removeGrid gridId origin with trust := store } := by
  cases op with
  | pinOriginForGrid gridId' origin' keys =>
    simp only [removal] at hrm
    split_ifs at hrm with hky hpr
    cases hrm
    simp only [step, pinOriginForGrid, if_neg hky, if_pos hpr]
    exact ⟨_, rfl⟩
  | enforceSignedGrid gridId' networkName =>
    simp only [removal] at hrm
    split_ifs at hrm with hsm
    cases hrm
    simp only [step, enforceSignedGrid, if_neg hsm]
    exact ⟨_, rfl⟩
  | unpinOriginForGrid gridId' origin' | clearOriginPinForGrid gridId' origin' =>
    cases hrm
    exact ⟨_, rfl⟩
  | _ => cases hrm

theorem matched_publishVerifiedInventories : (h.publishVerifiedInventories now).Matched :=
  fun _ hmem => (List.mem_filter.mp hmem).2

theorem Matched.receiveItem (hi : h.Matched) (now : Clock) (data : Bytes) :
    (h.receiveItem c now data).2.Matched := by
  refine receiveItem_preserves (fun origin hi => hi.removeOrigin origin) (fun _ hi => hi) ?_
    (fun _ hi => hi) (fun _ => matched_publishVerifiedInventories) hi
  intro b h₁ _ _ _ _ _ _
  rw [merged_eq]
  exact matched_publishVerifiedInventories

/-- An operation that removes no grid keeps the list matched. -/
theorem Matched.step_of_no_removal (hi : h.Matched) {op : NodeOp} (hrm : h.removal op = none) :
    (h.step c op).Matched := by
  cases op with
  | pinOrigin origin keys =>
    simp only [step, pinOrigin]
    split_ifs
    · exact hi
    · exact hi.removeOrigin origin
    · exact hi
  | pinOriginForGrid gridId origin keys =>
    simp only [removal] at hrm
    simp only [step, pinOriginForGrid]
    split_ifs at hrm ⊢
    · exact hi
    · exact hi
  | enforceSignedGrid gridId networkName =>
    simp only [removal] at hrm
    simp only [step, enforceSignedGrid]
    split_ifs at hrm ⊢
    exact hi
  | unpinOriginForGrid gridId origin => cases hrm
  | clearOriginPinForGrid gridId origin => cases hrm
  | evictOrigin origin => exact hi.removeOrigin origin
  | receiveItem now data => exact hi.receiveItem now data
  | _ => exact hi

/-- **One operation keeps the list matched if and only if it keeps the backing.** -/
theorem Matched.step_iff (hi : h.Matched) (op : NodeOp) :
    (h.step c op).Matched ↔ h.KeepsBacking op := by
  rcases hrm : h.removal op with - | ⟨gridId, origin⟩
  · refine iff_of_true (hi.step_of_no_removal hrm) fun gridId origin h => ?_
    rw [hrm] at h
    cases h
  · obtain ⟨store, hst⟩ := step_of_removal hrm
    rw [hst]
    refine hi.removeGrid_iff.trans ⟨fun hwh gridId' origin' h => ?_, fun hkp => ?_⟩
    · obtain ⟨rfl, rfl⟩ := Prod.mk.inj (some.inj (hrm.symm.trans h))
      exact hwh
    · exact hkp gridId origin hrm

/-- What is known of the records of plain identities. -/
structure Sound (h : StateBroadcastHandler) : Prop where
  owned : h.Owned
  parsed : h.Parsed
  records : h.HasRecords

theorem Sound.init (siteId : String) (maxOrigins : Nat) : (withCapacity siteId maxOrigins).Sound :=
  ⟨.init siteId maxOrigins, .init siteId maxOrigins, .init siteId maxOrigins⟩

theorem Sound.congr {h' : StateBroadcastHandler} (hi : h.Sound) (hst : h'.state = h.state)
    (how : h'.retained.providerOwners = h.retained.providerOwners)
    (hud : h'.retained.providerUidsByScope = h.retained.providerUidsByScope) : h'.Sound := by
  refine ⟨⟨fun hp => ?_, fun hp => ?_, fun ho => ?_⟩, fun scope uids h => ?_, fun id owner ho => ?_⟩
  · exact hi.owned.key_eq (hst ▸ hp)
  · rw [how]
    exact hi.owned.owner (hst ▸ hp)
  · exact hi.owned.site_eq (how ▸ ho)
  · exact hi.parsed scope uids (hud ▸ h)
  · rw [hst]
    exact hi.records id owner (how ▸ ho)

theorem Sound.removeOrigin (hi : h.Sound) (origin : String) : (h.removeOrigin origin).Sound :=
  ⟨hi.owned.removeOrigin origin, hi.parsed.removeOrigin origin, hi.records.removeOrigin origin⟩

theorem Sound.step (hi : h.Sound) (op : NodeOp) : (h.step c op).Sound := by
  refine step_preserves (fun _ hi => hi.congr rfl rfl rfl) (fun origin hi => hi.removeOrigin origin)
    (fun gridId origin hi => ⟨hi.owned.removeGrid gridId origin, hi.parsed.removeGrid gridId origin,
      hi.records.removeGrid gridId origin⟩)
    (fun _ hi => hi.congr rfl rfl rfl) op ?_ hi
  intro now data _ hi
  refine receiveItem_preserves (fun origin hi => hi.removeOrigin origin)
    (fun b hi => hi.congr rfl rfl rfl) ?_ (fun f hi => hi.congr rfl rfl rfl)
    (fun hi => hi.congr rfl rfl rfl) hi
  intro b h₁ _ hdec _ _ _ hi
  exact ⟨hi.owned.merged now b, hi.parsed.merged hdec, hi.records.merged hi.owned⟩

theorem Sound.backed_iff (hi : h.Sound) :
    h.IsBacked inventory ↔ backs h.retained inventory = true := by
  rw [backs_eq_true_iff]
  refine ⟨fun hbc => ⟨hbc.uid, hbc.owner⟩, fun ⟨huid, how⟩ => ⟨?_, how, huid⟩⟩
  obtain ⟨uids, hud, huid⟩ := huid
  obtain ⟨owner, how, -⟩ := how
  obtain ⟨p, hp, hid⟩ :=
    hi.records _ owner how (hi.parsed _ uids hud _ _ huid)
  exact ⟨p.key, p, hp, hid⟩

/-- **Published inventories are backed, exactly.**  In every state of a run each published
inventory has a provider record, owned by its own scope, with its UID, if and only if no
operation of the run removes a grid and leaves an unverified inventory of another grid of a
selected origin. -/
theorem published_inventories_backed_iff (c : Crypto) (siteId : String) (maxOrigins : Nat)
    (ops : List NodeOp) :
    (∀ ops₁ ops₂, ops = ops₁ ++ ops₂ →
      ∀ inventory ∈ ((withCapacity siteId maxOrigins).run c ops₁).modelInventories,
        ((withCapacity siteId maxOrigins).run c ops₁).IsBacked inventory) ↔
      Run.Along (step c) KeepsBacking (withCapacity siteId maxOrigins) ops := by
  have hsn : ∀ ops, ((withCapacity siteId maxOrigins).run c ops).Sound := fun ops =>
    Run.run_invariant (fun _ op hi => hi.step op) (.init siteId maxOrigins)
  have hmt : (withCapacity siteId maxOrigins).Matched := by
    nofun
  rw [← Run.forall_run_iff_along (fun h op (hi : h.Matched) => hi.step_iff op) hmt]
  refine forall_congr' fun ops₁ => forall_congr' fun ops₂ => imp_congr_right fun _ => ?_
  exact forall₂_congr fun inventory _ => (hsn ops₁).backed_iff

/-! ### Scenarios -/

def siteInventory : ModelInventory := ⟨"site", "grid", "net", "provider", "uid", 1, 1000, []⟩

def siteInventoryFrame : ModelInventoryBroadcast where
  originSite := "site"
  gridId := "grid"
  frame := { siteInventory.frameAt crypto 0 [] with
    signedAtMs := some 0, signature := some [] }

def siteProvider (revision : UInt64) : StateBroadcast :=
  { broadcast "site" revision [record "net" "site" "provider"] with
    gridId := some "grid"
    providerUids := [⟨⟨"net", "site", "provider"⟩, "uid"⟩] }

/-- A pinned site of a strict grid publishes a provider and its inventory.  The grid is relaxed,
the site states its provider again without a signature, and another grid is enforced. -/
def relaxedInventoryRun : List NodeOp :=
  [.enforceSignedGrid "grid" "net", .pinOriginForGrid "grid" "site" [[1]],
    deliver (signed (siteProvider 1)),
    .receiveItem 0 (siteInventoryFrame.encode.toOption.getD []), .relaxSignedGrid "grid",
    deliver (siteProvider 2), .enforceSignedGrid "other" "net"]

/-- The inventory is still published, and its provider is gone. -/
theorem relaxed_inventory_unbacked :
    let h := (withCapacity "self" 4).run crypto relaxedInventoryRun
    h.modelInventories = [siteInventory] ∧ h.state.providers = ∅ ∧
      h.retained.providerOwners = ∅ ∧ h.retained.providerUidsByScope = ∅ ∧
      ¬ h.IsBacked siteInventory := by
  intro h
  have hpb : h.modelInventories = [siteInventory] := by decide +kernel
  have hpr : h.state.providers = ∅ := ExtTreeMap.isEmpty_iff.mp (by decide +kernel)
  refine ⟨hpb, hpr, ExtTreeMap.isEmpty_iff.mp (by decide +kernel),
    ExtTreeMap.isEmpty_iff.mp (by decide +kernel), fun hbc => ?_⟩
  obtain ⟨k, p, hp, -⟩ := hbc.record
  rw [hpr, ExtTreeMap.getElem?_empty] at hp
  cases hp

end StateBroadcastHandler

end PraxisGrid
