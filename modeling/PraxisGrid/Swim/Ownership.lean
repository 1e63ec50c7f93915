/-
PraxisGrid/Swim/Ownership.lean

Two invariants of every reachable handler.

* `Owned`: every record of the merged snapshot sits under its flattened key and its
  identity has an owner, and an owner's scope is of the site of the identity.
* `Authorized`: a grid is strict exactly when it is bound to a network; what a bound grid
  owns is in its network; and while any grid is strict, every owner was admitted under a
  verified grid key.

Removals only drop owners, so the second is monotone in the owners (`Authorized.mono`).
-/
import PraxisGrid.Swim.Admission

namespace PraxisGrid

open Std OrdMap Bincode RetainedOrigins TrustStore

namespace StateBroadcastHandler

variable {c : Crypto} {h h₁ : StateBroadcastHandler} {now : Clock} {b : StateBroadcast}
  {id : ProviderIdentity} {owner : ProviderOwner}

/-! ### Records and owners after a merge -/

/-- **A record after a merge** is one the broadcast supplied, or one that was there and was
not replaced. -/
theorem providers_merged_cases {k : String} {p : ProviderState}
    (hp : (h.merged now b).state.providers[k]? = some p) :
    (b.carriesProviderState = true ∧ p ∈ b.acceptedProviders (h.replacedNetworks b) ∧
        p.key = k) ∨
      (h.state.providers[k]? = some p ∧
        (b.carriesProviderState = true →
          h.retained.replaces b (h.replacedNetworks b) (providerIdentity p) = false)) := by
  rw [state_merged, providers_mergedState] at hp
  rcases hcar : b.carriesProviderState with - | -
  · rw [hcar] at hp
    exact .inr ⟨hp, nofun⟩
  · rw [hcar, if_pos rfl, providers_replaceProviders] at hp
    -- what is left of the old records under this key
    have hkp : ∀ {q}, (h.retained.withdrawn h.state b (h.replacedNetworks b)).providers[k]? =
        some q → h.state.providers[k]? = some q ∧
          h.retained.replaces b (h.replacedNetworks b) (providerIdentity q) = false :=
      fun hq => providers_withdrawn_eq_some.mp hq
    rcases hfn : (b.acceptedProviders (h.replacedNetworks b)).find? (fun q => q.key == k)
      with - | q
    · rw [hfn] at hp
      obtain ⟨hhl, hnot⟩ := hkp hp
      exact .inr ⟨hhl, fun _ => hnot⟩
    · simp only [hfn] at hp
      split_ifs at hp
      · cases hp
        have hkey := List.find?_some hfn
        exact .inl ⟨rfl, List.mem_of_find?_eq_some hfn, beq_iff_eq.mp hkey⟩
      · obtain ⟨hhl, hnot⟩ := hkp hp
        exact .inr ⟨hhl, fun _ => hnot⟩

/-- **An owner after a merge** is the broadcast's scope for a supplied identity, or the one
that was there if it was not replaced. -/
theorem providerOwners_merged_cases
    (how : (h.merged now b).retained.providerOwners[id]? = some owner) :
    (b.carriesProviderState = true ∧ id ∈ b.incomingIdentities (h.replacedNetworks b) ∧
        owner = ⟨b.providerStateScope, h.mergesVerified b⟩) ∨
      (h.retained.providerOwners[id]? = some owner ∧
        (b.carriesProviderState = true →
          h.retained.replaces b (h.replacedNetworks b) id = false)) := by
  rw [retained_merged, mergedRetained] at how
  rcases hcar : b.carriesProviderState with - | -
  · simp only [hcar, Bool.false_eq_true, if_false] at how
    exact .inr ⟨how, nofun⟩
  · simp only [hcar, if_true, getElem?_reassigned] at how
    split_ifs at how with hin hrep
    · exact .inl ⟨rfl, hin, (Option.some.inj how).symm⟩
    · exact .inr ⟨how, fun _ => by simpa using hrep⟩

theorem providerOwners_merged_of_incoming (hcar : b.carriesProviderState = true)
    (hid : id ∈ b.incomingIdentities (h.replacedNetworks b)) :
    (h.merged now b).retained.providerOwners[id]? =
      some ⟨b.providerStateScope, h.mergesVerified b⟩ := by
  rw [retained_merged, mergedRetained, if_pos hcar, getElem?_reassigned,
    if_pos hid]

theorem providerOwners_merged_of_not_replaces (hrep : b.carriesProviderState = true →
      h.retained.replaces b (h.replacedNetworks b) id = false) :
    (h.merged now b).retained.providerOwners[id]? = h.retained.providerOwners[id]? := by
  rw [retained_merged, mergedRetained]
  rcases hcar : b.carriesProviderState with - | -
  · rfl
  · have hrep := hrep hcar
    have hin : id ∉ b.incomingIdentities (h.replacedNetworks b) := fun hin => by
      rw [replaces_eq_true_iff.mpr (.inl hin)] at hrep
      cases hrep
    rw [if_pos rfl, getElem?_reassigned, if_neg hin, hrep]
    rfl

/-! ### Records have owners -/

/-- Records sit under their key and have an owner, whose scope is of their site. -/
structure Owned (h : StateBroadcastHandler) : Prop where
  key_eq : ∀ {k : String} {p : ProviderState}, h.state.providers[k]? = some p → p.key = k
  owner : ∀ {k : String} {p : ProviderState}, h.state.providers[k]? = some p →
    ∃ owner, h.retained.providerOwners[providerIdentity p]? = some owner
  site_eq : ∀ {id : ProviderIdentity} {owner : ProviderOwner},
    h.retained.providerOwners[id]? = some owner → owner.scope.originSite = id.site

theorem Owned.init (siteId : String) (maxOrigins : Nat) : (withCapacity siteId maxOrigins).Owned where
  key_eq hp := by simp [withCapacity, GridStateSnapshot.new] at hp
  owner hp := by simp [withCapacity, GridStateSnapshot.new] at hp
  site_eq ho := by simp [withCapacity] at ho

theorem Owned.removeOrigin (hi : h.Owned) (origin : String) : (h.removeOrigin origin).Owned where
  key_eq hp := hi.key_eq (providers_removeOrigin_eq_some.mp hp).1
  owner hp := by
    obtain ⟨hp, hst⟩ := providers_removeOrigin_eq_some.mp hp
    obtain ⟨owner, how⟩ := hi.owner hp
    have hst : (providerIdentity _).site ≠ origin := hst
    exact ⟨owner, by rw [retained_removeOrigin, providerOwners_remove,
      if_neg hst, how]⟩
  site_eq ho := by
    rw [retained_removeOrigin, providerOwners_remove] at ho
    split_ifs at ho
    exact hi.site_eq ho

theorem Owned.removeGrid (hi : h.Owned) (gridId : String) (origin : Option String) :
    (h.removeGrid gridId origin).Owned where
  key_eq hp := hi.key_eq (providers_removeGrid_eq_some.mp hp).1
  owner hp := by
    obtain ⟨hp, hkp⟩ := providers_removeGrid_eq_some.mp hp
    obtain ⟨owner, how⟩ := hi.owner hp
    exact ⟨owner, by rw [retained_removeGrid, providerOwners_removeGrid, hkp,
      if_neg Bool.false_ne_true, how]⟩
  site_eq ho := by
    rw [retained_removeGrid, providerOwners_removeGrid] at ho
    split_ifs at ho
    exact hi.site_eq ho

theorem Owned.merged (hi : h.Owned) (now : Clock) (b : StateBroadcast) : (h.merged now b).Owned where
  key_eq hp := by
    rcases providers_merged_cases hp with ⟨-, -, hkey⟩ | ⟨hp, -⟩
    · exact hkey
    · exact hi.key_eq hp
  owner hp := by
    rcases providers_merged_cases hp with ⟨hcar, hacc, -⟩ | ⟨hp, hrep⟩
    · exact ⟨_, providerOwners_merged_of_incoming hcar
        (StateBroadcast.providerIdentity_mem_incomingIdentities hacc)⟩
    · obtain ⟨owner, how⟩ := hi.owner hp
      exact ⟨owner, by rw [providerOwners_merged_of_not_replaces hrep, how]⟩
  site_eq ho := by
    rcases providerOwners_merged_cases ho with ⟨-, hid, rfl⟩ | ⟨ho, -⟩
    · exact (StateBroadcast.site_of_mem_incomingIdentities hid).1.symm
    · exact hi.site_eq ho

theorem Owned.receiveItem (hi : h.Owned) (now : Clock) (data : Bytes) :
    (h.receiveItem c now data).2.Owned :=
  receiveItem_preserves (fun origin hi => hi.removeOrigin origin)
    (fun _ hi => ⟨hi.key_eq, hi.owner, hi.site_eq⟩)
    (fun _ _ _ _ _ hi => hi.merged _ _)
    (fun _ hi => ⟨hi.key_eq, hi.owner, hi.site_eq⟩)
    (fun hi => ⟨hi.key_eq, hi.owner, hi.site_eq⟩) hi

theorem Owned.step (hi : h.Owned) (op : NodeOp) : (h.step c op).Owned :=
  step_preserves (fun _ hi => ⟨hi.key_eq, hi.owner, hi.site_eq⟩)
    (fun origin hi => hi.removeOrigin origin)
    (fun gridId origin hi => hi.removeGrid gridId origin)
    (fun _ hi => ⟨hi.key_eq, hi.owner, hi.site_eq⟩)
    op (fun now data _ hi => hi.receiveItem now data) hi

/-- **Every reachable handler is `Owned`.** -/
theorem Reachable.owned (hr : Reachable c h) : h.Owned :=
  hr.invariant Owned.init fun _ op hi => hi.step op

/-! ### Owners are authorized -/

/-- Strictness, network bindings and verified owners go together. -/
structure Authorized (h : StateBroadcastHandler) : Prop where
  strict_iff : ∀ grid, h.trust.isStrict grid = true ↔ ∃ n, h.trust.providerNetwork grid = some n
  network_eq : ∀ {id : ProviderIdentity} {owner : ProviderOwner} {grid n : String},
    h.retained.providerOwners[id]? = some owner → owner.scope.gridId = some grid →
      h.trust.providerNetwork grid = some n → id.network = n
  verified : h.trust.anyStrict = true → ∀ {id : ProviderIdentity} {owner : ProviderOwner},
    h.retained.providerOwners[id]? = some owner → owner.verifiedGrid = true

theorem Authorized.init (siteId : String) (maxOrigins : Nat) :
    (withCapacity siteId maxOrigins).Authorized where
  strict_iff grid := by
    simp [withCapacity, isStrict, providerNetwork]
  network_eq ho := by simp [withCapacity] at ho
  verified _ _ _ ho := by simp [withCapacity] at ho

theorem Authorized.mono {h' : StateBroadcastHandler} (hi : h.Authorized)
    (hstr : h'.trust.strict = h.trust.strict)
    (hnt : h'.trust.providerNetworks = h.trust.providerNetworks)
    (how : ∀ {id : ProviderIdentity} {owner : ProviderOwner},
      h'.retained.providerOwners[id]? = some owner → h.retained.providerOwners[id]? = some owner) :
    h'.Authorized where
  strict_iff grid := by
    simpa only [isStrict, providerNetwork, hstr, hnt] using
      hi.strict_iff grid
  network_eq ho hg hn := by
    rw [providerNetwork, hnt] at hn
    exact hi.network_eq (how ho) hg hn
  verified hs _ _ ho := by
    rw [anyStrict, hstr] at hs
    exact hi.verified hs (how ho)

theorem owner_of_removeOrigin {origin : String}
    (ho : (h.removeOrigin origin).retained.providerOwners[id]? = some owner) :
    h.retained.providerOwners[id]? = some owner := by
  rw [retained_removeOrigin, providerOwners_remove] at ho
  split_ifs at ho
  exact ho

theorem owner_of_removeGrid {gridId : String} {origin : Option String}
    (ho : (h.removeGrid gridId origin).retained.providerOwners[id]? = some owner) :
    h.retained.providerOwners[id]? = some owner ∧
      removesOwner gridId origin owner = false := by
  rw [retained_removeGrid, providerOwners_removeGrid] at ho
  split_ifs at ho with hrem
  refine ⟨ho, ?_⟩
  simpa [removesIdentity, ho] using hrem

theorem Authorized.relax (hi : h.Authorized) (grid : String) :
    (h.relaxSignedGrid grid).Authorized where
  strict_iff g := by
    simp only [relaxSignedGrid, isStrict_forgetGrid,
      providerNetwork_forgetGrid, Bool.and_eq_true, decide_eq_true_eq]
    by_cases hg : grid = g
    · simp [hg]
    · simpa [hg] using hi.strict_iff g
  network_eq ho hg hn := by
    rw [relaxSignedGrid, providerNetwork_forgetGrid] at hn
    split_ifs at hn
    exact hi.network_eq ho hg hn
  verified hs _ _ ho := by
    obtain ⟨g, hg⟩ := anyStrict_iff.mp hs
    rw [relaxSignedGrid, isStrict_forgetGrid, Bool.and_eq_true] at hg
    exact hi.verified (anyStrict_iff.mpr ⟨g, hg.2⟩) ho

/-- Enforcing a grid drops what it owned and every unverified owner. -/
theorem Authorized.enforce (hi : h.Authorized) (grid network : String) :
    (h.enforceSignedGrid grid network).Authorized := by
  unfold enforceSignedGrid
  split_ifs
  · exact hi
  -- what is left is verified and of another grid
  have hlf : ∀ {id : ProviderIdentity} {owner : ProviderOwner},
      (h.removeGrid grid none).retained.providerOwners[id]? = some owner →
      h.retained.providerOwners[id]? = some owner ∧ owner.scope.gridId ≠ some grid ∧
        owner.verifiedGrid = true := by
    intro id owner ho
    obtain ⟨ho, hkp⟩ := owner_of_removeGrid ho
    have hnot : ¬ (owner.scope.gridId = some grid ∨ owner.verifiedGrid = false) := fun hor => by
      rw [(removesOwner_eq_true_iff grid none).mpr ⟨nofun, hor⟩]
        at hkp
      cases hkp
    rw [not_or, Bool.not_eq_false] at hnot
    exact ⟨ho, hnot.1, hnot.2⟩
  refine ⟨fun g => ?_, fun {id owner g n} ho hg hn => ?_, fun _ {id owner} ho => (hlf ho).2.2⟩
  · have hiff := hi.strict_iff g
    change (((h.trust.forgetGrid grid).enforce grid).isStrict g = true) ↔
      ∃ n, (((h.trust.forgetGrid grid).enforce grid).bindProviderNetwork grid
        network).providerNetwork g = some n
    rw [TrustStore.isStrict_enforce, TrustStore.isStrict_forgetGrid,
      TrustStore.providerNetwork_bindProviderNetwork]
    by_cases hg : grid = g
    · simp [hg]
    · simpa [hg, TrustStore.providerNetwork, TrustStore.enforce, TrustStore.forgetGrid] using hiff
  · obtain ⟨ho, hne, -⟩ := hlf ho
    have hgg : grid ≠ g := fun heq => hne (heq ▸ hg)
    refine hi.network_eq ho hg ?_
    simpa [hgg, TrustStore.providerNetwork, TrustStore.enforce, TrustStore.forgetGrid,
      TrustStore.bindProviderNetwork] using hn

theorem Authorized.makeRoomFor {incoming : String} (hi : h.Authorized)
    (hrm : h.makeRoomFor incoming = some h₁) : h₁.Authorized :=
  makeRoomFor_preserves (fun _ hi => hi.mono rfl rfl owner_of_removeOrigin) hrm hi

/-- A merged broadcast brings owners that are verified and in the network of their grid,
or no grid is strict. -/
theorem Authorized.merged (hi : h.Authorized) (hadm : h.Admits c now b h₁)
    (hmt : b.isMetadataOnly = false) :
    ((h₁.offerMetadata now b).merged now b).Authorized := by
  have hi₁ := hi.makeRoomFor hadm.room
  have htr := trust_of_makeRoomFor hadm.room
  have hpr := hadm.provenance hmt
  rw [← htr] at hpr
  refine ⟨fun g => by simpa using hi₁.strict_iff g, fun {id owner g n} ho hg hn => ?_,
    fun hs {id owner} ho => ?_⟩
  · rw [trust_merged, trust_offerMetadata] at hn
    rcases providerOwners_merged_cases ho with ⟨hcar, hid, rfl⟩ | ⟨ho, -⟩
    · rcases hpr with ⟨grid, keys, key, hgr, -, -, -, hnt⟩ | ⟨-, hstr⟩
      · obtain ⟨allowed, hbn, hall⟩ := hnt hcar
        obtain rfl : grid = g := Option.some.inj (hgr.symm.trans hg)
        obtain rfl : allowed = n := Option.some.inj (hbn.symm.trans hn)
        obtain ⟨p, hp, -, rfl⟩ := StateBroadcast.mem_incomingIdentities.mp hid
        exact hall p hp
      · -- a bound grid is strict
        have : h₁.trust.anyStrict = true :=
          anyStrict_iff.mpr ⟨g, (hi₁.strict_iff g).mpr ⟨n, hn⟩⟩
        rw [hstr] at this
        cases this
    · exact hi₁.network_eq ho hg hn
  · rw [trust_merged, trust_offerMetadata] at hs
    rcases providerOwners_merged_cases ho with ⟨-, -, rfl⟩ | ⟨ho, -⟩
    · rcases hpr with ⟨grid, keys, key, hgr, hpin, hkey, -, -⟩ | ⟨-, hstr⟩
      · exact verifiedGrid_eq_true_iff.mpr
          ⟨grid, keys, hgr, hpin, List.ne_nil_of_mem hkey⟩
      · rw [hstr] at hs
        cases hs
    · exact hi₁.verified hs ho

theorem mem_networksToReplace {previous : ExtTreeSet String} {network : String} :
    network ∈ h.networksToReplace b previous ↔
      (network ∈ previous ∨ ∃ p ∈ b.ownProviders, p.networkId = network) ∧
        ∀ allowed, b.gridId.bind h.trust.providerNetwork = some allowed → network = allowed := by
  unfold networksToReplace
  cases b.gridId.bind h.trust.providerNetwork with
  | none => simp
  | some allowed =>
    simp only [mem_ofList, List.mem_filter, List.mem_append, ExtTreeSet.mem_toList,
      List.mem_map, beq_iff_eq, Option.some.injEq, forall_eq']

theorem Authorized.mem_replacedNetworks (hi : h.Authorized) (hadm : h.Admits c now b h₁)
    (hmt : b.isMetadataOnly = false) (hcar : b.carriesProviderState = true)
    {p : ProviderState} (hp : p ∈ b.ownProviders) :
    p.networkId ∈ (h₁.offerMetadata now b).replacedNetworks b := by
  have hi₁ := hi.makeRoomFor hadm.room
  have hpr := hadm.provenance hmt
  rw [← trust_of_makeRoomFor hadm.room] at hpr
  refine mem_networksToReplace.mpr ⟨.inr ⟨p, hp, rfl⟩, fun allowed hbn => ?_⟩
  obtain ⟨g, hg, hbn⟩ := Option.bind_eq_some_iff.mp hbn
  rcases hpr with ⟨grid, keys, key, hgr, -, -, -, hnt⟩ | ⟨-, hstr⟩
  · obtain ⟨allowed', hbn', hall⟩ := hnt hcar
    obtain rfl : grid = g := Option.some.inj (hgr.symm.trans hg)
    obtain rfl : allowed' = allowed := Option.some.inj (hbn'.symm.trans hbn)
    exact hall p hp
  · have : h₁.trust.anyStrict = true :=
      anyStrict_iff.mpr ⟨g, (hi₁.strict_iff g).mpr ⟨allowed, hbn⟩⟩
    rw [hstr] at this
    cases this

theorem Authorized.receiveItem (hi : h.Authorized) (now : Clock) (data : Bytes) :
    (h.receiveItem c now data).2.Authorized :=
  receiveItem_preserves (fun _ hi => hi.mono rfl rfl owner_of_removeOrigin)
    (fun _ hi => hi.mono rfl rfl id)
    (fun _ _ hadm hmt _ _ => hi.merged hadm hmt)
    (fun _ hi => hi.mono rfl rfl id) (fun hi => hi.mono rfl rfl id) hi

theorem Authorized.step (hi : h.Authorized) (op : NodeOp) : (h.step c op).Authorized := by
  cases op with
  | pinOrigin origin keys =>
    simp only [StateBroadcastHandler.step, pinOrigin]
    split_ifs
    · exact hi
    · exact hi.mono rfl rfl owner_of_removeOrigin
    · exact hi.mono rfl rfl id
  | pinOriginForGrid gridId origin keys =>
    simp only [StateBroadcastHandler.step, pinOriginForGrid]
    split_ifs
    · exact hi
    · exact hi.mono rfl rfl fun ho => (owner_of_removeGrid ho).1
    · exact hi.mono rfl rfl id
  | enforceSignedGrid gridId networkName => exact hi.enforce gridId networkName
  | relaxSignedGrid gridId => exact hi.relax gridId
  | unpinOrigin origin => exact hi.mono rfl rfl id
  | unpinOriginForGrid gridId origin => exact hi.mono rfl rfl fun ho => (owner_of_removeGrid ho).1
  | clearOriginPinForGrid gridId origin =>
    exact hi.mono rfl rfl fun ho => (owner_of_removeGrid ho).1
  | holdStateAdmission | openStateAdmission => exact hi.mono rfl rfl id
  | evictOrigin origin => exact hi.mono rfl rfl owner_of_removeOrigin
  | forgetDepartedOrigin origin => exact hi.mono rfl rfl id
  | receiveItem now data => exact hi.receiveItem now data

/-- **Every reachable handler is `Authorized`.** -/
theorem Reachable.authorized (hr : Reachable c h) : h.Authorized :=
  hr.invariant Authorized.init fun _ op hi => hi.step op

end StateBroadcastHandler

end PraxisGrid
