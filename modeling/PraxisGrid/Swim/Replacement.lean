/-
PraxisGrid/Swim/Replacement.lean

Authoritative replacement is exact.

With network and site names free of `/` a flattened key determines its identity, so a
supplied record never meets a record that stays (`providers_merged_own`), and records and
owners have the same identities (`Backed`).  Together with `Recorded`, which makes a
replacement reach everything its scope owns, a merged broadcast leaves its scope with its
own records and nothing else (`replacement_exact`).
-/
import PraxisGrid.Swim.Retention

namespace PraxisGrid

open Std OrdMap Bincode Scenario RetainedOrigins StateBroadcast Option

/-! ### Keys and identities -/

/-- The network and site names of a record are free of `/`. -/
def ProviderState.Plain (p : ProviderState) : Prop :=
  Names.Free '/' p.networkId ∧ Names.Free '/' p.siteId

/-- The names in a broadcast's own records are free of `/`. -/
def StateBroadcast.Plain (b : StateBroadcast) : Prop := ∀ p ∈ b.ownProviders, p.Plain

theorem ProviderState.Plain.key_inj {p q : ProviderState} (hp : p.Plain) (hq : q.Plain) :
    p.key = q.key ↔ providerIdentity p = providerIdentity q := by
  unfold ProviderState.key providerKey providerIdentity
  rw [Names.join3_inj hp.1 hp.2 hq.1 hq.2, ProviderIdentity.mk.injEq]

namespace StateBroadcast

variable {b : StateBroadcast} {networks : ExtTreeSet String}

/-- The own records are all of these networks. -/
def Within (b : StateBroadcast) (networks : ExtTreeSet String) : Prop :=
  ∀ p ∈ b.ownProviders, p.networkId ∈ networks

theorem acceptedProviders_eq (hall : b.Within networks) :
    b.acceptedProviders networks = b.ownProviders.map b.stamp := by
  unfold acceptedProviders ownProviders
  congr 1
  refine List.filter_congr fun p hp => ?_
  rw [Bool.eq_iff_iff, ExtTreeSet.contains_iff_mem, beq_iff_eq]
  constructor
  · exact fun hid => (site_of_mem_incomingIdentities hid).1
  · intro hst
    have hown : p ∈ b.ownProviders := mem_ownProviders.mpr ⟨hp, hst⟩
    exact mem_incomingIdentities.mpr ⟨p, hown, hall p hown, rfl⟩

def supplies (b : StateBroadcast) (id : ProviderIdentity) : Bool :=
  b.ownProviders.any fun p => providerIdentity p == id

/-- The record the broadcast is merged with under a key: the first of its own with this key. -/
def supplied (b : StateBroadcast) (k : String) : Option ProviderState :=
  (b.ownProviders.find? fun p => p.key == k).map b.stamp

theorem supplies_iff {id : ProviderIdentity} :
    b.supplies id = true ↔ ∃ p ∈ b.ownProviders, providerIdentity p = id := by
  simp only [supplies, List.any_eq_true, beq_iff_eq]

theorem supplies_iff_mem_incomingIdentities
    (hall : b.Within networks) {id : ProviderIdentity} :
    b.supplies id = true ↔ id ∈ b.incomingIdentities networks := by
  rw [supplies_iff, mem_incomingIdentities]
  refine exists_congr fun p => and_congr_right fun hp => ?_
  rw [and_iff_right (hall p hp)]

theorem supplies_of_supplied {k : String} {p : ProviderState} (hp : b.supplied k = some p) :
    b.supplies (providerIdentity p) = true := by
  obtain ⟨q, hfn, rfl⟩ := map_eq_some_iff.mp hp
  exact supplies_iff.mpr ⟨q, List.mem_of_find?_eq_some hfn, rfl⟩

end StateBroadcast

namespace StateBroadcastHandler

variable {c : Crypto} {h h' : StateBroadcastHandler} {now : Clock} {data : Bytes}
  {b : StateBroadcast}

/-! ### Records and owners have the same identities -/

structure Backed (h : StateBroadcastHandler) : Prop where
  plain : ∀ {k : String} {p : ProviderState}, h.state.providers[k]? = some p → p.Plain
  record : ∀ {id : ProviderIdentity} {owner : ProviderOwner},
    h.retained.providerOwners[id]? = some owner →
      ∃ (k : String) (p : ProviderState), h.state.providers[k]? = some p ∧ providerIdentity p = id

theorem Backed.init (siteId : String) (maxOrigins : Nat) :
    (withCapacity siteId maxOrigins).Backed where
  plain hp := by simp [withCapacity, GridStateSnapshot.new] at hp
  record ho := by simp [withCapacity] at ho

theorem Backed.congr (hi : h.Backed) (hpr : h'.state.providers = h.state.providers)
    (how : h'.retained.providerOwners = h.retained.providerOwners) : h'.Backed := by
  obtain ⟨hpl, hrec⟩ := hi
  constructor <;> simpa only [hpr, how]

theorem Backed.removeOrigin (hi : h.Backed) (origin : String) :
    (h.removeOrigin origin).Backed where
  plain hp := hi.plain (providers_removeOrigin_eq_some.mp hp).1
  record {id owner} ho := by
    rw [retained_removeOrigin, providerOwners_remove] at ho
    split_ifs at ho with hst
    obtain ⟨k, p, hp, rfl⟩ := hi.record ho
    exact ⟨k, p, providers_removeOrigin_eq_some.mpr ⟨hp, hst⟩, rfl⟩

theorem Backed.removeGrid (hi : h.Backed) (gridId : String) (origin : Option String) :
    (h.removeGrid gridId origin).Backed where
  plain hp := hi.plain (providers_removeGrid_eq_some.mp hp).1
  record {id owner} ho := by
    rw [retained_removeGrid, providerOwners_removeGrid] at ho
    split_ifs at ho with hrm
    obtain ⟨k, p, hp, rfl⟩ := hi.record ho
    exact ⟨k, p, providers_removeGrid_eq_some.mpr ⟨hp, by simpa using hrm⟩, rfl⟩

/-- A held record with the key of a supplied one is replaced. -/
theorem Backed.replaces_of_key (hi : h.Backed) (how : h.Owned) (hpl : b.Plain)
    (hall : b.Within (h.replacedNetworks b)) {k : String}
    {p q : ProviderState} (hp : p ∈ b.ownProviders) (hkey : p.key = k)
    (hq : h.state.providers[k]? = some q) :
    h.retained.replaces b (h.replacedNetworks b) (providerIdentity q) = true := by
  have hid : providerIdentity p = providerIdentity q :=
    ((hpl p hp).key_inj (hi.plain hq)).mp (hkey.trans (how.key_eq hq).symm)
  exact replaces_eq_true_iff.mpr
    (.inl (mem_incomingIdentities.mpr ⟨p, hp, hall p hp, hid⟩))

/-- **Records after a merge of plain records**: under a key that the broadcast supplies, its
first record; under the others, what was not replaced. -/
theorem Backed.providers_merged_own (hi : h.Backed) (how : h.Owned) (hpl : b.Plain)
    (hall : b.Within (h.replacedNetworks b))
    (hcar : b.carriesProviderState = true) (now : Clock) (k : String) :
    (h.merged now b).state.providers[k]? =
      match b.ownProviders.find? fun p => p.key == k with
      | some p => some (b.stamp p)
      | none => (h.retained.withdrawn h.state b (h.replacedNetworks b)).providers[k]? := by
  rw [state_merged, providers_mergedState, if_pos hcar,
    providers_replaceProviders, acceptedProviders_eq hall,
    List.find?_map]
  rcases hfn : b.ownProviders.find? (fun p => p.key == k) with - | p
  · have hnn : b.ownProviders.find? ((fun p => p.key == k) ∘ b.stamp) = none := hfn
    rw [hfn, hnn]
    rfl
  · have hsm : b.ownProviders.find? ((fun p => p.key == k) ∘ b.stamp) = some p := hfn
    have hp := List.mem_of_find?_eq_some hfn
    have hkey : p.key = k := by simpa using List.find?_some hfn
    have hnn : (h.retained.withdrawn h.state b (h.replacedNetworks b)).providers[k]? = none := by
      rcases hhl : (h.retained.withdrawn h.state b (h.replacedNetworks b)).providers[k]?
        with - | q
      · rfl
      · obtain ⟨hq, hrep⟩ := providers_withdrawn_eq_some.mp hhl
        rw [hi.replaces_of_key how hpl hall hp hkey hq] at hrep
        cases hrep
    rw [hfn, hsm, hnn]
    rfl

/-- A merge of plain records keeps records and owners in step. -/
theorem Backed.merged (hi : h.Backed) (how : h.Owned) (hpl : b.Plain)
    (hall : b.carriesProviderState = true → b.Within (h.replacedNetworks b)) :
    (h.merged now b).Backed := by
  rcases hcar : b.carriesProviderState with - | -
  · refine hi.congr ?_ ?_
    · rw [state_merged, providers_mergedState, if_neg (by simp [hcar])]
    · rw [retained_merged, mergedRetained]
      simp [hcar]
  have hall := hall hcar
  refine ⟨fun {k p} hp => ?_, fun {id owner} ho => ?_⟩
  · rcases providers_merged_cases hp with ⟨-, hacc, -⟩ | ⟨hp, -⟩
    · obtain ⟨q, hq, -, rfl⟩ := mem_acceptedProviders.mp hacc
      exact hpl q hq
    · exact hi.plain hp
  · rcases providerOwners_merged_cases ho with ⟨-, hid, -⟩ | ⟨ho, hrep⟩
    · -- the first record with this identity is merged
      obtain ⟨p, hp, -, rfl⟩ := mem_incomingIdentities.mp hid
      have hrec := hi.providers_merged_own how hpl hall hcar now p.key
      rcases hfn : b.ownProviders.find? (fun q => q.key == p.key) with - | q
      · exact absurd (beq_self_eq_true p.key) (List.find?_eq_none.mp hfn p hp)
      · rw [hfn] at hrec
        have hkey : q.key = p.key := by simpa using List.find?_some hfn
        refine ⟨p.key, b.stamp q, hrec, ?_⟩
        exact ((hpl q (List.mem_of_find?_eq_some hfn)).key_inj (hpl p hp)).mp hkey
    · obtain ⟨k, p, hp, rfl⟩ := hi.record ho
      refine ⟨k, p, ?_, rfl⟩
      have hkp : (h.retained.withdrawn h.state b (h.replacedNetworks b)).providers[k]? = some p :=
        providers_withdrawn_eq_some.mpr ⟨hp, hrep hcar⟩
      rw [hi.providers_merged_own how hpl hall hcar]
      rcases hfn : b.ownProviders.find? (fun q => q.key == k) with - | q
      · rw [hfn]
        exact hkp
      · -- a supplied record of this key would have replaced the identity
        have hkey : q.key = k := by simpa using List.find?_some hfn
        have hrep := hrep hcar
        rw [hi.replaces_of_key how hpl hall (List.mem_of_find?_eq_some hfn) hkey hp] at hrep
        cases hrep

def PlainItem (op : NodeOp) : Prop :=
  ∀ (now : Clock) (data : Bytes) (b : StateBroadcast), op = .receiveItem now data →
    ModelInventoryBroadcast.recognizes data = false → StateBroadcast.decode data = .ok b → b.Plain

theorem Backed.step (hi : h.Backed) (hkp : h.Kept) {op : NodeOp} (hop : PlainItem op) :
    (h.step c op).Backed := by
  refine step_preserves (P := Backed) (fun _ hi => hi.congr rfl rfl)
    (fun origin hi => hi.removeOrigin origin) (fun gridId origin hi => hi.removeGrid gridId origin)
    (fun _ hi => hi.congr rfl rfl) op ?_ hi
  rintro now data rfl hi
  refine receiveItem_preserves (P := Backed) (fun origin hi => hi.removeOrigin origin)
    (fun _ hi => hi.congr rfl rfl) ?_ (fun _ hi => hi.congr rfl rfl) (fun hi => hi.congr rfl rfl) hi
  intro b h₁ hkn hdec hadm hmt _ hi
  have how₁ := hkp.owned.makeRoomFor hadm.room
  exact hi.merged ⟨how₁.key_eq, how₁.owner, how₁.site_eq⟩
    (hop now data b rfl hkn hdec)
    fun hcar p hp => hkp.authorized.mem_replacedNetworks hadm hmt hcar hp

/-- A run over plain names that leaves no verified values behind. -/
def PlainRun (c : Crypto) (siteId : String) (maxOrigins : Nat) (ops : List NodeOp) : Prop :=
  Run.Along (step c) (fun h op => LeavesNoVerified c h op ∧ PlainItem op)
    (withCapacity siteId maxOrigins) ops

theorem PlainRun.invariants {siteId : String} {maxOrigins : Nat} {ops : List NodeOp}
    (hops : PlainRun c siteId maxOrigins ops) :
    ((withCapacity siteId maxOrigins).run c ops).Kept ∧
      ((withCapacity siteId maxOrigins).run c ops).Backed :=
  Run.run_invariant_along (P := fun h : StateBroadcastHandler => h.Kept ∧ h.Backed)
    (fun _ op hop hi => ⟨⟨hi.1.owned.step op, hi.1.authorized.step op, .step hi.1 hop.1⟩,
      hi.2.step hi.1 hop.2⟩) hops ⟨.init siteId maxOrigins, .init siteId maxOrigins⟩

/-! ### Consistent handlers -/

/-- The invariants that make a merge exact. -/
structure Consistent (h : StateBroadcastHandler) : Prop where
  owned : h.Owned
  authorized : h.Authorized
  covered : h.Covered
  backed : h.Backed

theorem PlainRun.consistent {siteId : String} {maxOrigins : Nat} {ops : List NodeOp}
    (hops : PlainRun c siteId maxOrigins ops) :
    ((withCapacity siteId maxOrigins).run c ops).Consistent := by
  obtain ⟨hkp, hbc⟩ := hops.invariants
  exact ⟨hkp.owned, hkp.authorized, hkp.recorded.network, hbc⟩

section

variable (hi : h.Consistent)
include hi

theorem Consistent.makeRoomFor {incoming : String} (hrm : h.makeRoomFor incoming = some h') :
    h'.Consistent where
  owned := hi.owned.makeRoomFor hrm
  authorized := hi.authorized.makeRoomFor hrm
  covered := makeRoomFor_preserves (fun v hcv => hcv.removeOrigin hi.owned v) hrm
    hi.covered
  backed := makeRoomFor_preserves (fun v hbc => hbc.removeOrigin v) hrm hi.backed

theorem Consistent.offerMetadata : (h.offerMetadata now b).Consistent where
  owned := ⟨hi.owned.key_eq, hi.owned.owner, hi.owned.site_eq⟩
  authorized := hi.authorized.mono rfl rfl id
  covered _ _ ho := hi.covered ho
  backed := hi.backed.congr rfl rfl

theorem Consistent.settle (hadm : h.Admits c now b h') (hpl : b.Plain) :
    (h'.settle now b).Consistent := by
  have hi' := hi.makeRoomFor hadm.room
  rcases settle_cases h' now b with ⟨hs, -⟩ | hs | ⟨hmt, -, hs⟩
  · rw [hs]
    exact hi'
  · rw [hs]
    exact hi'.offerMetadata
  · rw [hs]
    have hi' : (h'.offerMetadata now b).Consistent := hi'.offerMetadata
    refine ⟨hi'.owned.merged now b, hi.authorized.merged hadm hmt,
      hi'.covered.merged hi'.authorized, hi'.backed.merged hi'.owned hpl ?_⟩
    intro hcar p hp
    exact hi.authorized.mem_replacedNetworks hadm hmt hcar hp

/-- **Receiving plain broadcasts keeps a handler consistent.** -/
theorem Consistent.receiveStateBroadcast (hpl : b.Plain) :
    (h.receiveStateBroadcast c now b).2.Consistent := by
  rcases receiveStateBroadcast_cases with heq | ⟨h₁, hadm, heq⟩
  · rwa [heq]
  · rw [heq]
    exact hi.settle hadm hpl

/-! ### Exact merges -/

/-- The owner of an identity, unless it speaks for `scope`. -/
def ownerOutside (h : StateBroadcastHandler) (scope : ProviderStateScope) (id : ProviderIdentity) :
    Option ProviderOwner :=
  h.retained.providerOwners[id]?.filter fun owner => owner.scope != scope

/-- The record under a key, unless its owner speaks for `scope`. -/
def recordOutside (h : StateBroadcastHandler) (scope : ProviderStateScope) (k : String) :
    Option ProviderState :=
  h.state.providers[k]?.filter fun p => (h.ownerOutside scope (providerIdentity p)).isSome

/-- An identity that is not supplied is replaced exactly when the scope owns it. -/
theorem Consistent.replaces_eq {id : ProviderIdentity} {owner : ProviderOwner}
    (ho : h.retained.providerOwners[id]? = some owner)
    (hin : id ∉ b.incomingIdentities (h.replacedNetworks b)) :
    h.retained.replaces b (h.replacedNetworks b) id =
      decide (owner.scope = b.providerStateScope) := by
  by_cases hsc : owner.scope = b.providerStateScope
  · rw [hi.covered.replaces hi.authorized ho hsc, decide_eq_true hsc]
  · rw [decide_eq_false hsc, ← Bool.not_eq_true, replaces_eq_true_iff]
    rintro (hin' | ⟨-, owner', ho', hsc'⟩)
    · exact hin hin'
    · obtain rfl : owner = owner' := some.inj (ho.symm.trans ho')
      exact hsc hsc'

/-- **Owners after a merge**: the scope owns what it supplies, and others keep the rest. -/
theorem Consistent.owners_merged (hall : b.Within (h.replacedNetworks b))
    (hcar : b.carriesProviderState = true) (now : Clock) (id : ProviderIdentity) :
    (h.merged now b).retained.providerOwners[id]? =
      if b.supplies id then some ⟨b.providerStateScope, h.mergesVerified b⟩
      else h.ownerOutside b.providerStateScope id := by
  have hsp : b.supplies id = true ↔ id ∈ b.incomingIdentities (h.replacedNetworks b) :=
    supplies_iff_mem_incomingIdentities hall
  split_ifs with hid
  · exact providerOwners_merged_of_incoming hcar (hsp.mp hid)
  · have hin : id ∉ b.incomingIdentities (h.replacedNetworks b) :=
      fun hin => hid (hsp.mpr hin)
    rw [retained_merged, mergedRetained, if_pos hcar, getElem?_reassigned,
      if_neg hin, ownerOutside]
    rcases ho : h.retained.providerOwners[id]? with - | owner
    · exact ite_self none
    · rw [hi.replaces_eq ho hin]
      by_cases hsc : owner.scope = b.providerStateScope <;> simp [hsc, Option.filter]

/-- A held record is supplied exactly when one is supplied under its key. -/
theorem Consistent.supplies_iff_supplied (hpl : b.Plain) {k : String} {p : ProviderState}
    (hp : h.state.providers[k]? = some p) :
    b.supplies (providerIdentity p) = true ↔ ∃ q, b.supplied k = some q := by
  have hkey := hi.owned.key_eq hp
  rw [supplies_iff]
  constructor
  · rintro ⟨q, hq, hid⟩
    rcases hfn : b.ownProviders.find? (fun p => p.key == k) with - | q'
    · have hne := List.find?_eq_none.mp hfn q hq
      rw [((hpl q hq).key_inj (hi.backed.plain hp)).mpr hid, hkey, beq_self_eq_true] at hne
      exact absurd rfl hne
    · exact ⟨b.stamp q', by rw [supplied, hfn, map_some]⟩
  · rintro ⟨q, hq⟩
    obtain ⟨q, hfn, rfl⟩ := map_eq_some_iff.mp hq
    have hmem := List.mem_of_find?_eq_some hfn
    have hkey' : q.key = k := by simpa using List.find?_some hfn
    exact ⟨q, hmem, ((hpl q hmem).key_inj (hi.backed.plain hp)).mp (hkey'.trans hkey.symm)⟩

/-- **Records after a merge**: the supplied ones, and those of other scopes under the other
keys. -/
theorem Consistent.providers_merged (hpl : b.Plain)
    (hall : b.Within (h.replacedNetworks b))
    (hcar : b.carriesProviderState = true) (now : Clock) (k : String) :
    (h.merged now b).state.providers[k]? =
      (b.supplied k).or (h.recordOutside b.providerStateScope k) := by
  rw [hi.backed.providers_merged_own hi.owned hpl hall hcar, supplied]
  rcases hfn : b.ownProviders.find? (fun p => p.key == k) with - | p
  · rw [hfn, Option.map_none, Option.none_or]
    apply Option.ext
    intro p
    rw [providers_withdrawn_eq_some, recordOutside, Option.filter_eq_some_iff]
    refine and_congr_right fun hp => ?_
    -- no own record has the key, so the identity is replaced only if the scope owns it
    obtain ⟨owner, ho⟩ := hi.owned.owner hp
    have hin : providerIdentity p ∉ b.incomingIdentities (h.replacedNetworks b) := by
      rw [← supplies_iff_mem_incomingIdentities hall,
        hi.supplies_iff_supplied hpl hp, supplied, hfn]
      rintro ⟨q, hq⟩
      cases hq
    rw [hi.replaces_eq ho hin, ownerOutside, ho]
    by_cases hsc : owner.scope = b.providerStateScope <;> simp [hsc, Option.filter]
  · rw [hfn]
    rfl

/-! ### Exact replacement -/

/-- The handler holds `p` under `k`, and its owner speaks for `scope`. -/
def Holds (h : StateBroadcastHandler) (scope : ProviderStateScope) (k : String)
    (p : ProviderState) : Prop :=
  h.state.providers[k]? = some p ∧
    ∃ owner, h.retained.providerOwners[providerIdentity p]? = some owner ∧ owner.scope = scope

/-- The scope of a merged broadcast holds its own records, the first one of each key. -/
theorem Consistent.holds_merged_iff (hpl : b.Plain)
    (hall : b.Within (h.replacedNetworks b))
    (hcar : b.carriesProviderState = true) {k : String} {p : ProviderState} :
    (h.merged now b).Holds b.providerStateScope k p ↔ b.supplied k = some p := by
  have hrec := hi.providers_merged hpl hall hcar now k
  have how := hi.owners_merged hall hcar now (providerIdentity p)
  rw [Holds, hrec, how]
  constructor
  · rintro ⟨hp, owner, ho, hsc⟩
    rcases hsp : b.supplied k with - | q
    · -- a record of another scope is not supplied, and keeps its owner
      rw [hsp, none_or] at hp
      obtain ⟨hhl, -⟩ := filter_eq_some_iff.mp hp
      have hnot : ¬ b.supplies (providerIdentity p) = true := by
        rw [hi.supplies_iff_supplied hpl hhl]
        rintro ⟨q, hq⟩
        cases hsp.symm.trans hq
      rw [if_neg hnot] at ho
      obtain ⟨-, hne⟩ := filter_eq_some_iff.mp ho
      rw [hsc] at hne
      exact absurd hne (by simp)
    · rw [hsp] at hp
      exact hp
  · intro hp
    rw [hp, if_pos (supplies_of_supplied hp)]
    exact ⟨rfl, _, rfl, rfl⟩

end

/-- **Authoritative replacement is exact.**  After a run over plain names that left no
verified values behind, a broadcast with provider state and a new revision leaves its scope
with its own records, stamped with its revision and origin, the first one of each identity;
every record of another scope that it does not supply and whose site is not evicted stays;
and records and owners have the same identities. -/
theorem replacement_exact {siteId : String} {maxOrigins : Nat} {ops : List NodeOp}
    (hops : PlainRun c siteId maxOrigins ops) {h₁ : StateBroadcastHandler}
    (hm : ((withCapacity siteId maxOrigins).run c ops).Merges c now data b h₁)
    (hplain : b.Plain) :
    let h := (withCapacity siteId maxOrigins).run c ops
    let h' := (h.receiveItem c now data).2
    (∀ (k : String) (p : ProviderState), h'.Holds b.providerStateScope k p ↔
        (b.ownProviders.find? fun q => q.key == k).map b.stamp = some p) ∧
      (∀ (k : String) (p : ProviderState) (owner : ProviderOwner),
        h.state.providers[k]? = some p →
        h.retained.providerOwners[providerIdentity p]? = some owner →
        owner.scope ≠ b.providerStateScope →
        (∀ q ∈ b.ownProviders, providerIdentity q ≠ providerIdentity p) →
        ¬ h.Evicts c now data p.siteId →
          h'.state.providers[k]? = some p ∧
            h'.retained.providerOwners[providerIdentity p]? = some owner) ∧
      ∀ id : ProviderIdentity,
        (∃ (k : String) (p : ProviderState), h'.state.providers[k]? = some p ∧
          providerIdentity p = id) ↔
          ∃ owner, h'.retained.providerOwners[id]? = some owner := by
  intro h h'
  have hi : h.Consistent := hops.consistent
  have hadm := hm.admits
  have hall : b.Within ((h₁.offerMetadata now b).replacedNetworks b) :=
    fun p hp => hi.authorized.mem_replacedNetworks hadm hm.metadataOnly hm.carries hp
  have hi₁ : (h₁.offerMetadata now b).Consistent := (hi.makeRoomFor hadm.room).offerMetadata
  have heq : h' = (h₁.offerMetadata now b).merged now b := hm.receiveItem
  have hi' : h'.Consistent := by
    rw [heq, ← settle_of_fresh hm.metadataOnly hm.fresh]
    exact hi.settle hadm hplain
  refine ⟨fun k p => ?_, fun k p owner hp ho hsc hot hev => ?_, fun id => ⟨?_, ?_⟩⟩
  · rw [heq]
    exact hi₁.holds_merged_iff hplain hall hm.carries
  · -- the record is still there once there is room
    have hsm : h.SameSite h₁ p.siteId := .makeRoomFor hadm.room fun hv =>
      hev ⟨b.originSite, h₁, .state hm.recognizes hm.decode hadm, hv⟩
    have hp₁ : (h₁.offerMetadata now b).state.providers[k]? = some p :=
      (hsm.records k p rfl).mpr hp
    have hout : (h₁.offerMetadata now b).ownerOutside b.providerStateScope (providerIdentity p) =
        some owner :=
      Option.filter_eq_some_iff.mpr
        ⟨(hsm.scopes.owners _ rfl).trans ho, bne_iff_ne.mpr hsc⟩
    have hnot : ¬ b.supplies (providerIdentity p) = true := by
      rw [StateBroadcast.supplies_iff]
      rintro ⟨q, hq, hid⟩
      exact hot q hq hid
    have hnn : b.supplied k = none := by
      rw [hi₁.supplies_iff_supplied hplain hp₁] at hnot
      exact Option.eq_none_iff_forall_ne_some.mpr fun q hq => hnot ⟨q, hq⟩
    rw [heq, hi₁.providers_merged hplain hall hm.carries, hi₁.owners_merged hall hm.carries,
      hnn, if_neg hnot, hout, Option.none_or]
    exact ⟨Option.filter_eq_some_iff.mpr ⟨hp₁, by rw [hout]; rfl⟩, rfl⟩
  · rintro ⟨k, p, hp, rfl⟩
    exact hi'.owned.owner hp
  · rintro ⟨owner, ho⟩
    exact hi'.backed.record ho

/-- The names of `toolRun` are plain, and its one broadcast carries provider state. -/
theorem plainRun_toolRun : PlainRun crypto "self" 4 toolRun := by
  refine ⟨⟨fun now data b h₁ hop _ hdec _ _ _ hcar => ?_,
    fun now data b hop _ hdec => ?_⟩, trivial⟩
  · obtain ⟨-, rfl⟩ := NodeOp.receiveItem.inj hop
    cases hdec
    exact absurd hcar (by decide)
  · obtain ⟨-, rfl⟩ := NodeOp.receiveItem.inj hop
    cases hdec
    unfold Plain ProviderState.Plain
    decide

/-- The site of `toolRun` publishes another provider instead of its tool. -/
def replacingItem : StateBroadcast :=
  broadcast "site" 2 [record "net" "site" "model"]

theorem replacement_exact_toolRun :
    let h := (withCapacity "self" 4).run crypto toolRun
    let h' := (h.receiveItem crypto 0 (wire replacingItem)).2
    h'.Holds ⟨"site", none⟩ "net/site/model"
        (replacingItem.stamp (record "net" "site" "model")) ∧
      ∀ p, ¬ h'.Holds ⟨"site", none⟩ "net/site/tool/x" p := by
  intro h h'
  have hops := plainRun_toolRun
  have hlt : h.retained.latestByScope[(⟨"site", none⟩ : ProviderStateScope)]? = some 1 := by
    decide
  have hm : h.Merges crypto 0 (wire replacingItem) replacingItem h := by
    refine ⟨by decide, rfl, by decide, ⟨rfl, by decide, makeRoomFor_of_fits (by decide)⟩,
      by decide, fun held hhd => ?_, ?_⟩
    · obtain rfl : 1 = held := Option.some.inj (hlt.symm.trans hhd)
      decide
    · exact fun hhd => absurd (hlt.symm.trans hhd) (by decide)
  have hpl : replacingItem.Plain := by
    unfold StateBroadcast.Plain ProviderState.Plain
    decide
  obtain ⟨hhl, -, -⟩ := replacement_exact hops hm hpl
  refine ⟨(hhl _ _).mpr (by decide), fun p hp => ?_⟩
  have hnn : (replacingItem.ownProviders.find? fun q => q.key == "net/site/tool/x") = none := by
    decide
  have hfn := (hhl _ _).mp hp
  rw [hnn] at hfn
  cases hfn

/-- Two records of one provider, filed under different keys of the snapshot. -/
def twiceItem : StateBroadcast :=
  { broadcast "site" 1 [] with
    snapshot := { GridStateSnapshot.new "site" with
      providers := ExtTreeMap.ofList
        [("a", { record "net" "site" "model" with routingCluster := "first" }),
          ("b", { record "net" "site" "model" with routingCluster := "second" })] } }

/-- A provider broadcast can cost another origin its record, if there is no room for both;
and of two records of one provider only the first is merged. -/
theorem replacement_evicts_and_drops :
    let h := (withCapacity "self" 1).run crypto toolRun
    let hot := (h.receiveItem crypto 0
      (wire (broadcast "other" 1 [record "net" "other" "model"]))).2
    let htw := ((withCapacity "self" 1).receiveItem crypto 0
      (wire twiceItem)).2
    (h.state.providers["net/site/tool/x"]?.map (·.siteId) = some "site" ∧
        hot.state.providers["net/other/model"]?.map (·.siteId) = some "other" ∧
        hot.state.providers["net/site/tool/x"]? = none) ∧
      StateBroadcast.decode (wire twiceItem) = .ok twiceItem ∧
      twiceItem.ownProviders.map (·.routingCluster) = ["first", "second"] ∧
      htw.state.providers.toList.map (·.2.routingCluster) = ["first"] := by
  exact ⟨⟨by decide, by decide, by decide⟩, rfl, by decide, by decide⟩

end StateBroadcastHandler

end PraxisGrid
