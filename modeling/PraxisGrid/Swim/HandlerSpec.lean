/-
PraxisGrid/Swim/HandlerSpec.lean

What each handler operation does to each part of the handler, stated once.

* `storeMetadata` acts on each lane separately (`LaneRecord.store`) and on nothing else.
* `replaceProviders` is described by lookups: owners (`getElem?_reassigned`), records
  (`providers_replaceProviders`) and accepted networks (`mem_acceptedNetworks`).
-/
import PraxisGrid.Swim.Node

namespace PraxisGrid

open Std OrdMap Bincode Saturate

/-! ### Lanes -/

namespace LaneRecord

/-- The value a broadcast puts on a lane: the one it carries, unless its revision is from
the future or a newer revision holds the lane. -/
def incoming (r : LaneRecord) (now : Clock) (lane : Lane) (b : StateBroadcast) : Option String :=
  (b.laneValue lane).filter fun _ =>
    b.revision ≤ maxMetadataRevision lane now &&
      !r.revisions[b.originSite]?.any fun held =>
        outranks held b.revision (maxMetadataRevision lane now)

def store (r : LaneRecord) (now : Clock) (lane : Lane) (b : StateBroadcast) : LaneRecord :=
  match r.incoming now lane b with
  | none => r
  | some value =>
      { values := r.values.insert b.originSite value
        revisions := r.revisions.insert b.originSite b.revision }

variable {r : LaneRecord} {now : Clock} {lane : Lane} {b : StateBroadcast}

theorem incoming_eq_some_iff {value : String} :
    r.incoming now lane b = some value ↔
      b.laneValue lane = some value ∧ b.revision ≤ maxMetadataRevision lane now ∧
        ∀ held, r.revisions[b.originSite]? = some held →
          outranks held b.revision (maxMetadataRevision lane now) = false := by
  unfold incoming
  rw [Option.filter_eq_some_iff, Bool.and_eq_true, decide_eq_true_eq, Bool.not_eq_true',
    Option.any_eq_false]

theorem values_store (origin : String) :
    (r.store now lane b).values[origin]? =
      if b.originSite = origin then (r.incoming now lane b).or r.values[origin]?
      else r.values[origin]? := by
  unfold store
  cases r.incoming now lane b with
  | none => simp
  | some value => simp

theorem revisions_store (origin : String) :
    (r.store now lane b).revisions[origin]? =
      if b.originSite = origin then
        ((r.incoming now lane b).map fun _ => b.revision).or r.revisions[origin]?
      else r.revisions[origin]? := by
  unfold store
  cases r.incoming now lane b with
  | none => simp
  | some value => simp

end LaneRecord

def publishLane (published : ExtTreeMap String String) (origin : String) (value : Option String) :
    ExtTreeMap String String :=
  value.elim published (published.insert origin)

namespace StateBroadcastHandler

variable {c : Crypto} {h : StateBroadcastHandler} {now : Clock} {b : StateBroadcast}

def setLanes (h : StateBroadcastHandler) (lanes : Lane → LaneRecord)
    (published : Lane → ExtTreeMap String String) : StateBroadcastHandler :=
  { h with retained := { h.retained with lanes := lanes }, published := published }

def offerLanes (h : StateBroadcastHandler) (now : Clock) (b : StateBroadcast)
    (lanes : List Lane) : StateBroadcastHandler :=
  h.setLanes
    (fun lane =>
      if lane ∈ lanes then (h.retained.lanes lane).store now lane b else h.retained.lanes lane)
    (fun lane =>
      if lane ∈ lanes then
        publishLane (h.published lane) b.originSite ((h.retained.lanes lane).incoming now lane b)
      else h.published lane)

def offerMetadata (h : StateBroadcastHandler) (now : Clock) (b : StateBroadcast) :
    StateBroadcastHandler :=
  h.setLanes (fun lane => (h.retained.lanes lane).store now lane b)
    (fun lane =>
      publishLane (h.published lane) b.originSite ((h.retained.lanes lane).incoming now lane b))

theorem offerLanes_singleton (lane : Lane) :
    h.offerLanes now b [lane] =
      h.setLanes
        (Function.update h.retained.lanes lane ((h.retained.lanes lane).store now lane b))
        (Function.update h.published lane
          (publishLane (h.published lane) b.originSite
            ((h.retained.lanes lane).incoming now lane b))) := by
  have hup {α : Type} (f g : Lane → α) :
      (fun l => if l ∈ [lane] then g l else f l) = Function.update f lane (g lane) := by
    funext l
    by_cases hl : l = lane
    · subst hl
      simp
    · simp [hl]
  rw [offerLanes, hup, hup]

theorem offerLanes_singleton_of_none {lane : Lane}
    (hin : (h.retained.lanes lane).incoming now lane b = none) :
    h.offerLanes now b [lane] = h := by
  rw [offerLanes_singleton, LaneRecord.store, hin]
  simp only [publishLane, Option.elim_none, Function.update_eq_self]
  rfl

theorem offerLanes_cons {lane : Lane} {lanes : List Lane} (hln : lane ∉ lanes) :
    (h.offerLanes now b [lane]).offerLanes now b lanes = h.offerLanes now b (lane :: lanes) := by
  refine congrArg₂ h.setLanes ?_ ?_
  · funext l
    by_cases hl : l = lane
    · subst hl
      simp [offerLanes, setLanes, hln]
    · simp [offerLanes, setLanes, hl]
  · funext l
    by_cases hl : l = lane
    · subst hl
      simp [offerLanes, setLanes, hln]
    · simp [offerLanes, setLanes, hl]

theorem storeLatest_snd {lane : Lane} {value : String} (hv : b.laneValue lane = some value) :
    (h.storeLatest now lane b value).2 = h.offerLanes now b [lane] := by
  simp only [storeLatest]
  split_ifs with hcap hrn
  · refine (offerLanes_singleton_of_none ?_).symm
    simp [LaneRecord.incoming, hv, UInt64.not_le.mpr hcap]
  · refine (offerLanes_singleton_of_none ?_).symm
    simp [LaneRecord.incoming, hv, hrn]
  · have hin : (h.retained.lanes lane).incoming now lane b = some value := by
      simp [LaneRecord.incoming, hv, hrn, UInt64.not_lt.mp hcap]
    rw [offerLanes_singleton, LaneRecord.store, hin]
    rfl

theorem storeLanes_snd {lanes : List Lane} (hnd : lanes.Nodup) :
    (h.storeLanes now b lanes).2 = h.offerLanes now b lanes := by
  induction lanes generalizing h with
  | nil => simp [storeLanes, offerLanes, setLanes]
  | cons lane lanes ih =>
    rw [List.nodup_cons] at hnd
    rw [← offerLanes_cons hnd.1, ← ih hnd.2]
    rcases hv : b.laneValue lane with - | value
    · rw [offerLanes_singleton_of_none]
      · simp only [storeLanes, hv]
      · simp [LaneRecord.incoming, hv]
    · simp only [storeLanes, hv, storeLatest_snd hv]

/-- **Storing the metadata of a broadcast** offers it to every lane. -/
theorem storeMetadata_snd : (h.storeMetadata now b).2 = h.offerMetadata now b := by
  have hall : ∀ lane : Lane, lane ∈ [Lane.gateway, .cert, .signals] := by
    rintro (- | - | -) <;> simp
  have hnd : [Lane.gateway, .cert, .signals].Nodup := by decide
  simp only [storeMetadata, storeLanes_snd hnd, offerLanes, offerMetadata, hall, if_true]

end StateBroadcastHandler

/-! ### Replacing providers -/

namespace StateBroadcast

variable {b : StateBroadcast} {networks : ExtTreeSet String} {q : ProviderState}

@[simp] theorem providerIdentity_stamp (p : ProviderState) :
    providerIdentity (b.stamp p) = providerIdentity p := rfl

theorem mem_incomingIdentities {id : ProviderIdentity} :
    id ∈ b.incomingIdentities networks ↔
      ∃ p ∈ b.ownProviders, p.networkId ∈ networks ∧ providerIdentity p = id := by
  simp only [incomingIdentities, mem_ofList, List.mem_map, List.mem_filter,
    ExtTreeSet.contains_iff_mem, and_assoc]

theorem site_of_mem_incomingIdentities {id : ProviderIdentity}
    (hid : id ∈ b.incomingIdentities networks) : id.site = b.originSite ∧ id.network ∈ networks := by
  obtain ⟨p, hp, hn, rfl⟩ := mem_incomingIdentities.mp hid
  exact ⟨(mem_ownProviders.mp hp).2, hn⟩

theorem mem_acceptedProviders :
    q ∈ b.acceptedProviders networks ↔
      ∃ p ∈ b.ownProviders, p.networkId ∈ networks ∧ b.stamp p = q := by
  simp only [acceptedProviders, List.mem_map, List.mem_filter, ExtTreeSet.contains_iff_mem]
  constructor
  · rintro ⟨p, ⟨hp, hid⟩, rfl⟩
    obtain ⟨hst, hn⟩ := site_of_mem_incomingIdentities hid
    exact ⟨p, mem_ownProviders.mpr ⟨hp, hst⟩, hn, rfl⟩
  · rintro ⟨p, hp, hn, rfl⟩
    exact ⟨p, ⟨(mem_ownProviders.mp hp).1, mem_incomingIdentities.mpr ⟨p, hp, hn, rfl⟩⟩, rfl⟩

theorem providerIdentity_mem_incomingIdentities (hq : q ∈ b.acceptedProviders networks) :
    providerIdentity q ∈ b.incomingIdentities networks := by
  obtain ⟨p, hp, hn, rfl⟩ := mem_acceptedProviders.mp hq
  exact mem_incomingIdentities.mpr ⟨p, hp, hn, rfl⟩

theorem stamped_of_mem_acceptedProviders (hq : q ∈ b.acceptedProviders networks) :
    q.revision = b.revision ∧ q.writerId = b.originSite ∧ q.siteId = b.originSite := by
  obtain ⟨p, hp, -, rfl⟩ := mem_acceptedProviders.mp hq
  exact ⟨rfl, rfl, (mem_ownProviders.mp hp).2⟩

end StateBroadcast

namespace RetainedOrigins

variable {r : RetainedOrigins} {snap : GridStateSnapshot} {b : StateBroadcast}
  {networks : ExtTreeSet String} {verified : Bool}

def withdrawn (r : RetainedOrigins) (snap : GridStateSnapshot) (b : StateBroadcast)
    (networks : ExtTreeSet String) : GridStateSnapshot :=
  { snap with
    providers := retain snap.providers fun _ p => !r.replaces b networks (providerIdentity p) }

/-- Give the identities of some records to one owner. -/
def assign (owner : ProviderOwner) (owners : ExtTreeMap ProviderIdentity ProviderOwner)
    (l : List ProviderState) : ExtTreeMap ProviderIdentity ProviderOwner :=
  l.foldl (fun owners p => owners.insert (providerIdentity p) owner) owners

/-- The owners after a replacement: the supplied identities belong to the scope. -/
def reassigned (r : RetainedOrigins) (b : StateBroadcast) (networks : ExtTreeSet String)
    (verified : Bool) : ExtTreeMap ProviderIdentity ProviderOwner :=
  assign ⟨b.providerStateScope, verified⟩
    (retain r.providerOwners fun id _ => !r.replaces b networks id)
    (b.acceptedProviders networks)

def acceptedNetworks (b : StateBroadcast) (networks : ExtTreeSet String) : ExtTreeSet String :=
  (b.acceptedProviders networks).foldl (fun accepted p => accepted.insert p.networkId) ∅

/-- The loop over accepted providers, one result at a time. -/
theorem replaceProviders_loop (l : List ProviderState) (accepted : ExtTreeSet String)
    (r : RetainedOrigins) (snap : GridStateSnapshot) :
    l.foldl (fun (accepted, r, snap) p =>
      ((accepted.insert p.networkId : ExtTreeSet String),
        ({ r with
          providerOwners := r.providerOwners.insert (providerIdentity p)
            ⟨b.providerStateScope, verified⟩ } : RetainedOrigins),
        snap.upsertProvider p)) (accepted, r, snap) =
      (l.foldl (fun accepted p => accepted.insert p.networkId) accepted,
        { r with providerOwners := assign ⟨b.providerStateScope, verified⟩ r.providerOwners l },
        l.foldl GridStateSnapshot.upsertProvider snap) := by
  induction l generalizing accepted r snap with
  | nil => rfl
  | cons p l ih => exact ih _ _ _

/-- The loop of `replaceProviders` updates its three accumulators independently. -/
theorem replaceProviders_eq :
    r.replaceProviders snap b networks verified =
      (acceptedNetworks b networks,
        { r with providerOwners := r.reassigned b networks verified },
        (b.acceptedProviders networks).foldl GridStateSnapshot.upsertProvider
          (r.withdrawn snap b networks)) :=
  replaceProviders_loop _ _ _ _

theorem replaces_eq_true_iff {id : ProviderIdentity} :
    r.replaces b networks id = true ↔
      id ∈ b.incomingIdentities networks ∨
        (id.network ∈ networks ∧
          ∃ owner, r.providerOwners[id]? = some owner ∧ owner.scope = b.providerStateScope) := by
  simp only [replaces, Bool.or_eq_true, Bool.and_eq_true, ExtTreeSet.contains_iff_mem,
    Option.any_eq_true, beq_iff_eq]

theorem providers_withdrawn_eq_some {k : String} {p : ProviderState} :
    (r.withdrawn snap b networks).providers[k]? = some p ↔
      snap.providers[k]? = some p ∧ r.replaces b networks (providerIdentity p) = false := by
  rw [withdrawn, getElem?_retain_eq_some, Bool.not_eq_true']

theorem getElem?_assign (owner : ProviderOwner)
    (owners : ExtTreeMap ProviderIdentity ProviderOwner) (l : List ProviderState)
    (id : ProviderIdentity) :
    (assign owner owners l)[id]? =
      if id ∈ l.map providerIdentity then some owner else owners[id]? := by
  induction l generalizing owners with
  | nil => simp [assign]
  | cons p l ih =>
    have hst : assign owner owners (p :: l) =
      assign owner (owners.insert (providerIdentity p) owner) l := rfl
    rw [hst, ih, getElem?_insert]
    by_cases hl : id ∈ l.map providerIdentity
    · simp [hl]
    · by_cases hp : providerIdentity p = id
      · simp [hl, hp]
      · simp [hl, hp, Ne.symm hp]

/-- **Owners after a replacement.** -/
theorem getElem?_reassigned (id : ProviderIdentity) :
    (r.reassigned b networks verified)[id]? =
      if id ∈ b.incomingIdentities networks then some ⟨b.providerStateScope, verified⟩
      else if r.replaces b networks id then none else r.providerOwners[id]? := by
  have hacc : id ∈ (b.acceptedProviders networks).map providerIdentity ↔
      id ∈ b.incomingIdentities networks := by
    rw [List.mem_map]
    constructor
    · rintro ⟨p, hp, rfl⟩
      exact StateBroadcast.providerIdentity_mem_incomingIdentities hp
    · intro hid
      obtain ⟨p, hp, hn, rfl⟩ := StateBroadcast.mem_incomingIdentities.mp hid
      exact ⟨b.stamp p, StateBroadcast.mem_acceptedProviders.mpr ⟨p, hp, hn, rfl⟩, rfl⟩
  rw [reassigned, getElem?_assign, getElem?_retain_key]
  refine if_congr hacc rfl ?_
  cases r.replaces b networks id <;> rfl

/-- **Records after a replacement.**  A key with an accepted record holds the first of
them, unless the record that stays under this key is at least as new. -/
theorem providers_replaceProviders (k : String) :
    (r.replaceProviders snap b networks verified).2.2.providers[k]? =
      match (b.acceptedProviders networks).find? fun p => p.key == k with
      | some p =>
          if (r.withdrawn snap b networks).providers[k]?.all p.supersedes = true then some p
          else (r.withdrawn snap b networks).providers[k]?
      | none => (r.withdrawn snap b networks).providers[k]? := by
  rw [replaceProviders_eq]
  have hst : ∀ p ∈ b.acceptedProviders networks,
      p.revision = b.revision ∧ p.writerId = b.originSite := by
    intro p hp
    obtain ⟨hrev, hwr, -⟩ := StateBroadcast.stamped_of_mem_acceptedProviders hp
    exact ⟨hrev, hwr⟩
  exact GridStateSnapshot.providers_foldl_upsertProvider hst k

theorem mem_acceptedNetworks {network : String} :
    network ∈ acceptedNetworks b networks ↔
      ∃ p ∈ b.acceptedProviders networks, p.networkId = network := by
  have hfl : ∀ (l : List ProviderState) (a : ExtTreeSet String),
      network ∈ l.foldl (fun accepted p => accepted.insert p.networkId) a ↔
        (∃ p ∈ l, p.networkId = network) ∨ network ∈ a := by
    intro l
    induction l with
    | nil => intro a; simp
    | cons p l ih =>
      intro a
      rw [List.foldl_cons, ih, mem_insert, ← or_assoc]
      refine or_congr_left ?_
      simp only [List.mem_cons, exists_eq_or_imp, or_comm]
  rw [acceptedNetworks, hfl]
  simp

end RetainedOrigins

end PraxisGrid
