/-
PraxisGrid/Swim/Broadcast.lean

The state broadcast of `crates/swim/src/state_broadcast.rs`: the envelope, the names
that scope it, the tests on its payload and its invalidation key in the gossip queue.

Names used as map keys are ordered as the source derives it, field by field.  Each order
compares the list of the fields (`path`), which determines the name.
-/
import PraxisGrid.Crdt.GridState
import PraxisGrid.Lib.Bincode

namespace PraxisGrid

open Std OrdMap Bincode

/-! ### Names -/

structure ProviderIdentity where
  network : String
  site : String
  provider : String
deriving DecidableEq

namespace ProviderIdentity

/-- The fields, in declaration order. -/
def path (id : ProviderIdentity) : List String := [id.network, id.site, id.provider]

instance : Ord ProviderIdentity := ⟨compareOn path⟩

instance : TransOrd ProviderIdentity := inferInstanceAs (TransCmp (compareOn path))

instance : LawfulEqOrd ProviderIdentity := lawfulEqCmp_compareOn (f := path) (by
  rintro ⟨_, _, _⟩ ⟨_, _, _⟩ h
  simpa [path] using h)

end ProviderIdentity

structure ProviderStateScope where
  originSite : String
  gridId : Option String
deriving DecidableEq

namespace ProviderStateScope

/-- The origin, then the grid if there is one: an absent grid sorts first. -/
def path (scope : ProviderStateScope) : List String := scope.originSite :: scope.gridId.toList

instance : Ord ProviderStateScope := ⟨compareOn path⟩

instance : TransOrd ProviderStateScope := inferInstanceAs (TransCmp (compareOn path))

instance : LawfulEqOrd ProviderStateScope := lawfulEqCmp_compareOn (f := path) (by
  rintro ⟨_, _ | _⟩ ⟨_, _ | _⟩ h <;> simp_all [path])

end ProviderStateScope

structure ProviderUid where
  identity : ProviderIdentity
  uid : String

/-- Build the structured identity of one provider record. -/
def providerIdentity (p : ProviderState) : ProviderIdentity :=
  ⟨p.networkId, p.siteId, p.providerId⟩

/-- Parse a provider identity from a flattened extension key: exactly three parts, none
of them empty. -/
def parseProviderIdentity (key : String) : Option ProviderIdentity :=
  match Names.split '/' key with
  | [network, site, provider] =>
      if network = "" ∨ site = "" ∨ provider = "" then none else some ⟨network, site, provider⟩
  | _ => none

namespace ProviderIdentity

/-- No part of the identity is empty or contains a `/`. -/
def Plain (id : ProviderIdentity) : Prop :=
  (id.network ≠ "" ∧ Names.Free '/' id.network) ∧ (id.site ≠ "" ∧ Names.Free '/' id.site) ∧
    (id.provider ≠ "" ∧ Names.Free '/' id.provider)

instance (id : ProviderIdentity) : Decidable id.Plain := inferInstanceAs (Decidable (_ ∧ _))

def key (id : ProviderIdentity) : String := providerKey id.network id.site id.provider

theorem key_providerIdentity (p : ProviderState) : (providerIdentity p).key = p.key := rfl

variable {id : ProviderIdentity}

theorem Plain.parse (hid : id.Plain) :
    parseProviderIdentity id.key = some id := by
  obtain ⟨⟨hn, hnet⟩, ⟨hs, hst⟩, ⟨hp, hpr⟩⟩ := hid
  have hsp : Names.split '/' id.key = [id.network, id.site, id.provider] :=
    Names.split_join3 hnet hst hpr
  simp [parseProviderIdentity, hsp, hn, hs, hp]

theorem key_of_parse {k : String} (h : parseProviderIdentity k = some id) : id.key = k := by
  unfold parseProviderIdentity at h
  split at h
  · rename_i network site provider hsp
    split_ifs at h
    cases h
    exact Names.join3_of_split hsp
  · cases h

/-- An identity read from a flattened key is plain. -/
theorem plain_of_parse {k : String} (h : parseProviderIdentity k = some id) : id.Plain := by
  unfold parseProviderIdentity at h
  split at h
  · rename_i network site provider hsp
    have hfr : ∀ piece ∈ [network, site, provider], Names.Free '/' piece := fun piece hpc =>
      Names.free_of_mem_split (hsp ▸ hpc)
    split_ifs at h with hem
    push Not at hem
    cases h
    exact ⟨⟨hem.1, hfr network (by simp)⟩, ⟨hem.2.1, hfr site (by simp)⟩,
      ⟨hem.2.2, hfr provider (by simp)⟩⟩
  · cases h

theorem Plain.eq_of_key_eq {p q : ProviderState} (hpl : (providerIdentity p).Plain)
    (hkey : q.key = p.key) : providerIdentity q = providerIdentity p := by
  obtain ⟨⟨-, hnet⟩, ⟨-, hst⟩, ⟨-, hpr⟩⟩ := hpl
  obtain ⟨hnet, hst, hpr⟩ := Names.join3_inj_of_free hnet hst hpr hkey
  show (⟨q.networkId, q.siteId, q.providerId⟩ : ProviderIdentity) = providerIdentity p
  rw [hnet, hst, hpr]

end ProviderIdentity

/-! ### The envelope -/

def stateBroadcastVersion : UInt16 := 1

/-- Envelope carrying one grid-state snapshot.  `providerStateExtensionVersion` is the
version of the provider-state extension seen on the wire, if any. -/
structure StateBroadcast where
  version : UInt16 := stateBroadcastVersion
  originSite : String
  revision : UInt64
  snapshot : GridStateSnapshot
  authoritativeProviderState : Bool := false
  gatewayAddress : Option String := none
  siteCertPem : Option String := none
  signature : Option Bytes := none
  signedAtMs : Option UInt64 := none
  gridId : Option String := none
  signalsAddress : Option String := none
  providerUids : List ProviderUid := []
  providerStateExtensionVersion : Option UInt8 := none

namespace StateBroadcast

def providerStateScope (b : StateBroadcast) : ProviderStateScope :=
  ⟨b.originSite, b.gridId⟩

/-- Only side-channel metadata, no grid state. -/
def isMetadataOnly (b : StateBroadcast) : Bool :=
  !b.authoritativeProviderState && b.snapshot.providers.isEmpty
    && b.snapshot.capabilities.isEmpty && b.snapshot.tenantSpend.isEmpty

/-- Carries provider, capability or spend state. -/
def carriesGridState (b : StateBroadcast) : Bool := !b.isMetadataOnly

def carriesProviderState (b : StateBroadcast) : Bool :=
  b.authoritativeProviderState || !b.snapshot.providers.isEmpty
    || !b.snapshot.capabilities.isEmpty

def isAddressOnly (b : StateBroadcast) : Bool :=
  (b.gatewayAddress.isSome || b.signalsAddress.isSome) && b.siteCertPem.isNone && b.isMetadataOnly

def isCertOnly (b : StateBroadcast) : Bool :=
  b.siteCertPem.isSome && b.gatewayAddress.isNone && b.signalsAddress.isNone && b.isMetadataOnly

/-- Provider records of the snapshot, in key order. -/
def providerValues (b : StateBroadcast) : List ProviderState := values b.snapshot.providers

/-- The records that speak for the origin itself. -/
def ownProviders (b : StateBroadcast) : List ProviderState :=
  b.providerValues.filter fun p => p.siteId == b.originSite

end StateBroadcast

/-! ### Invalidation in the gossip queue -/

/-- Invalidation lane of a queued broadcast. -/
inductive StateBroadcastKeyKind
  | state
  | gatewayAddress
  | cert
  | metadata
  | modelInventory (networkId providerId providerUid : String) (frameIndex : UInt16)
deriving DecidableEq

/-- Key used to replace stale queued broadcasts. -/
structure StateBroadcastKey where
  originSite : String
  revision : UInt64
  gridId : Option String
  kind : StateBroadcastKeyKind
deriving DecidableEq

namespace StateBroadcast

/-- The invalidation lane of this payload. -/
def keyKind (b : StateBroadcast) : StateBroadcastKeyKind :=
  if b.isCertOnly then .cert
  else if b.isAddressOnly then .gatewayAddress
  else if b.isMetadataOnly then .metadata
  else .state

/-- The invalidation key.  Certificate and combined metadata lanes are site-global and
carry no grid. -/
def key (b : StateBroadcast) : StateBroadcastKey :=
  let kind := b.keyKind
  { originSite := b.originSite
    revision := b.revision
    gridId := if kind = .state ∨ kind = .gatewayAddress then b.gridId else none
    kind := kind }

end StateBroadcast

/-- Whether a queued broadcast with key `k` makes one with key `other` obsolete.  Inventory
frames compare all their fields, so the lanes agree exactly when they are equal. -/
def StateBroadcastKey.invalidates (k other : StateBroadcastKey) : Bool :=
  k.originSite == other.originSite && k.gridId == other.gridId && k.kind == other.kind
    && other.revision ≤ k.revision

/-! ### What the payload tests say -/

namespace StateBroadcast

theorem isMetadataOnly_eq_false_of_carriesProviderState {b : StateBroadcast}
    (h : b.carriesProviderState = true) : b.isMetadataOnly = false := by
  unfold carriesProviderState at h
  unfold isMetadataOnly
  simp only [Bool.or_eq_true, Bool.not_eq_true'] at h
  rcases h with (h | h) | h <;> simp [h]

theorem mem_ownProviders {b : StateBroadcast} {p : ProviderState} :
    p ∈ b.ownProviders ↔ p ∈ b.providerValues ∧ p.siteId = b.originSite := by
  rw [ownProviders, List.mem_filter, beq_iff_eq]

end StateBroadcast

end PraxisGrid
