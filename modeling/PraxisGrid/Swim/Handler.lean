/-
PraxisGrid/Swim/Handler.lean

The broadcast handler of `crates/swim/src/state_broadcast.rs`: what it retains of each
origin, how a received item is admitted and merged, and how an origin or a grid is
removed.

A handler is a value; each operation returns the new one.  Operations that can refuse
return their result next to the handler, because a refusal may come after a change.  The
watch channels are modelled by the values they hold.
-/
import PraxisGrid.Swim.Inventory

namespace PraxisGrid

open Std OrdMap Bincode Saturate

/-! ### Retained state -/

/-- One metadata lane, each with its own revision guard. -/
inductive Lane
  | gateway
  | cert
  | signals
deriving DecidableEq

structure LaneRecord where
  values : ExtTreeMap String String := ∅
  revisions : ExtTreeMap String UInt64 := ∅

/-- Admission provenance of a provider value in the merged snapshot. -/
structure ProviderOwner where
  scope : ProviderStateScope
  verifiedGrid : Bool
deriving DecidableEq

/-- What the handler retains of the origins it heard of.  `latestByScope` is the revision
guard of provider state. -/
structure RetainedOrigins where
  providerOwners : ExtTreeMap ProviderIdentity ProviderOwner := ∅
  latestByScope : ExtTreeMap ProviderStateScope UInt64 := ∅
  unverifiedScopes : ExtTreeSet ProviderStateScope := ∅
  providerNetworksByScope : ExtTreeMap ProviderStateScope (ExtTreeSet String) := ∅
  providerUidsByScope : ExtTreeMap ProviderStateScope (ExtTreeMap ProviderIdentity String) := ∅
  inventoryScopes : ExtTreeSet ProviderStateScope := ∅
  lanes : Lane → LaneRecord := fun _ => {}

/-- Highest revision a lane accepts at `now`: leased milliseconds for addresses,
nanoseconds for certificates. -/
def maxMetadataRevision (lane : Lane) (now : Clock) : UInt64 :=
  match lane with
  | .gateway | .signals => maxLeasedRevision (wallMs now)
  | .cert => saturate (now + maxLeaseSkew * 1000000000)

namespace StateBroadcast

def laneValue (b : StateBroadcast) : Lane → Option String
  | .gateway => b.gatewayAddress
  | .cert => b.siteCertPem
  | .signals => b.signalsAddress

/-- The record a provider of this broadcast is merged as. -/
def stamp (b : StateBroadcast) (p : ProviderState) : ProviderState :=
  { p with revision := b.revision, writerId := b.originSite }

/-- The identities this broadcast supplies within `networks`. -/
def incomingIdentities (b : StateBroadcast) (networks : ExtTreeSet String) :
    ExtTreeSet ProviderIdentity :=
  ExtTreeSet.ofList ((b.ownProviders.filter fun p => networks.contains p.networkId).map
    providerIdentity)

/-- The records of this broadcast that are merged when `networks` are replaced. -/
def acceptedProviders (b : StateBroadcast) (networks : ExtTreeSet String) : List ProviderState :=
  (b.providerValues.filter fun p =>
    (b.incomingIdentities networks).contains (providerIdentity p)).map b.stamp

end StateBroadcast

namespace RetainedOrigins

/-- Whether replacing the `networks` of a broadcast drops the value of an identity: it is
supplied again, or the broadcast's scope owns it. -/
def replaces (r : RetainedOrigins) (b : StateBroadcast) (networks : ExtTreeSet String)
    (id : ProviderIdentity) : Bool :=
  (b.incomingIdentities networks).contains id ||
    (networks.contains id.network &&
      r.providerOwners[id]?.any fun owner => owner.scope == b.providerStateScope)

/-- Replace the values supplied by a scope.  Returns the networks of the accepted records. -/
def replaceProviders (r : RetainedOrigins) (snap : GridStateSnapshot) (b : StateBroadcast)
    (networks : ExtTreeSet String) (verifiedGrid : Bool) :
    ExtTreeSet String × RetainedOrigins × GridStateSnapshot :=
  let snap := { snap with
    providers := retain snap.providers fun _ p => !r.replaces b networks (providerIdentity p) }
  let r := { r with providerOwners := retain r.providerOwners fun id _ => !r.replaces b networks id }
  (b.acceptedProviders networks).foldl
    (fun (accepted, r, snap) p =>
      (accepted.insert p.networkId,
        { r with
          providerOwners := r.providerOwners.insert (providerIdentity p)
            ⟨b.providerStateScope, verifiedGrid⟩ },
        snap.upsertProvider p))
    (∅, r, snap)

def knownOrigins (r : RetainedOrigins) : ExtTreeSet String :=
  ExtTreeSet.ofList (r.latestByScope.keys.map (·.originSite)
    ++ r.providerNetworksByScope.keys.map (·.originSite)
    ++ r.inventoryScopes.toList.map (·.originSite)
    ++ (r.lanes .gateway).values.keys ++ (r.lanes .gateway).revisions.keys
    ++ (r.lanes .cert).values.keys ++ (r.lanes .cert).revisions.keys
    ++ (r.lanes .signals).values.keys ++ (r.lanes .signals).revisions.keys)

/-- Drop the gateway address and certificate of an origin, keeping its signals address and
every guard. -/
def forgetDeparted (r : RetainedOrigins) (origin : String) : RetainedOrigins :=
  { r with
    lanes := fun
      | .signals => r.lanes .signals
      | lane => { r.lanes lane with values := (r.lanes lane).values.erase origin } }

/-- Drop every revision and value of one origin. -/
def remove (r : RetainedOrigins) (origin : String) : RetainedOrigins :=
  { providerOwners := retain r.providerOwners fun id _ => id.site != origin
    latestByScope := retain r.latestByScope fun scope _ => scope.originSite != origin
    unverifiedScopes := retainSet r.unverifiedScopes fun scope => scope.originSite != origin
    providerNetworksByScope := retain r.providerNetworksByScope fun scope _ =>
      scope.originSite != origin
    providerUidsByScope := retain r.providerUidsByScope fun scope _ => scope.originSite != origin
    inventoryScopes := retainSet r.inventoryScopes fun scope => scope.originSite != origin
    lanes := fun lane =>
      { values := (r.lanes lane).values.erase origin
        revisions := (r.lanes lane).revisions.erase origin } }

/-- Whether a scope is the one of `gridId`, restricted to one origin if given. -/
def selectsScope (gridId : String) (origin : Option String) (scope : ProviderStateScope) : Bool :=
  scope.gridId == some gridId && origin.all fun origin => scope.originSite == origin

/-- Whether removing a grid drops the values of an owner: its scope is selected, or it was
admitted without a verified key. -/
def removesOwner (gridId : String) (origin : Option String) (owner : ProviderOwner) : Bool :=
  (origin.all fun origin => owner.scope.originSite == origin) &&
    (selectsScope gridId origin owner.scope || !owner.verifiedGrid)

/-- Whether removing a grid drops the value of an identity. -/
def removesIdentity (r : RetainedOrigins) (gridId : String) (origin : Option String)
    (id : ProviderIdentity) : Bool :=
  r.providerOwners[id]?.any (removesOwner gridId origin)

/-- Whether removing a grid clears the guard and the networks of a scope. -/
def clearsScope (r : RetainedOrigins) (gridId : String) (origin : Option String)
    (scope : ProviderStateScope) : Bool :=
  selectsScope gridId origin scope ||
    (r.unverifiedScopes.contains scope && origin.all fun origin => scope.originSite == origin)

/-- Clear one grid's provider state, and what was admitted without a verified key. -/
def removeGrid (r : RetainedOrigins) (gridId : String) (origin : Option String) :
    RetainedOrigins :=
  { providerOwners := retain r.providerOwners fun id _ => !r.removesIdentity gridId origin id
    latestByScope := retain r.latestByScope fun scope _ => !r.clearsScope gridId origin scope
    unverifiedScopes := retainSet r.unverifiedScopes fun scope => !r.clearsScope gridId origin scope
    providerNetworksByScope := retain r.providerNetworksByScope fun scope _ =>
      !r.clearsScope gridId origin scope
    providerUidsByScope := retain r.providerUidsByScope fun scope _ =>
      !r.clearsScope gridId origin scope
    inventoryScopes := retainSet r.inventoryScopes fun scope => !selectsScope gridId origin scope
    lanes := r.lanes }

end RetainedOrigins

/-! ### The handler -/

/-- The broadcast handler with the values of its watch channels. -/
structure StateBroadcastHandler where
  state : GridStateSnapshot
  retained : RetainedOrigins := {}
  published : Lane → ExtTreeMap String String := fun _ => ∅
  modelInventories : List ModelInventory := []
  assembler : ModelInventoryAssembler := {}
  trust : TrustStore := {}
  maxOrigins : Nat
  maxScopes : Nat

/-- Provider-state scopes retained for each origin slot. -/
def retainedScopeMultiplier : Nat := 16

/-- Why a received item was rejected. -/
inductive StateBroadcastError
  | providerScopeMissing (gridId : String)
  | providerNetworkNotAllowed (gridId networkId : String)
  | decode (error : DecodeError)
  | unsupportedVersion (expected actual : UInt16)
  | untrustedInventoryOrigin (originSite : String)
  | invalidInventorySignature (originSite : String)
  | inventory (error : InventoryFrameError)
  | missingSignature (originSite : String)
  | untrustedStateOrigin (originSite : String)
  | stateAdmissionPending (originSite : String)
  | signatureInvalid (originSite : String)
  | signableEncode (originSite : String) (source : EncodeError)
  | missingTimestamp (originSite : String)
  | timestampOutOfWindow (originSite : String)
deriving DecidableEq

/-- What a broadcast must carry to be merged. -/
inductive Admission
  | unsigned
  | signed (keys : List Bytes)

namespace StateBroadcastHandler

/-- A handler with an empty snapshot.  The bounds are clamped to at least one origin and
to a machine word. -/
def withCapacity (siteId : String) (maxOrigins : Nat) : StateBroadcastHandler :=
  let maxOrigins := max maxOrigins 1
  { state := GridStateSnapshot.new siteId
    maxOrigins := maxOrigins
    maxScopes := max (min (maxOrigins * retainedScopeMultiplier) wordMax) 1 }

/-! ### Removal -/

/-- Clear one grid's provider and inventory state, optionally of a single origin. -/
def removeGrid (h : StateBroadcastHandler) (gridId : String) (origin : Option String) :
    StateBroadcastHandler :=
  { h with
    retained := h.retained.removeGrid gridId origin
    state := { h.state with
      providers := retain h.state.providers fun _ p =>
        !h.retained.removesIdentity gridId origin (providerIdentity p) }
    assembler := h.assembler.removeGrid gridId origin
    modelInventories := h.modelInventories.filter fun inventory =>
      inventory.gridId != gridId || origin.any fun origin => inventory.originSite != origin }

/-- Remove provider and transport state of one origin; spend stays. -/
def removeOrigin (h : StateBroadcastHandler) (origin : String) : StateBroadcastHandler :=
  { h with
    retained := h.retained.remove origin
    state := h.state.removeOriginProviders origin
    published := fun lane => (h.published lane).erase origin
    assembler := h.assembler.removeOrigin origin
    modelInventories := h.modelInventories.filter fun inventory => inventory.originSite != origin }

def forgetDeparted (h : StateBroadcastHandler) (origin : String) : StateBroadcastHandler :=
  { h with
    retained := h.retained.forgetDeparted origin
    published := fun
      | .signals => h.published .signals
      | lane => (h.published lane).erase origin }

/-! ### Admission -/

def admission (h : StateBroadcastHandler) (b : StateBroadcast) :
    Except StateBroadcastError Admission :=
  let store := h.trust
  let origin := b.originSite
  if store.stateAdmissionHeld then .error (.stateAdmissionPending origin)
  else
    -- a scoped pin decides alone; an empty one is a revoked identity
    let scopedPin := b.gridId.bind fun grid => store.pin (.grid grid origin)
    let strict := b.gridId.any store.isStrict
    let legacyRetired :=
      strict || store.pinnedInAnyGrid origin || (b.carriesGridState && store.anyStrict)
    match scopedPin with
    | some [] => .error (.untrustedStateOrigin origin)
    | some keys => .ok (.signed keys)
    | none =>
      if strict && b.isCertOnly then .ok .unsigned
      else if legacyRetired then .error (.untrustedStateOrigin origin)
      else
        match store.pin (.site origin) with
        | none | some [] => .ok .unsigned
        | some keys => .ok (.signed keys)

/-- Check the provider networks of a signed message against the binding of its grid. -/
def validateProviderNetworks (h : StateBroadcastHandler) (gridId : String)
    (networks : List String) : Except StateBroadcastError Unit :=
  match h.trust.providerNetwork gridId with
  | none => .error (.providerScopeMissing gridId)
  | some allowed =>
    match networks.find? fun network => network != allowed with
    | some network => .error (.providerNetworkNotAllowed gridId network)
    | none => .ok ()

def namedNetworks (b : StateBroadcast) : List String :=
  b.ownProviders.map (·.networkId) ++
    (b.providerUids.filter fun u => u.identity.site == b.originSite).map (·.identity.network)

/-- Reject a broadcast that is not admitted, or whose required signature fails. -/
def verifySignatureIfPinned (c : Crypto) (h : StateBroadcastHandler) (now : Clock)
    (b : StateBroadcast) : Except StateBroadcastError Unit := do
  match ← h.admission b with
  | .unsigned => .ok ()
  | .signed keys =>
    match b.signature, b.signedAtMs with
    | none, _ => .error (.missingSignature b.originSite)
    | some _, none => .error (.missingTimestamp b.originSite)
    | some signature, some signedAtMs =>
      match b.signableBytes with
      | .error source => .error (.signableEncode b.originSite source)
      | .ok signable =>
        if !keys.any fun key => c.verifyEcdsaP256 key signable signature then
          .error (.signatureInvalid b.originSite)
        else if !withinFreshnessWindow now signedAtMs then
          .error (.timestampOutOfWindow b.originSite)
        else
          match b.gridId with
          | some gridId =>
            if b.carriesProviderState || !b.providerUids.isEmpty then
              h.validateProviderNetworks gridId (namedNetworks b)
            else .ok ()
          | none => .ok ()

/-! ### Capacity -/

/-- Whether an origin may be evicted: it has no key pinned anywhere. -/
def evictable (h : StateBroadcastHandler) (origin : String) : Bool :=
  (h.trust.pin (.site origin)).all List.isEmpty && !h.trust.pinnedInAnyGrid origin

/-- Make room for an origin, evicting the first origin without a pin if the bound is
reached; none when every retained origin is pinned. -/
def makeRoomFor (h : StateBroadcastHandler) (incoming : String) : Option StateBroadcastHandler :=
  let origins := h.retained.knownOrigins
  if origins.contains incoming || origins.size < h.maxOrigins then some h
  else (origins.toList.find? h.evictable).map h.removeOrigin

/-- Whether the provider-state maps can retain a scope. -/
def hasRoomForScope (h : StateBroadcastHandler) (scope : ProviderStateScope) : Bool :=
  h.retained.latestByScope.contains scope || h.retained.latestByScope.size < h.maxScopes

/-! ### Metadata lanes -/

/-- Store and publish a value on a lane unless a newer revision holds it; the flag says
that it was refused as from the future. -/
def storeLatest (h : StateBroadcastHandler) (now : Clock) (lane : Lane) (b : StateBroadcast)
    (value : String) : Bool × StateBroadcastHandler :=
  let cap := maxMetadataRevision lane now
  let record := h.retained.lanes lane
  if cap < b.revision then (true, h)
  else if record.revisions[b.originSite]?.any fun held => outranks held b.revision cap then
    (false, h)
  else
    (false,
      { h with
        retained := { h.retained with
          lanes := Function.update h.retained.lanes lane
            { values := record.values.insert b.originSite value
              revisions := record.revisions.insert b.originSite b.revision } }
        published := Function.update h.published lane
          ((h.published lane).insert b.originSite value) })

/-- Store the values a broadcast carries on some lanes; the flags say that a value was
carried, and that all of them were refused as from the future. -/
def storeLanes (h : StateBroadcastHandler) (now : Clock) (b : StateBroadcast) :
    List Lane → (Bool × Bool) × StateBroadcastHandler
  | [] => ((false, true), h)
  | lane :: lanes =>
    match b.laneValue lane with
    | none => storeLanes h now b lanes
    | some value =>
      let (refused, h) := h.storeLatest now lane b value
      let ((_, all), h) := storeLanes h now b lanes
      ((true, refused && all), h)

/-- Store every metadata value a broadcast carries; the flag says that there was one and
each was refused as from the future. -/
def storeMetadata (h : StateBroadcastHandler) (now : Clock) (b : StateBroadcast) :
    Bool × StateBroadcastHandler :=
  let ((carried, refused), h) := h.storeLanes now b [.gateway, .cert, .signals]
  (carried && refused, h)

/-! ### Inventories -/

/-- Whether a complete inventory matches the current UID and owner of its provider. -/
def backs (r : RetainedOrigins) (inventory : ModelInventory) : Bool :=
  let scope : ProviderStateScope := ⟨inventory.originSite, some inventory.gridId⟩
  let identity : ProviderIdentity :=
    ⟨inventory.networkId, inventory.originSite, inventory.providerId⟩
  (r.providerUidsByScope[scope]?.bind fun uids => uids[identity]?) == some inventory.providerUid
    && r.providerOwners[identity]?.any fun owner => owner.scope == scope

/-- Publish the fresh complete inventories that match their provider. -/
def publishVerifiedInventories (h : StateBroadcastHandler) (now : Clock) : StateBroadcastHandler :=
  { h with modelInventories := (h.assembler.inventories (wallMs now)).filter (backs h.retained) }

/-- Drop the buffers of provider instances that an authoritative update replaced. -/
def invalidateReplacedProviderInventories (h : StateBroadcastHandler) (originSite gridId : String)
    (previousUids incomingUids : ExtTreeMap ProviderIdentity String) : StateBroadcastHandler :=
  { h with
    assembler := previousUids.toList.foldl
      (fun a (identity, oldUid) =>
        if incomingUids[identity]? = some oldUid then a
        else a.withdrawProvider
          ⟨originSite, gridId, identity.network, identity.provider, oldUid⟩)
      h.assembler }

/-- Authenticate and buffer an inventory frame. -/
def receiveModelInventory (c : Crypto) (h : StateBroadcastHandler) (now : Clock) (data : Bytes) :
    Except StateBroadcastError (Option StateBroadcastKey) × StateBroadcastHandler :=
  match ModelInventoryBroadcast.decode data with
  | .error e => (.error (.decode e), h)
  | .ok b =>
    match h.trust.pin (.grid b.gridId b.originSite) with
    | none | some [] => (.error (.untrustedInventoryOrigin b.originSite), h)
    | some keys =>
      if !b.frame.verifies c now b.originSite b.gridId keys then
        (.error (.invalidInventorySignature b.originSite), h)
      else
        match h.validateProviderNetworks b.gridId [b.frame.networkId] with
        | .error e => (.error e, h)
        | .ok () =>
          match h.makeRoomFor b.originSite with
          | none => (.ok none, h)
          | some h =>
            let (result, assembler) := h.assembler.push c b (wallMs now)
            let h := { h with
              retained := { h.retained with
                inventoryScopes := h.retained.inventoryScopes.insert
                  ⟨b.originSite, some b.gridId⟩ }
              assembler := assembler }
            match result with
            | .ok .incomplete => (.ok (some b.key), h)
            | .ok .duplicate | .error .staleRevision => (.ok none, h)
            | .ok (.complete _) => (.ok (some b.key), h.publishVerifiedInventories now)
            | .error e => (.error (.inventory e), h.publishVerifiedInventories now)

/-! ### Provider state -/

/-- The networks whose values a broadcast replaces: those it names and those its scope
named before, within the binding of its grid if there is one. -/
def networksToReplace (h : StateBroadcastHandler) (b : StateBroadcast)
    (previousNetworks : ExtTreeSet String) : ExtTreeSet String :=
  let named := previousNetworks.toList ++ b.ownProviders.map (·.networkId)
  match b.gridId.bind h.trust.providerNetwork with
  | some allowed => ExtTreeSet.ofList (named.filter fun network => network == allowed)
  | none => ExtTreeSet.ofList named

def incomingUids (b : StateBroadcast) : ExtTreeMap ProviderIdentity String :=
  let identities : ExtTreeSet ProviderIdentity :=
    ExtTreeSet.ofList (b.ownProviders.map providerIdentity)
  ExtTreeMap.ofList ((b.providerUids.filter fun u =>
    u.identity.site == b.originSite && identities.contains u.identity).map
      fun u => (u.identity, u.uid))

/-- Merge the snapshot of a broadcast: capabilities, spend of its origin, and its providers
if it carries provider state. -/
def mergeSnapshot (h : StateBroadcastHandler) (b : StateBroadcast)
    (networks : ExtTreeSet String) (verifiedGrid : Bool) :
    ExtTreeSet String × RetainedOrigins × GridStateSnapshot :=
  let snap := { h.state with capabilities := h.state.capabilities.merge b.snapshot.capabilities }
  let snap := snap.mergeTenantSpendFromOrigin b.originSite b.snapshot.tenantSpend
  -- a spend-only broadcast carries no authoritative provider list
  if b.carriesProviderState then h.retained.replaceProviders snap b networks verifiedGrid
  else (∅, h.retained, snap)

/-- Merge accepted provider state and record its revision. -/
def applyProviderState (h : StateBroadcastHandler) (now : Clock) (b : StateBroadcast)
    (scope : ProviderStateScope) (previousNetworks : ExtTreeSet String)
    (previousUids : ExtTreeMap ProviderIdentity String) :
    StateBroadcastKey × StateBroadcastHandler :=
  let networks := h.networksToReplace b previousNetworks
  let verifiedGrid := h.trust.verifiedGrid b.gridId b.originSite
  let (accepted, retained, state) := h.mergeSnapshot b networks verifiedGrid
  let retained := { retained with
    latestByScope := retained.latestByScope.insert scope b.revision
    unverifiedScopes :=
      if verifiedGrid then retained.unverifiedScopes.erase scope
      else retained.unverifiedScopes.insert scope
    providerNetworksByScope :=
      if accepted.isEmpty then retained.providerNetworksByScope
      else retained.providerNetworksByScope.insert scope accepted }
  let h :=
    if b.carriesProviderState then
      let uids := incomingUids b
      { h with
        state := state
        retained := { retained with
          providerUidsByScope := retained.providerUidsByScope.insert b.providerStateScope uids }
      }.invalidateReplacedProviderInventories b.originSite (b.gridId.getD "") previousUids uids
    else { h with state := state, retained := retained }
  (b.key, h.publishVerifiedInventories now)

/-- Validate a decoded state broadcast and merge it when its revision is fresh. -/
def receiveStateBroadcast (c : Crypto) (h : StateBroadcastHandler) (now : Clock)
    (b : StateBroadcast) :
    Except StateBroadcastError (Option StateBroadcastKey) × StateBroadcastHandler :=
  if b.version ≠ stateBroadcastVersion then
    (.error (.unsupportedVersion stateBroadcastVersion b.version), h)
  else
    match h.verifySignatureIfPinned c now b with
    | .error e => (.error e, h)
    | .ok () =>
      match h.makeRoomFor b.originSite with
      | none => (.ok none, h)
      | some h =>
        -- metadata lanes have their own revisions
        if b.isMetadataOnly then
          let (refused, h) := h.storeMetadata now b
          (.ok (if refused then none else some b.key), h)
        else
          let scope := b.providerStateScope
          if !h.hasRoomForScope scope then (.ok none, h)
          else
            let latest := h.retained.latestByScope[scope]?
            let previousNetworks := h.retained.providerNetworksByScope.getD scope ∅
            let previousUids := h.retained.providerUidsByScope.getD scope ∅
            if latest.any fun held => outranks held b.revision (maxLeasedRevision (wallMs now)) then
              (.ok none, h)
            else
              let (_, h) := h.storeMetadata now b
              if latest = some b.revision then (.ok none, h)
              else
                let (key, h) := h.applyProviderState now b scope previousNetworks previousUids
                (.ok (some key), h)

def receiveItem (c : Crypto) (h : StateBroadcastHandler) (now : Clock) (data : Bytes) :
    Except StateBroadcastError (Option StateBroadcastKey) × StateBroadcastHandler :=
  if ModelInventoryBroadcast.recognizes data then h.receiveModelInventory c now data
  else
    match StateBroadcast.decode data with
    | .error e => (.error (.decode e), h)
    | .ok b => h.receiveStateBroadcast c now b

end StateBroadcastHandler

end PraxisGrid
