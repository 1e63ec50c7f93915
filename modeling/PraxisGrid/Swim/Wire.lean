/-
PraxisGrid/Swim/Wire.lean

Encoding and decoding of state broadcasts.

An envelope is a positional base payload, then up to three trailing sections: the
six-field extension, the signals address, and a length-delimited provider-state frame in
one of two versions.  The base payload leaves out two provider fields, tools and capacity
weight; the capacity map of the extension and the frame carry them by flattened key and
`decode` puts them back.

bincode is not self-describing, so `decodeExtension` tries the historical shapes of the
extension from the newest to the oldest.
-/
import PraxisGrid.Swim.Broadcast

namespace PraxisGrid

open Std OrdMap Bincode

/-! ### Codecs of the snapshot -/

/-- A provider record as the base payload carries it: no tools, no capacity weight. -/
structure ProviderRecord where
  networkId : String
  siteId : String
  providerId : String
  routingCluster : String
  models : List String
  backendKind : String
  phase : ProviderPhase
  metrics : ProviderMetricsSnapshot
  accessPolicy : ProviderAccessPolicy
  revision : UInt64
  writerId : String

def ProviderState.toRecord (p : ProviderState) : ProviderRecord :=
  { networkId := p.networkId, siteId := p.siteId, providerId := p.providerId
    routingCluster := p.routingCluster, models := p.models, backendKind := p.backendKind
    phase := p.phase, metrics := p.metrics, accessPolicy := p.accessPolicy
    revision := p.revision, writerId := p.writerId }

/-- A provider as it is read: the fields that are not written take their defaults. -/
def ProviderRecord.toState (r : ProviderRecord) : ProviderState :=
  { networkId := r.networkId, siteId := r.siteId, providerId := r.providerId
    routingCluster := r.routingCluster, models := r.models, tools := []
    backendKind := r.backendKind, capacityWeight := defaultCapacityWeight
    phase := r.phase, metrics := r.metrics, accessPolicy := r.accessPolicy
    revision := r.revision, writerId := r.writerId }

/-- A snapshot as the base payload carries it. -/
structure SnapshotRecord where
  siteId : String
  capabilities : OrSet Capability
  providers : ExtTreeMap String ProviderRecord
  tenantSpend : ExtTreeMap String GCounter

def GridStateSnapshot.toRecord (s : GridStateSnapshot) : SnapshotRecord :=
  ⟨s.siteId, s.capabilities, mapValues s.providers ProviderState.toRecord, s.tenantSpend⟩

def SnapshotRecord.toSnapshot (s : SnapshotRecord) : GridStateSnapshot :=
  ⟨s.siteId, s.capabilities, mapValues s.providers ProviderRecord.toState, s.tenantSpend⟩

namespace Wire

/-- A byte vector: its length, then the bytes. -/
def bytes : Codec Bytes := Codec.u8.vec

/-- A double in eight bytes. -/
def f64 : Codec F64 := Codec.word64.iso F64.mk F64.bits fun _ => rfl

def providerPhase : Codec ProviderPhase :=
  Codec.u32.refine
    (fun i =>
      if i = 0 then .ok .available
      else if i = 1 then .ok .pending
      else if i = 2 then .ok .degraded
      else if i = 3 then .ok .unavailable
      else .error .unexpectedVariant)
    (fun
      | .available => 0
      | .pending => 1
      | .degraded => 2
      | .unavailable => 3)
    (by rintro (- | - | - | -) <;> rfl)

def capabilityVariant : Codec (Fin 3) :=
  Codec.u32.refine
    (fun i => if h : i.toNat < 3 then .ok ⟨i.toNat, h⟩ else .error .unexpectedVariant)
    (fun i => UInt32.ofNat i)
    (by decide)

/-- The capability with a variant index and a name. -/
def toCapability : Fin 3 × String → Capability
  | (0, name) => .model name
  | (1, name) => .tool name
  | (2, name) => .agent name

def capability : Codec Capability :=
  (capabilityVariant.pair .string).iso toCapability (fun c => (c.variant, c.name))
    (by rintro (_ | _ | _) <;> rfl)

/-- A tag of an observed-remove set. -/
def tag : Codec Tag :=
  (Codec.u64.pair .string).iso (fun (counter, siteId) => ⟨counter, siteId⟩)
    (fun t => (t.counter, t.siteId)) fun _ => rfl

def orSet : Codec (OrSet Capability) :=
  (Codec.u64.pair ((capability.map tag.set).pair (Codec.string.pair tag.set))).iso
    (fun (counter, entries, siteId, tombstones) => ⟨counter, entries, siteId, tombstones⟩)
    (fun s => (s.counter, s.entries, s.siteId, s.tombstones)) fun _ => rfl

def gCounter : Codec GCounter :=
  (Codec.string.pair (Codec.string.map .u64)).iso (fun (siteId, slots) => ⟨siteId, slots⟩)
    (fun c => (c.siteId, c.slots)) fun _ => rfl

def providerMetrics : Codec ProviderMetricsSnapshot :=
  (f64.option.pair (f64.option.pair (f64.option.pair (f64.option.pair
    (f64.option.pair Codec.bool.option))))).iso
    (fun (queueDepth, kvCacheUtilization, latencyP99Ms, prefixCacheHitRatio, errorRate, healthy) =>
      ⟨queueDepth, kvCacheUtilization, latencyP99Ms, prefixCacheHitRatio, errorRate, healthy⟩)
    (fun m => (m.queueDepth, m.kvCacheUtilization, m.latencyP99Ms, m.prefixCacheHitRatio,
      m.errorRate, m.healthy))
    fun _ => rfl

def accessPolicy : Codec ProviderAccessPolicy :=
  (Codec.string.map .string).iso ProviderAccessPolicy.mk ProviderAccessPolicy.matchLabels
    fun _ => rfl

def providerRecord : Codec ProviderRecord :=
  (Codec.string.pair (Codec.string.pair (Codec.string.pair (Codec.string.pair
    (Codec.string.vec.pair (Codec.string.pair (providerPhase.pair (providerMetrics.pair
      (accessPolicy.pair (Codec.u64.pair .string)))))))))).iso
    (fun (networkId, siteId, providerId, routingCluster, models, backendKind, phase, metrics,
        accessPolicy, revision, writerId) =>
      ⟨networkId, siteId, providerId, routingCluster, models, backendKind, phase, metrics,
        accessPolicy, revision, writerId⟩)
    (fun p => (p.networkId, p.siteId, p.providerId, p.routingCluster, p.models, p.backendKind,
      p.phase, p.metrics, p.accessPolicy, p.revision, p.writerId))
    fun _ => rfl

/-- A snapshot, field by field. -/
def snapshot : Codec SnapshotRecord :=
  (Codec.string.pair (orSet.pair ((Codec.string.map providerRecord).pair
    (Codec.string.map gCounter)))).iso
    (fun (siteId, capabilities, providers, tenantSpend) =>
      ⟨siteId, capabilities, providers, tenantSpend⟩)
    (fun s => (s.siteId, s.capabilities, s.providers, s.tenantSpend)) fun _ => rfl

end Wire

/-! ### Wire structures -/

/-- Base payload of every broadcast. -/
structure StateBroadcastV1 where
  version : UInt16
  originSite : String
  revision : UInt64
  snapshot : SnapshotRecord

/-- Two-field extension, before signatures. -/
structure PreSignatureBroadcastExtension where
  gatewayAddress : Option String
  siteCertPem : Option String

/-- Three-field extension, before timestamps and grids. -/
structure PreTimestampBroadcastExtension where
  gatewayAddress : Option String
  siteCertPem : Option String
  signature : Option Bytes

/-- Five-field extension, before capacity weights. -/
structure PreCapacityBroadcastExtension where
  gatewayAddress : Option String
  siteCertPem : Option String
  signature : Option Bytes
  signedAtMs : Option UInt64
  gridId : Option String

/-- Six-field extension; capacity weights are keyed by flattened identity. -/
structure BroadcastExtension where
  gatewayAddress : Option String := none
  siteCertPem : Option String := none
  signature : Option Bytes := none
  signedAtMs : Option UInt64 := none
  gridId : Option String := none
  providerCapacityWeights : ExtTreeMap String UInt32 := ∅

structure ProviderStateExtensionHeader where
  magic : Vector UInt8 8
  payloadLength : UInt32
  version : UInt8

/-- First version of the provider-state frame: tools by flattened identity. -/
structure ProviderStateExtensionV1 where
  authoritativeProviderState : Bool
  providerTools : ExtTreeMap String (List String)

structure ProviderMetadata where
  tools : List String
  uid : Option String

/-- Second version of the provider-state frame: metadata by flattened identity. -/
structure ProviderStateExtensionV2 where
  authoritativeProviderState : Bool := false
  providers : ExtTreeMap String ProviderMetadata := ∅

def providerStateExtensionMagic : Vector UInt8 8 := #v[65, 71, 78, 80, 83, 69, 88, 84]

/-- Version byte of a frame that carries tools only. -/
def providerStateExtensionVersionV1 : UInt8 := 1

/-- Version byte of a frame that carries metadata records. -/
def providerStateExtensionVersionV2 : UInt8 := 2

def signatureDomain : Bytes := "praxis-grid/swim/state-broadcast/v1".toUTF8.data.toList

namespace Wire

def base : Codec StateBroadcastV1 :=
  (Codec.u16.pair (Codec.string.pair (Codec.u64.pair snapshot))).iso
    (fun (version, originSite, revision, snapshot) => ⟨version, originSite, revision, snapshot⟩)
    (fun v => (v.version, v.originSite, v.revision, v.snapshot)) fun _ => rfl

/-- The two-field extension. -/
def preSignature : Codec PreSignatureBroadcastExtension :=
  (Codec.string.option.pair Codec.string.option).iso (fun (gateway, cert) => ⟨gateway, cert⟩)
    (fun e => (e.gatewayAddress, e.siteCertPem)) fun _ => rfl

/-- The three-field extension. -/
def preTimestamp : Codec PreTimestampBroadcastExtension :=
  (Codec.string.option.pair (Codec.string.option.pair bytes.option)).iso
    (fun (gateway, cert, signature) => ⟨gateway, cert, signature⟩)
    (fun e => (e.gatewayAddress, e.siteCertPem, e.signature)) fun _ => rfl

/-- The five-field extension. -/
def preCapacity : Codec PreCapacityBroadcastExtension :=
  (Codec.string.option.pair (Codec.string.option.pair (bytes.option.pair
    (Codec.u64.option.pair Codec.string.option)))).iso
    (fun (gateway, cert, signature, signedAtMs, gridId) =>
      ⟨gateway, cert, signature, signedAtMs, gridId⟩)
    (fun e => (e.gatewayAddress, e.siteCertPem, e.signature, e.signedAtMs, e.gridId))
    fun _ => rfl

/-- The six-field extension. -/
def extension : Codec BroadcastExtension :=
  (Codec.string.option.pair (Codec.string.option.pair (bytes.option.pair
    (Codec.u64.option.pair (Codec.string.option.pair (Codec.string.map .u32)))))).iso
    (fun (gateway, cert, signature, signedAtMs, gridId, weights) =>
      ⟨gateway, cert, signature, signedAtMs, gridId, weights⟩)
    (fun e => (e.gatewayAddress, e.siteCertPem, e.signature, e.signedAtMs, e.gridId,
      e.providerCapacityWeights))
    fun _ => rfl

/-- The signals address after the six-field extension. -/
def signals : Codec (Option String) := Codec.string.option

def header : Codec ProviderStateExtensionHeader :=
  ((Codec.array 8).pair (Codec.u32.pair .u8)).iso
    (fun (magic, payloadLength, version) => ⟨magic, payloadLength, version⟩)
    (fun h => (h.magic, h.payloadLength, h.version)) fun _ => rfl

/-- The payload of a version-one frame. -/
def providerStateV1 : Codec ProviderStateExtensionV1 :=
  (Codec.bool.pair (Codec.string.map Codec.string.vec)).iso
    (fun (authoritative, tools) => ⟨authoritative, tools⟩)
    (fun e => (e.authoritativeProviderState, e.providerTools)) fun _ => rfl

def metadata : Codec ProviderMetadata :=
  (Codec.string.vec.pair Codec.string.option).iso (fun (tools, uid) => ⟨tools, uid⟩)
    (fun m => (m.tools, m.uid)) fun _ => rfl

/-- The payload of a version-two frame. -/
def providerStateV2 : Codec ProviderStateExtensionV2 :=
  (Codec.bool.pair (Codec.string.map metadata)).iso
    (fun (authoritative, providers) => ⟨authoritative, providers⟩)
    (fun e => (e.authoritativeProviderState, e.providers)) fun _ => rfl

end Wire

/-! ### Encoding -/

namespace StateBroadcast

def providerCapacityWeights (b : StateBroadcast) : ExtTreeMap String UInt32 :=
  ExtTreeMap.ofList ((b.providerValues.filter fun p => p.capacityWeight != 1).map
    fun p => (p.key, p.capacityWeight))

def uidByIdentity (b : StateBroadcast) : ExtTreeMap ProviderIdentity String :=
  ExtTreeMap.ofList (b.providerUids.map fun u => (u.identity, u.uid))

def providerMetadata (b : StateBroadcast) (p : ProviderState) : Option ProviderMetadata :=
  let uid := b.uidByIdentity[providerIdentity p]?
  if !p.tools.isEmpty || uid.isSome then some ⟨p.tools, uid⟩ else none

def providerStateExtension (b : StateBroadcast) : ProviderStateExtensionV2 :=
  { authoritativeProviderState := b.authoritativeProviderState
    providers := ExtTreeMap.ofList
      (b.providerValues.filterMap fun p => (b.providerMetadata p).map fun m => (p.key, m)) }

def legacyExtension (b : StateBroadcast) : ProviderStateExtensionV1 :=
  { authoritativeProviderState := b.authoritativeProviderState
    providerTools := ExtTreeMap.ofList
      ((b.providerValues.filter fun p => !p.tools.isEmpty).map fun p => (p.key, p.tools)) }

/-- Whether a provider-state frame is written. -/
def carriesProviderStateExtension (b : StateBroadcast) : Bool :=
  b.providerStateExtension.authoritativeProviderState || !b.providerStateExtension.providers.isEmpty

/-- Whether any trailing section is written. -/
def carriesExtension (b : StateBroadcast) : Bool :=
  b.gatewayAddress.isSome || b.siteCertPem.isSome || b.signature.isSome || b.signedAtMs.isSome
    || b.gridId.isSome || !b.providerCapacityWeights.isEmpty || b.signalsAddress.isSome
    || b.carriesProviderStateExtension

/-- Whether the frame must be in its second version: it came in that version, or some
record has a UID. -/
def requiresV2 (b : StateBroadcast) : Bool :=
  b.providerStateExtensionVersion == some providerStateExtensionVersionV2
    || (values b.providerStateExtension.providers).any fun m => m.uid.isSome

def encodeFramePayload (b : StateBroadcast) : Except EncodeError (UInt8 × Bytes) :=
  if b.requiresV2 then do
    let payload ← Wire.providerStateV2.encode b.providerStateExtension
    pure (providerStateExtensionVersionV2, payload)
  else do
    let payload ← Wire.providerStateV1.encode b.legacyExtension
    pure (providerStateExtensionVersionV1, payload)

def encodeFrame (b : StateBroadcast) : Except EncodeError Bytes := do
  let (version, payload) ← b.encodeFramePayload
  if payload.length < 2 ^ 32 then
    let header ← Wire.header.encode
      ⟨providerStateExtensionMagic, UInt32.ofNat payload.length, version⟩
    pure (header ++ payload)
  else .error (.other "provider-state extension exceeds the frame length limit")

/-- The base payload of this broadcast. -/
def toV1 (b : StateBroadcast) : StateBroadcastV1 :=
  ⟨b.version, b.originSite, b.revision, b.snapshot.toRecord⟩

def toExtension (b : StateBroadcast) : BroadcastExtension :=
  ⟨b.gatewayAddress, b.siteCertPem, b.signature, b.signedAtMs, b.gridId, b.providerCapacityWeights⟩

/-- The trailing sections of this broadcast. -/
def encodeExtension (b : StateBroadcast) : Except EncodeError Bytes :=
  if b.carriesExtension then do
    let ext ← Wire.extension.encode b.toExtension
    let signals ←
      if b.signalsAddress.isSome || b.carriesProviderStateExtension then
        Wire.signals.encode b.signalsAddress
      else pure []
    let frame ← if b.carriesProviderStateExtension then b.encodeFrame else pure []
    pure (ext ++ (signals ++ frame))
  else pure []

def encode (b : StateBroadcast) : Except EncodeError Bytes := do
  let base ← Wire.base.encode b.toV1
  let ext ← b.encodeExtension
  pure (base ++ ext)

/-- The bytes this broadcast's signature covers: a domain tag, then the encoding with the
signature cleared. -/
def signableBytes (b : StateBroadcast) : Except EncodeError Bytes := do
  let encoded ← { b with signature := none }.encode
  pure (signatureDomain ++ encoded)

end StateBroadcast

/-! ### Decoding -/

/-- Decode `remaining` as one historical shape, with the bytes left after it. -/
def shape {α : Type} (c : Codec α) (remaining : Bytes) : Option (α × Bytes) :=
  match c.decode ⟨remaining, none⟩ with
  | .ok (a, rest) => some (a, rest.bytes)
  | .error _ => none

/-- Decode a payload as one value that uses all of it. -/
def shapeExact {α : Type} (c : Codec α) (payload : Bytes) : Option α :=
  match shape c payload with
  | some (a, []) => some a
  | _ => none

/-- Decode a provider-state frame; an unknown or malformed frame is ignored. -/
def decodeProviderStateExtension (remaining : Bytes) :
    ProviderStateExtensionV2 × Option UInt8 :=
  if remaining.isEmpty then ({}, none)
  else
    match shape Wire.header remaining with
    | none => ({}, none)
    | some (header, rest) =>
      if header.magic ≠ providerStateExtensionMagic ∨
          (header.version ≠ providerStateExtensionVersionV1 ∧
            header.version ≠ providerStateExtensionVersionV2) then ({}, none)
      else if rest.length < header.payloadLength.toNat then ({}, none)
      else
        let payload := rest.take header.payloadLength.toNat
        if header.version = providerStateExtensionVersionV1 then
          match shapeExact Wire.providerStateV1 payload with
          | some ext =>
              ({ authoritativeProviderState := ext.authoritativeProviderState
                 providers := mapValues ext.providerTools fun tools => ⟨tools, none⟩ },
                some providerStateExtensionVersionV1)
          | none => ({}, none)
        else
          match shapeExact Wire.providerStateV2 payload with
          | some ext => (ext, some providerStateExtensionVersionV2)
          | none => ({}, none)

/-- The historical extension shapes before the six-field one, newest first. -/
def decodeLegacyExtension (remaining : Bytes) : BroadcastExtension :=
  match shape Wire.preCapacity remaining with
  | some (ext, _) =>
      { gatewayAddress := ext.gatewayAddress, siteCertPem := ext.siteCertPem
        signature := ext.signature, signedAtMs := ext.signedAtMs, gridId := ext.gridId }
  | none =>
    match shape Wire.preTimestamp remaining with
    | some (ext, _) =>
        { gatewayAddress := ext.gatewayAddress, siteCertPem := ext.siteCertPem
          signature := ext.signature }
    | none =>
      match shape Wire.preSignature remaining with
      | some (ext, _) => { gatewayAddress := ext.gatewayAddress, siteCertPem := ext.siteCertPem }
      | none => { gatewayAddress := (shape Codec.string remaining).map Prod.fst }

/-- Decode the trailing bytes of a broadcast: the extension, the signals address, and the
provider-state frame with its version. -/
def decodeExtension (remaining : Bytes) :
    BroadcastExtension × Option String × ProviderStateExtensionV2 × Option UInt8 :=
  if remaining.isEmpty then ({}, none, {}, none)
  else
    match shape Wire.extension remaining with
    | some (ext, afterExtension) =>
      let signals :=
        if afterExtension.isEmpty then some (none, []) else shape Wire.signals afterExtension
      match signals with
      | none => (ext, none, {}, none)
      | some (signals, framed) => (ext, signals, decodeProviderStateExtension framed)
    | none => (decodeLegacyExtension remaining, none, {}, none)

/-- Set the capacity of a provider, ignoring a weight out of range. -/
def applyCapacityWeight (p : ProviderState) (weight : UInt32) : ProviderState :=
  if isValidCapacityWeight weight then { p with capacityWeight := weight } else p

/-- Put the fields back that the base payload leaves out, by flattened key. -/
def restoreProvider (weights : ExtTreeMap String UInt32)
    (providers : ExtTreeMap String ProviderMetadata) (p : ProviderState) : ProviderState :=
  let weighted :=
    match weights[p.key]? with
    | some weight => applyCapacityWeight p weight
    | none => p
  match providers[p.key]? with
  | some metadata => { weighted with tools := metadata.tools }
  | none => weighted

/-- The UIDs of a provider-state extension whose keys parse as identities. -/
def decodeProviderUids (providers : ExtTreeMap String ProviderMetadata) : List ProviderUid :=
  providers.toList.filterMap fun e =>
    e.2.uid.bind fun uid => (parseProviderIdentity e.1).map fun identity => ⟨identity, uid⟩

namespace StateBroadcast

/-- Assemble a broadcast from its base payload and its decoded trailing sections. -/
def assemble (v1 : StateBroadcastV1)
    (ext : BroadcastExtension × Option String × ProviderStateExtensionV2 × Option UInt8) :
    StateBroadcast :=
  let (ext, signalsAddress, providerState, version) := ext
  let snapshot := v1.snapshot.toSnapshot
  { version := v1.version
    originSite := v1.originSite
    revision := v1.revision
    snapshot :=
      { snapshot with
        providers := mapValues snapshot.providers
          (restoreProvider ext.providerCapacityWeights providerState.providers) }
    authoritativeProviderState := providerState.authoritativeProviderState
    gatewayAddress := ext.gatewayAddress
    siteCertPem := ext.siteCertPem
    signature := ext.signature
    signedAtMs := ext.signedAtMs
    gridId := ext.gridId
    signalsAddress := signalsAddress
    providerUids := decodeProviderUids providerState.providers
    providerStateExtensionVersion := version }

def decode (bytes : Bytes) : Except DecodeError StateBroadcast := do
  let (v1, rest) ← Wire.base.decode ⟨bytes, none⟩
  pure (assemble v1 (decodeExtension rest.bytes))

end StateBroadcast

end PraxisGrid
