/-
PraxisGrid/Swim/Inventory.lean

Signed model-inventory frames and their bounded assembly, from
`crates/swim/src/model_inventory.rs`.

An inventory is cut into one-name frames.  The assembler keeps incomplete inventories,
the last complete inventory of each provider instance, a revision floor against replays,
and the origins it blocks for exceeding a limit.  Frames reach `push` only after their
signature was checked.
-/
import PraxisGrid.Lib.Text
import PraxisGrid.Swim.Trust

namespace PraxisGrid

open Std OrdMap Bincode Saturate

/-! ### Limits -/

def modelInventoryFrameVersion : UInt16 := 1

def maxInventoryModels : Nat := 256

def maxModelNameBytes : Nat := 256

def maxInventoryFrames : Nat := 256

def maxOriginInventoryNameBytes : Nat := 128 * 1024

/-- Most incomplete frames retained for one origin. -/
def maxInProgressFramesPerOrigin : Nat := 256

def maxOriginProviderInventories : Nat := 256

def maxOriginModelPairs : Nat := 256

/-- Most UTF-8 bytes in a resource identity. -/
def maxInventoryIdBytes : Nat := 253

def maxProviderUidBytes : Nat := 128

/-! ### Frames -/

/-- One signed part of a provider's model inventory. -/
structure ModelInventoryFrame where
  version : UInt16 := modelInventoryFrameVersion
  networkId : String
  providerId : String
  providerUid : String
  inventoryRevision : UInt64
  expiresAtMs : UInt64
  frameIndex : UInt16
  frameCount : UInt16
  inventoryDigest : Vector UInt8 32
  models : List String
  signedAtMs : Option UInt64 := none
  signature : Option Bytes := none
deriving DecidableEq

/-- One frame as SWIM transports it. -/
structure ModelInventoryBroadcast where
  version : UInt16 := modelInventoryFrameVersion
  originSite : String
  gridId : String
  frame : ModelInventoryFrame
deriving DecidableEq

namespace Wire

def inventoryFrame : Codec ModelInventoryFrame :=
  (Codec.u16.pair (Codec.string.pair (Codec.string.pair (Codec.string.pair (Codec.u64.pair
    (Codec.u64.pair (Codec.u16.pair (Codec.u16.pair ((Codec.array 32).pair
      (Codec.string.vec.pair (Codec.u64.option.pair bytes.option))))))))))).iso
    (fun (version, networkId, providerId, providerUid, inventoryRevision, expiresAtMs, frameIndex,
        frameCount, inventoryDigest, models, signedAtMs, signature) =>
      ⟨version, networkId, providerId, providerUid, inventoryRevision, expiresAtMs, frameIndex,
        frameCount, inventoryDigest, models, signedAtMs, signature⟩)
    (fun f => (f.version, f.networkId, f.providerId, f.providerUid, f.inventoryRevision,
      f.expiresAtMs, f.frameIndex, f.frameCount, f.inventoryDigest, f.models, f.signedAtMs,
      f.signature))
    fun _ => rfl

def inventoryBroadcast : Codec ModelInventoryBroadcast :=
  (Codec.u16.pair (Codec.string.pair (Codec.string.pair inventoryFrame))).iso
    (fun (version, originSite, gridId, frame) => ⟨version, originSite, gridId, frame⟩)
    (fun b => (b.version, b.originSite, b.gridId, b.frame)) fun _ => rfl

end Wire

def inventorySignatureDomain : Bytes :=
  "praxis-grid/swim/model-inventory-frame/v1".toUTF8.data.toList

/-- Marker that tells inventory broadcasts from state broadcasts. -/
def modelInventoryBroadcastMagic : Bytes := [65, 71, 78, 77, 73, 70, 48, 49]

def modelInventoryDecodeLimit : Nat := 1400

namespace ModelInventoryFrame

def signableBytes (f : ModelInventoryFrame) (originSite gridId : String) :
    Except EncodeError Bytes := do
  let encoded ← (Codec.string.pair (Codec.string.pair Wire.inventoryFrame)).encode
    (originSite, gridId, { f with signature := none })
  pure (inventorySignatureDomain ++ encoded)

def verifies (c : Crypto) (now : Clock) (f : ModelInventoryFrame) (originSite gridId : String)
    (keys : List Bytes) : Bool :=
  match f.signature, f.signedAtMs with
  | some signature, some signedAtMs =>
      withinFreshnessWindow now signedAtMs &&
        match f.signableBytes originSite gridId with
        | .ok message => keys.any fun key => c.verifyEcdsaP256 key message signature
        | .error _ => false
  | _, _ => false

end ModelInventoryFrame

namespace ModelInventoryBroadcast

/-- Whether the bytes use the inventory format. -/
def recognizes (data : Bytes) : Bool := modelInventoryBroadcastMagic.isPrefixOf data

/-- Encode a frame behind its marker. -/
def encode (b : ModelInventoryBroadcast) : Except EncodeError Bytes := do
  let encoded ← Wire.inventoryBroadcast.encode b
  pure (modelInventoryBroadcastMagic ++ encoded)

def decode (data : Bytes) : Except DecodeError ModelInventoryBroadcast :=
  if recognizes data then do
    let (broadcast, rest) ← Wire.inventoryBroadcast.decode
      ⟨data.drop modelInventoryBroadcastMagic.length, some modelInventoryDecodeLimit⟩
    if rest.bytes ≠ [] ∨ broadcast.version ≠ modelInventoryFrameVersion then
      .error (.other "invalid model inventory broadcast")
    else pure broadcast
  else .error (.other "invalid model inventory discriminator")

def key (b : ModelInventoryBroadcast) : StateBroadcastKey :=
  { originSite := b.originSite
    revision := b.frame.inventoryRevision
    gridId := some b.gridId
    kind := .modelInventory b.frame.networkId b.frame.providerId b.frame.providerUid
      b.frame.frameIndex }

end ModelInventoryBroadcast

/-! ### Inventories and their scopes -/

/-- One complete inventory. -/
structure ModelInventory where
  originSite : String
  gridId : String
  networkId : String
  providerId : String
  providerUid : String
  revision : UInt64
  expiresAtMs : UInt64
  models : List String
deriving DecidableEq

/-- Provider instance within an authenticated origin and grid. -/
structure InventoryScope where
  originSite : String
  gridId : String
  networkId : String
  providerId : String
  providerUid : String
deriving DecidableEq

namespace InventoryScope

/-- The fields, in declaration order. -/
def path (s : InventoryScope) : List String :=
  [s.originSite, s.gridId, s.networkId, s.providerId, s.providerUid]

instance : Ord InventoryScope := ⟨compareOn path⟩

instance : TransOrd InventoryScope := inferInstanceAs (TransCmp (compareOn path))

instance : LawfulEqOrd InventoryScope := lawfulEqCmp_compareOn (f := path) (by
  rintro ⟨_, _, _, _, _⟩ ⟨_, _, _, _, _⟩ h
  simpa [path] using h)

def fromInventory (inventory : ModelInventory) : InventoryScope :=
  ⟨inventory.originSite, inventory.gridId, inventory.networkId, inventory.providerId,
    inventory.providerUid⟩

end InventoryScope

/-- One inventory revision of a provider instance. -/
structure InventoryKey where
  scope : InventoryScope
  revision : UInt64
deriving DecidableEq

namespace InventoryKey

instance : Ord InventoryKey := ⟨compareLex (compareOn scope) (compareOn revision)⟩

instance : TransOrd InventoryKey :=
  inferInstanceAs (TransCmp (compareLex (compareOn scope) (compareOn revision)))

instance : LawfulEqOrd InventoryKey :=
  lawfulEqCmp_compareLex (f := scope) (g := revision) (by
    rintro ⟨_, _⟩ ⟨_, _⟩ rfl rfl
    rfl)

end InventoryKey

/-- Why a frame was rejected. -/
inductive InventoryFrameError
  | unsupportedVersion (actual : UInt16)
  | tooManyModels (actual : Nat)
  | blankModelName
  | modelNameTooLong (actual : Nat)
  | duplicateModelName
  | tooManyNameBytes (actual : Nat)
  | invalidFramePosition
  | tooManyFrames
  | inProgressCapacity
  | inventoryCapacity
  | invalidIdentity
  | tooManyModelsInFrame
  | conflictingDuplicate
  | inconsistentFrames
  | digestMismatch
  | expired
  | staleRevision
deriving DecidableEq

/-! ### Validation -/

/-- Nothing is left of the name when white space is trimmed. -/
def isBlank (name : String) : Bool := name.toList.all Text.isSpace

/-- A resource identity that is not blank and within its byte limit. -/
def validIdentifier (value : String) : Bool :=
  !value.isEmpty && value.utf8ByteSize ≤ maxInventoryIdBytes && !isBlank value

def InventoryScope.validate (s : InventoryScope) : Except InventoryFrameError Unit :=
  if [s.originSite, s.gridId, s.networkId, s.providerId].all validIdentifier
      && !isBlank s.providerUid && s.providerUid.utf8ByteSize ≤ maxProviderUidBytes then .ok ()
  else .error .invalidIdentity

/-- Refuse the first name of a list that is blank or too long. -/
def validateNames : List String → Except InventoryFrameError Unit
  | [] => .ok ()
  | model :: models =>
      if isBlank model then .error .blankModelName
      else if maxModelNameBytes < model.utf8ByteSize then
        .error (.modelNameTooLong model.utf8ByteSize)
      else validateNames models

/-- Check the bounds and position of a frame before it is retained. -/
def validateFrame (f : ModelInventoryFrame) (nowMs : UInt64) : Except InventoryFrameError Unit :=
  if f.version ≠ modelInventoryFrameVersion then .error (.unsupportedVersion f.version)
  else if f.frameCount = 0 ∨ maxInventoryFrames < f.frameCount.toNat ∨ f.frameCount ≤ f.frameIndex ∨
      (f.models = [] ∧ f.frameCount ≠ 1) then .error .invalidFramePosition
  else if 1 < f.models.length then .error .tooManyModelsInFrame
  else if f.expiresAtMs ≤ nowMs then .error .expired
  else validateNames f.models

/-- The input of the inventory digest: each name behind its big-endian length. -/
def digestInput (models : List String) : Bytes :=
  models.flatMap fun model =>
    (leBytes 4 (min model.utf8ByteSize (2 ^ 32 - 1))).reverse ++ model.toUTF8.data.toList

def digestModels (c : Crypto) (models : List String) : Vector UInt8 32 :=
  c.sha256 (digestInput models)

/-- Whether each name is smaller than the next. -/
def strictlySorted : List String → Bool
  | a :: b :: rest => a < b && strictlySorted (b :: rest)
  | _ => true

def nameBytes (models : List String) : Nat := (models.map String.utf8ByteSize).sum

/-- Check a complete name list against its digest and limits. -/
def validateComplete (c : Crypto) (inventory : ModelInventory) (expected : Vector UInt8 32) :
    Except InventoryFrameError Unit :=
  if maxInventoryModels < inventory.models.length then
    .error (.tooManyModels inventory.models.length)
  else if !strictlySorted inventory.models then .error .duplicateModelName
  else
    match validateNames inventory.models with
    | .error e => .error e
    | .ok () =>
      if maxOriginInventoryNameBytes < nameBytes inventory.models then
        .error (.tooManyNameBytes (nameBytes inventory.models))
      else if digestModels c inventory.models ≠ expected then .error .digestMismatch
      else .ok ()

/-! ### Cutting an inventory into frames -/

namespace ModelInventory

/-- The names in sorted order. -/
def sorted (inventory : ModelInventory) : List String :=
  inventory.models.insertionSort (· ≤ ·)

def canonical (inventory : ModelInventory) : ModelInventory :=
  { inventory with models := inventory.sorted }

/-- The names of each frame: one name each, or a single empty frame. -/
def frameNames (inventory : ModelInventory) : List (List String) :=
  if inventory.sorted = [] then [[]] else inventory.sorted.map fun name => [name]

def frameAt (c : Crypto) (inventory : ModelInventory) (index : Nat) (models : List String) :
    ModelInventoryFrame :=
  { networkId := inventory.networkId
    providerId := inventory.providerId
    providerUid := inventory.providerUid
    inventoryRevision := inventory.revision
    expiresAtMs := inventory.expiresAtMs
    frameIndex := UInt16.ofNat index
    frameCount := UInt16.ofNat (max inventory.sorted.length 1)
    inventoryDigest := digestModels c inventory.sorted
    models := models }

/-- Cut an inventory into unsigned one-name frames, in sorted order. -/
def frames (c : Crypto) (inventory : ModelInventory) :
    Except InventoryFrameError (List ModelInventoryFrame) := do
  validateComplete c inventory.canonical (digestModels c inventory.sorted)
  (InventoryScope.fromInventory inventory).validate
  if 2 ^ 16 ≤ max inventory.sorted.length 1 then .error .tooManyFrames
  else pure (inventory.frameNames.mapIdx (inventory.frameAt c))

end ModelInventory

/-! ### Assembly -/

/-- A partial inventory. -/
structure PendingInventory where
  expiresAtMs : UInt64
  frameCount : UInt16
  digest : Vector UInt8 32
  frames : ExtTreeMap UInt16 (List String)
  startedAtMs : UInt64

/-- Insert a frame that agrees with the ones held. -/
def PendingInventory.insert (p : PendingInventory) (f : ModelInventoryFrame) :
    Except InventoryFrameError PendingInventory :=
  if p.expiresAtMs ≠ f.expiresAtMs ∨ p.frameCount ≠ f.frameCount ∨ p.digest ≠ f.inventoryDigest then
    .error .inconsistentFrames
  else
    match p.frames[f.frameIndex]? with
    | some held => if held ≠ f.models then .error .conflictingDuplicate else .ok p
    | none => .ok { p with frames := p.frames.insert f.frameIndex f.models }

/-- Completed revision, kept through the replay window. -/
structure RevisionFloor where
  revision : UInt64
  retainUntilMs : UInt64
deriving DecidableEq

/-- Outcome of retaining one frame. -/
inductive InventoryAssemblyResult
  | incomplete
  | duplicate
  | complete (inventory : ModelInventory)
deriving DecidableEq

/-- Bounded assembly state. -/
structure ModelInventoryAssembler where
  pending : ExtTreeMap InventoryKey PendingInventory := ∅
  complete : ExtTreeMap InventoryScope ModelInventory := ∅
  revisionFloor : ExtTreeMap InventoryScope RevisionFloor := ∅
  blockedOrigins : ExtTreeMap String UInt64 := ∅

namespace ModelInventoryAssembler

/-- The end of the replay window that starts at `nowMs`. -/
def replayDeadline (nowMs : UInt64) : UInt64 :=
  satAdd (satAdd nowMs maxBroadcastAgeMs) maxClockSkewAheadMs

/-- Fresh complete inventories, in scope order. -/
def inventories (a : ModelInventoryAssembler) (nowMs : UInt64) : List ModelInventory :=
  (values a.complete).filter fun inventory => nowMs < inventory.expiresAtMs

/-- Drop a withdrawn provider instance, keeping its revision floor. -/
def withdrawProvider (a : ModelInventoryAssembler) (scope : InventoryScope) :
    ModelInventoryAssembler :=
  { a with
    pending := retain a.pending fun key _ => key.scope != scope
    complete := a.complete.erase scope }

/-- Drop everything of one origin. -/
def removeOrigin (a : ModelInventoryAssembler) (origin : String) : ModelInventoryAssembler :=
  { pending := retain a.pending fun key _ => key.scope.originSite != origin
    complete := retain a.complete fun scope _ => scope.originSite != origin
    revisionFloor := retain a.revisionFloor fun scope _ => scope.originSite != origin
    blockedOrigins := a.blockedOrigins.erase origin }

/-- Whether a scope survives the removal of `gridId`, restricted to one origin if given. -/
def keepsScope (gridId : String) (origin : Option String) (scope : InventoryScope) : Bool :=
  scope.gridId != gridId || origin.any fun origin => scope.originSite != origin

/-- Drop one grid's buffers, complete inventories and floors; blocks stay. -/
def removeGrid (a : ModelInventoryAssembler) (gridId : String) (origin : Option String) :
    ModelInventoryAssembler :=
  { a with
    pending := retain a.pending fun key _ => keepsScope gridId origin key.scope
    complete := retain a.complete fun scope _ => keepsScope gridId origin scope
    revisionFloor := retain a.revisionFloor fun scope _ => keepsScope gridId origin scope }

/-- Drop an origin that exceeded a limit and refuse its replays until they age out. -/
def blockOrigin (a : ModelInventoryAssembler) (origin : String) (nowMs : UInt64) :
    ModelInventoryAssembler :=
  let a := a.removeOrigin origin
  { a with blockedOrigins := a.blockedOrigins.insert origin (replayDeadline nowMs) }

def pendingFramesForOrigin (a : ModelInventoryAssembler) (origin : String) : Nat :=
  ((a.pending.toList.filter fun e => e.1.scope.originSite == origin).map
    fun e => e.2.frames.size).sum

/-- The limits on scopes, names and name bytes of one origin. -/
def canRetainInventory (a : ModelInventoryAssembler) (scope : InventoryScope)
    (incoming : ModelInventory) : Bool :=
  let others := a.complete.toList.filter fun e =>
    e.1.originSite == scope.originSite && e.1 != scope
  let heldNames := (others.map fun e => e.2.models.length).sum
  let heldBytes := (others.map fun e => nameBytes e.2.models).sum
  let heldScopes := a.revisionFloor.keys.countP fun held =>
    held.originSite == scope.originSite && held != scope
  let pendingBytes := ((a.pending.toList.filter fun e =>
    e.1.scope.originSite == scope.originSite).map
      fun e => ((values e.2.frames).map nameBytes).sum).sum
  heldScopes < maxOriginProviderInventories
    && heldNames + incoming.models.length ≤ maxOriginModelPairs
    && heldBytes + nameBytes incoming.models + pendingBytes ≤ maxOriginInventoryNameBytes

/-- Release what expired. -/
def prune (a : ModelInventoryAssembler) (nowMs : UInt64) : ModelInventoryAssembler :=
  let complete := retain a.complete fun _ inventory => nowMs < inventory.expiresAtMs
  { pending := retain a.pending fun _ pending =>
      nowMs < pending.expiresAtMs && satSub nowMs pending.startedAtMs ≤ maxBroadcastAgeMs
    complete := complete
    revisionFloor := retain a.revisionFloor fun scope held =>
      nowMs ≤ held.retainUntilMs || complete.contains scope
    blockedOrigins := retain a.blockedOrigins fun _ untilMs => nowMs ≤ untilMs }

def scopeOf (b : ModelInventoryBroadcast) : InventoryScope :=
  ⟨b.originSite, b.gridId, b.frame.networkId, b.frame.providerId, b.frame.providerUid⟩

def completed (key : InventoryKey) (pending : PendingInventory) : ModelInventory :=
  { originSite := key.scope.originSite
    gridId := key.scope.gridId
    networkId := key.scope.networkId
    providerId := key.scope.providerId
    providerUid := key.scope.providerUid
    revision := key.revision
    expiresAtMs := pending.expiresAtMs
    models := (values pending.frames).flatten }

/-- Replace the inventory of a scope once its last frame is in. -/
def finish (c : Crypto) (a : ModelInventoryAssembler) (key : InventoryKey)
    (pending : PendingInventory) (nowMs : UInt64) :
    Except InventoryFrameError InventoryAssemblyResult × ModelInventoryAssembler :=
  let inventory := completed key pending
  let a := { a with pending := a.pending.erase key }
  match validateComplete c inventory pending.digest with
  | .error e => (.error e, a)
  | .ok () =>
    if a.canRetainInventory key.scope inventory then
      (.ok (.complete inventory),
        { a with
          pending := retain a.pending fun held _ =>
            held.scope != key.scope || key.revision < held.revision
          revisionFloor := a.revisionFloor.insert key.scope
            ⟨inventory.revision, replayDeadline nowMs⟩
          complete := a.complete.insert key.scope inventory })
    else (.error .inventoryCapacity, a.blockOrigin key.scope.originSite nowMs)

/-- Retain a frame that passed its checks, in a pruned assembler. -/
def insertFrame (c : Crypto) (a : ModelInventoryAssembler) (b : ModelInventoryBroadcast)
    (nowMs : UInt64) :
    Except InventoryFrameError InventoryAssemblyResult × ModelInventoryAssembler :=
  let key : InventoryKey := ⟨scopeOf b, b.frame.inventoryRevision⟩
  -- older revisions of the same instance give way
  let a := { a with
    pending := retain a.pending fun held _ =>
      held.scope != key.scope || key.revision ≤ held.revision }
  let duplicate := a.pending[key]?.any fun pending => pending.frames.contains b.frame.frameIndex
  if !duplicate && maxInProgressFramesPerOrigin ≤ a.pendingFramesForOrigin b.originSite then
    (.error .inProgressCapacity, a.blockOrigin b.originSite nowMs)
  else
    let pending := a.pending.getD key
      { expiresAtMs := b.frame.expiresAtMs
        frameCount := b.frame.frameCount
        digest := b.frame.inventoryDigest
        frames := ∅
        startedAtMs := nowMs }
    match pending.insert b.frame with
    | .error e => (.error e, { a with pending := a.pending.erase key })
    | .ok pending =>
      if pending.frames.size ≠ pending.frameCount.toNat then
        (.ok (if duplicate then .duplicate else .incomplete),
          { a with pending := a.pending.insert key pending })
      else finish c a key pending nowMs

/-- The checks a frame passes before it is retained. -/
def checkFrame (a : ModelInventoryAssembler) (b : ModelInventoryBroadcast) (nowMs : UInt64) :
    Except InventoryFrameError Unit := do
  validateFrame b.frame nowMs
  if a.blockedOrigins.contains b.originSite then .error .inventoryCapacity
  else
    (scopeOf b).validate
    if a.revisionFloor[scopeOf b]?.any fun held => b.frame.inventoryRevision ≤ held.revision then
      .error .staleRevision
    else .ok ()

/-- Accept an authenticated frame; the inventory is replaced only on completion. -/
def push (c : Crypto) (a : ModelInventoryAssembler) (b : ModelInventoryBroadcast)
    (nowMs : UInt64) :
    Except InventoryFrameError InventoryAssemblyResult × ModelInventoryAssembler :=
  let a := a.prune nowMs
  match a.checkFrame b nowMs with
  | .error e => (.error e, a)
  | .ok () => a.insertFrame c b nowMs

end ModelInventoryAssembler

end PraxisGrid
