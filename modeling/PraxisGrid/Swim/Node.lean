/-
PraxisGrid/Swim/Node.lean

The trust and eviction operations of `SwimNode` (`crates/swim/src/node.rs`) and the runs
of a node: any interleaving of these operations with received items.
-/
import PraxisGrid.Swim.Handler
import PraxisGrid.Lib.Run

namespace PraxisGrid

open Std OrdMap Bincode

namespace StateBroadcastHandler

/-- Pin a site to a set of keys.  A site without a key before is evicted first; too many
keys are refused. -/
def pinOrigin (h : StateBroadcastHandler) (origin : String) (keys : List Bytes) :
    StateBroadcastHandler :=
  if maxPinnedKeysPerOrigin < keys.length then h
  else
    let wasUnpinned := (h.trust.pin (.site origin)).all List.isEmpty
    let h := if wasUnpinned then h.removeOrigin origin else h
    { h with trust := h.trust.setPin (.site origin) keys }

/-- Pin a site within one grid.  A first pin, a removed key or an empty set clears the
site's state in the grid. -/
def pinOriginForGrid (h : StateBroadcastHandler) (gridId origin : String) (keys : List Bytes) :
    StateBroadcastHandler :=
  if maxPinnedKeysPerOrigin < keys.length then h
  else
    let previous := h.trust.pin (.grid gridId origin)
    let purge := previous.all List.isEmpty ||
      previous.any fun previous => previous.any fun old => !keys.contains old
    let h := if purge || keys.isEmpty then h.removeGrid gridId (some origin) else h
    { h with trust := h.trust.setPin (.grid gridId origin) keys }

/-- Require signed state in a grid and bind it to a provider network.  An unchanged policy
keeps state and pins. -/
def enforceSignedGrid (h : StateBroadcastHandler) (gridId networkName : String) :
    StateBroadcastHandler :=
  if h.trust.isStrict gridId && h.trust.providerNetwork gridId == some networkName then h
  else
    let h := h.removeGrid gridId none
    { h with
      trust := ((h.trust.forgetGrid gridId).enforce gridId).bindProviderNetwork gridId networkName }

def holdStateAdmission (h : StateBroadcastHandler) : StateBroadcastHandler :=
  { h with trust := h.trust.holdStateAdmission }

def openStateAdmission (h : StateBroadcastHandler) : StateBroadcastHandler :=
  { h with trust := h.trust.openStateAdmission }

/-- Stop requiring signed state in a grid; retained state is kept. -/
def relaxSignedGrid (h : StateBroadcastHandler) (gridId : String) : StateBroadcastHandler :=
  { h with trust := h.trust.forgetGrid gridId }

/-- Revoke a site's identity in a grid and clear its state there. -/
def unpinOriginForGrid (h : StateBroadcastHandler) (gridId origin : String) :
    StateBroadcastHandler :=
  let h := h.removeGrid gridId (some origin)
  { h with trust := h.trust.setPin (.grid gridId origin) [] }

def clearOriginPinForGrid (h : StateBroadcastHandler) (gridId origin : String) :
    StateBroadcastHandler :=
  let h := h.removeGrid gridId (some origin)
  { h with trust := h.trust.removePin (.grid gridId origin) }

def unpinOrigin (h : StateBroadcastHandler) (origin : String) : StateBroadcastHandler :=
  { h with trust := h.trust.removePin (.site origin) }

end StateBroadcastHandler

/-- One operation on a node. -/
inductive NodeOp
  | pinOrigin (origin : String) (keys : List Bytes)
  | pinOriginForGrid (gridId origin : String) (keys : List Bytes)
  | enforceSignedGrid (gridId networkName : String)
  | relaxSignedGrid (gridId : String)
  | unpinOrigin (origin : String)
  | unpinOriginForGrid (gridId origin : String)
  | clearOriginPinForGrid (gridId origin : String)
  | holdStateAdmission
  | openStateAdmission
  | evictOrigin (origin : String)
  | forgetDepartedOrigin (origin : String)
  | receiveItem (now : Clock) (data : Bytes)

namespace StateBroadcastHandler

/-- The handler after one operation. -/
def step (c : Crypto) (h : StateBroadcastHandler) : NodeOp → StateBroadcastHandler
  | .pinOrigin origin keys => h.pinOrigin origin keys
  | .pinOriginForGrid gridId origin keys => h.pinOriginForGrid gridId origin keys
  | .enforceSignedGrid gridId networkName => h.enforceSignedGrid gridId networkName
  | .relaxSignedGrid gridId => h.relaxSignedGrid gridId
  | .unpinOrigin origin => h.unpinOrigin origin
  | .unpinOriginForGrid gridId origin => h.unpinOriginForGrid gridId origin
  | .clearOriginPinForGrid gridId origin => h.clearOriginPinForGrid gridId origin
  | .holdStateAdmission => h.holdStateAdmission
  | .openStateAdmission => h.openStateAdmission
  | .evictOrigin origin => h.removeOrigin origin
  | .forgetDepartedOrigin origin => h.forgetDeparted origin
  | .receiveItem now data => (h.receiveItem c now data).2

/-- The handler after a sequence of operations. -/
def run (c : Crypto) (h : StateBroadcastHandler) (ops : List NodeOp) : StateBroadcastHandler :=
  Run.run (step c) h ops

/-- The handlers a node can reach from its start. -/
def Reachable (c : Crypto) (h : StateBroadcastHandler) : Prop :=
  ∃ siteId maxOrigins ops, (withCapacity siteId maxOrigins).run c ops = h

/-- Induction over what a node can reach. -/
theorem Reachable.invariant {c : Crypto} {P : StateBroadcastHandler → Prop}
    (hin : ∀ siteId maxOrigins, P (withCapacity siteId maxOrigins))
    (hst : ∀ h op, P h → P (h.step c op)) {h : StateBroadcastHandler} (hr : Reachable c h) :
    P h := by
  obtain ⟨siteId, maxOrigins, ops, rfl⟩ := hr
  exact Run.run_invariant hst (hin siteId maxOrigins)

end StateBroadcastHandler

/-! ### Scenarios

Parts of the concrete runs that the results about runs are tried on. -/

namespace Scenario

/-- A record with nothing set but its identity. -/
def record (network site provider : String) : ProviderState where
  networkId := network
  siteId := site
  providerId := provider
  routingCluster := ""
  models := []
  tools := []
  backendKind := ""
  capacityWeight := defaultCapacityWeight
  phase := .available
  metrics := {}
  accessPolicy := ⟨∅⟩
  revision := 0
  writerId := site

def broadcast (origin : String) (revision : UInt64) (records : List ProviderState) :
    StateBroadcast where
  originSite := origin
  revision := revision
  snapshot := { GridStateSnapshot.new origin with
    providers := ExtTreeMap.ofList (records.map fun p => (p.key, p)) }

def spend (origin : String) (revision : UInt64) (tenant : String) (amount : UInt64) :
    StateBroadcast where
  originSite := origin
  revision := revision
  snapshot := { GridStateSnapshot.new origin with
    tenantSpend := (∅ : ExtTreeMap String GCounter).insert tenant
      ⟨origin, (∅ : ExtTreeMap String UInt64).insert origin amount⟩ }

/-- The broadcast with a signature made at time zero. -/
def signed (b : StateBroadcast) : StateBroadcast :=
  { b with signature := some [], signedAtMs := some 0 }

def wire (b : StateBroadcast) : Bytes := b.encode.toOption.getD []

/-- A broadcast arrives at time zero. -/
def deliver (b : StateBroadcast) : NodeOp := .receiveItem 0 (wire b)

end Scenario

end PraxisGrid
