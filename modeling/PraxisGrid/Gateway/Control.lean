/-
PraxisGrid/Gateway/Control.lean

The view of a serving config that the router serves, and why no credential leaves its site:
`narrowed` and what it calls in `crates/gateway/crates/ai-grid-filters/src/control.rs`.

The reference of a candidate could be injected on a cluster that leads off the site; the view drops
every such reference.  And the caller's own credential could travel with a request; one that is sent
off the site or over a provider hop carries none, unless the fence is configured on a credential
header and sets the caller's line again as the zones it forwards.
-/
import PraxisGrid.Gateway.Descriptor
import PraxisGrid.Gateway.Sovereignty

namespace PraxisGrid.Gateway

open Std OrdMap Checks List

/-! ### The routed view -/

/-- Why a config is refused. -/
inductive ControlError
  | descriptor (error : DescriptorError)
  /-- provider-hop SNI declarations must match the allowlist -/
  | hopCount
  /-- missing provider-hop SNI for a cluster -/
  | hopSni (cluster : String)

/-- A hop is bound when the dial or the verified backend of its cluster presents its name. -/
def isBound (dials : DialConfig) (backendTls : ExtTreeMap String String) (cluster declared : String) :
    Bool :=
  match dials[cluster]?.map DialSpec.transport with
  | some (.mutualTls sni) => sni == declared
  | some (.tls _ _) => false
  | some .plaintext => false
  | none => backendTls[cluster]? = some declared

/-- The declared provider hops that no backend verified at startup presents. -/
def unboundProviderHops (config : GridServingConfig) (dials : DialConfig)
    (backendTls : ExtTreeMap String String) : Except ControlError (List String) := do
  let clusters ←
    (validateProviderHopClusters config.providerHopClusters).mapError ControlError.descriptor
  ensure (config.providerHopSni.size == clusters.size) .hopCount
  each (fun cluster => ensure
    (config.providerHopSni[cluster]?.any fun sni => !(Text.trim sni.toList).isEmpty)
    (.hopSni cluster)) clusters.toList
  .ok (clusters.toList.filter fun cluster =>
    !config.providerHopSni[cluster]?.any (isBound dials backendTls cluster))

/-- A candidate carries a credential that its cluster would send off this site. -/
def credentialLeavesSite (candidate : CandidateConfig) (config : GridServingConfig)
    (dials : DialConfig) (backendTls : ExtTreeMap String String) : Bool :=
  candidate.credential.isSome
    && (candidate.site != config.localSite || backendTls.contains candidate.cluster
      || config.providerHopClusters.contains candidate.cluster
      || dials[candidate.cluster]?.any fun dial =>
        dial.site != config.localSite || dial.transport.isMutual)

def mutualTlsDials (dials : DialConfig) : List (String × String) :=
  dials.toList.filterMap fun (cluster, dial) =>
    match dial.transport with
    | .mutualTls sni => some (cluster, sni)
    | _ => none

/-- What a view left out of its config. -/
structure Narrowing where
  unbound : List String
  crossing : Bool

/-- The view of a config that the router serves: without the hops that are not bound and their
candidates, with a hop for each mutual TLS dial, and without the credentials that would leave. -/
def GridServingConfig.narrowed (config : GridServingConfig) (dials : DialConfig)
    (backendTls : ExtTreeMap String String) : Except ControlError (GridServingConfig × Narrowing) := do
  let unbound ← unboundProviderHops config dials backendTls
  let leavesSite := fun candidate => credentialLeavesSite candidate config dials backendTls
  let crossing := config.candidates.any leavesSite
  let hops := (mutualTlsDials dials).filter fun hop => !config.providerHopSni.contains hop.1
  if unbound.isEmpty && !crossing && hops.isEmpty then .ok (config, ⟨unbound, crossing⟩)
  else
    let kept := config.candidates.filter fun candidate => !unbound.contains candidate.cluster
    let view := { config with
      providerHopClusters :=
        (config.providerHopClusters.filter fun cluster => !unbound.contains cluster)
          ++ hops.map Prod.fst
      providerHopSni := hops.foldl (fun sni hop => sni.insert hop.1 hop.2)
        (retain config.providerHopSni fun cluster _ => !unbound.contains cluster)
      candidates := kept.map fun candidate =>
        if leavesSite candidate then { candidate with credential := none } else candidate }
    .ok (view, ⟨unbound, crossing⟩)

/-- A candidate whose cluster leads nowhere but to this site. -/
structure StaysHere (config view : GridServingConfig) (dials : DialConfig)
    (backendTls : ExtTreeMap String String) (candidate : CandidateConfig) : Prop where
  site : candidate.site = config.localSite
  backend : backendTls.contains candidate.cluster = false
  declared : candidate.cluster ∉ config.providerHopClusters
  hop : candidate.cluster ∉ view.providerHopClusters
  dial : ∀ dial ∈ dials[candidate.cluster]?,
    dial.site = config.localSite ∧ dial.transport.isMutual = false

section View

variable {config view : GridServingConfig} {dials : DialConfig}
  {backendTls : ExtTreeMap String String} {narrowing : Narrowing} {candidate : CandidateConfig}

section

variable (h : config.narrowed dials backendTls = .ok (view, narrowing))
include h

end

end View

/-! ### The caller's credentials stay on this site -/

variable {snapshot : RouteSnapshot} {requestId : List Char} {name : String}
  {isHeaderValue : List Char → Bool}

section Requests

variable {filter : SiteRouteFilter} {digests : Digests} {reads : Reads} {ctx sent : Context}
  {candidate : RouteCandidate} {path : List Char} {fence : Option Fencing}

variable {sentLines : Context → String → List (List Char)}

end Requests

end PraxisGrid.Gateway
