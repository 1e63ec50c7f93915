/-
PraxisGrid/Operator/PeerProviders.lean

The provider catalogs polled from peers and which of their records may route:
`crates/operator/src/site_providers.rs`.

The cluster a record names selects where this site's gateway sends a request, so each cluster
may be routed for one site only.  Who that is comes from all the catalogs at once (`claimants`) and
is applied record by record (`refusal`), after this site's own clusters and those bound to a gateway
hop.  A record that is not refused can still be cut, past its peer's share of the overlay's ceiling,
or dropped, when no candidate can use it.

A cluster that a single peer names is that peer's, whatever its name: `claimants` looks at names
only where several peers meet.  So is one that a hop binds to a peer.  Which texts are header values
is a parameter.
-/
import Mathlib.Data.List.Induction
import PraxisGrid.Swim.Inventory

namespace PraxisGrid.Operator

open Std List

/-! ### Records -/

/-- One provider record as a peer reads it: its network and no site. -/
structure WireProvider where
  networkId : String
  providerId : String
  routingCluster : String
  models : List String := []
  tools : List String := []
  backendKind : String := ""
  capacityWeight : UInt32
  phase : ProviderPhase
  matchLabels : ExtTreeMap String String := ∅
  revision : UInt64
deriving DecidableEq

def maxModelsPerRecord : Nat := maxInventoryModels

section States

variable (isHeaderValue : List Char → Bool)

def headerSafe (name : String) : Bool := !name.isEmpty && isHeaderValue name.toList

/-- The provider state that a site serves, none for a record no candidate can use. -/
def WireProvider.intoState (record : WireProvider) (site : String) : Option ProviderState :=
  if !headerSafe isHeaderValue record.providerId || !headerSafe isHeaderValue record.routingCluster
      || !isValidCapacityWeight record.capacityWeight
      || record.models.length > maxModelsPerRecord then none
  else
    some
      { networkId := record.networkId
        siteId := site
        providerId := record.providerId
        routingCluster := record.routingCluster
        models := record.models
        tools := record.tools
        backendKind := record.backendKind
        capacityWeight := record.capacityWeight
        phase := record.phase
        metrics := {}
        accessPolicy := ⟨record.matchLabels⟩
        revision := record.revision
        writerId := site }

end States

/-- The catalogs held, by the peer they were read from. -/
abbrev Catalogs := ExtTreeMap String (List WireProvider)

/-- A record and the peer that serves it. -/
abbrev Served := String × WireProvider

/-- Clusters each bound to the one site that may route to it. -/
abbrev ClusterSites := ExtTreeMap String String

/-- Who a cluster that peers name belongs to. -/
inductive Claim
  /-- one peer names it -/
  | sole
  /-- several name it and one holds it by declaration -/
  | held (owner : String) (others : List String)
  /-- several name it and nothing settles whose it is -/
  | contested (sites : List String)

abbrev Claims := ExtTreeMap String Claim

/-- The peers that name each cluster, without this site's own clusters. -/
def named (records : List Served) (reserved : ExtTreeSet String) :
    ExtTreeMap String (ExtTreeSet String) :=
  records.foldl (fun named record =>
    let cluster := record.2.routingCluster
    if cluster ∈ reserved then named
    else named.insert cluster ((named[cluster]?.getD ∅).insert record.1)) ∅

/-- Peers as a message names them, in order. -/
def names : List String → String
  | [one] => "peer " ++ one
  | many => "peers " ++ ", ".intercalate many

/-- Why a site may not route to a cluster, if it may not. -/
def refusal (cluster site : String) (reserved : ExtTreeSet String) (hops : ClusterSites)
    (claims : Claims) : Option (String × String) :=
  if cluster ∈ reserved then some ("OwnCluster", "this site's own")
  else
    match hops[cluster]?.filter fun bound => bound ≠ site with
    | some bound => some ("HopClaimed", "bound to the gateway hop of site " ++ bound)
    | none =>
      match claims[cluster]? with
      | none => none
      | some .sole => none
      | some (.held owner _) =>
        if owner = site then none
        else some ("ClusterClaimed", "which site " ++ owner ++ " holds by name")
      | some (.contested sites) =>
        let others := names (sites.filter fun other => other ≠ site)
        some ("ClusterContested", "which " ++ others ++ " also names; a cluster routes to one site, "
          ++ "so none of them routes it until they differ")

/-! ### Shares of the ceiling -/

structure Shared where
  /-- what each peer over its share may contribute -/
  allowance : ExtTreeMap String Nat
  /-- each peer that took part of the remainder, with how much -/
  took : List (String × Nat)
  share : Nat
  peers : Nat

/-- The candidates a record contributes: one per model, and one for a record with none. -/
def candidates (provider : WireProvider) : Nat := max provider.models.length 1

/-- How many of a peer's candidates wait, of how many. -/
structure Waiting where
  leftOut : Nat := 0
  total : Nat := 0

/-- What a peer over its share may still contribute, and what of its catalog waits. -/
structure Allowance where
  left : Nat
  waiting : Waiting := {}

abbrev Budgets := ExtTreeMap String Allowance

def Budgets.new (shared : Shared) : Budgets :=
  OrdMap.mapValues shared.allowance fun allowed => ⟨allowed, {}⟩

/-- A record cut to what its peer may still contribute, models in name order. -/
def Budgets.cut (budgets : Budgets) (site : String) (record : WireProvider) :
    Budgets × Option WireProvider :=
  let wanted := candidates record
  match budgets[site]? with
  | none => (budgets, some record)
  | some allowance =>
    let total := allowance.waiting.total + wanted
    if wanted ≤ allowance.left then
      (budgets.insert site ⟨allowance.left - wanted, { allowance.waiting with total := total }⟩,
        some record)
    else
      let leftOut := allowance.waiting.leftOut + (wanted - allowance.left)
      (budgets.insert site ⟨0, ⟨leftOut, total⟩⟩,
        if allowance.left = 0 then none
        else some { record with
          models := (record.models.insertionSort (· ≤ ·)).take allowance.left })

def Budgets.short (budgets : Budgets) : ExtTreeMap String Waiting :=
  OrdMap.mapValues (OrdMap.retain budgets fun _ allowance => 0 < allowance.waiting.leftOut)
    Allowance.waiting

/-! ### Admission -/

/-- What an admission said of a peer's catalog. -/
inductive Verdict
  | refused (reason message : String)
  | noted (message : String)

/-- A refusal, by the first offending record of a peer. -/
def noteRefusal (reserved : ExtTreeSet String) (hops : ClusterSites) (claims : Claims)
    (verdicts : ExtTreeMap String Verdict) (record : Served) : ExtTreeMap String Verdict :=
  match refusal record.2.routingCluster record.1 reserved hops claims with
  | none => verdicts
  | some (reason, why) =>
    if record.1 ∈ verdicts then verdicts
    else
      verdicts.insert record.1
        (.refused reason ("names cluster " ++ record.2.routingCluster ++ ", " ++ why))

def keepRecord (isHeaderValue : List Char → Bool) (kept : Budgets × List ProviderState)
    (record : Served) : Budgets × List ProviderState :=
  let cut := kept.1.cut record.1 record.2
  (cut.1, kept.2 ++ (cut.2.bind fun record' => record'.intoState isHeaderValue record.1).toList)

/-- What an admission returns and records. -/
structure Routed where
  kept : List ProviderState
  short : ExtTreeMap String Waiting
  verdicts : ExtTreeMap String Verdict

/-- The records that may route, stamped as their peer's, each peer cut to what it may
contribute. -/
def routed (isHeaderValue : List Char → Bool) (records : List Served) (shared : Shared)
    (reserved : ExtTreeSet String) (hops : ClusterSites) (claims : Claims) : Routed :=
  let verdicts := records.foldl (noteRefusal reserved hops claims) ∅
  let routable := records.filter fun record =>
    (refusal record.2.routingCluster record.1 reserved hops claims).isNone
  let ordered := routable.insertionSort fun a b =>
    a.1 < b.1 ∨ (a.1 = b.1 ∧ a.2.providerId ≤ b.2.providerId)
  let kept := ordered.foldl (keepRecord isHeaderValue) (Budgets.new shared, [])
  ⟨kept.2, kept.1.short, verdicts⟩

section Kept

variable {records : List Served} {shared : Shared} {reserved : ExtTreeSet String}
  {hops : ClusterSites} {claims : Claims} {state : ProviderState} {isHeaderValue : List Char → Bool}

end Kept

/-! ### Claims -/

section Claims

variable {records : List Served} {reserved sites : ExtTreeSet String} {hops : ClusterSites}
  {cluster site : String}

end Claims

/-! ### Owners -/

/-- The catalog held of a peer names a cluster in a network. -/
def Names (held : Catalogs) (network peer cluster : String) : Prop :=
  ∃ providers, held[peer]? = some providers
    ∧ ∃ provider ∈ providers, provider.networkId = network ∧ provider.routingCluster = cluster

section Owners

variable {catalogs : PeerCatalogs} {network : String} {reserved : ExtTreeSet String}
  {hops : ClusterSites} {state other : ProviderState} {isHeaderValue : List Char → Bool}

end Owners

end PraxisGrid.Operator
