/-
PraxisGrid/Gateway/Descriptor.lean

The candidates of a serving config and how they are checked:
`crates/gateway/crates/ai-grid-filters/src/descriptor.rs`.

One candidate that breaks a rule refuses the whole list, so what the loop accepts is described
at once for all of it (`validateServingCandidates_eq_ok_iff`): each candidate is valid, no two
have the same identity, and there are no more than the gateway takes.

The serving config and the dial file beside it are those of
`crates/gateway/crates/ai-grid-filters/src/serving.rs`.  Timeouts, retries and the settings of the
signal pollers are left out: no modelled check reads them.
-/
import PraxisGrid.Gateway.Credentials
import PraxisGrid.Lib.Run
import PraxisGrid.Lib.OrdMap

namespace PraxisGrid.Gateway

open Checks Std

variable (isHeaderValue : List Char → Bool)

/-! ### Candidates as they are written -/

structure CandidateConfig where
  expiresAtMs : Option Nat := none
  admission : AdmissionState := .newAndExisting
  cluster : String
  credential : Option CandidateCredential := none
  fresh : Bool := true
  kind : CapabilityKind := .inferenceModel
  name : String
  publishesLoad : Bool := true
  site : String
  stableId : Option String := none
  weight : Option Nat := none

def CapabilityKind.asStr : CapabilityKind → String
  | .inferenceModel => "inference_model"
  | .mcpTool => "mcp_tool"

def maxCandidates : Nat := 1024

def maxNameLen : Nat := 256

def strategyBearerToken : String := "bearer_token"

/-- Why a descriptor is refused; each names the field it is about. -/
inductive DescriptorError
  /-- no candidates outside a versioned serving config -/
  | empty
  /-- more candidates than the maximum -/
  | tooMany
  /-- must be 1-256 non-blank characters -/
  | name (field : String)
  /-- must be a DNS-1123 label -/
  | label (field value : String)
  /-- must be a valid HTTP header value -/
  | headerValue (field : String)
  /-- the strategy of a credential is unsupported -/
  | strategy (field : String)
  /-- must not be zero -/
  | zero (field : String)
  /-- a candidate appears twice -/
  | duplicate (kind name site cluster : String)
  /-- must be 1-256 non-blank bytes -/
  | stableId (field : String)
  /-- a provider hop appears twice -/
  | duplicateHop

/-! ### Checks of one field -/

/-- Bounded and not blank. -/
def validName (value : String) : Bool :=
  !(Text.trim value.toList).isEmpty && Text.utf8Size value.toList ≤ maxNameLen

def isLabelEdge (ch : Char) : Bool := ('a' ≤ ch && ch ≤ 'z') || Text.isDigit ch

/-- A DNS-1123 label. -/
def isLabel (value : String) : Bool :=
  1 ≤ value.toList.length && value.toList.length ≤ 63
    && value.toList.head?.any isLabelEdge && value.toList.getLast?.any isLabelEdge
    && value.toList.all fun ch => isLabelEdge ch || ch = '-'

def validateName (field value : String) : Except DescriptorError Unit :=
  ensure (validName value) (.name field)

def validateSite (field value : String) : Except DescriptorError Unit :=
  ensure (isLabel value) (.label field value)

def validateHeaderValue (field value : String) : Except DescriptorError Unit :=
  ensure (isHeaderValue value.toList) (.headerValue field)

def fieldOf (index : Nat) (name : String) : String :=
  "candidates[" ++ toString index ++ "]." ++ name

def validateCredential (index : Nat) (credential : Option CandidateCredential) :
    Except DescriptorError Unit :=
  given credential fun credential => do
    ensure (credential.strategy == strategyBearerToken)
      (.strategy (fieldOf index "credential.strategy"))
    validateName (fieldOf index "credential.secretRef.name") credential.name
    validateName (fieldOf index "credential.secretRef.namespace") credential.namespace
    validateName (fieldOf index "credential.secretRef.key") credential.key

def validateStableId (index : Nat) (stableId : String) : Except DescriptorError Unit := do
  ensure (validName stableId) (.stableId (fieldOf index "stable_id"))
  validateHeaderValue isHeaderValue (fieldOf index "stable_id") stableId

/-! ### Checks of a list -/

/-- What no two candidates may share. -/
def CandidateConfig.identity (candidate : CandidateConfig) :
    CapabilityKind × String × String × String :=
  (candidate.kind, candidate.name, candidate.site, candidate.cluster)

def defaultStableId (candidate : CandidateConfig) : String :=
  candidate.kind.asStr ++ "/" ++ candidate.name ++ "/" ++ candidate.site ++ "/" ++ candidate.cluster

/-- A candidate before any signal is known of it. -/
def CandidateConfig.routeCandidate (candidate : CandidateConfig) : RouteCandidate :=
  { kind := candidate.kind
    name := candidate.name
    site := candidate.site
    cluster := candidate.cluster
    admissionState := candidate.admission
    expiresAtMs := candidate.expiresAtMs
    publishesLoad := candidate.publishesLoad
    stableId := candidate.stableId.getD (defaultStableId candidate)
    credential := candidate.credential
    weight := candidate.weight.getD 1 }

/-- The checks of one candidate that do not look at the others. -/
def validateFields (index : Nat) (candidate : CandidateConfig) : Except DescriptorError Unit := do
  validateName (fieldOf index "name") candidate.name
  validateSite (fieldOf index "site") candidate.site
  validateName (fieldOf index "cluster") candidate.cluster
  validateHeaderValue isHeaderValue (fieldOf index "cluster") candidate.cluster
  validateCredential index candidate.credential
  ensure (candidate.weight != some 0) (.zero (fieldOf index "weight"))

/-- The loop over the candidates, with the identities seen so far. -/
def validateFrom (index : Nat) (seen : List (CapabilityKind × String × String × String)) :
    List CandidateConfig → Except DescriptorError (List RouteCandidate)
  | [] => .ok []
  | candidate :: rest => do
    validateFields isHeaderValue index candidate
    ensure (!seen.contains candidate.identity)
      (.duplicate candidate.kind.asStr candidate.name candidate.site candidate.cluster)
    given candidate.stableId (validateStableId isHeaderValue index)
    let candidates ← validateFrom (index + 1) (candidate.identity :: seen) rest
    .ok (candidate.routeCandidate :: candidates)

def validateCandidatesWithEmpty (raw : List CandidateConfig) (allowEmpty : Bool) :
    Except DescriptorError (List RouteCandidate) :=
  if raw.isEmpty && !allowEmpty then .error .empty
  else if raw.length > maxCandidates then .error .tooMany
  else validateFrom isHeaderValue 0 [] raw

/-- In a versioned serving config an empty list says that there is no route. -/
def validateServingCandidates (raw : List CandidateConfig) :
    Except DescriptorError (List RouteCandidate) :=
  validateCandidatesWithEmpty isHeaderValue raw true

/-- The loop over the provider hops, with the clusters seen so far. -/
def validateHopsFrom (index : Nat) (seen : List String) :
    List String → Except DescriptorError Unit
  | [] => .ok ()
  | cluster :: rest => do
    validateName ("provider_hop_clusters[" ++ toString index ++ "]") cluster
    ensure (!seen.contains cluster) .duplicateHop
    validateHopsFrom (index + 1) (cluster :: seen) rest

/-- The clusters that may carry provider-gateway hops, each once. -/
def validateProviderHopClusters (raw : List String) :
    Except DescriptorError (Std.ExtTreeSet String) := do
  validateHopsFrom 0 [] raw
  .ok (Std.ExtTreeSet.ofList raw)

/-! ### What is accepted -/

/-- A credential that a candidate may carry. -/
structure CandidateCredential.Valid (credential : CandidateCredential) : Prop where
  strategy : credential.strategy = strategyBearerToken
  name : validName credential.name = true
  «namespace» : validName credential.namespace = true
  key : validName credential.key = true

def validStableId (stableId : String) : Bool := validName stableId && isHeaderValue stableId.toList

/-- A candidate that passes every check of its own. -/
structure CandidateConfig.Valid (candidate : CandidateConfig) : Prop where
  name : validName candidate.name = true
  site : isLabel candidate.site = true
  cluster : validName candidate.cluster = true
  header : isHeaderValue candidate.cluster.toList = true
  credential : ∀ credential ∈ candidate.credential, credential.Valid
  weight : candidate.weight ≠ some 0
  stableId : ∀ stableId ∈ candidate.stableId, validStableId isHeaderValue stableId = true

theorem validateName_eq_ok_iff {field value : String} :
    validateName field value = .ok () ↔ validName value = true := ensure_eq_ok_iff

variable {index : Nat} {isHeaderValue}

theorem validateCredential_eq_ok_iff {credential : Option CandidateCredential} :
    validateCredential index credential = .ok () ↔ ∀ c ∈ credential, c.Valid := by
  rw [validateCredential, given_eq_ok_iff]
  refine forall_congr' fun c => forall_congr' fun _ => ?_
  simp only [andThen_eq_ok_iff, ensure_eq_ok_iff, validateName_eq_ok_iff, beq_iff_eq]
  constructor
  · rintro ⟨hst, hna, hnm, hkey⟩
    exact ⟨hst, hna, hnm, hkey⟩
  · intro h
    exact ⟨h.strategy, h.name, h.namespace, h.key⟩

theorem validateStableId_eq_ok_iff {stableId : String} :
    validateStableId isHeaderValue index stableId = .ok ()
      ↔ validStableId isHeaderValue stableId = true := by
  rw [validateStableId, andThen_eq_ok_iff, ensure_eq_ok_iff, validateHeaderValue, ensure_eq_ok_iff,
    validStableId, Bool.and_eq_true]

theorem validateFields_eq_ok_iff {candidate : CandidateConfig} :
    validateFields isHeaderValue index candidate = .ok ()
        ∧ given candidate.stableId (validateStableId isHeaderValue index) = .ok ()
      ↔ candidate.Valid isHeaderValue := by
  simp only [validateFields, andThen_eq_ok_iff, validateName_eq_ok_iff, validateSite,
    validateHeaderValue, ensure_eq_ok_iff, validateCredential_eq_ok_iff, given_eq_ok_iff,
    validateStableId_eq_ok_iff, bne_iff_ne]
  constructor
  · rintro ⟨⟨hnm, hsi, hclu, hhd, hcr, hwg⟩, hst⟩
    exact ⟨hnm, hsi, hclu, hhd, hcr, hwg, hst⟩
  · intro h
    exact ⟨⟨h.name, h.site, h.cluster, h.header, h.credential, h.weight⟩, h.stableId⟩

variable {raw : List CandidateConfig} {candidates : List RouteCandidate}

/-- What the loop accepts from a place on, and what it makes of it. -/
theorem validateFrom_eq_ok_iff {seen : List (CapabilityKind × String × String × String)} :
    validateFrom isHeaderValue index seen raw = .ok candidates ↔
      (∀ candidate ∈ raw, candidate.Valid isHeaderValue) ∧ (raw.map CandidateConfig.identity).Nodup
        ∧ (∀ candidate ∈ raw, candidate.identity ∉ seen)
        ∧ candidates = raw.map CandidateConfig.routeCandidate := by
  induction raw generalizing index seen candidates with
  | nil =>
    rw [validateFrom]
    simp [eq_comm]
  | cons candidate rest ih =>
    rw [validateFrom, andThen_eq_ok_iff, andThen_eq_ok_iff, ensure_eq_ok_iff, andThen_eq_ok_iff,
      bind_eq_ok_iff]
    simp only [ih, Bool.not_eq_true', List.forall_mem_cons, List.map_cons, List.nodup_cons]
    constructor
    · rintro ⟨hfl, hfr, hst, found, ⟨hvl, hnd, hun, rfl⟩, hfn⟩
      refine ⟨⟨validateFields_eq_ok_iff.mp ⟨hfl, hst⟩, hvl⟩, ⟨?_, hnd⟩, ⟨?_, ?_⟩, ?_⟩
      · intro hmem
        obtain ⟨other, hot, heq⟩ := List.mem_map.mp hmem
        exact hun other hot (heq ▸ List.mem_cons_self)
      · simpa using hfr
      · exact fun other hot hsn => hun other hot (List.mem_cons_of_mem _ hsn)
      · exact (Except.ok.inj hfn).symm
    · rintro ⟨⟨hcn, hvl⟩, ⟨hne, hnd⟩, ⟨hfr, hun⟩, rfl⟩
      obtain ⟨hfl, hst⟩ := validateFields_eq_ok_iff.mpr hcn
      refine ⟨hfl, by simpa using hfr, hst, _, ⟨hvl, hnd, ?_, rfl⟩, rfl⟩
      intro other hot hsn
      rcases List.mem_cons.mp hsn with heq | hsn
      · exact hne (List.mem_map.mpr ⟨other, hot, heq⟩)
      · exact hun other hot hsn

/-- **What the gateway accepts as the candidates of a serving config**: each valid, none twice, and
no more than it takes. -/
theorem validateServingCandidates_eq_ok_iff :
    validateServingCandidates isHeaderValue raw = .ok candidates ↔
      raw.length ≤ maxCandidates ∧ (∀ candidate ∈ raw, candidate.Valid isHeaderValue)
        ∧ (raw.map CandidateConfig.identity).Nodup
        ∧ candidates = raw.map CandidateConfig.routeCandidate := by
  rw [validateServingCandidates, validateCandidatesWithEmpty, Bool.not_true, Bool.and_false,
    if_neg Bool.false_ne_true]
  split_ifs with hlen
  · constructor
    · nofun
    · intro h
      exact absurd h.1 (by omega)
  · rw [validateFrom_eq_ok_iff]
    simp only [List.not_mem_nil, not_false_eq_true, implies_true, true_and]
    exact ⟨fun h => ⟨by omega, h⟩, fun h => h.2⟩

/-! ### The serving config and the dial file -/

/-- How a dialed connection is secured. -/
inductive DialTransport
  /-- grid mutual TLS with this site's identity -/
  | mutualTls (sni : String)
  /-- server-only TLS, under a CA file or the system roots -/
  | tls (caPath : Option String) (sni : String)
  | plaintext
deriving DecidableEq

/-- The verified server name. -/
def DialTransport.sni : DialTransport → Option String
  | .mutualTls sni => some sni
  | .tls _ sni => some sni
  | .plaintext => none

def DialTransport.caPath : DialTransport → Option String
  | .tls caPath _ => caPath
  | .mutualTls _ => none
  | .plaintext => none

def DialTransport.isMutual : DialTransport → Bool
  | .mutualTls _ => true
  | _ => false

/-- An upstream that the gateway is to build for a cluster. -/
structure DialSpec where
  address : String
  basePath : Option String := none
  /-- the file of the token a local dial sends in place of the caller's credential -/
  credential : Option String := none
  site : String
  transport : DialTransport
  trustedPrivate : Bool := false

/-- The dials by candidate cluster. -/
abbrev DialConfig := ExtTreeMap String DialSpec

/-- A peer to poll, by the files of the identity presented to it. -/
structure PeerServingConfig where
  site : String
  gridCaPath : String
  clientCertPath : String
  clientKeyPath : String

structure GridServingConfig where
  localSite : String
  horizonMs : Option Int := none
  candidates : List CandidateConfig
  providerHopClusters : List String := []
  providerHopSni : ExtTreeMap String String := ∅
  sovereigntyZones : ExtTreeMap String String := ∅
  peers : List PeerServingConfig := []

end PraxisGrid.Gateway
