/-
PraxisGrid/Gateway/Dial.lean

The rules a dial file is checked by: `validate_dials` and `validate_request_shape` in
`crates/gateway/crates/ai-grid-filters/src/dial.rs`, with the names of
`crates/certs/src/generate.rs` and `address_host` of `crates/client/src/hop.rs`.

One dial that breaks a rule refuses the whole file, so what is accepted is described at once for all
of it (`validateDials_eq_ok_iff`).  Whether a host is an IP literal is a parameter.
-/
import PraxisGrid.Gateway.Descriptor
import PraxisGrid.Lib.Text

namespace PraxisGrid.Gateway

open Std OrdMap Checks

/-! ### Names -/

def spiffeTrustDomain : String := "grid.internal"

/-- The name a site's gateway answers to. -/
def siteDnsName (site : String) : String := site ++ "." ++ spiffeTrustDomain

/-- The grid's own name or one under it; case and a trailing dot are ignored. -/
def isGridName (host : List Char) : Bool :=
  let host := if host.getLast? = some '.' then host.dropLast else host
  let head := host.take (host.length - spiffeTrustDomain.toList.length)
  let tail := host.drop (host.length - spiffeTrustDomain.toList.length)
  tail.map Char.toLower = spiffeTrustDomain.toList && (head.isEmpty || head.getLast? = some '.')

example : isGridName "East.Grid.Internal.".toList = true := by decide

example : isGridName "notgrid.internal".toList = false := by decide

/-- Eight lowercase hex digits. -/
def isStableId (id : String) : Bool :=
  id.toList.length = 8 && id.toList.all fun ch => Text.isDigit ch || ('a' ≤ ch && ch ≤ 'f')

/-- The host of an address, whose brackets and port are taken away. -/
def addressHost (address : List Char) : List Char :=
  match Text.strip '[' address with
  | some rest =>
    match Text.splitOnce ']' rest with
    | some (host, _) => host
    | none => rest
  | none =>
    match Text.splitOnce ':' address with
    -- a second colon is an unbracketed IPv6 literal with no port
    | some (host, port) => if port.contains ':' then address else host
    | none => address

/-! ### What is fixed at startup -/

/-- The files of the identity that every mutual TLS dial presents and verifies against. -/
structure GridIdentity where
  ca : String
  cert : String
  key : String
deriving DecidableEq

def PeerServingConfig.identity (peer : PeerServingConfig) : GridIdentity :=
  ⟨peer.gridCaPath, peer.clientCertPath, peer.clientKeyPath⟩

structure Binding where
  /-- the directory every server-only TLS dial's CA must be under -/
  backendCaBase : String := "/run/secrets/grid-backend-ca"
  /-- the directory every local dial's credential must be under -/
  credentialBase : String := "/run/secrets/grid-credentials"
  /-- the verified name of each mutual TLS cluster of the load balancer -/
  backendTls : ExtTreeMap String String := ∅
  gridIdentity : GridIdentity :=
    ⟨"/etc/praxis/tls/ca.crt", "/etc/praxis/tls/tls.crt", "/etc/praxis/tls/tls.key"⟩

/-! ### The rules -/

/-- Why a dial file is refused; each names the cluster it is about. -/
inductive DialError
  | descriptor (error : DescriptorError)
  /-- a dial names a site other than its candidate's -/
  | otherSite (cluster dialSite name site : String)
  /-- a dial serves a candidate whose credential it does not send -/
  | credentialUnsent (cluster name : String)
  /-- a candidate on a mutual TLS dial is missing its stable id -/
  | stableIdMissing (name cluster : String)
  /-- a peer presents an identity other than the mount's -/
  | peerIdentity (site : String)
  /-- a mutual TLS dial must verify the name of its site -/
  | siteName (cluster expected sni : String)
  /-- a dial leaves this site without grid mutual TLS -/
  | leavesSite (cluster : String)
  /-- a dial trusts a private IP literal off this site -/
  | privateLiteral (cluster : String)
  /-- a dial would send a credential off this site -/
  | credentialLeaves (cluster : String)
  /-- a dial reads its credential outside the credential base -/
  | credentialOutside (cluster : String)
  | basePath (cluster path : String)
  /-- a dial reads its CA outside the backend CA base -/
  | caOutside (cluster path : String)
  /-- a provider hop is not a mutual TLS dial to the name it declares -/
  | hopSni (cluster declared : String)
  /-- a dial does not verify the name of the mutual TLS cluster it replaces -/
  | backendSni (cluster verified : String)

/-- An absolute path with no query, fragment, empty segment or dot segment. -/
def cleanBasePath (path : List Char) : Bool :=
  path.head? = some '/' && !path.contains '?' && !path.contains '#'
    && !(path.zip path.tail).contains ('/', '/')
    && !((path.splitOn '/').any fun segment => segment = ['.', '.'] || segment = ['.'])

section Rules

variable (isIpLiteral : List Char → Bool) (config : GridServingConfig) (dials : DialConfig)
  (binding : Binding)

def validateCandidateDial (candidate : CandidateConfig) : Except DialError Unit :=
  given dials[candidate.cluster]? fun dial => do
    ensure (dial.site == candidate.site)
      (.otherSite candidate.cluster dial.site candidate.name candidate.site)
    -- Only a local dial carries a credential, and only one it sends itself.
    ensure (candidate.credential.isNone
        || (dial.site == config.localSite && !dial.transport.isMutual && dial.credential.isSome))
      (.credentialUnsent candidate.cluster candidate.name)
    ensure (!dial.transport.isMutual || candidate.stableId.isSome)
      (.stableIdMissing candidate.name candidate.cluster)

def validateRequestShape (cluster : String) (dial : DialSpec) (here : Bool) :
    Except DialError Unit := do
  given dial.credential fun path => do
    ensure (here && !dial.transport.isMutual) (.credentialLeaves cluster)
    ensure (Paths.within path.toList binding.credentialBase.toList) (.credentialOutside cluster)
  given dial.basePath fun path => ensure (cleanBasePath path.toList) (.basePath cluster path)

def DialTransport.mutualSni : DialTransport → Option String
  | .mutualTls sni => some sni
  | _ => none

def validateDial (cluster : String) (dial : DialSpec) : Except DialError Unit := do
  (validateSite ("dial." ++ cluster ++ ".site") dial.site).mapError .descriptor
  let here := dial.site == config.localSite
  given dial.transport.mutualSni fun sni =>
    ensure (sni == siteDnsName dial.site) (.siteName cluster (siteDnsName dial.site) sni)
  ensure (here || dial.transport.isMutual) (.leavesSite cluster)
  ensure (here || !dial.trustedPrivate || !isIpLiteral (addressHost dial.address.toList))
    (.privateLiteral cluster)
  validateRequestShape binding cluster dial here
  given dial.transport.caPath fun path =>
    ensure (Paths.within path.toList binding.backendCaBase.toList) (.caOutside cluster path)
  given config.providerHopSni[cluster]? fun declared =>
    ensure (dial.transport == .mutualTls declared) (.hopSni cluster declared)
  given binding.backendTls[cluster]? fun verified =>
    ensure (dial.transport == .mutualTls verified) (.backendSni cluster verified)

/-- The first peer whose identity is not the one mutual TLS dials present. -/
def strangePeer : Option PeerServingConfig :=
  if (values dials).any fun dial => dial.transport.isMutual then
    config.peers.find? fun peer => peer.identity ≠ binding.gridIdentity
  else none

def validateDials : Except DialError Unit := do
  each (validateCandidateDial config dials) config.candidates
  given (strangePeer config dials binding) fun peer => .error (.peerIdentity peer.site)
  each (fun (cluster, dial) => validateDial isIpLiteral config binding cluster dial) dials.toList

end Rules

/-! ### What is accepted -/

structure DialSpec.Serves (config : GridServingConfig) (dial : DialSpec)
    (candidate : CandidateConfig) : Prop where
  site : dial.site = candidate.site
  credential : candidate.credential.isSome →
    dial.site = config.localSite ∧ dial.transport.isMutual = false ∧ dial.credential.isSome
  stableId : dial.transport.isMutual = true → candidate.stableId.isSome

/-- A dial that passes every rule of its own. -/
structure DialSpec.Valid (isIpLiteral : List Char → Bool) (config : GridServingConfig)
    (binding : Binding) (cluster : String) (dial : DialSpec) : Prop where
  label : isLabel dial.site = true
  sni : ∀ sni ∈ dial.transport.mutualSni, sni = siteDnsName dial.site
  leaves : dial.site ≠ config.localSite → dial.transport.isMutual = true
  literal : dial.site ≠ config.localSite → dial.trustedPrivate = true →
    isIpLiteral (addressHost dial.address.toList) = false
  credential : ∀ path ∈ dial.credential, dial.site = config.localSite
    ∧ dial.transport.isMutual = false
    ∧ Paths.within path.toList binding.credentialBase.toList = true
  basePath : ∀ path ∈ dial.basePath, cleanBasePath path.toList = true
  ca : ∀ path ∈ dial.transport.caPath,
    Paths.within path.toList binding.backendCaBase.toList = true
  hop : ∀ declared ∈ config.providerHopSni[cluster]?, dial.transport = .mutualTls declared
  backend : ∀ verified ∈ binding.backendTls[cluster]?, dial.transport = .mutualTls verified

section Accepted

variable {isIpLiteral : List Char → Bool} {config : GridServingConfig} {dials : DialConfig}
  {binding : Binding} {cluster : String} {dial : DialSpec}

theorem validateCandidateDial_eq_ok_iff {candidate : CandidateConfig} :
    validateCandidateDial config dials candidate = .ok ()
      ↔ ∀ dial ∈ dials[candidate.cluster]?, dial.Serves config candidate := by
  rw [validateCandidateDial, given_eq_ok_iff]
  refine forall_congr' fun dial => forall_congr' fun _ => ?_
  simp only [andThen_eq_ok_iff, ensure_eq_ok_iff, beq_iff_eq, Bool.or_eq_true, Bool.and_eq_true,
    Bool.not_eq_true', Option.isNone_iff_eq_none]
  constructor
  · rintro ⟨hsi, hcr, hst⟩
    refine ⟨hsi, ?_, ?_⟩
    · intro hsm
      rcases hcr with hnn | ⟨⟨hlc, htr⟩, hsn⟩
      · rw [hnn] at hsm
        cases hsm
      · exact ⟨hlc, htr, hsn⟩
    · intro hmut
      rcases hst with hnot | hsm
      · rw [hmut] at hnot
        cases hnot
      · exact hsm
  · rintro ⟨hsi, hcr, hst⟩
    refine ⟨hsi, ?_, ?_⟩
    · rcases hsm : candidate.credential with - | credential
      · exact Or.inl rfl
      · obtain ⟨hlc, htr, hsn⟩ := hcr (by rw [hsm]; rfl)
        exact Or.inr ⟨⟨hlc, htr⟩, hsn⟩
    · rcases hmut : dial.transport.isMutual with - | -
      · exact Or.inl rfl
      · exact Or.inr (hst hmut)

theorem validateRequestShape_eq_ok_iff {here : Bool} :
    validateRequestShape binding cluster dial here = .ok ()
      ↔ (∀ path ∈ dial.credential, (here = true ∧ dial.transport.isMutual = false)
          ∧ Paths.within path.toList binding.credentialBase.toList = true)
        ∧ ∀ path ∈ dial.basePath, cleanBasePath path.toList = true := by
  simp only [validateRequestShape, andThen_eq_ok_iff, given_eq_ok_iff, ensure_eq_ok_iff,
    Bool.and_eq_true, Bool.not_eq_true']

theorem mapError_eq_ok_iff {ε ε' α : Type} {result : Except ε α} {f : ε → ε'} {value : α} :
    result.mapError f = .ok value ↔ result = .ok value := by
  cases result with
  | error error | ok value => simp [Except.mapError]

theorem validateDial_eq_ok_iff :
    validateDial isIpLiteral config binding cluster dial = .ok ()
      ↔ dial.Valid isIpLiteral config binding cluster := by
  simp only [validateDial, andThen_eq_ok_iff, mapError_eq_ok_iff, validateSite, ensure_eq_ok_iff,
    validateRequestShape_eq_ok_iff, given_eq_ok_iff, Bool.or_eq_true, beq_iff_eq,
    Bool.not_eq_true']
  constructor
  · rintro ⟨hlb, hnm, hlv, hlt, ⟨hcr, hbs⟩, hca, hhop, hbc⟩
    refine ⟨hlb, hnm, ?_, ?_, ?_, hbs, hca, hhop, hbc⟩
    · exact fun hst => hlv.resolve_left hst
    · intro hst htd
      rcases hlt with (hlc | hnot) | hnm
      · exact absurd hlc hst
      · rw [htd] at hnot
        cases hnot
      · exact hnm
    · intro path hpt
      obtain ⟨⟨hlc, htr⟩, hwt⟩ := hcr path hpt
      exact ⟨hlc, htr, hwt⟩
  · intro h
    refine ⟨h.label, h.sni, ?_, ?_, ⟨?_, h.basePath⟩, h.ca, h.hop, h.backend⟩
    · by_cases hst : dial.site = config.localSite
      · exact Or.inl hst
      · exact Or.inr (h.leaves hst)
    · by_cases hst : dial.site = config.localSite
      · exact Or.inl (Or.inl hst)
      · rcases htd : dial.trustedPrivate with - | -
        · exact Or.inl (Or.inr rfl)
        · exact Or.inr (h.literal hst htd)
    · intro path hpt
      obtain ⟨hlc, htr, hwt⟩ := h.credential path hpt
      exact ⟨⟨hlc, htr⟩, hwt⟩

/-- The peers present the identity of the mount where a dial does. -/
theorem strangePeer_eq_none_iff :
    strangePeer config dials binding = none
      ↔ ((∃ (cluster : String) (dial : DialSpec), dials[cluster]? = some dial
            ∧ dial.transport.isMutual = true) →
          ∀ peer ∈ config.peers, peer.identity = binding.gridIdentity) := by
  have hany : (values dials).any (fun dial => dial.transport.isMutual) = true
      ↔ ∃ (cluster : String) (dial : DialSpec), dials[cluster]? = some dial
        ∧ dial.transport.isMutual = true := by
    rw [List.any_eq_true]
    constructor
    · rintro ⟨dial, hmem, hmut⟩
      obtain ⟨cluster, hclu⟩ := mem_values.mp hmem
      exact ⟨cluster, dial, hclu, hmut⟩
    · rintro ⟨cluster, dial, hclu, hmut⟩
      exact ⟨dial, mem_values.mpr ⟨cluster, hclu⟩, hmut⟩
  rw [strangePeer]
  split_ifs with hmut
  · rw [List.find?_eq_none]
    simp only [ne_eq, decide_not, Bool.not_eq_true', decide_eq_false_iff_not, not_not]
    exact ⟨fun h _ => h, fun h => h (hany.mp hmut)⟩
  · exact ⟨fun _ hsm => absurd (hany.mpr hsm) hmut, fun _ => rfl⟩

/-- **What the gateway accepts as a dial file.** -/
theorem validateDials_eq_ok_iff :
    validateDials isIpLiteral config dials binding = .ok () ↔
      (∀ candidate ∈ config.candidates, ∀ dial ∈ dials[candidate.cluster]?,
          dial.Serves config candidate)
      ∧ ((∃ (cluster : String) (dial : DialSpec), dials[cluster]? = some dial
            ∧ dial.transport.isMutual = true) →
          ∀ peer ∈ config.peers, peer.identity = binding.gridIdentity)
      ∧ ∀ (cluster : String) (dial : DialSpec), dials[cluster]? = some dial →
          dial.Valid isIpLiteral config binding cluster := by
  rw [validateDials, andThen_eq_ok_iff, andThen_eq_ok_iff, each_eq_ok_iff, each_eq_ok_iff,
    ← strangePeer_eq_none_iff]
  refine and_congr ?_ (and_congr ?_ ?_)
  · exact forall_congr' fun candidate => forall_congr' fun _ => validateCandidateDial_eq_ok_iff
  · rcases strangePeer config dials binding with - | peer
    · simp [given]
    · simp [given]
  · constructor
    · intro h cluster dial hdl
      have hmem : (cluster, dial) ∈ dials.toList :=
        ExtTreeMap.mem_toList_iff_getElem?_eq_some.mpr hdl
      exact validateDial_eq_ok_iff.mp (h (cluster, dial) hmem)
    · rintro h ⟨cluster, dial⟩ hmem
      exact validateDial_eq_ok_iff.mpr
        (h cluster dial (ExtTreeMap.mem_toList_iff_getElem?_eq_some.mp hmem))

end Accepted

end PraxisGrid.Gateway
