/-
PraxisGrid/Gateway/Credentials.lean

What a routed request carries to the site it goes to: the context of a request and
`strip_credential_query`, `write_credentials`, `strip_caller_credentials` and
`write_provider_context` in `crates/gateway/crates/ai-grid-filters/src/route.rs`.

How the proxy makes the headers it forwards of the ones to remove and to set is a parameter, with
what is assumed of it in `Forwards`; which texts are header values is a parameter too.
-/
import PraxisGrid.Gateway.Bodies
import PraxisGrid.Gateway.Zones
import PraxisGrid.Lib.Pieces

namespace PraxisGrid.Gateway

/-! ### The context of a request -/

structure Request where
  headers : List (String × List Char) := []
  path : List Char
  query : Option (List Char) := none

def Request.pathAndQuery (request : Request) : List Char :=
  match request.query with
  | some query => request.path ++ '?' :: query
  | none => request.path

/-- What the filters of a request read and write. -/
structure Context where
  request : Request
  cluster : Option String := none
  upstream : Option String := none
  rewrittenPath : Option (List Char) := none
  headersToSet : List (String × List Char) := []
  headersToRemove : List String := []
  metadata : List (String × String) := []
  state : Option RouteState := none

def Context.sentPath (ctx : Context) : List Char :=
  ctx.rewrittenPath.getD ctx.request.pathAndQuery

/-- What is assumed of the lines that the proxy forwards under a name: of the values set the last
one, and none where the name is removed and nothing is set. -/
structure Forwards (sentLines : Context → String → List (List Char)) : Prop where
  set : ∀ {ctx name value}, (headerLines ctx.headersToSet name).getLast? = some value →
    sentLines ctx name = [value]
  removed : ∀ {ctx name}, headerLines ctx.headersToSet name = [] → name ∈ ctx.headersToRemove →
    sentLines ctx name = []

/-! ### Credentials of the caller -/

def callerCredentialHeaders : List String :=
  ["authorization", "proxy-authorization", "cookie", "x-api-key", "api-key", "x-goog-api-key",
   "ocp-apim-subscription-key", "x-amz-security-token", "x-auth-token", "x-access-token"]

def callerCredentialQueryParams : List String :=
  ["key", "api_key", "api-key", "apikey", "access_token", "token", "subscription-key",
   "client_secret", "sig", "signature", "x-amz-signature", "x-amz-security-token",
   "x-amz-credential"]

/-- Request metadata that the selected credential is read from. -/
def credentialMetadata : List String :=
  ["intelligent_route.credential.strategy", "intelligent_route.credential.name",
   "intelligent_route.credential.namespace", "intelligent_route.credential.key"]

/-- The byte of two hexadecimal digits. -/
def hexByte (high low : Char) : Option UInt8 := do
  let high ← Json.hexValue high
  let low ← Json.hexValue low
  some (high * 16 + low).toUInt8

/-- A text with its percent escapes resolved; what is no escape stays. -/
def percentDecode : List Char → List UInt8
  | [] => []
  | [ch] => utf8 [ch]
  | [ch, next] => utf8 [ch, next]
  | ch :: high :: low :: rest =>
    match if ch = '%' then hexByte high low else none with
    | some byte => byte :: percentDecode rest
    | none => utf8 [ch] ++ percentDecode (high :: low :: rest)

def lowerByte (byte : UInt8) : UInt8 := if 65 ≤ byte ∧ byte ≤ 90 then byte + 32 else byte

/-- Some backends split pairs on a semicolon as well. -/
def isSeparator (ch : Char) : Bool := ch = '&' || ch = ';'

def paramName (pair : List Char) : List UInt8 :=
  (percentDecode ((Pieces.body isSeparator pair).takeWhile (· != '='))).map lowerByte

def isCredential (pair : List Char) : Bool :=
  callerCredentialQueryParams.any fun known => paramName pair = (utf8 known.toList).map lowerByte

/-- A path and query without the caller's credential parameters, none when it carries none. -/
def stripCredentialQuery (pathAndQuery : List Char) : Option (List Char) := do
  let (path, query) ← Text.splitOnce '?' pathAndQuery
  if !(query.splitOnP isSeparator).any isCredential then none
  else
    let pieces := (Pieces.splitInclusive isSeparator query).filter fun pair => !isCredential pair
    let kept := Pieces.body isSeparator pieces.flatten
    if kept.isEmpty then some path else some (path ++ '?' :: kept)

def stripCallerCredentials (ctx : Context) : Context :=
  { ctx with
    headersToRemove := ctx.headersToRemove ++ callerCredentialHeaders
    rewrittenPath := (stripCredentialQuery ctx.sentPath).or ctx.rewrittenPath }

def insertMetadata (metadata : List (String × String)) (key value : String) :
    List (String × String) :=
  metadata.filter (fun entry => entry.1 != key) ++ [(key, value)]

/-- The credentials of the candidate that was picked: the caller's never leave this site. -/
def writeCredentials (ctx : Context) (candidate : RouteCandidate) (snapshot : RouteSnapshot) :
    Context :=
  let ctx := { ctx with
    metadata := ctx.metadata.filter fun entry => !credentialMetadata.contains entry.1 }
  if candidate.site ≠ snapshot.localSite
      ∨ snapshot.providerHopClusters.contains candidate.cluster = true then
    stripCallerCredentials ctx
  else
    match candidate.dial.bind Dialed.credential with
    | some token =>
      let ctx := stripCallerCredentials ctx
      { ctx with headersToSet := ctx.headersToSet ++ [("authorization", token)] }
    | none =>
      match candidate.credential with
      | none => ctx
      | some credential =>
        let values :=
          [credential.strategy, credential.name, credential.namespace, credential.key]
        { ctx with
          metadata := (credentialMetadata.zip values).foldl
            (fun metadata entry => insertMetadata metadata entry.1 entry.2) ctx.metadata }

def selectedCandidateHeader : String := "x-ai-routing-candidate"

def providerHopRequestIdHeader : String := "x-ai-routing-request-id"

def overlayRevisionHeader : String := "x-ai-routing-revision"

def writeProviderContext (isHeaderValue : List Char → Bool) (ctx : Context)
    (candidate : RouteCandidate) (snapshot : RouteSnapshot) (requestId : List Char) :
    Except String Context :=
  if !snapshot.providerHopClusters.contains candidate.cluster then .ok ctx
  else if !isHeaderValue candidate.stableId.toList then
    .error "grid: invalid provider-hop candidate ID: failed to parse header value"
  else if !isHeaderValue requestId then
    .error "grid: invalid provider-hop request ID: failed to parse header value"
  else .ok { ctx with
    headersToSet := ctx.headersToSet ++
      [(selectedCandidateHeader, candidate.stableId.toList),
        (providerHopRequestIdHeader, requestId)] }

/-! ### No credential parameter is left -/

end PraxisGrid.Gateway
