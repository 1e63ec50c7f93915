/-
PraxisGrid/Overlay/Envelope.lean

The routing overlay in its envelope and the sidecar's check of it:
`crates/overlay-sync/src/types.rs` and `validation.rs`.

A document is the `serde_json::Value` of its text.  The types of the operator
(`resources/overlay_envelope.rs`) differ from the sidecar's only in the credentials, which the
sidecar's deny unknown fields (`fixed_candidate`).  The digest is computed from the stored document,
not from what the reader gives back.
-/
import PraxisGrid.Lib.Serde

namespace PraxisGrid.Overlay

open Serde

/-! ### The types -/

/-- The secret of a credential. -/
def projectedCredentialRef (closed : Bool) : Reader :=
  struct closed (requiredFields string ["name", "namespace", "key"])

def projectedCredential (closed : Bool) : Reader :=
  struct closed [⟨"strategy", string, false⟩, ⟨"secretRef", projectedCredentialRef closed, false⟩]

def scoreBreakdown : Reader :=
  struct false (requiredFields number
    ["locality", "queue_depth", "kv_cache", "prefix_cache", "latency", "cost", "total"])

/-- Only the sidecar's credentials are closed. -/
def candidateFields (sidecar : Bool) : List Field :=
  requiredFields string ["kind", "name", "site", "cluster"] ++ requiredFields bool ["fresh"]
    ++ optionalFields string ["expires_at"]
    ++ optionalFields (projectedCredential sidecar) ["credential"]
    ++ optionalFields string ["stable_id"]
    ++ optionalFields (oneOf ["new_and_existing", "existing_only", "none"]) ["admission_state"]
    ++ optionalFields (oneOf ["same_site", "same_zone", "same_region", "cross_region", "unknown"])
      ["selection_tier"]
    ++ optionalFields number ["score"]
    ++ optionalFields scoreBreakdown ["score_breakdown"]
    ++ optionalFields u32 ["rank", "selection_group", "traffic_weight"]

def candidate (sidecar : Bool) : Reader := struct false (candidateFields sidecar)

/-- The modes under the names serde gives them. -/
def selectionModes : List String := ["deterministic", "roundRobin", "random", "weightedRandom"]

/-- A policy takes no unknown field, on either side. -/
def selectionPolicy : Reader := struct true [⟨"mode", oneOf selectionModes, false⟩]

def overlayFields (sidecar : Bool) : List Field :=
  requiredFields string ["network", "local_site"]
    ++ [⟨"candidates", array (candidate sidecar), false⟩]
    ++ optionalFields selectionPolicy ["selection_policy"]
    ++ optionalFields string ["generated_at"]

/-- The overlay as one of the two readers takes it. -/
def overlay (sidecar : Bool) : Reader := struct false (overlayFields sidecar)

/-- Who rendered the overlay, and from what. -/
def provenance : Reader :=
  struct false (requiredFields string ["producer", "producer_version", "source_name", "source_uid"]
    ++ requiredFields i64 ["source_generation"] ++ requiredFields string ["rendered_at"])

/-- What the operator writes of a candidate, the sidecar takes: the fields it would deny are not
there. -/
theorem fixed_candidate : Fixed (candidate false) (candidate true) := by
  have href : Fixed (projectedCredentialRef false) (projectedCredentialRef true) :=
    fixed_struct (List.forall₂_same.mpr fun field _ => .refl field) (by decide) _ _
  have hcred : Fixed (projectedCredential false) (projectedCredential true) := by
    refine fixed_struct ?_ (by decide) _ _
    exact .cons (.refl _) (.cons ⟨rfl, rfl, href⟩ .nil)
  have hfield : Field.Like ⟨"credential", projectedCredential false, true⟩
      ⟨"credential", projectedCredential true, true⟩ := ⟨rfl, rfl, hcred⟩
  refine fixed_struct ?_ (by decide) _ _
  simp [candidateFields, requiredFields, optionalFields, Field.Like.refl, hfield]

/-! ### The envelope -/

/-- The revision repeats the digest. -/
structure ContentRevision where
  kind : String
  algorithm : String
  value : String

structure ContentDigest where
  algorithm : String
  value : String

/-- Whom the overlay is for. -/
structure OverlayScope where
  network : String
  gateway : String
  ns : String
  localSite : String

/-- The provenance and the overlay as they are serialised. -/
structure OverlayEnvelope where
  schemaVersion : String
  revision : ContentRevision
  contentDigest : ContentDigest
  scope : OverlayScope
  provenance : Value
  overlay : Value

/-- The texts of a struct that has no other fields. -/
def readTexts (names : List String) (value : Value) : Option (List String) := do
  (← given false names value).mapM fun value => do (← value).text []

def ContentRevision.read (value : Value) : Option ContentRevision := do
  let [kind, algorithm, value] ← readTexts ["kind", "algorithm", "value"] value | none
  some ⟨kind, algorithm, value⟩

def ContentDigest.read (value : Value) : Option ContentDigest := do
  let [algorithm, value] ← readTexts ["algorithm", "value"] value | none
  some ⟨algorithm, value⟩

def OverlayScope.read (value : Value) : Option OverlayScope := do
  let [network, gateway, ns, localSite] ←
    readTexts ["network", "gateway", "namespace", "local_site"] value | none
  some ⟨network, gateway, ns, localSite⟩

/-- The fields of an envelope, in the order they are written. -/
def envelopeNames : List String :=
  ["schema_version", "revision", "content_digest", "scope", "provenance", "overlay"]

/-- The envelope with its overlay still unread. -/
def OverlayEnvelope.parts (value : Value) : Option OverlayEnvelope := do
  let [some version, some revision, some digest, some scope, some source, some payload] ←
    given false envelopeNames value | none
  some ⟨← version.text [], ← ContentRevision.read revision, ← ContentDigest.read digest,
    ← OverlayScope.read scope, ← Overlay.provenance source, payload⟩

/-- The envelope with its overlay read. -/
def OverlayEnvelope.read (sidecar : Bool) (value : Value) : Option OverlayEnvelope :=
  (parts value).bind fun envelope => (Overlay.overlay sidecar envelope.overlay).map fun payload =>
    { envelope with overlay := payload }

/-- The envelope as the operator serialises it. -/
def OverlayEnvelope.write (envelope : OverlayEnvelope) : Value :=
  .object
    [("schema_version", .string envelope.schemaVersion),
      ("revision", .texts [("kind", envelope.revision.kind),
        ("algorithm", envelope.revision.algorithm), ("value", envelope.revision.value)]),
      ("content_digest", .texts [("algorithm", envelope.contentDigest.algorithm),
        ("value", envelope.contentDigest.value)]),
      ("scope", .texts [("network", envelope.scope.network), ("gateway", envelope.scope.gateway),
        ("namespace", envelope.scope.ns), ("local_site", envelope.scope.localSite)]),
      ("provenance", envelope.provenance),
      ("overlay", envelope.overlay)]

/-- An envelope is read back as it was written, as far as its provenance is. -/
theorem OverlayEnvelope.parts_write (envelope : OverlayEnvelope) :
    parts envelope.write = (Overlay.provenance envelope.provenance).map fun source =>
      { envelope with provenance := source } := by
  simp only [parts, write, given, envelopeNames, ContentRevision.read, ContentDigest.read,
    OverlayScope.read, readTexts, Value.texts]
  simp [lookup_cons_ite, Value.text]
  cases Overlay.provenance envelope.provenance <;> rfl

/-- What the digest covers. -/
def semanticPayload (overlay : Value) : Option Value := do
  let candidates ← overlay.get "candidates"
  let localSite ← overlay.get "local_site"
  let network ← overlay.get "network"
  some (.object ([("candidates", candidates), ("local_site", localSite), ("network", network)]
    ++ ((overlay.get "selection_policy").map fun policy => ("selection_policy", policy)).toList))

/-! ### The sidecar's check -/

structure ExpectedScope where
  network : String
  gateway : String
  ns : String
  localSite : String

/-- Why an envelope is not taken. -/
inductive RejectionReason
  | malformed
  | unsupportedSchema
  | scopeMismatch
  | digestMismatch
  | revisionDigestMismatch
  | oversized
  | unchanged

/-- The envelope is for this sidecar. -/
def validateScope (scope : OverlayScope) (expected : ExpectedScope) : Bool :=
  scope.network = expected.network && scope.gateway = expected.gateway && scope.ns = expected.ns
    && scope.localSite = expected.localSite

/-- The revision of a stored text of so many bytes.  The digest is the hexadecimal one of the
canonical form; it is computed from the stored value, not from what the reader gives back. -/
def validateEnvelope (digest : Value → String) (size : Nat) (stored : Option Value)
    (expected : ExpectedScope) (maxBytes : Nat) (current : Option String) :
    Except RejectionReason String :=
  if maxBytes < size then .error .oversized
  else
    match stored with
    | none => .error .malformed
    | some raw =>
      match OverlayEnvelope.read true raw with
      | none => .error .malformed
      | some envelope =>
        let value := envelope.contentDigest.value
        if !"1.".toList.isPrefixOf envelope.schemaVersion.toList then .error .unsupportedSchema
        else if !validateScope envelope.scope expected then .error .scopeMismatch
        else if envelope.revision.value ≠ value then .error .revisionDigestMismatch
        else if envelope.revision.algorithm ≠ "sha256" ∨ envelope.contentDigest.algorithm ≠ "sha256"
        then .error .unsupportedSchema
        else if value.utf8ByteSize ≠ 64 then .error .digestMismatch
        else
          match (raw.get "overlay").bind semanticPayload with
          | none => .error .malformed
          | some payload =>
            if digest payload ≠ value then .error .digestMismatch
            else if current = some value then .error .unchanged
            else .ok value

end PraxisGrid.Overlay
