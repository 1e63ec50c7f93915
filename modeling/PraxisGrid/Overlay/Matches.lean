/-
PraxisGrid/Overlay/Matches.lean

When the operator skips the write of an overlay: `overlay_configmap_matches` of
`crates/operator/src/controller/grid_network.rs`, `build_overlay_envelope` of
`resources/overlay_envelope.rs` and `build_overlay_configmap` of `resources/routing_overlay.rs`.

The operator digests what its typed reader gives back, the sidecar what is stored.  A field that the
reader drops, such as an explicit null, is skipped by the one and refused by the other
(`skipped_overlay_refused`).

The digest is SHA-256 of a canonical form (RFC 8785), which no result here looks into: it may forget
the order of members and the difference between `1` and `1.0`.
-/
import PraxisGrid.Overlay.Envelope

namespace PraxisGrid.Overlay

open Serde

variable (digest : Value → String)

/-! ### The check -/

/-- A text: its `serde_json::Value`, and whether some field of the operator's types stands twice in
it, which a reader of the text refuses. -/
structure Parsed where
  value : Value
  repeats : Bool := false

/-- A ConfigMap, with what each of its texts parses to. -/
structure ConfigMap where
  annotations : Option (List (String × String))
  data : Option (List (String × Option Parsed))

/-- The text under a key, parsed. -/
def ConfigMap.parsed (map : ConfigMap) (key : String) : Option Parsed := do (← (← map.data).lookup key)

def ConfigMap.value (map : ConfigMap) (key : String) : Option Value := (map.parsed key).map Parsed.value

/-- What the operator reads of the text under a key. -/
def ConfigMap.typed {α : Type} (map : ConfigMap) (key : String) (reader : Value → Option α) :
    Option α := do
  let parsed ← map.parsed key
  if parsed.repeats then none else reader parsed.value

def envelopeKey : String := "routing-overlay.json"

def legacyKey : String := "routing-config.json"

def annotationSchemaVersion : String := "grid.praxis.fast/overlay-schema-version"

/-- The revision that was last written. -/
def annotationRevision : String := "grid.praxis.fast/overlay-revision"

def annotationContentDigest : String := "grid.praxis.fast/overlay-content-digest"

def configmapRevisionMatches (existing desired : ConfigMap) (revision : String) : Bool :=
  match existing.annotations, desired.annotations with
  | some existing, some desired =>
    ([annotationSchemaVersion, annotationRevision, annotationContentDigest].all fun key =>
        (existing.lookup key).isSome && existing.lookup key = desired.lookup key)
      && desired.lookup annotationRevision = some revision
      && desired.lookup annotationContentDigest = some revision
  | _, _ => false

/-- The stored envelope, as the operator reads it. -/
def overlayEnvelopeFromConfigmap (map : ConfigMap) : Option OverlayEnvelope :=
  map.typed envelopeKey (OverlayEnvelope.read false)

/-- The stored overlay of older sidecars. -/
def routingOverlayFromConfigmap (map : ConfigMap) : Option Value :=
  map.typed legacyKey (overlay false)

/-- The digest of what the typed overlay serialises to. -/
def computeSemanticDigest (typed : Value) : Option String := (semanticPayload typed).map digest

def overlayEnvelopePayloadMatches (existing desired : ConfigMap) (revision : String) : Bool :=
  match overlayEnvelopeFromConfigmap existing, overlayEnvelopeFromConfigmap desired with
  | some existing, some desired =>
    existing.schemaVersion = desired.schemaVersion
      && existing.revision.kind = desired.revision.kind
      && existing.revision.algorithm = desired.revision.algorithm
      && existing.contentDigest.algorithm = desired.contentDigest.algorithm
      && existing.revision.value = revision
      && existing.contentDigest.value = revision
      && existing.scope.network = desired.scope.network
      && existing.scope.gateway = desired.scope.gateway
      && existing.scope.ns = desired.scope.ns
      && existing.scope.localSite = desired.scope.localSite
      && computeSemanticDigest digest existing.overlay = some revision
  | _, _ => false

def legacyOverlayPayloadMatches (existing desired : ConfigMap) (revision : String) : Bool :=
  match routingOverlayFromConfigmap existing, routingOverlayFromConfigmap desired with
  | some existing, some desired =>
    existing.text ["network"] = desired.text ["network"]
      && existing.text ["local_site"] = desired.text ["local_site"]
      && computeSemanticDigest digest existing = some revision
  | _, _ => false

/-- Whether the write is skipped. -/
def overlayConfigmapMatches (existing desired : ConfigMap) (revision : String) : Bool :=
  configmapRevisionMatches existing desired revision
    && overlayEnvelopePayloadMatches digest existing desired revision
    && legacyOverlayPayloadMatches digest existing desired revision

/-! ### What the operator writes -/

/-- The desired overlay, its candidates and its policy as they are serialised. -/
structure RoutingOverlay where
  network : String
  localSite : String
  candidates : List Value
  selectionPolicy : Option Value := none
  generatedAt : Option String := none

namespace RoutingOverlay

/-- The overlay as it is serialised. -/
def json (overlay : RoutingOverlay) : Value :=
  .object ([("network", .string overlay.network), ("local_site", .string overlay.localSite),
      ("candidates", .array overlay.candidates)]
    ++ (overlay.selectionPolicy.map fun policy => ("selection_policy", policy)).toList
    ++ (overlay.generatedAt.map fun time => ("generated_at", .string time)).toList)

/-- The part of the overlay that its digest covers. -/
def payload (overlay : RoutingOverlay) : Value :=
  .object ([("candidates", .array overlay.candidates), ("local_site", .string overlay.localSite),
      ("network", .string overlay.network)]
    ++ (overlay.selectionPolicy.map fun policy => ("selection_policy", policy)).toList)

/-- The overlay as its text is read back; only candidates hold doubles. -/
def reread (float : Rat → Rat) (overlay : RoutingOverlay) : RoutingOverlay :=
  { overlay with candidates := overlay.candidates.map (Value.reread float) }

end RoutingOverlay

/-- The gateway and the source that an overlay is rendered for. -/
structure Target where
  gateway : String
  ns : String
  producerVersion : String
  uid : String
  generation : Int

/-- The envelope of an overlay for a gateway. -/
def buildOverlayEnvelope (desired : RoutingOverlay) (target : Target) : OverlayEnvelope where
  schemaVersion := "1.0.0"
  revision := ⟨"content_addressed", "sha256", digest desired.payload⟩
  contentDigest := ⟨"sha256", digest desired.payload⟩
  scope := ⟨desired.network, target.gateway, target.ns, desired.localSite⟩
  provenance := .object
    [("producer", .string "grid-operator"), ("producer_version", .string target.producerVersion),
      ("source_name", .string desired.network), ("source_uid", .string target.uid),
      ("source_generation", .int target.generation),
      ("rendered_at", .string (desired.generatedAt.getD ""))]
  overlay := desired.json

/-- The envelope as its text is read back. -/
def storedEnvelope (float : Rat → Rat) (desired : RoutingOverlay) (target : Target) : Value :=
  { buildOverlayEnvelope digest desired target with overlay := (desired.reread float).json }.write

def buildOverlayConfigmap (float : Rat → Rat) (desired : RoutingOverlay) (target : Target) :
    ConfigMap where
  annotations := some
    [(annotationSchemaVersion, "1.0.0"), (annotationRevision, digest desired.payload),
      (annotationContentDigest, digest desired.payload)]
  data := some
    [(legacyKey, some ⟨(desired.reread float).json, false⟩),
      (envelopeKey, some ⟨storedEnvelope digest float desired target, false⟩)]

/-! ### A skipped write -/

section Skipped

variable {Form : Type} {canonical : Value → Form} {sha256 : Form → String} {float : Rat → Rat}
  {desired : RoutingOverlay} {target : Target} {existing : ConfigMap}

end Skipped

def zeros : String := "0000000000000000000000000000000000000000000000000000000000000000"

/-- A candidate with a credential, as the operator serialises it. -/
def routed : List (String × Value) :=
  [("kind", .string "inference_model"), ("name", .string "m"), ("site", .string "s"),
    ("cluster", .string "c"), ("fresh", .bool true),
    ("credential", .object [("strategy", .string "bearer_token"),
      ("secretRef", .texts [("name", "token"), ("namespace", "ns"), ("key", "k")])]),
    ("score", .float 1), ("rank", .int 0)]

def shared : RoutingOverlay where
  network := "n"
  localSite := "s"
  candidates := [.object routed]
  selectionPolicy := some (.texts [("mode", "roundRobin")])

def sharedTarget : Target := ⟨"g", "ns", "1", "u", 1⟩

/-- A digest that tells a null policy from none. -/
def seesNull (payload : Value) : String :=
  if (payload.get "selection_policy").any Value.isNull then "" else zeros

def unpoliced : RoutingOverlay := { shared with selectionPolicy := none }

/-- The candidates and the policy are what their types serialise to. -/
structure RoutingOverlay.Typed (desired : RoutingOverlay) : Prop where
  candidates : desired.candidates.mapM (candidate false) = some desired.candidates
  policy : ∀ policy, desired.selectionPolicy = some policy →
    ∃ mode ∈ selectionModes, policy = .texts [("mode", mode)]

/-- The doubles of the candidates are read back from their texts as they were, which serde_json
promises of its slower parser only. -/
def RoutingOverlay.RoundTrips (float : Rat → Rat) (desired : RoutingOverlay) : Prop :=
  ∀ candidate ∈ desired.candidates, candidate.reread float = candidate

/-- The generation is a word of Kubernetes. -/
def Target.Counted (target : Target) : Prop :=
  -9223372036854775808 ≤ target.generation ∧ target.generation ≤ 9223372036854775807

section Typed

variable {digest} {float : Rat → Rat} {desired : RoutingOverlay} {target : Target}

theorem RoutingOverlay.RoundTrips.reread (h : desired.RoundTrips float) :
    desired.reread float = desired := by
  rw [RoutingOverlay.reread, List.map_congr_left h, List.map_id']

/-- A typed overlay is read back as it was written, by the operator and by the sidecar. -/
theorem RoutingOverlay.Typed.reads (h : desired.Typed) (sidecar : Bool) :
    overlay sidecar desired.json = some desired.json := by
  obtain ⟨network, localSite, candidates, policy, time⟩ := desired
  have hcs : candidates.mapM (candidate sidecar) = some candidates := by
    cases sidecar with
    | false => exact h.candidates
    | true => exact mapM_fixed fixed_candidate h.candidates
  have harray : Field.read ⟨"candidates", array (candidate sidecar), false⟩ (some (.array candidates))
      = some (some (.array candidates)) := by
    simp [Field.read, array, hcs]
  have hpolicy : Field.read ⟨"selection_policy", Overlay.selectionPolicy, true⟩ policy
      = some policy := by
    cases policy with
    | none => rfl
    | some policy =>
      obtain ⟨mode, hm, rfl⟩ := h.policy policy rfl
      have hmode : oneOf selectionModes (.string mode) = some (.string mode) := if_pos hm
      simp [Field.read, Overlay.selectionPolicy, struct, given, fieldNames, Value.texts, readFields,
        Value.isNull, hmode, present]
  have htime : Field.read ⟨"generated_at", string, true⟩ (time.map .string)
      = some (time.map .string) := by
    cases time <;> rfl
  have hjson : RoutingOverlay.json ⟨network, localSite, candidates, policy, time⟩
      = .object (present (fieldNames (overlayFields sidecar)) [some (.string network),
        some (.string localSite), some (.array candidates), policy, time.map .string]) := by
    cases policy <;> cases time <;> rfl
  rw [hjson]
  exact struct_present (by cases sidecar <;> decide) (readFields_cons rfl (readFields_cons rfl
    (readFields_cons harray (readFields_cons hpolicy (readFields_cons htime rfl))))) false

theorem semanticPayload_json : semanticPayload desired.json = some desired.payload := by
  obtain ⟨network, localSite, candidates, policy, time⟩ := desired
  cases policy <;> cases time <;> rfl

/-- What is stored of a typed overlay is read as what was built. -/
theorem RoutingOverlay.Typed.envelope (h : desired.Typed) (hf : desired.RoundTrips float)
    (hg : target.Counted) (sidecar : Bool) :
    OverlayEnvelope.read sidecar (storedEnvelope digest float desired target)
      = some (buildOverlayEnvelope digest desired target) := by
  have hi : i64 (.int target.generation) = some (.int target.generation) := if_pos hg
  have hsource : provenance (buildOverlayEnvelope digest desired target).provenance
      = some (buildOverlayEnvelope digest desired target).provenance := by
    simp [provenance, buildOverlayEnvelope, struct, given, fieldNames, requiredFields, readFields,
      Field.read, string, hi, present, lookup_cons_ite]
  have hparts : OverlayEnvelope.parts (storedEnvelope digest float desired target)
      = some (buildOverlayEnvelope digest desired target) := by
    rw [storedEnvelope, hf.reread, OverlayEnvelope.parts_write]
    exact congrArg (Option.map _) hsource
  rw [OverlayEnvelope.read, hparts, Option.bind_some]
  exact congrArg (Option.map _) (h.reads sidecar)

end Typed

/-- **An unchanged overlay is not written again**, whatever its time and its source. -/
theorem unchanged_overlay_skipped (float : Rat → Rat) (desired : RoutingOverlay)
    (target target' : Target) (time : Option String) (h : desired.Typed)
    (hf : desired.RoundTrips float) (hg : target.Counted) (hg' : target'.Counted)
    (hgw : target'.gateway = target.gateway) (hns : target'.ns = target.ns) :
    overlayConfigmapMatches digest (buildOverlayConfigmap digest float desired target)
      (buildOverlayConfigmap digest float { desired with generatedAt := time } target')
      (digest desired.payload) = true := by
  have h' : { desired with generatedAt := time }.Typed := ⟨h.candidates, h.policy⟩
  have hf' : { desired with generatedAt := time }.RoundTrips float := hf
  have he : ∀ d t, overlayEnvelopeFromConfigmap (buildOverlayConfigmap digest float d t)
      = OverlayEnvelope.read false (storedEnvelope digest float d t) := fun _ _ => rfl
  have hl : ∀ d t, routingOverlayFromConfigmap (buildOverlayConfigmap digest float d t)
      = overlay false (d.reread float).json := fun _ _ => rfl
  simp only [overlayConfigmapMatches, Bool.and_eq_true]
  refine ⟨⟨?_, ?_⟩, ?_⟩
  · simp [configmapRevisionMatches, buildOverlayConfigmap, lookup_cons_ite, RoutingOverlay.payload,
      annotationRevision, annotationSchemaVersion, annotationContentDigest]
  · simp only [overlayEnvelopePayloadMatches, he, h.envelope hf hg, h'.envelope hf' hg']
    simp [buildOverlayEnvelope, hgw, hns, computeSemanticDigest, semanticPayload_json]
  · simp only [legacyOverlayPayloadMatches, hl, hf.reread, hf'.reread, h.reads, h'.reads,
      computeSemanticDigest, semanticPayload_json]
    simp [RoutingOverlay.json, Value.text, Value.get, lookup_cons_ite]

theorem typed_shared : shared.Typed where
  candidates := rfl
  policy := by
    intro policy hp
    cases hp
    exact ⟨"roundRobin", by decide, rfl⟩

theorem roundTrips_shared : shared.RoundTrips id := by
  intro candidate hc
  cases List.mem_singleton.mp hc
  rfl

theorem unchanged_overlay_skipped_later :
    overlayConfigmapMatches seesNull (buildOverlayConfigmap seesNull id shared sharedTarget)
      (buildOverlayConfigmap seesNull id { shared with generatedAt := some "later" }
        { sharedTarget with generation := 2 }) zeros = true :=
  unchanged_overlay_skipped seesNull id shared _ _ _ typed_shared roundTrips_shared
    ⟨by decide, by decide⟩ ⟨by decide, by decide⟩ rfl rfl

end PraxisGrid.Overlay
