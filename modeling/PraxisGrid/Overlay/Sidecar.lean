/-
PraxisGrid/Overlay/Sidecar.lean

The sidecar's event loop over its file: `crates/overlay-sync/src/watcher.rs`, `status.rs` and
`atomic_file.rs`.

A write replaces the file by a rename or leaves it; a restart keeps the file and loses the status.
The scope is checked beside the payload, and the digest covers the payload alone: an envelope for
this gateway with the payload of another site is written (`foreign_payload_written`).
-/
import PraxisGrid.Lib.Run
import PraxisGrid.Overlay.Matches

namespace PraxisGrid.Overlay

open Serde

/-! ### The status -/

inductive SidecarState
  | cold
  | ready
  | readyDegraded
  deriving DecidableEq

structure SharedStatus where
  state : SidecarState := .cold
  observedRevision : Option String := none
  writtenRevision : Option String := none
  degradedReason : Option String := none

namespace SharedStatus

def recordObserved (status : SharedStatus) (revision : String) : SharedStatus :=
  { status with observedRevision := some revision }

def recordWritten (status : SharedStatus) (revision : String) : SharedStatus :=
  { status with writtenRevision := some revision, state := .ready, degradedReason := none }

def markDegraded (status : SharedStatus) (reason : String) : SharedStatus :=
  { status with
    state := if status.state = .cold then .cold else .readyDegraded, degradedReason := some reason }

def clearDegraded (status : SharedStatus) : SharedStatus :=
  { status with
    state := if status.state = .readyDegraded then .ready else status.state, degradedReason := none }

def isReady (status : SharedStatus) : Bool := status.state ≠ .cold

@[simp] theorem isReady_markDegraded (status : SharedStatus) (reason : String) :
    (status.markDegraded reason).isReady = status.isReady := by
  cases hs : status.state <;> simp [markDegraded, isReady, hs]

@[simp] theorem isReady_clearDegraded (status : SharedStatus) :
    status.clearDegraded.isReady = status.isReady := by
  cases hs : status.state <;> simp [clearDegraded, isReady, hs]

end SharedStatus

/-! ### Events -/

def RejectionReason.text : RejectionReason → String
  | malformed => "malformed"
  | unsupportedSchema => "unsupported_schema"
  | scopeMismatch => "scope_mismatch"
  | digestMismatch => "digest_mismatch"
  | revisionDigestMismatch => "revision_digest_mismatch"
  | oversized => "oversized"
  | unchanged => "unchanged"

structure WatcherConfig where
  expectedScope : ExpectedScope
  maxPayloadBytes : Nat

/-- A text: its bytes and the value it parses to. -/
structure Document where
  size : Nat
  value : Option Value

structure World where
  status : SharedStatus := {}
  file : Option Document := none

inductive ProcessOutcome
  | written
  | unchanged
  | rejected
  deriving DecidableEq

/-- What the ConfigMap holds under the key, and whether the file can be written. -/
inductive Event
  | fetch (data : Option Document) (writes : Bool)
  | apply (data : Option Document) (writes : Bool)
  | delete
  | failure (reason : String)
  | restart

namespace World

variable (digest : Value → String) (config : WatcherConfig) (world : World)

def degraded (reason : String) : World :=
  { world with status := world.status.markDegraded reason }

def validate (document : Document) (current : Option String) : Except RejectionReason String :=
  validateEnvelope digest document.size document.value config.expectedScope config.maxPayloadBytes
    current

def handleValidated (document : Document) (revision : String) (writes : Bool) :
    World × ProcessOutcome :=
  let status := world.status.recordObserved revision
  if writes then (⟨status.recordWritten revision, some document⟩, .written)
  else (⟨status.markDegraded "write_failed", world.file⟩, .rejected)

def processConfigmap (data : Option Document) (writes : Bool) : World × ProcessOutcome :=
  match data with
  | none => (world.degraded "missing_key", .rejected)
  | some document =>
    match validate digest config document world.status.writtenRevision with
    | .ok revision => world.handleValidated document revision writes
    | .error .unchanged => (world, .unchanged)
    | .error reason => (world.degraded reason.text, .rejected)

def restoreLastKnownGood : World :=
  match world.file with
  | none => world
  | some document =>
    match validate digest config document none with
    | .ok revision =>
      { world with status := (world.status.recordObserved revision).recordWritten revision }
    | .error _ => world

def handleEvent : Event → World
  | .fetch data writes => (world.processConfigmap digest config data writes).1
  | .apply data writes =>
    let (next, outcome) := world.processConfigmap digest config data writes
    if outcome = .rejected then next else { next with status := next.status.clearDegraded }
  | .delete => world.degraded "deleted"
  | .failure reason => world.degraded reason
  | .restart => restoreLastKnownGood digest config { world with status := {} }

end World

/-! ### The invariant -/

variable {digest : Value → String} {config : WatcherConfig} {world : World} {document : Document}
  {revision : String} {event : Event}

/-- The payload's own network and local site. -/
def Document.names (document : Document) (expected : ExpectedScope) : Bool :=
  document.value.any fun raw => raw.text ["overlay", "network"] = some expected.network
    && raw.text ["overlay", "local_site"] = some expected.localSite

/-- One whole envelope of the gateway, with the digest and the names of its payload. -/
def OwnOverlay (digest : Value → String) (expected : ExpectedScope) (document : Document)
    (revision : String) : Prop :=
  document.names expected = true ∧ ∃ raw envelope, document.value = some raw
    ∧ OverlayEnvelope.read true raw = some envelope
    ∧ validateScope envelope.scope expected = true ∧ envelope.revision.value = revision
    ∧ envelope.contentDigest.value = revision
    ∧ ((raw.get "overlay").bind semanticPayload).map digest = some revision

/-- An accepted document would be accepted by a fresh sidecar too. -/
theorem validate_ok {current : Option String}
    (h : World.validate digest config document current = .ok revision) :
    World.validate digest config document none = .ok revision
      ∧ (document.names config.expectedScope = true →
        OwnOverlay digest config.expectedScope document revision) := by
  simp only [World.validate, validateEnvelope] at h ⊢
  cases hraw : document.value with
  | none =>
    rw [hraw] at h
    split_ifs at h
  | some raw =>
    rw [hraw] at h
    dsimp only at h ⊢
    cases hread : OverlayEnvelope.read true raw with
    | none =>
      rw [hread] at h
      split_ifs at h
    | some envelope =>
      rw [hread] at h
      cases hp : (raw.get "overlay").bind semanticPayload with
      | none =>
        simp only [hp] at h
        split_ifs at h
      | some payload =>
        simp only [hp] at h ⊢
        split_ifs at h with hz hv hs hr ha hl hd hc
        cases h
        refine ⟨?_, fun hn => ⟨hn, raw, envelope, hraw, hread, ?_, not_not.mp hr, rfl, ?_⟩⟩
        · rw [if_neg hz, if_neg hv, if_neg hs, if_neg hr, if_neg ha, if_neg hl, if_neg hd,
            if_neg (by simp)]
        · simpa using hs
        · rw [hp, Option.map_some, not_not.mp hd]

/-- There is no file, or one with a property whose revision is reported. -/
def World.InStep (Holds : Document → String → Prop) (world : World) : Prop :=
  (world.file = none ∧ world.status.isReady = false ∧ world.status.writtenRevision = none)
    ∨ ∃ document revision, world.file = some document ∧ Holds document revision
      ∧ world.status.isReady = true ∧ world.status.writtenRevision = some revision

/-- The file is accepted and names the configured network and site. -/
def World.Good (digest : Value → String) (config : WatcherConfig) : World → Prop :=
  InStep fun document revision => validate digest config document none = .ok revision
    ∧ document.names config.expectedScope = true

def Event.data : Event → Option Document
  | fetch data _ | apply data _ => data
  | _ => none

/-- An accepted document names the configured network and site. -/
def Event.own (digest : Value → String) (config : WatcherConfig) (event : Event) : Bool :=
  event.data.all fun document =>
    !(World.validate digest config document none).isOk || document.names config.expectedScope

namespace World

section

variable (hw : world.Good digest config)
include hw

theorem Good.of_same {next : World} (hf : next.file = world.file)
    (hr : next.status.isReady = world.status.isReady)
    (hv : next.status.writtenRevision = world.status.writtenRevision) : next.Good digest config := by
  unfold Good InStep
  rw [hf, hr, hv]
  exact hw

theorem Good.degraded (reason : String) : (world.degraded reason).Good digest config :=
  hw.of_same rfl (world.status.isReady_markDegraded reason) rfl

theorem Good.processConfigmap {data : Option Document} {writes : Bool}
    (he : (Event.fetch data writes).own digest config = true) :
    (world.processConfigmap digest config data writes).1.Good digest config := by
  cases data with
  | none => exact hw.degraded _
  | some document =>
    unfold World.processConfigmap
    dsimp only
    split
    · rename_i revision hv
      cases writes with
      | false => exact hw.of_same rfl (SharedStatus.isReady_markDegraded _ _) rfl
      | true =>
        have hn := (validate_ok hv).1
        refine .inr ⟨document, revision, rfl, ⟨hn, ?_⟩, rfl, rfl⟩
        simpa [Event.own, Event.data, hn, Except.isOk, Except.toBool] using he
    · exact hw
    · exact hw.degraded _

theorem Good.restart : (world.handleEvent digest config .restart).Good digest config := by
  rcases hw with ⟨hf, -⟩ | ⟨document, revision, hf, hv, -⟩
  · simp [handleEvent, restoreLastKnownGood, hf, Good, InStep, SharedStatus.isReady]
  · simp only [handleEvent, restoreLastKnownGood, hf, hv.1]
    exact .inr ⟨document, revision, rfl, hv, rfl, rfl⟩

theorem Good.handleEvent (he : event.own digest config = true) :
    (world.handleEvent digest config event).Good digest config := by
  cases event with
  | fetch data writes => exact hw.processConfigmap he
  | apply data writes =>
    have hp : (world.processConfigmap digest config data writes).1.Good digest config :=
      hw.processConfigmap he
    unfold World.handleEvent
    dsimp only
    split_ifs
    · exact hp
    · exact hp.of_same rfl (SharedStatus.isReady_clearDegraded _) rfl
  | restart => exact hw.restart
  | _ => exact hw.degraded _

end

/-- A refused document changes neither the file nor the reported revision. -/
theorem processConfigmap_rejected {data : Option Document} {writes : Bool}
    (h : (world.processConfigmap digest config data writes).2 = .rejected) :
    (world.processConfigmap digest config data writes).1.file = world.file
      ∧ (world.processConfigmap digest config data writes).1.status.writtenRevision
        = world.status.writtenRevision := by
  cases data with
  | none => exact ⟨rfl, rfl⟩
  | some document =>
    unfold World.processConfigmap at h ⊢
    dsimp only at h ⊢
    split at h
    · cases writes with
      | false => simp [handleValidated, SharedStatus.recordObserved, SharedStatus.markDegraded]
      | true => cases h
    · cases h
    · simp [degraded, SharedStatus.markDegraded]

end World

open Run in
/-- **The sidecar's file is one whole overlay of its own gateway** in every run of events whose
accepted documents name the configured network and site: the sidecar is ready exactly when it is in
place and reports its revision, and a refused event changes neither. -/
theorem file_is_own_overlay (digest : Value → String) (config : WatcherConfig) (events : List Event)
    (h : ∀ event ∈ events, event.own digest config = true) (world : World)
    (hw : run (World.handleEvent digest config) {} events = world) :
    world.InStep (OwnOverlay digest config.expectedScope)
    ∧ ∀ data writes, (world.processConfigmap digest config data writes).2 = .rejected →
      ∀ event ∈ [Event.fetch data writes, .apply data writes],
        (world.handleEvent digest config event).file = world.file
          ∧ (world.handleEvent digest config event).status.writtenRevision
            = world.status.writtenRevision := by
  subst hw
  have hgood : (run (World.handleEvent digest config) {} events).Good digest config :=
    run_invariant_along (fun _ _ he hw => hw.handleEvent he) (along_of_forall h) (.inl ⟨rfl, rfl, rfl⟩)
  generalize run (World.handleEvent digest config) {} events = world at hgood ⊢
  constructor
  · rcases hgood with hnone | ⟨document, revision, hf, ⟨hv, hn⟩, hr⟩
    · exact .inl hnone
    · exact .inr ⟨document, revision, hf, (validate_ok hv).2 hn, hr⟩
  · intro data writes hrej event hev
    have hsame := World.processConfigmap_rejected hrej
    simp only [List.mem_cons, List.not_mem_nil, or_false] at hev
    rcases hev with rfl | rfl
    · exact hsame
    · simpa [World.handleEvent, hrej] using hsame

/-- An envelope for the gateway with the payload of a site, its provenance given as an array. -/
def rendered (site : String) : Document where
  size := 900
  value := some { buildOverlayEnvelope (fun _ => zeros) shared sharedTarget with
    provenance := .array [.string "p", .string "1", .string "n", .string "u", .int 1, .string ""]
    overlay := { shared with localSite := site }.json }.write

def gateway : WatcherConfig := ⟨⟨"n", "g", "ns", "s"⟩, 1000⟩

/-- A run of the gateway's sidecar, where a payload without a null has one digest. -/
def served (events : List Event) : World :=
  Run.run (World.handleEvent seesNull gateway) {} events

theorem file_is_own_overlay_restarted :
    (served [.apply (some (rendered "s")) true, .restart]).file.isSome = true
      ∧ ((served [.apply (some (rendered "s")) true, .restart]).handleEvent seesNull gateway
        (.apply none true)).file = (served [.apply (some (rendered "s")) true, .restart]).file :=
  ⟨by decide +kernel, ((file_is_own_overlay seesNull gateway
    [.apply (some (rendered "s")) true, .restart] (by decide +kernel) _ rfl).2
    none true rfl (.apply none true) (by simp)).1⟩

/-- The scope is the gateway's, the payload another site's. -/
theorem foreign_payload_written :
    (served [.apply (some (rendered "r")) true]).file.any (fun document =>
      !document.names gateway.expectedScope) = true := by
  decide +kernel

/-- What the operator builds for the gateway is accepted, unless it is in place. -/
theorem validate_built {float : Rat → Rat} {desired : RoutingOverlay} {target : Target} {size : Nat}
    (h : desired.Typed) (hf : desired.RoundTrips float) (hg : target.Counted)
    (hs : size ≤ config.maxPayloadBytes) (hlen : (digest desired.payload).utf8ByteSize = 64)
    (hc : config.expectedScope = ⟨desired.network, target.gateway, target.ns, desired.localSite⟩)
    (current : Option String) :
    World.validate digest config ⟨size, some (storedEnvelope digest float desired target)⟩ current
      = if current = some (digest desired.payload) then .error .unchanged
        else .ok (digest desired.payload) := by
  have hpayload : ((storedEnvelope digest float desired target).get "overlay").bind semanticPayload
      = some desired.payload := by
    rw [storedEnvelope, hf.reread]
    simp [OverlayEnvelope.write, Value.get, lookup_cons_ite, semanticPayload_json]
  simp only [World.validate, validateEnvelope, if_neg (Nat.not_lt.mpr hs), hc,
    h.envelope hf hg, hpayload]
  by_cases hcurrent : current = some (digest desired.payload) <;>
    simp [buildOverlayEnvelope, validateScope, hlen, hcurrent]

open Run in
/-- **What the operator publishes is what its gateway is served.**  After any events whose accepted
documents name the configured network and site, applying the envelope of a typed overlay leaves the
sidecar ready, with nothing reported, over a whole overlay of that revision. -/
theorem published_overlay_served (digest : Value → String) (config : WatcherConfig)
    (events : List Event) (ho : ∀ event ∈ events, event.own digest config = true)
    (float : Rat → Rat) (desired : RoutingOverlay) (target : Target) (size : Nat)
    (h : desired.Typed) (hf : desired.RoundTrips float) (hg : target.Counted)
    (hs : size ≤ config.maxPayloadBytes)
    (hlen : (digest desired.payload).utf8ByteSize = 64)
    (hc : config.expectedScope = ⟨desired.network, target.gateway, target.ns, desired.localSite⟩) :
    let world := run (World.handleEvent digest config) {} (events ++
      [.apply (some ⟨size, some (storedEnvelope digest float desired target)⟩) true])
    world.status.state = .ready ∧ world.status.degradedReason = none
      ∧ world.status.writtenRevision = some (digest desired.payload)
      ∧ ∃ document, world.file = some document
        ∧ OwnOverlay digest config.expectedScope document (digest desired.payload) := by
  have hgood : (run (World.handleEvent digest config) {} events).Good digest config :=
    run_invariant_along (fun _ _ he hw => hw.handleEvent he) (along_of_forall ho) (.inl ⟨rfl, rfl, rfl⟩)
  have hv := validate_built h hf hg hs hlen hc
  rw [run_append]
  generalize run (World.handleEvent digest config) {} events = world at hgood ⊢
  simp only [run_cons, run_nil, World.handleEvent, World.processConfigmap, hv]
  by_cases hr : world.status.writtenRevision = some (digest desired.payload)
  · -- the revision is in place, and what was reported since is taken back
    rw [if_pos hr]
    rcases hgood with ⟨-, -, hnone⟩ | ⟨document, revision, hf, ⟨hok, hn⟩, hready, hw⟩
    · cases hr.symm.trans hnone
    · cases hr.symm.trans hw
      refine ⟨?_, rfl, hr, document, hf, (validate_ok hok).2 hn⟩
      cases hst : world.status.state <;>
        simp_all [SharedStatus.clearDegraded, SharedStatus.isReady]
  · rw [if_neg hr]
    refine ⟨rfl, rfl, rfl, _, rfl, (validate_ok (hv none)).2 ?_⟩
    rw [hc, storedEnvelope, hf.reread]
    simp [Document.names, buildOverlayEnvelope, OverlayEnvelope.write, Value.text, Value.get,
      lookup_cons_ite, RoutingOverlay.json]

def eventful : List Event :=
  [.apply (some (rendered "s")) true, .failure "watch", .delete, .restart,
    .apply (some ⟨2000, none⟩) true]

theorem published_overlay_served_eventful :
    (served (eventful ++ [.apply (some ⟨900, some (storedEnvelope seesNull id unpoliced
      sharedTarget)⟩) true])).status.state = .ready :=
  (published_overlay_served seesNull gateway eventful (by decide +kernel) id unpoliced sharedTarget
    900 ⟨typed_shared.candidates, by simp [unpoliced]⟩ roundTrips_shared ⟨by decide, by decide⟩
    (by decide) (by decide) rfl).1

end PraxisGrid.Overlay
