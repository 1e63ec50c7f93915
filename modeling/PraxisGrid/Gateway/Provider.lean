/-
PraxisGrid/Gateway/Provider.lean

The provider side of a gateway: `crates/gateway/crates/ai-grid-filters/src/provider.rs`.

The operator writes which sites are admitted and which backends they may name; the builder re-reads
that file and keeps a snapshot, which is all a request is checked against.  A file that is accepted
replaces the snapshot, one that parses but breaks a rule only narrows the admission, one that does
not parse changes nothing, and one missing for two reads withdraws everything.

The bytes of a file, its digest and what a dial is built into are parameters, and every read comes
with what it finds of the TLS files (`Files`).  The state of a builder is described by the reads
alone (`Watch.record`).
-/
import PraxisGrid.Gateway.Dial
import PraxisGrid.Lib.Run

namespace PraxisGrid.Gateway

open Std OrdMap Checks Option

/-! ### The provider file -/

/-- A local backend that a peer may name. -/
structure ProviderCandidate where
  stableId : String
  name : String
  cluster : String

structure ProviderConfig where
  admittedSites : List String
  candidates : List ProviderCandidate
  dial : DialConfig := ∅
  localSite : String

/-- Why a provider file is refused. -/
inductive ProviderError
  | descriptor (error : DescriptorError)
  /-- the file admits this site itself -/
  | admitsItself
  /-- a stable id is not eight lowercase hex digits -/
  | stableId (id : String)
  /-- a stable id is repeated -/
  | repeated (id : String)
  /-- a candidate's cluster has no dial -/
  | noDial (cluster : String)
  /-- a dial names another site -/
  | otherSite (cluster site : String)
  /-- a dial is mutual TLS, a hop to another gateway -/
  | mutual (cluster : String)
  /-- a dial names a grid gateway -/
  | gridName (cluster : String)
  | dial (error : DialError)

def ProviderConfig.asServing (config : ProviderConfig) : GridServingConfig :=
  { localSite := config.localSite
    candidates := config.candidates.map fun candidate =>
      { cluster := candidate.cluster
        name := candidate.name
        site := config.localSite
        stableId := some candidate.stableId } }

/-- The loop over the candidates, with the stable ids seen so far. -/
def validateIds (dials : DialConfig) (seen : List String) :
    List ProviderCandidate → Except ProviderError Unit
  | [] => .ok ()
  | candidate :: rest => do
    ensure (isStableId candidate.stableId) (.stableId candidate.stableId)
    ensure (!seen.contains candidate.stableId) (.repeated candidate.stableId)
    ensure (dials.contains candidate.cluster) (.noDial candidate.cluster)
    validateIds dials (candidate.stableId :: seen) rest

/-- A dial stays at this site and reaches no grid gateway. -/
def validateLocalDial (config : ProviderConfig) (cluster : String) (spec : DialSpec) :
    Except ProviderError Unit := do
  ensure (spec.site == config.localSite) (.otherSite cluster spec.site)
  ensure (!spec.transport.isMutual) (.mutual cluster)
  ensure (!spec.transport.sni.any (fun sni => isGridName sni.toList)
      && !isGridName (addressHost spec.address.toList))
    (.gridName cluster)

/-- Refuse a provider file that could send a peer's request anywhere but this site. -/
def validateProvider (isIpLiteral : List Char → Bool) (binding : Binding) (config : ProviderConfig) :
    Except ProviderError Unit := do
  (validateSite "provider.local_site" config.localSite).mapError .descriptor
  each (fun site => do
    (validateSite "provider.admitted_sites" site).mapError .descriptor
    ensure (site != config.localSite) .admitsItself) config.admittedSites
  validateIds config.dial [] config.candidates
  each (fun (cluster, spec) => validateLocalDial config cluster spec) config.dial.toList
  (validateDials isIpLiteral config.asServing config.dial binding).mapError .dial

/-! ### The builder -/

structure Served (κ : Type) where
  cluster : String
  dialed : κ

/-- What a request is checked against. -/
structure ProviderSnapshot (κ : Type) where
  admitted : ExtTreeSet String := ∅
  byId : ExtTreeMap String (Served κ) := ∅

/-- The last good file and the digest of the files its dials read. -/
structure Good (δ : Type) where
  /-- its admitted sites are narrowed by any refused file since -/
  config : ProviderConfig
  digest : δ

/-- The file as last handled. -/
inductive Seen (β : Type)
  | unread
  | missing
  | file (bytes : β)
deriving DecidableEq

/-- Reads the file must be missing before admission is withdrawn. -/
def missingTicks : Nat := 2

/-- What a read finds of the TLS and token files: their digest, asked for twice, and what each dial
builds into, if it is not refused and its files can be read. -/
structure Files (δ κ : Type) where
  seenDigest : DialConfig → δ
  digest : DialConfig → δ
  dialed : String → DialSpec → Option κ

structure Builder (β δ κ : Type) where
  snapshot : ProviderSnapshot κ := {}
  seen : Seen β := .unread
  -- At startup nothing is admitted yet, so a missing file needs no second read.
  missing : Nat := missingTicks
  good : Option (Good δ) := none

inductive Read (β : Type)
  | unreadable
  | missing
  | file (bytes : β)

/-- How a file is parsed, and what the gateway fixed at startup. -/
structure Watch (β : Type) where
  parse : β → Option ProviderConfig
  isIpLiteral : List Char → Bool
  binding : Binding

def Watch.validate {β : Type} (watch : Watch β) (config : ProviderConfig) :
    Except ProviderError Unit :=
  validateProvider watch.isIpLiteral watch.binding config

section Builder

variable {β δ κ : Type} [DecidableEq β] [DecidableEq δ] (watch : Watch β)

def ProviderSnapshot.admits (snapshot : ProviderSnapshot κ) (organization : String) : Bool :=
  snapshot.admitted.contains organization

def ProviderSnapshot.serves (snapshot : ProviderSnapshot κ) (stableId : String) : Bool :=
  snapshot.byId.contains stableId

/-- The backends of a file whose dials were built; of candidates with one id the last one counts. -/
def ProviderConfig.served (config : ProviderConfig) (dialed : String → DialSpec → Option κ) :
    ExtTreeMap String (Served κ) :=
  ExtTreeMap.ofList (config.candidates.filterMap fun candidate => do
    let spec ← config.dial[candidate.cluster]?
    let built ← dialed candidate.cluster spec
    some (candidate.stableId, Served.mk candidate.cluster built))

/-- Build a file and make it the snapshot and the last good one. -/
def Builder.publish (builder : Builder β δ κ) (files : Files δ κ) (config : ProviderConfig) :
    Builder β δ κ :=
  { builder with
    snapshot := ⟨ExtTreeSet.ofList config.admittedSites, config.served files.dialed⟩
    good := some ⟨config, files.digest config.dial⟩ }

/-- Take from the admission every site that a refused file no longer lists. -/
def Builder.narrow (builder : Builder β δ κ) (listed : List String) : Builder β δ κ :=
  match builder.good with
  | none => builder
  | some good =>
    let kept := good.config.admittedSites.filter fun site => listed.contains site
    let narrowed :=
      { builder with good := some { good with config := { good.config with admittedSites := kept } } }
    if kept.length = good.config.admittedSites.length then narrowed
    else
      { narrowed with
        snapshot := { builder.snapshot with
          admitted := retainSet builder.snapshot.admitted fun site => listed.contains site } }

/-- Apply a changed file. -/
def Builder.apply (builder : Builder β δ κ) (files : Files δ κ) (bytes : Option β) :
    Builder β δ κ :=
  match bytes with
  | none => { builder with good := none, snapshot := {} }
  | some bytes =>
    match watch.parse bytes with
    | none => builder
    | some config =>
      match watch.validate config with
      | .ok () => builder.publish files config
      | .error _ => builder.narrow config.admittedSites

def Seen.bytes : Seen β → Option β
  | .file bytes => some bytes
  | .unread => none
  | .missing => none

/-- What is seen is handled when it changed; else a change of the TLS files rebuilds the dials. -/
def Builder.handle (builder : Builder β δ κ) (files : Files δ κ) (seen : Seen β) : Builder β δ κ :=
  if builder.seen ≠ seen then { builder.apply watch files seen.bytes with seen }
  else
    match builder.good with
    | none => builder
    | some good =>
      if files.seenDigest good.config.dial ≠ good.digest then builder.publish files good.config
      else builder

/-- Handle one read of the file. -/
def Builder.tick (builder : Builder β δ κ) (files : Files δ κ) (bytes : Option β) :
    Builder β δ κ :=
  match bytes with
  | none =>
    let missing := min (builder.missing + 1) 255
    let builder := { builder with missing }
    if missing < missingTicks then builder else builder.handle watch files .missing
  | some bytes => { builder with missing := 0 }.handle watch files (.file bytes)

/-- A file that cannot be read is left alone. -/
def Builder.reread (builder : Builder β δ κ) (read : Read β × Files δ κ) : Builder β δ κ :=
  match read.1 with
  | .unreadable => builder
  | .missing => builder.tick watch read.2 none
  | .file bytes => builder.tick watch read.2 (some bytes)

def Builder.after (reads : List (Read β × Files δ κ)) : Builder β δ κ :=
  Run.run (Builder.reread watch) {} reads

end Builder

/-! ### What the reads say -/

/-- The file last accepted and the parsable files read after it. -/
structure FileRecord where
  accepted : ProviderConfig
  since : List ProviderConfig := []

section Records

variable {β : Type} (watch : Watch β)

def Watch.Accepts (read : Read β) : Prop :=
  ∃ bytes config, read = .file bytes ∧ watch.parse bytes = some config
    ∧ watch.validate config = .ok ()

/-- What one read makes of it. -/
def Watch.note (record : Option FileRecord) (read : Read β) : Option FileRecord :=
  match read with
  | .file bytes =>
    match watch.parse bytes with
    | none => record
    | some config =>
      match watch.validate config with
      | .ok () => some ⟨config, []⟩
      | .error _ => record.map fun record =>
        { record with since := config :: record.since }
  | .unreadable => record
  | .missing => record

def Watch.record (reads : List (Read β)) : Option FileRecord := Run.run watch.note none reads

end Records

structure DialSpec.StaysHere (spec : DialSpec) (localSite : String) : Prop where
  site : spec.site = localSite
  transport : spec.transport.isMutual = false
  sni : ∀ sni ∈ spec.transport.sni, isGridName sni.toList = false
  address : isGridName (addressHost spec.address.toList) = false

variable {config : ProviderConfig}

theorem validateLocalDial_eq_ok_iff {cluster : String} {spec : DialSpec} :
    validateLocalDial config cluster spec = .ok () ↔ spec.StaysHere config.localSite := by
  simp only [validateLocalDial, andThen_eq_ok_iff, ensure_eq_ok_iff, beq_iff_eq, Bool.not_eq_true',
    Bool.and_eq_true, any_eq_false]
  constructor
  · rintro ⟨hst, htr, hsni, hadd⟩
    exact ⟨hst, htr, fun sni hmem => by simpa using hsni sni hmem, hadd⟩
  · intro h
    exact ⟨h.site, h.transport, fun sni hmem => by simpa using h.sni sni hmem, h.address⟩

theorem Watch.dial_of_validate {β : Type} {watch : Watch β} (h : watch.validate config = .ok ())
    {cluster : String} {spec : DialSpec} (hsp : config.dial[cluster]? = some spec) :
    spec.StaysHere config.localSite
      ∧ spec.Valid watch.isIpLiteral config.asServing watch.binding cluster := by
  unfold Watch.validate validateProvider at h
  simp only [andThen_eq_ok_iff, mapError_eq_ok_iff, each_eq_ok_iff] at h
  obtain ⟨-, -, -, hlc, hdl⟩ := h
  have hmem : (cluster, spec) ∈ config.dial.toList :=
    ExtTreeMap.mem_toList_iff_getElem?_eq_some.mpr hsp
  exact ⟨validateLocalDial_eq_ok_iff.mp (hlc _ hmem),
    (validateDials_eq_ok_iff.mp hdl).2.2 cluster spec hsp⟩

/-! ### The builder follows the reads -/

section Follows

variable {β δ κ : Type} {watch : Watch β}
  {record : Option FileRecord} {builder : Builder β δ κ} {files : Files δ κ}
  {later : ProviderConfig}

theorem exists_of_serves {snapshot : ProviderSnapshot κ} {id : String}
    (h : snapshot.serves id = true) : ∃ served, snapshot.byId[id]? = some served := by
  rw [← isSome_iff_exists, ← ExtTreeMap.contains_eq_isSome_getElem?]
  exact h

/-- A backend that is served is named by the file, with a dial. -/
theorem ProviderConfig.mem_served {dialed : String → DialSpec → Option κ} {id : String}
    {served : Served κ} (h : (config.served dialed)[id]? = some served) :
    ∃ candidate ∈ config.candidates, candidate.stableId = id ∧ candidate.cluster = served.cluster
      ∧ (config.dial[candidate.cluster]?).isSome := by
  have hmem := mem_of_getElem?_ofList h
  obtain ⟨candidate, hcn, hbl⟩ := List.mem_filterMap.mp hmem
  simp only [bind_eq_bind, bind_eq_some_iff, some.injEq, Prod.mk.injEq]
    at hbl
  obtain ⟨spec, hsp, built, -, hid, rfl⟩ := hbl
  exact ⟨candidate, hcn, hid, rfl, by rw [hsp]; rfl⟩

structure ProviderConfig.Within (config : ProviderConfig) (record : FileRecord) : Prop where
  candidates : config.candidates = record.accepted.candidates
  dial : config.dial = record.accepted.dial
  accepted : ∀ site ∈ config.admittedSites, site ∈ record.accepted.admittedSites
  since : ∀ later ∈ record.since, ∀ site ∈ config.admittedSites, site ∈ later.admittedSites

/-- What is kept and published, told by the reads. -/
structure Keeps (watch : Watch β) (snapshot : ProviderSnapshot κ) (good : Option (Good δ))
    (record : Option FileRecord) : Prop where
  valid : ∀ a ∈ record, watch.validate a.accepted = .ok ()
  within : ∀ g ∈ good, ∃ a, record = some a ∧ g.config.Within a
  admitted : ∀ site ∈ snapshot.admitted, ∃ g, good = some g ∧ site ∈ g.config.admittedSites
  served : ∀ (id : String) (served : Served κ), snapshot.byId[id]? = some served →
    ∃ g, good = some g ∧ ∃ candidate ∈ g.config.candidates,
      candidate.stableId = id ∧ candidate.cluster = served.cluster
        ∧ (g.config.dial[candidate.cluster]?).isSome

/-- What the file last handled says of the good one: accepted it is that, refused it has narrowed
it. -/
structure Settled (watch : Watch β) (good : Option (Good δ)) (seen : Seen β) : Prop where
  withdrawn : seen = .missing → good = none
  listed : ∀ bytes config, seen = .file bytes → watch.parse bytes = some config →
    ∀ g ∈ good, ∀ site ∈ g.config.admittedSites, site ∈ config.admittedSites
  kept : ∀ bytes config, seen = .file bytes → watch.parse bytes = some config →
    watch.validate config = .ok () → ∃ g, good = some g ∧ g.config = config

/-- The builder is where the reads say. -/
def Builder.Follows (watch : Watch β) (builder : Builder β δ κ) (record : Option FileRecord) :
    Prop :=
  Keeps watch builder.snapshot builder.good record ∧ Settled watch builder.good builder.seen

/-! One lemma for each way the snapshot changes. -/

theorem Keeps.empty (hvl : ∀ a ∈ record, watch.validate a.accepted = .ok ()) :
    Keeps watch ({} : ProviderSnapshot κ) (none : Option (Good δ)) record where
  valid := hvl
  within := nofun
  admitted := by
    intro site hst
    exact absurd hst ExtTreeSet.not_mem_empty
  served := by
    intro id served hsr
    simp at hsr

theorem Keeps.publish (builder : Builder β δ κ) (files : Files δ κ) {a : FileRecord}
    (hvl : watch.validate a.accepted = .ok ()) (hwt : config.Within a) :
    Keeps watch (builder.publish files config).snapshot (builder.publish files config).good
      (some a) where
  valid := by
    intro b hb
    cases hb
    exact hvl
  within := by
    intro g hg
    cases hg
    exact ⟨a, rfl, hwt⟩
  admitted := fun site hst => ⟨_, rfl, mem_ofList.mp hst⟩
  served := fun id served hsr => ⟨_, rfl, ProviderConfig.mem_served hsr⟩

/-- A refused file joins the files since. -/
theorem ProviderConfig.Within.note {a : FileRecord} (h : config.Within a)
    (hls : ∀ site ∈ config.admittedSites, site ∈ later.admittedSites) :
    config.Within { a with since := later :: a.since } where
  candidates := h.candidates
  dial := h.dial
  accepted := h.accepted
  since := by
    intro file hfl
    rcases List.mem_cons.mp hfl with rfl | hfl
    · exact hls
    · exact h.since file hfl

open Builder

theorem Keeps.narrow (h : Keeps watch builder.snapshot builder.good record) :
    Keeps watch (builder.narrow later.admittedSites).snapshot
      (builder.narrow later.admittedSites).good
      (record.map fun a => { a with since := later :: a.since }) := by
  have hvl : ∀ a ∈ record.map fun a => { a with since := later :: a.since },
      watch.validate a.accepted = .ok () := by
    intro a ha
    obtain ⟨before, hpre, rfl⟩ := map_eq_some_iff.mp ha
    exact h.valid before hpre
  unfold Builder.narrow
  rcases hgd : builder.good with - | good
  · dsimp only
    refine ⟨hvl, ?_, ?_, ?_⟩
    · rw [hgd]
      exact nofun
    · exact h.admitted
    · exact h.served
  · dsimp only
    obtain ⟨a, rfl, hwt⟩ := h.within good hgd
    have hkp : ∀ site ∈ good.config.admittedSites.filter fun site =>
        later.admittedSites.contains site,
        site ∈ good.config.admittedSites ∧ site ∈ later.admittedSites := by
      intro site hst
      obtain ⟨hmem, hls⟩ := List.mem_filter.mp hst
      exact ⟨hmem, List.contains_iff_mem.mp hls⟩
    have hnr : ({ good.config with admittedSites :=
          good.config.admittedSites.filter fun site => later.admittedSites.contains site } :
        ProviderConfig).Within { a with since := later :: a.since } :=
      ProviderConfig.Within.note
        ⟨hwt.candidates, hwt.dial, fun site hst => hwt.accepted site (hkp site hst).1,
          fun file hfl site hst => hwt.since file hfl site (hkp site hst).1⟩
        fun site hst => (hkp site hst).2
    have hadm : ∀ site ∈ builder.snapshot.admitted, site ∈ good.config.admittedSites := by
      intro site hst
      obtain ⟨g, hg, hmem⟩ := h.admitted site hst
      cases hgd.symm.trans hg
      exact hmem
    have hsr : ∀ (id : String) (served : Served κ), builder.snapshot.byId[id]? = some served →
        ∃ candidate ∈ good.config.candidates, candidate.stableId = id
          ∧ candidate.cluster = served.cluster
          ∧ (good.config.dial[candidate.cluster]?).isSome := by
      intro id served hid
      obtain ⟨g, hg, hfn⟩ := h.served id served hid
      cases hgd.symm.trans hg
      exact hfn
    split_ifs with hlen
    · -- nothing was taken away, and the snapshot stays as it is
      have hall := List.length_filter_eq_length_iff.mp hlen
      refine ⟨hvl, ?_, ?_, fun id served hid => ⟨_, rfl, hsr id served hid⟩⟩
      · intro g hg
        cases hg
        exact ⟨_, rfl, hnr⟩
      · intro site hst
        have hmem := hadm site hst
        exact ⟨_, rfl, List.mem_filter.mpr ⟨hmem, hall site hmem⟩⟩
    · refine ⟨hvl, ?_, ?_, fun id served hid => ⟨_, rfl, hsr id served hid⟩⟩
      · intro g hg
        cases hg
        exact ⟨_, rfl, hnr⟩
      · intro site hst
        obtain ⟨hmem, hls⟩ := mem_retainSet.mp hst
        exact ⟨_, rfl, List.mem_filter.mpr ⟨hadm site hmem, hls⟩⟩

/-- After narrowing, only sites the refused file lists are kept. -/
theorem listed_of_narrow {listed : List String} {g : Good δ}
    (hg : (builder.narrow listed).good = some g) : ∀ site ∈ g.config.admittedSites, site ∈ listed := by
  unfold narrow at hg
  rcases hgd : builder.good with - | good
  · rw [hgd] at hg
    dsimp only at hg
    rw [hgd] at hg
    cases hg
  · rw [hgd] at hg
    dsimp only at hg
    have hcn : g = { good with config := { good.config with
        admittedSites := good.config.admittedSites.filter fun site => listed.contains site } } := by
      split_ifs at hg <;> exact (some.inj hg).symm
    intro site hst
    rw [hcn] at hst
    exact List.contains_iff_mem.mp (List.mem_filter.mp hst).2

/-! ### Every read keeps it -/

section

variable (h : builder.Follows watch record)
include h

/-- A changed file is handled as the reads say. -/
theorem Builder.Follows.apply (bytes : β) :
    ({ builder.apply watch files (some bytes) with seen := .file bytes } : Builder β δ κ).Follows
      watch (watch.note record (.file bytes)) := by
  unfold Builder.apply Watch.note
  dsimp only
  rcases hpr : watch.parse bytes with - | config
  · refine ⟨h.1, nofun, ?_, ?_⟩
    · intro other config hot hcn
      obtain rfl := Seen.file.inj hot
      rw [hpr] at hcn
      cases hcn
    · intro other config hot hcn
      obtain rfl := Seen.file.inj hot
      rw [hpr] at hcn
      cases hcn
  · dsimp only
    rcases hvl : watch.validate config with error | _
    · refine ⟨h.1.narrow, nofun, ?_, ?_⟩
      · intro other found hot hfn g hg
        obtain rfl := Seen.file.inj hot
        cases hpr.symm.trans hfn
        exact listed_of_narrow hg
      · intro other found hot hfn hok
        obtain rfl := Seen.file.inj hot
        cases hpr.symm.trans hfn
        rw [hvl] at hok
        cases hok
    · refine ⟨Keeps.publish builder files hvl ⟨rfl, rfl, fun _ hst => hst, nofun⟩, nofun, ?_, ?_⟩
      · intro other found hot hfn g hg site hst
        obtain rfl := Seen.file.inj hot
        cases hpr.symm.trans hfn
        cases hg
        exact hst
      · intro other found hot hfn _
        obtain rfl := Seen.file.inj hot
        cases hpr.symm.trans hfn
        exact ⟨_, rfl, rfl⟩

/-- A file read again says nothing new of the good one. -/
theorem Builder.Follows.again {bytes : β} (hsn : builder.seen = .file bytes) :
    builder.Follows watch (watch.note record (.file bytes)) := by
  obtain ⟨hkp, hst⟩ := h
  refine ⟨?_, hst⟩
  unfold Watch.note
  dsimp only
  rcases hpr : watch.parse bytes with - | config
  · exact hkp
  · dsimp only
    rcases hvl : watch.validate config with error | _
    · refine ⟨?_, ?_, hkp.admitted, hkp.served⟩
      · intro a ha
        obtain ⟨before, hpre, rfl⟩ := map_eq_some_iff.mp ha
        exact hkp.valid before hpre
      · intro g hg
        obtain ⟨a, rfl, hwt⟩ := hkp.within g hg
        exact ⟨_, rfl, hwt.note (hst.listed bytes config hsn hpr g hg)⟩
    · refine ⟨?_, ?_, hkp.admitted, hkp.served⟩
      · intro a ha
        cases ha
        exact hvl
      · intro g hg
        obtain ⟨kept, hkt, rfl⟩ := hst.kept bytes config hsn hpr hvl
        cases hkt.symm.trans hg
        exact ⟨_, rfl, rfl, rfl, fun _ hsi => hsi, nofun⟩

/-- A rebuild of the dials keeps the file and who it admits. -/
theorem Builder.Follows.rebuild {good : Good δ} (hgd : builder.good = some good) :
    (builder.publish files good.config).Follows watch record := by
  obtain ⟨hkp, hst⟩ := h
  obtain ⟨a, rfl, hwt⟩ := hkp.within good hgd
  refine ⟨Keeps.publish builder files (hkp.valid a rfl) hwt, ?_, ?_, ?_⟩
  · intro hsn
    rw [hst.withdrawn hsn] at hgd
    cases hgd
  · intro bytes config hsn hpr g hg
    cases hg
    exact hst.listed bytes config hsn hpr good hgd
  · intro bytes config hsn hpr hvl
    obtain ⟨kept, hkt, rfl⟩ := hst.kept bytes config hsn hpr hvl
    cases hkt.symm.trans hgd
    exact ⟨_, rfl, rfl⟩

theorem Builder.Follows.counted (missing : Nat) :
    ({ builder with missing } : Builder β δ κ).Follows watch record := h

end

variable [DecidableEq β] [DecidableEq δ]

theorem Builder.Follows.handle_file (h : builder.Follows watch record) (bytes : β) :
    (builder.handle watch files (.file bytes)).Follows watch
      (watch.note record (.file bytes)) := by
  unfold handle
  split_ifs with hsn
  · exact h.apply bytes
  · have hag := h.again (not_not.mp hsn)
    split
    · exact hag
    · rename_i good hgd
      split_ifs
      · exact hag.rebuild hgd
      · exact hag

theorem Builder.Follows.handle_missing (h : builder.Follows watch record) :
    (builder.handle watch files .missing).Follows watch record
      ∧ (builder.handle watch files .missing).good = none := by
  unfold handle
  split_ifs with hsn
  · exact ⟨⟨Keeps.empty h.1.valid, fun _ => rfl, nofun, nofun⟩, rfl⟩
  · have hgd := h.2.withdrawn (not_not.mp hsn)
    rw [hgd]
    exact ⟨h, hgd⟩

/-- **Every read keeps the builder where the reads say.** -/
theorem Builder.Follows.reread (h : builder.Follows watch record) (read : Read β × Files δ κ) :
    (builder.reread watch read).Follows watch (watch.note record read.1) := by
  obtain ⟨read, files⟩ := read
  unfold Builder.reread
  cases read with
  | unreadable => exact h
  | missing =>
    unfold Builder.tick
    dsimp only
    split_ifs
    · exact h.counted _
    · exact (h.counted _).handle_missing.1
  | file bytes => exact (h.counted 0).handle_file bytes

/-- The builder is where the reads say throughout a run. -/
theorem Builder.follows_after (watch : Watch β) (reads : List (Read β × Files δ κ)) :
    (after watch reads).Follows watch (watch.record (reads.map Prod.fst)) := by
  induction reads using List.reverseRecOn with
  | nil => exact ⟨Keeps.empty nofun, nofun, nofun, nofun⟩
  | append_singleton reads read ih =>
    have hbl : after watch (reads ++ [read])
        = (after watch reads).reread watch read := Run.run_append [read]
    have hrec : watch.record ((reads ++ [read]).map Prod.fst)
        = watch.note (watch.record (reads.map Prod.fst)) read.1 := by
      rw [List.map_append]
      exact Run.run_append [read.1]
    rw [hbl, hrec]
    exact ih.reread read

/-! ### Withdrawal -/

theorem Builder.good_reread (hgd : builder.good = none) {read : Read β × Files δ κ}
    (hrd : ¬watch.Accepts read.1) : (builder.reread watch read).good = none := by
  obtain ⟨read, files⟩ := read
  have hhn (missing : Nat) (seen : Seen β) (hsn : ∀ bytes, seen = .file bytes →
      read = .file bytes) :
      (({ builder with missing } : Builder β δ κ).handle watch files seen).good = none := by
    unfold handle
    dsimp only
    rw [hgd]
    split_ifs
    · cases seen with
      | unread | missing => rfl
      | file bytes =>
        unfold apply Seen.bytes
        dsimp only
        rcases hpr : watch.parse bytes with - | config
        · rfl
        · dsimp only
          rcases hvl : watch.validate config with error | _
          · rfl
          · exact absurd ⟨bytes, config, hsn bytes rfl, hpr, hvl⟩ hrd
    · rfl
  cases read with
  | unreadable => exact hgd
  | missing =>
    unfold reread tick
    dsimp only
    split_ifs
    · exact hgd
    · exact hhn _ .missing nofun
  | file bytes =>
    apply hhn 0 (.file bytes)
    intro other hot
    obtain rfl := Seen.file.inj hot
    rfl

theorem Builder.Follows.two_missing (h : builder.Follows watch record) (files₁ files₂ : Files δ κ) :
    ((builder.reread watch (.missing, files₁)).reread watch (.missing, files₂)).good = none := by
  have hnx := h.reread (.missing, files₁)
  have hcn : 1 ≤ (builder.reread watch (.missing, files₁)).missing := by
    show 1 ≤ (builder.tick watch files₁ none).missing
    unfold tick
    dsimp only
    split_ifs
    · show 1 ≤ min (builder.missing + 1) 255
      omega
    · have hkp : ∀ b : Builder β δ κ, (b.handle watch files₁ .missing).missing = b.missing := by
        intro b
        unfold handle
        split_ifs
        · rfl
        · split
          · rfl
          · split_ifs <;> rfl
      rw [hkp]
      show 1 ≤ min (builder.missing + 1) 255
      omega
  generalize builder.reread watch (.missing, files₁) = before at hnx hcn
  show (before.tick watch files₂ none).good = none
  unfold tick
  dsimp only
  rw [if_neg]
  · exact (hnx.counted _).handle_missing.2
  · show ¬min (before.missing + 1) 255 < 2
    omega

end Follows

/-- **A removed site stays removed.**  After any reads, with TLS files changing as they like:
whoever is admitted is listed by the file last accepted and by every parsable file read since; no one
is, and nothing is served, from two missing reads in a row until a file is accepted; and a backend is
served only if the file last accepted names it, with a dial that stays here and passes the rules. -/
theorem removed_site_stays_removed {β δ κ : Type} [DecidableEq β] [DecidableEq δ] (watch : Watch β)
    (reads : List (Read β × Files δ κ)) :
    (∀ site, (Builder.after watch reads).snapshot.admits site = true →
      ∃ record, watch.record (reads.map Prod.fst) = some record
        ∧ site ∈ record.accepted.admittedSites
        ∧ ∀ later ∈ record.since, site ∈ later.admittedSites)
    ∧ (∀ reads₁ files₁ files₂ reads₂,
        reads = reads₁ ++ (Read.missing, files₁) :: (Read.missing, files₂) :: reads₂ →
        (∀ read ∈ reads₂, ¬watch.Accepts read.1) →
        ∀ text, (Builder.after watch reads).snapshot.admits text = false
          ∧ (Builder.after watch reads).snapshot.serves text = false)
    ∧ ∀ id, (Builder.after watch reads).snapshot.serves id = true →
      ∃ record, watch.record (reads.map Prod.fst) = some record
        ∧ ∃ candidate ∈ record.accepted.candidates, candidate.stableId = id
        ∧ ∃ spec, record.accepted.dial[candidate.cluster]? = some spec
        ∧ spec.StaysHere record.accepted.localSite
        ∧ spec.Valid watch.isIpLiteral record.accepted.asServing watch.binding candidate.cluster := by
  obtain ⟨hkp, -⟩ := Builder.follows_after watch reads
  refine ⟨?_, ?_, ?_⟩
  · intro site hsi
    obtain ⟨good, hgd, hmem⟩ := hkp.admitted site (ExtTreeSet.mem_iff_contains.mpr hsi)
    obtain ⟨record, hrc, hwt⟩ := hkp.within good hgd
    exact ⟨record, hrc, hwt.accepted site hmem,
      fun later hlt => hwt.since later hlt site hmem⟩
  · rintro reads₁ files₁ files₂ reads₂ rfl hrd₂ text
    have hnn : (Builder.after watch (reads₁ ++ (Read.missing, files₁) :: (Read.missing, files₂)
        :: reads₂)).good = none := by
      have hstp (b : Builder β δ κ) (read : Read β × Files δ κ) (hre : ¬watch.Accepts read.1)
          (hgd : b.good = none) : (b.reread watch read).good = none :=
        Builder.good_reread hgd hre
      show (Run.run (Builder.reread watch) {} _).good = none
      rw [Run.run_append, Run.run_cons, Run.run_cons]
      exact Run.run_invariant_along hstp (Run.along_of_forall hrd₂)
        ((Builder.follows_after watch reads₁).two_missing files₁ files₂)
    constructor
    · rcases hadm : (Builder.after watch _).snapshot.admits text with - | -
      · rfl
      · obtain ⟨good, hgd, -⟩ := hkp.admitted text (ExtTreeSet.mem_iff_contains.mpr hadm)
        rw [hnn] at hgd
        cases hgd
    · rcases hss : (Builder.after watch _).snapshot.serves text with - | -
      · rfl
      · obtain ⟨served, hsr⟩ := exists_of_serves hss
        obtain ⟨good, hgd, -⟩ := hkp.served text served hsr
        rw [hnn] at hgd
        cases hgd
  · intro id hid
    obtain ⟨served, hsr⟩ := exists_of_serves hid
    obtain ⟨good, hgd, candidate, hcn, hst, -, hdl⟩ := hkp.served id served hsr
    obtain ⟨record, hrc, hwt⟩ := hkp.within good hgd
    rw [hwt.candidates] at hcn
    rw [hwt.dial] at hdl
    obtain ⟨spec, hsp⟩ := Option.isSome_iff_exists.mp hdl
    obtain ⟨hsty, hvl⟩ := Watch.dial_of_validate (hkp.valid record hrc) hsp
    exact ⟨record, hrc, candidate, hcn, hst, spec, hsp, hsty, hvl⟩

end PraxisGrid.Gateway
