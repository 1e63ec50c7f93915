/-
PraxisGrid/Signals/Guarded.lean

Atomic provider batches and retained revision watermarks: `crates/signals/src/signals/guarded.rs`.

A response is staged into one batch for each provider, the watermarks of the sites advance to the
highest valid metadata, and the fences of the providers follow them.  Only then are the batches
committed, provider by provider.  The loop over the batches returns what became of each of them
(`Outcome`), and the tally of the response is counted from that.
-/
import Mathlib.Data.List.Dedup
import PraxisGrid.Signals.Store

namespace PraxisGrid

open Std Text Saturate OrdMap

variable {V : Type}

def maxResponseBytes : Nat := 8388608

def maxResponseLines : Nat := 32768

/-! ### Batches -/

/-- The staged rows of one provider, with at most one metadata row. -/
structure Batch (V : Type) where
  invalidIdentity : Bool := false
  refusal : Option Dropped := none
  revision : Option Revision := none
  rows : List (Observation V) := []
  site : String

namespace Batch

/-- Keep one metadata record and a bounded payload. -/
def push (readings : Readings V) (batch : Batch V) (observation : Observation V)
    (line : List Char) (now : Option Clock) : Batch V :=
  if observation.metric = revisionMetric then
    let parsed := ((Metric.parse readings line).bind Revision.parse).filter fun revision =>
      validEpoch revision.publisherEpoch now
    let invalidIdentity := batch.invalidIdentity || parsed.isNone || batch.revision.isSome
    { batch with
      invalidIdentity := invalidIdentity
      refusal := if invalidIdentity then batch.refusal.or (some .unparsed) else batch.refusal
      revision := parsed }
  else if batch.rows.length < maxBatchSamples then
    { batch with rows := batch.rows ++ [observation] }
  else { batch with refusal := batch.refusal.or (some .unparsed) }

/-- The rows are a payload of distinct series, complete and at one time if there is metadata. -/
def complete (batch : Batch V) : Bool :=
  (batch.rows.map (·.metric)).dedup.length ≤ maxMetricsPerProvider
    && (batch.rows.map fun row => (row.metric, row.labels)).Nodup
    && batch.revision.all fun revision =>
      revision.batchSamples == batch.rows.length
        && batch.rows.all fun row => row.originMs == revision.timestampMs

end Batch

/-! ### Staging -/

/-- One batch for each provider named. -/
abbrev Batches (V : Type) := ExtTreeMap String (Batch V)

/-- The batches of a response. -/
structure Staged (V : Type) where
  batches : Batches V := ∅
  invalid : Bool := false
  rejected : Ingested := {}

namespace Staged

/-- Record a refusal. -/
def reject (staged : Staged V) (cause : Dropped) : Staged V :=
  let rejected := staged.rejected
  { staged with
    rejected := match cause with
      | .capped => { rejected with capped := satAdd rejected.capped 1 }
      | .mismatched => { rejected with mismatched := satAdd rejected.mismatched 1 }
      | .skewed => { rejected with skewed := satAdd rejected.skewed 1 }
      | .unparsed => { rejected with unparsed := satAdd rejected.unparsed 1 } }

end Staged

/-- The hash of the labels in the order of their names; none if a name is repeated. -/
def orderedLabels (readings : Readings V) (metric : Metric V) : Option UInt64 :=
  if (metric.labels.map Prod.fst).Nodup then
    some (readings.hash (ExtTreeMap.ofList metric.labels compare).toList)
  else none

/-- A row whose target belongs to the authenticated response. -/
def attributedRow (readings : Readings V) (line : List Char) (scrape : ScrapeClock) :
    Except Dropped (Observation V × String) :=
  match parseSample readings line, (Metric.parse readings line).bind (orderedLabels readings) with
  | some observation, some labels =>
    match observation.site with
    | none => .error .unparsed
    | some site =>
      if !validTarget site || !validTarget observation.cluster then .error .unparsed
      else if !scrape.isLocal && site != scrape.owner then .error .mismatched
      else .ok ({ observation with labels := labels }, site)
  | _, _ => .error .unparsed

/-- Attribute a row and retain its metadata before checking its age. -/
def Staged.push (readings : Readings V) (staged : Staged V) (line : List Char)
    (scrape : ScrapeClock) (now : Option Clock) : Except Dropped (Staged V) := do
  let (observation, site) ← attributedRow readings line scrape
  let key := LoadStore.key site observation.cluster
  if !staged.batches.contains key && maxProviders ≤ staged.batches.size then .error .capped
  else
    let skewed := (rebaseAge scrape.referenceMs observation.originMs scrape.localNowMs).isNone
    let batch := ((staged.batches[key]?).getD { site := site }).push readings observation line now
    if skewed then
      .ok ({ staged with
        batches := staged.batches.insert key { batch with refusal := some .skewed } }.reject .skewed)
    else .ok { staged with batches := staged.batches.insert key batch }

def Staged.pushLine (readings : Readings V) (scrape : ScrapeClock) (now : Option Clock)
    (staged : Staged V) (line : List Char) : Staged V :=
  if (trim line).isEmpty || (trimStart line).head? == some '#' then staged
  else match staged.push readings line scrape now with
    | .ok staged => staged
    | .error cause => { staged with invalid := true }.reject cause

/-- Attribute and bound every row of a response. -/
def stage (readings : Readings V) (text : List Char) (scrape : ScrapeClock) (now : Option Clock) :
    Staged V :=
  if maxResponseBytes < utf8Size text then { invalid := true : Staged V }.reject .capped
  else
    let lines := Text.lines text
    let staged := (lines.take maxResponseLines).foldl (Staged.pushLine readings scrape now) {}
    if maxResponseLines < lines.length then { staged with invalid := true }.reject .capped
    else staged

/-! ### Providers -/

/-- The held identity is within the age bound. -/
def Guard.fresh (guard : Guard) (nowMs maxAgeMs : Int) : Bool :=
  guard.acceptedAt.any fun atMs => max (signedSub nowMs atMs) 0 ≤ maxAgeMs

/-- Another provider object, spec generation or publisher than the held one. -/
def Revision.changes (revision held : Revision) : Bool :=
  held.uid != revision.uid || held.generation != revision.generation
    || held.publisherEpoch != revision.publisherEpoch

namespace Provider

/-- The batch is the complete publication that was accepted last. -/
def duplicate (provider : Provider V) (batch : Batch V) : Bool :=
  (match batch.revision, provider.guard.newest with
    | some next, some held =>
      next.order == held.order && next.uid == held.uid && next.generation == held.generation
        && next.batchSamples == held.batchSamples
    | _, _ => false)
    && batch.refusal.isNone && !batch.invalidIdentity && batch.complete

/-- Retire the qualification. -/
def disqualify (provider : Provider V) : Provider V :=
  { provider with
    guard := { provider.guard with
      epoch := none
      acceptedAt := none
      serial := satAdd provider.guard.serial 1 } }

/-- Retire windows and qualification. -/
def invalidate (provider : Provider V) : Provider V :=
  { provider with metrics := ∅ }.disqualify

/-- Consume the observed authority. -/
def reject (provider : Provider V) : Provider V :=
  { provider with
    guard := { provider.guard with newest := provider.guard.fence.or provider.guard.newest } }.invalidate

def rollback (provider : Provider V) (revision : Revision) : Bool :=
  (provider.guard.fence.or provider.guard.newest).any fun held =>
    revision.uid == held.uid && revision.generation < held.generation

/-- Remember authority independently from accepting its payload. -/
def observe (provider : Provider V) (revision : Revision) : Provider V :=
  if provider.guard.fence.any fun held => revision.order ≤ held.order then provider
  else
    let provider :=
      if provider.guard.fence.any revision.changes then provider.invalidate else provider
    { provider with guard := { provider.guard with fence := some revision } }

/-- The metric names of a batch fit beside those that are held. -/
def fits (provider : Provider V) (batch : Batch V) : Bool :=
  (provider.metrics.keys ++ batch.rows.map (·.metric)).dedup.length ≤ maxMetricsPerProvider

/-- Qualify a newer complete publication without importing old windows. -/
def qualify (provider : Provider V) (revision : Revision) (scrape : ScrapeClock)
    (maxAgeMs : Int) : Bool × Provider V :=
  match rebaseAge scrape.referenceMs revision.timestampMs scrape.localNowMs with
  | none => (false, provider.invalidate)
  | some atMs =>
    let changed := provider.guard.newest.all revision.changes
    let provider :=
      if changed || provider.guard.epoch.isNone || !provider.guard.fresh scrape.localNowMs maxAgeMs
      then provider.invalidate else provider
    let provider := { provider with
      guard := { provider.guard with
        serial := satAdd provider.guard.serial 1
        newest := some revision } }
    let age := signedSub scrape.localNowMs atMs
    if ¬ (0 ≤ age ∧ age ≤ maxAgeMs) then (false, provider.invalidate)
    else (true, { provider with
      guard := { provider.guard with
        acceptedAt := some atMs
        epoch := some (provider.guard.epoch.getD provider.guard.serial) } })

/-- Decide one publication. -/
def accept (provider : Provider V) (batch : Batch V) (scrape : ScrapeClock) (maxAgeMs : Int) :
    Bool × Provider V :=
  if batch.revision.any provider.rollback then (false, provider)
  else if batch.revision.any fun next =>
      provider.guard.newest.any fun held => next.order ≤ held.order then (false, provider)
  else if batch.refusal.isSome || !batch.complete || provider.guard.serial.toNat == wordMax then
    (false, provider.reject)
  else match batch.revision with
    | some revision =>
      if revision.batchSamples = 0 then
        (true, { provider with
          guard := { provider.guard with newest := some revision } }.invalidate)
      else provider.qualify revision scrape maxAgeMs
    | none =>
      let provider :=
        if provider.guard.epoch.isSome || provider.guard.acceptedAt.isSome then
          { provider with metrics := ∅ }
        else provider
      (true, provider.disqualify)

end Provider

/-- Outcome of an atomic provider commit. -/
inductive Commit
  | accepted
  | duplicate
  | capped
  | rejected
deriving DecidableEq

/-- Push the rows of a payload, each at its age on the local clock. -/
def pushRows (readings : Readings V) (scrape : ScrapeClock) (combine : String → Combine)
    (windowMs : Nat) (metrics : Windows V) (rows : List (Observation V)) : Windows V :=
  rows.foldl
    (fun metrics row =>
      match rebaseAge scrape.referenceMs row.originMs scrape.localNowMs with
      | none => metrics
      | some atMs =>
        pushObservation readings metrics { row with sample := { row.sample with atMs := atMs } }
          (combine row.metric) windowMs)
    metrics

def Provider.commit (readings : Readings V) (provider : Provider V) (batch : Batch V)
    (scrape : ScrapeClock) (maxAgeMs : Int) (combine : String → Combine) (windowMs : Nat) :
    Commit × Provider V :=
  if provider.duplicate batch then (.duplicate, provider)
  else match provider.accept batch scrape maxAgeMs with
    | (false, provider) => (.rejected, provider)
    | (true, provider) =>
      if !provider.fits batch then (.rejected, provider.invalidate)
      else (.accepted, { provider with
        metrics := pushRows readings scrape combine windowMs provider.metrics batch.rows })

/-- What became of a staged batch. -/
structure Outcome (V : Type) where
  key : String
  batch : Batch V
  commit : Commit

/-- Count the lines of an outcome; those of a skewed batch were counted before. -/
def Ingested.count (tally : Ingested) (outcome : Outcome V) : Ingested :=
  let batch := outcome.batch
  let count := saturate (max (batch.rows.length + if batch.revision.isSome then 1 else 0) 1)
  if batch.refusal = some .skewed then tally
  else match outcome.commit with
    | .accepted => { tally with kept := satAdd tally.kept count }
    | .duplicate => tally
    | .capped => { tally with capped := satAdd tally.capped count }
    | .rejected => { tally with unparsed := satAdd tally.unparsed count }

/-! ### Ingestion -/

/-- Revision qualification of a provider at a read. -/
structure LearningState where
  epoch : Option UInt64
  serial : UInt64

namespace LoadStore

/-- A provider that is held, or a new one if there is room for it. -/
def occupy (store : LoadStore V) (key site : String) : Option (LoadStore V × Provider V) :=
  match store.providers[key]? with
  | some provider => some (store, provider)
  | none => (store.admitNewProvider site).map fun store => (store, {})

def put (store : LoadStore V) (key : String) (provider : Provider V) : LoadStore V :=
  { store with providers := store.providers.insert key provider }

/-- The higher of a held order and another. -/
def raise (held : Option PublicationOrder) (order : PublicationOrder) : PublicationOrder :=
  (held.map (max · order)).getD order

/-- The response owns a provider: it is of its site, or the local aggregate. -/
def owns (scrape : ScrapeClock) (key : String) : Bool :=
  scrape.isLocal || (keySite key).any fun site => site == scrape.owner

/-- A parse failure without trustworthy attribution. -/
def rejectResponse (store : LoadStore V) (scrape : ScrapeClock) : LoadStore V :=
  store.mapProviders fun key held => if owns scrape key then held.reject else held

/-- The order of unique, semantically valid metadata. -/
def publicationOrder (store : LoadStore V) (key : String) (batch : Batch V) :
    Option PublicationOrder :=
  if batch.invalidIdentity then none
  else batch.revision.bind fun revision =>
    if (store.providers[key]?).any fun provider => provider.rollback revision then none
    else some revision.order

def includeOrder (store : LoadStore V) (incoming : Orders) (entry : String × Batch V) : Orders :=
  match store.publicationOrder entry.1 entry.2 with
  | none => incoming
  | some order => incoming.insert entry.2.site (raise incoming[entry.2.site]? order)

/-- The highest order of each site in a response. -/
def incoming (store : LoadStore V) (batches : Batches V) : Orders :=
  batches.toList.foldl store.includeOrder ∅

/-- Advance the watermarks; none if there would be too many sites. -/
def advanceOrders (store : LoadStore V) (incoming : Orders) : Option (LoadStore V) :=
  let orders := store.revisionOrders
  let fresh := (incoming.keys.filter fun site => !orders.contains site).length
  if maxProviders < orders.size + fresh then none
  else some { store with
    revisionOrders := incoming.toList.foldl
      (fun orders (site, order) => orders.insert site (raise orders[site]? order)) orders }

/-- Let the fence of one provider follow its metadata. -/
def rememberFence (store : LoadStore V) (entry : String × Batch V) : LoadStore V :=
  let (key, batch) := entry
  match store.publicationOrder key batch, batch.revision with
  | some order, some revision =>
    if (store.revisionOrders[batch.site]?).any fun held => order < held then store
    else match store.occupy key batch.site with
      | none => store
      | some (store, provider) => store.put key (provider.observe revision)
  | _, _ => store

/-- Valid control metadata fences old responses even if its payload is lost. -/
def rememberFences (store : LoadStore V) (batches : Batches V) : LoadStore V :=
  batches.toList.foldl rememberFence store

/-- Providers of an owned site that the response does not name lose their qualification. -/
def invalidateMissing (store : LoadStore V) (batches : Batches V)
    (scrape : ScrapeClock) (incoming : Orders) : LoadStore V :=
  store.mapProviders fun key held =>
    match keySite key with
    | none => held
    | some site =>
      let outdated := (incoming[site]?).any fun next =>
        (store.revisionOrders[site]?).any fun current => next < current
      if (scrape.isLocal || site == scrape.owner) && !outdated && !batches.contains key then
        held.disqualify
      else held

def commit (readings : Readings V) (store : LoadStore V) (key : String) (batch : Batch V)
    (scrape : ScrapeClock) (maxAgeMs : Int) : Commit × LoadStore V :=
  match store.occupy key batch.site with
  | none => (.capped, store)
  | some (store, provider) =>
    let (result, provider) :=
      provider.commit readings batch scrape maxAgeMs store.combine store.windowMs
    (result, store.put key provider)

/-- Commit one batch unless its order is below the watermark of its site. -/
def commitBatch (readings : Readings V) (scrape : ScrapeClock) (maxAgeMs : Int)
    (store : LoadStore V) (key : String) (batch : Batch V) : Commit × LoadStore V :=
  let old := batch.revision.any fun revision =>
    (store.revisionOrders[batch.site]?).any fun order => revision.order < order
  if old then (.rejected, store) else store.commit readings key batch scrape maxAgeMs

def commitEntry (readings : Readings V) (scrape : ScrapeClock) (maxAgeMs : Int)
    (committed : LoadStore V × List (Outcome V)) (entry : String × Batch V) :
    LoadStore V × List (Outcome V) :=
  let (result, store) := committed.1.commitBatch readings scrape maxAgeMs entry.1 entry.2
  (store, committed.2 ++ [⟨entry.1, entry.2, result⟩])

/-- Apply the staged groups. -/
def commitResponse (readings : Readings V) (store : LoadStore V)
    (batches : Batches V) (scrape : ScrapeClock) (maxAgeMs : Int) :
    LoadStore V × List (Outcome V) :=
  batches.toList.foldl (commitEntry readings scrape maxAgeMs) (store, [])

/-- Provider groups below the watermark of their site lose their qualification. -/
def retireSuperseded (store : LoadStore V) : LoadStore V :=
  store.mapProviders fun key held =>
    if held.guard.epoch.isSome && held.guard.newest.any fun revision =>
        (keySite key).any fun site =>
          (store.revisionOrders[site]?).any fun order => revision.order < order then
      held.disqualify
    else held

/-- Stage the entire response, then commit it; with what became of the batches. -/
def ingestOutcomes (readings : Readings V) (store : LoadStore V) (text : List Char)
    (scrape : ScrapeClock) (maxAgeMs : Int) (now : Option Clock) :
    LoadStore V × Ingested × List (Outcome V) :=
  let staged := stage readings text scrape now
  let incoming := store.incoming staged.batches
  match store.advanceOrders incoming with
  | none => (store.rejectResponse scrape, { capped := 1 }, [])
  | some store =>
    let store := store.rememberFences staged.batches
    if staged.invalid then (store.rejectResponse scrape, staged.rejected, [])
    else
      let store := store.invalidateMissing staged.batches scrape incoming
      let (store, outcomes) := store.commitResponse readings staged.batches scrape maxAgeMs
      let tally := outcomes.foldl Ingested.count {}
      (store.retireSuperseded, { tally with skewed := staged.rejected.skewed }, outcomes)

def ingestGuarded (readings : Readings V) (store : LoadStore V) (text : List Char)
    (scrape : ScrapeClock) (maxAgeMs : Int) (now : Option Clock) : LoadStore V × Ingested :=
  let (store, tally, _) := store.ingestOutcomes readings text scrape maxAgeMs now
  (store, tally)

/-- Current learning qualification; an expired one is retired. -/
def learningState (store : LoadStore V) (key : String) (nowMs maxAgeMs : Int) :
    LearningState × LoadStore V :=
  match store.revisionMaxAgeMs with
  | none => (⟨some 0, 0⟩, store)
  | some bound =>
    match store.providers[key]? with
    | none => (⟨none, 0⟩, store)
    | some provider =>
      let provider :=
        if provider.guard.epoch.isSome && !provider.guard.fresh nowMs (min bound maxAgeMs) then
          provider.disqualify
        else provider
      (⟨provider.guard.epoch, provider.guard.serial⟩, store.put key provider)

def scrapeOf (store : LoadStore V) (referenceMs localNowMs : Int) (owner : String) : ScrapeClock where
  referenceMs := referenceMs
  localNowMs := localNowMs
  owner := owner
  isLocal := store.localSite == some owner

/-- Absorb a response, in guarded mode or line by line. -/
def ingestAt (readings : Readings V) (store : LoadStore V) (text : List Char)
    (referenceMs localNowMs : Int) (owner : String) (now : Option Clock) :
    LoadStore V × Ingested :=
  let scrape := store.scrapeOf referenceMs localNowMs owner
  match store.revisionMaxAgeMs with
  | some maxAgeMs => store.ingestGuarded readings text scrape maxAgeMs now
  | none => store.ingestLines readings text scrape

end LoadStore

end PraxisGrid
