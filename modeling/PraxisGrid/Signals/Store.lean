/-
PraxisGrid/Signals/Store.lean

The windowed store of load signals: `crates/signals/src/signals.rs`.

Times are signed milliseconds.  A store holds, for each provider of each site, a window of
samples for each metric, and what the revision guard of `Guarded.lean` retains about it.  The
providers, metrics and counts by site are maps; a map the source iterates over is updated entry by
entry, so the order of the iteration does not matter.
-/
import PraxisGrid.Signals.Exposition

namespace PraxisGrid

open Std Text Saturate OrdMap

/-! ### Bounds -/

def maxProviders : Nat := 4096

def maxProvidersPerOwner : Nat := 256

def maxMetricsPerProvider : Nat := 64

def maxSamplesPerSeries : Nat := 128

def maxKeyInputBytes : Nat := 256

def relayAgeToleranceMs : Int := 1000

def maxRelayAgeMs : Int := 86400000

def originToleranceMs : Nat := 1

/-! ### Windows -/

/-- How two lines of one metric at one instant are combined. -/
inductive Combine
  | max
  | sum

/-- Why a line was not stored. -/
inductive Dropped
  | unparsed
  | skewed
  | mismatched
  | capped
deriving DecidableEq

structure Ingested where
  kept : UInt64 := 0
  skewed : UInt64 := 0
  mismatched : UInt64 := 0
  capped : UInt64 := 0
  unparsed : UInt64 := 0

variable {V : Type}

/-- One observation of a series. -/
structure Sample (V : Type) where
  atMs : Int
  value : V

/-- A line resolved to its metric, site, provider and sample. -/
structure Observation (V : Type) where
  metric : String
  site : Option String
  cluster : String
  labels : UInt64
  sample : Sample V
  originMs : Int

/-- A bounded window of one series, oldest first. -/
structure Series (V : Type) where
  samples : List (Sample V) := []
  newestLabels : List UInt64 := []
  newestOriginMs : Option Int := none

namespace Series

/-- Combine a value into the newest sample unless its label set was already folded. -/
def fold (readings : Readings V) (series : Series V) (labels : UInt64) (value : V)
    (combine : Combine) : Series V :=
  if series.newestLabels.contains labels then series
  else { series with
    newestLabels := series.newestLabels ++ [labels]
    samples := series.samples.dropLast ++ (series.samples.getLast?.map fun last =>
      { last with value := match combine with
          | .max => readings.max last.value value
          | .sum => readings.add last.value value }).toList }

/-- Append a newer sample, then evict what is past the window or over the cap.  The samples are
in timestamp order, so those before the cutoff are at the front. -/
def append (series : Series V) (observation : Observation V) (windowMs : Nat) : Series V :=
  let sample := observation.sample
  let samples := series.samples ++ [sample]
  let keepFrom :=
    if windowMs < 2 ^ 63 then
      let cutoff := signedSub sample.atMs windowMs
      (samples.takeWhile fun held => held.atMs < cutoff).length
    else 0
  let overCap := samples.length - maxSamplesPerSeries
  { samples := samples.drop (Nat.max keepFrom overCap)
    newestLabels := [observation.labels]
    newestOriginMs := some observation.originMs }

/-- Append the sample if it is newer than what is held, or fold it into the newest one. -/
def push (readings : Readings V) (series : Series V) (observation : Observation V)
    (combine : Combine) (windowMs : Nat) : Series V :=
  let sample := observation.sample
  match series.samples.getLast? with
  | none => series.append observation windowMs
  | some last =>
    let republished := series.newestOriginMs.any fun held =>
      (observation.originMs - held).natAbs ≤ originToleranceMs
    if republished || sample.atMs == last.atMs then
      series.fold readings observation.labels sample.value combine
    else if sample.atMs < last.atMs then series
    else series.append observation windowMs

end Series

/-- The windows of a provider, by metric. -/
abbrev Windows (V : Type) := ExtTreeMap String (Series V)

/-- Push a sample into the windows of a provider, bounding the metric names. -/
def pushObservation (readings : Readings V) (metrics : Windows V) (observation : Observation V)
    (combine : Combine) (windowMs : Nat) : Windows V :=
  match metrics[observation.metric]? with
  | some series =>
    metrics.insert observation.metric (series.push readings observation combine windowMs)
  | none =>
    if metrics.size < maxMetricsPerProvider then
      metrics.insert observation.metric
        (({} : Series V).push readings observation combine windowMs)
    else metrics

/-! ### Rows -/

structure ScrapeClock where
  referenceMs : Int
  localNowMs : Int
  owner : String
  isLocal : Bool

/-- The age of a sample on the local clock; none when the age is implausible. -/
def rebaseAge (referenceMs sampleAtMs localNowMs : Int) : Option Int :=
  let age := signedSub referenceMs sampleAtMs
  if -relayAgeToleranceMs ≤ age ∧ age ≤ maxRelayAgeMs then
    some (signedSub localNowMs (max age 0))
  else none

/-- A target label that may key the store. -/
def validLabelValue (value : String) : Bool :=
  value.utf8ByteSize ≤ maxKeyInputBytes && !value.toList.any fun ch => isControl ch || ch == '/'

/-- The one value of a target label, or none if it is invalid or repeated. -/
def targetLabel (labels : List (String × String)) (name : String) : Option (Option String) :=
  match labels.filter fun label => label.1 == name with
  | [] => some none
  | [label] => if validLabelValue label.2 then some (some label.2) else none
  | _ => none

def targetLabels (metric : Metric V) : Option (Option String × String) := do
  let site ← targetLabel metric.labels siteLabel
  let cluster ← targetLabel metric.labels providerLabel
  some (site, ← cluster)

def parseSample (readings : Readings V) (line : List Char) : Option (Observation V) := do
  let metric ← Metric.parse readings line
  let atMs ← metric.timestampMs
  if maxKeyInputBytes < metric.name.utf8ByteSize then none
  let (site, cluster) ← targetLabels metric
  some {
    metric := metric.name
    site := site
    cluster := cluster
    labels := readings.hash metric.labels
    sample := ⟨atMs, metric.value⟩
    originMs := atMs }

/-! ### The store -/

/-- What the guard retains about a provider, also when its windows are retired. -/
structure Guard where
  acceptedAt : Option Int := none
  epoch : Option UInt64 := none
  fence : Option Revision := none
  newest : Option Revision := none
  serial : UInt64 := 0

structure Provider (V : Type) where
  guard : Guard := {}
  metrics : Windows V := ∅

/-- Publication fences of the sites. -/
abbrev Orders := ExtTreeMap String PublicationOrder

/-- Windowed signals by provider key. -/
structure LoadStore (V : Type) where
  revisionOrders : Orders := ∅
  revisionMaxAgeMs : Option Int := none
  providers : ExtTreeMap String (Provider V) := ∅
  ownerProviders : ExtTreeMap String Nat := ∅
  admitted : Nat := 0
  windowMs : Nat
  combine : String → Combine
  localSite : Option String := none

/-- The key under which the series of a provider are held. -/
def LoadStore.key (site cluster : String) : String := site ++ "/" ++ cluster

def keySite (key : String) : Option String :=
  (splitOnce '/' key.toList).map fun parts => String.ofList parts.1

namespace LoadStore

/-- Require complete, ordered revision batches. -/
def withRevisionGuard (store : LoadStore V) (maxAgeMs : Int) : LoadStore V :=
  { store with revisionMaxAgeMs := some (max maxAgeMs 0) }

/-- A slot for one new provider of a site, if neither cap is met. -/
def admitNewProvider (store : LoadStore V) (owner : String) : Option (LoadStore V) :=
  let held := (store.ownerProviders[owner]?).getD 0
  if store.admitted < maxProviders ∧ held < maxProvidersPerOwner then
    some { store with
      admitted := store.admitted + 1
      ownerProviders := store.ownerProviders.insert owner (held + 1) }
  else none

/-- Update every held provider. -/
def mapProviders (store : LoadStore V) (f : String → Provider V → Provider V) : LoadStore V :=
  { store with providers := store.providers.map f }

def ingestLine (readings : Readings V) (store : LoadStore V) (observation : Observation V)
    (scrape : ScrapeClock) : Except Dropped (LoadStore V) :=
  match rebaseAge scrape.referenceMs observation.sample.atMs scrape.localNowMs with
  | none => .error .skewed
  | some atMs =>
    let observation := { observation with sample := { observation.sample with atMs := atMs } }
    if !scrape.isLocal && observation.site.any fun site => site != scrape.owner then
      .error .mismatched
    else
      let site := if scrape.isLocal then observation.site.getD scrape.owner else scrape.owner
      let key := LoadStore.key site observation.cluster
      let combine := store.combine observation.metric
      match store.providers[key]? with
      | some provider =>
        .ok { store with providers := store.providers.insert key { provider with
          metrics := pushObservation readings provider.metrics observation combine store.windowMs } }
      | none =>
        match store.admitNewProvider site with
        | none => .error .capped
        | some store =>
          .ok { store with providers := store.providers.insert key {
            metrics := pushObservation readings ∅ observation combine store.windowMs } }

/-- Absorb a response without the revision guard, skipping lines that do not parse. -/
def ingestLines (readings : Readings V) (store : LoadStore V) (text : List Char)
    (scrape : ScrapeClock) : LoadStore V × Ingested :=
  (Text.lines text).foldl
    (fun (store, tally) line =>
      match parseSample readings line with
      | none =>
        if !(trim line).isEmpty && line.head? != some '#' then
          (store, { tally with unparsed := satAdd tally.unparsed 1 })
        else (store, tally)
      | some observation =>
        match store.ingestLine readings observation scrape with
        | .ok store => (store, { tally with kept := satAdd tally.kept 1 })
        | .error .skewed => (store, { tally with skewed := satAdd tally.skewed 1 })
        | .error .mismatched => (store, { tally with mismatched := satAdd tally.mismatched 1 })
        | .error .capped => (store, { tally with capped := satAdd tally.capped 1 })
        | .error .unparsed => (store, { tally with unparsed := satAdd tally.unparsed 1 }))
    (store, {})

end LoadStore

end PraxisGrid
