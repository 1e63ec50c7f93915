/-
PraxisGrid/Operator/SignalAccess.lean

Which provider's load a peer reads: the signal passes of
`crates/operator/src/controller/grid_network.rs` and the store they publish to, `SignalStore` in
`crates/operator/src/signals.rs`.

A pass lists the providers, replaces the access rules by those of the listed ones, and then, if it
comes that far, publishes what it scraped.  Both are kept by routing identity, but the samples stay
until they expire: they outlive the rule of a provider that is no longer listed, and where providers
share an identity those of one may be read under the rule of another.

Each held target names the provider it was scraped from, and the state remembers the policy each
provider was last listed with; the code has neither.
-/
import PraxisGrid.Operator.Observations
import PraxisGrid.Operator.SiteProviders

namespace PraxisGrid.Operator.Observed

open Std List OrdMap

variable {V : Type}

/-! ### Providers -/

/-- What a pass reads of an inference provider. -/
structure InferenceProvider where
  uid : String
  name : Option String
  generation : Option Int
  clusterName : Option String
  gridNetworkRef : String
  /-- `accessPolicy.siteSelector.matchLabels` -/
  matchLabels : Labels

/-- The providers of one list, each an object of its own. -/
structure Listing where
  providers : List InferenceProvider
  distinct : (providers.map InferenceProvider.uid).Nodup

def routingIdentity (provider : InferenceProvider) : Option String :=
  match provider.clusterName with
  | some cluster => if (Text.trim cluster.toList).isEmpty then provider.name else some cluster
  | none => provider.name

/-! ### Access rules -/

/-- Selectors a reader must satisfy, all of them, to be served one target. -/
abbrev Selectors := List Labels

abbrev AccessMap := ExtTreeMap String Selectors

/-- Whether a reader may be served a target. -/
def permits (required : Selectors) (carried : Option Labels) : Bool :=
  if required.all ExtTreeMap.isEmpty then true
  else carried.any fun labels => required.all (labelsSatisfy · labels)

/-- What a reader must satisfy to be served each provider's signals. -/
def signalAccess (providers : List InferenceProvider) : AccessMap :=
  ExtTreeMap.ofList (providers.filterMap fun provider => do
    let target ← routingIdentity provider
    if provider.matchLabels.isEmpty then none else some (target, [provider.matchLabels]))

/-! ### The store -/

/-- What is held for one target. -/
structure Cached (V : Type) where
  samples : List (Observation V)
  collectedAt : Nat
  expiresAt : Nat
  /-- the provider it was scraped from -/
  source : String

/-- What a pass collected for one target. -/
structure Collected (V : Type) where
  observations : List (Observation V)
  source : String

abbrev Held (V : Type) := ExtTreeMap String (Cached V)

/-- What a pass collected, by target. -/
abbrev Pass (V : Type) := ExtTreeMap String (Collected V)

/-- Refresh the given targets and drop anything past its deadline. -/
def refresh (inner : Held V) (collected : Pass V) (now ttl : Nat) : Held V :=
  let inserted := collected.toList.foldl (fun inner entry => inner.insert entry.1
    { samples := entry.2.observations, collectedAt := now, expiresAt := now + ttl
      source := entry.2.source }) inner
  OrdMap.retain inserted fun _ held => held.expiresAt > now

/-- Whether the rules withhold a target from a reader. -/
def denies (access : AccessMap) (reader : Option Labels) (target : String) : Bool :=
  access[target]?.any fun required => !permits required reader

def renderTarget (numbers : Numbers V) (collect : List String) (now : ClockReading)
    (rendered : List Char × Nat) (held : Cached V) : List Char × Nat :=
  let block := renderBatches numbers held.samples
    { collect, heldFor := now.instant - held.collectedAt, wall := now.wall, bounded := false }
  (rendered.1 ++ block.text, max rendered.2 block.oldest)

/-- Write every target, or the one asked for, that is not withheld, with the age of the oldest
value. -/
def renderWith (numbers : Numbers V) (inner : Held V) (target : Option String)
    (collect : List String) (denied : String → Bool) (now : ClockReading) : List Char × Nat :=
  inner.toList.foldl (fun rendered entry =>
    if entry.2.expiresAt ≤ now.instant || target.any (· != entry.1) then rendered
    else if denied entry.1 then rendered
    else renderTarget numbers collect now rendered entry.2) ([], 0)

/-! ### Passes -/

/-- Whether a published entry carries a not-ready verdict. -/
def excludes (numbers : Numbers V) (published : List (Observation V)) : Bool :=
  published.any fun observation =>
    observation.metric == readySignal && numbers.isBelowOne observation.value

/-- Keep one entry per routing identity: the stricter verdict wins. -/
def publishStrictest (numbers : Numbers V) (collected : Pass V)
    (identity : String) (published : Collected V) : Pass V :=
  match collected[identity]? with
  | none => collected.insert identity published
  | some held =>
    if excludes numbers published.observations && !excludes numbers held.observations then
      collected.insert identity published
    else collected

/-- What a provider publishes in a pass, if anything: its routing identity and the samples. -/
def readinessEntry (results : String → Option (List (Observation V)))
    (provider : InferenceProvider) : Option (String × Collected V) := do
  let identity ← routingIdentity provider
  let _ ← provider.name
  let observations ← results provider.uid
  some (identity, { observations, source := provider.uid })

def resolveReadiness (numbers : Numbers V) (providers : List InferenceProvider) (network : String)
    (results : String → Option (List (Observation V))) : Pass V :=
  ((providers.filter (·.gridNetworkRef == network)).filterMap (readinessEntry results)).foldl
    (fun collected entry => publishStrictest numbers collected entry.1 entry.2) ∅

/-- Revision metadata for a provider whose identity is representable on the wire. -/
def metadataOf (numbers : Numbers V) (provider : InferenceProvider) (epoch sequence samples : Nat) :
    Option (Observation V) := do
  if !validId provider.uid then none
  let generation ← provider.generation
  if generation ≤ 0 ∨ (maxGeneration : Int) < generation then none
  let value ← numbers.parse (Nat.toDigits 10 generation.toNat)
  some
    { metric := revisionMetric
      labels := ExtTreeMap.ofList
        [("provider_uid", provider.uid), ("publisher_epoch", toString epoch),
          ("batch_sequence", toString sequence), (samplesLabel, toString samples)]
      value
      timestampMs := none
      age := 0 }

/-- Bind one provider's samples, or an empty invalidation, to their collection. -/
def qualifyOne (numbers : Numbers V) (identities : List String) (epoch sequence : Nat)
    (collected : Pass V) (provider : InferenceProvider) : Pass V :=
  match routingIdentity provider with
  | none => collected
  | some identity =>
    let held := (collected[identity]?).getD { observations := [], source := provider.uid }
    if identities.count identity != 1 then collected.insert identity held
    else
      let observations :=
        if held.observations.length > maxBatchSamples then [] else held.observations
      collected.insert identity { held with
        observations := observations
          ++ (metadataOf numbers provider epoch sequence observations.length).toList }

def qualify (numbers : Numbers V) (collected : Pass V)
    (providers : List InferenceProvider) (network : String) (epoch sequence : Nat) :
    Pass V :=
  let providers := providers.filter (·.gridNetworkRef == network)
  providers.foldl (qualifyOne numbers (providers.filterMap routingIdentity) epoch sequence) collected

/-- A pass that publishes. -/
structure Publication (V : Type) where
  network : String
  /-- what each provider published, by its object -/
  results : String → Option (List (Observation V))
  /-- the publisher's epoch and sequence, when there is one -/
  publisher : Option (Nat × Nat)
  /-- how long ago the pass began -/
  elapsed : Nat

def Publication.collect (numbers : Numbers V) (publication : Publication V)
    (providers : List InferenceProvider) : Pass V :=
  let collected := resolveReadiness numbers providers publication.network publication.results
  match publication.publisher with
  | none => collected
  | some (epoch, sequence) =>
    qualify numbers collected providers publication.network epoch sequence

/-- An observation is at least as old as the pass. -/
def Observation.aged (observation : Observation V) (elapsed : Nat) : Observation V :=
  { observation with age := max observation.age elapsed }

/-- The samples of a target as they are published. -/
def Collected.publish (held : Collected V) (site provider : String) (elapsed : Nat) : Collected V :=
  { held with observations := attributed (held.observations.map (·.aged elapsed)) site provider }

def publishSignals (inner : Held V) (collected : Pass V) (site : String)
    (elapsed now ttl : Nat) : Held V :=
  refresh inner (ExtTreeMap.ofList (collected.toList.map fun entry =>
    (entry.1, entry.2.publish site entry.1 elapsed))) now ttl

/-! ### Runs -/

structure Rollup (V : Type) where
  now : Nat := 0
  /-- the providers of the current pass -/
  listed : List InferenceProvider := []
  access : AccessMap := ∅
  inner : Held V := ∅
  /-- the policy each provider was last listed with -/
  lastListed : ExtTreeMap String Labels := ∅

inductive RollupOp (V : Type)
  | tick (elapsed : Nat)
  /-- a pass lists the providers and replaces the access rules -/
  | list (listing : Listing)
  /-- it publishes what it scraped -/
  | publish (publication : Publication V)

/-- What is fixed for an operator. -/
structure Settings (V : Type) where
  numbers : Numbers V
  site : String
  /-- how long a published sample is served -/
  ttl : Nat

/-- A step with some providers' samples left out of every publication. -/
def Rollup.stepWithout (settings : Settings V) (hidden : String → Bool) (rollup : Rollup V) :
    RollupOp V → Rollup V
  | .tick elapsed => { rollup with now := rollup.now + elapsed }
  | .list listing =>
    { rollup with
      listed := listing.providers
      access := signalAccess listing.providers
      lastListed := listing.providers.foldl
        (fun listed provider => listed.insert provider.uid provider.matchLabels) rollup.lastListed }
  | .publish publication =>
    let collected := publication.collect settings.numbers rollup.listed
    let kept := OrdMap.retain collected fun _ held => !hidden held.source
    { rollup with
      inner := publishSignals rollup.inner kept settings.site publication.elapsed rollup.now
        settings.ttl }

def Rollup.step (settings : Settings V) (rollup : Rollup V) : RollupOp V → Rollup V
  | .publish publication =>
    { rollup with
      inner := publishSignals rollup.inner
        (publication.collect settings.numbers rollup.listed) settings.site publication.elapsed
        rollup.now settings.ttl }
  | op => rollup.stepWithout settings (fun _ => false) op

def Rollup.after (settings : Settings V) (ops : List (RollupOp V)) : Rollup V :=
  Run.run (Rollup.step settings) {} ops

/-- What a peer with known labels is served. -/
def Rollup.render (settings : Settings V) (rollup : Rollup V) (target : Option String)
    (collect : List String) (reader : Labels) (wall : Int) : List Char × Nat :=
  renderWith settings.numbers rollup.inner target collect (denies rollup.access (some reader))
    { instant := rollup.now, wall }

/-! ### Where samples come from -/

variable {numbers : Numbers V} {providers : List InferenceProvider}
  {collected : Pass V} {provider : InferenceProvider}

/-- Everything collected for a target was scraped from a provider listed under it. -/
def FromListed (providers : List InferenceProvider) (collected : Pass V) :
    Prop :=
  ∀ target held, collected[target]? = some held →
    ∃ provider ∈ providers, routingIdentity provider = some target ∧ provider.uid = held.source

theorem FromListed.insert (h : FromListed providers collected) {identity : String}
    {held : Collected V}
    (hhl : ∃ provider ∈ providers, routingIdentity provider = some identity ∧
      provider.uid = held.source) : FromListed providers (collected.insert identity held) := by
  intro target held' hget
  rw [OrdMap.getElem?_insert] at hget
  split_ifs at hget with htr
  · cases hget
    exact htr ▸ hhl
  · exact h target held' hget

theorem FromListed.publishStrictest (h : FromListed providers collected) {identity : String}
    {published : Collected V}
    (hpub : ∃ provider ∈ providers, routingIdentity provider = some identity ∧
      provider.uid = published.source) :
    FromListed providers (publishStrictest numbers collected identity published) := by
  unfold Observed.publishStrictest
  split
  · exact h.insert hpub
  · split_ifs
    · exact h.insert hpub
    · exact h

theorem readinessEntry_eq_some {results : String → Option (List (Observation V))}
    {entry : String × Collected V} (h : readinessEntry results provider = some entry) :
    routingIdentity provider = some entry.1 ∧ provider.uid = entry.2.source := by
  unfold readinessEntry at h
  simp only [Option.bind_eq_bind, Option.bind_eq_some_iff] at h
  obtain ⟨identity, hid, -, -, observations, -, hen⟩ := h
  cases hen
  exact ⟨hid, rfl⟩

theorem fromListed_resolveReadiness (network : String)
    (results : String → Option (List (Observation V))) :
    FromListed providers (resolveReadiness numbers providers network results) := by
  unfold resolveReadiness
  -- the fold keeps it, over the entries of listed providers
  have hes : ∀ entry ∈ (providers.filter (·.gridNetworkRef == network)).filterMap
      (readinessEntry results), ∃ provider ∈ providers,
        routingIdentity provider = some entry.1 ∧ provider.uid = entry.2.source := by
    intro entry hen
    obtain ⟨provider, hpr, hsm⟩ := mem_filterMap.mp hen
    exact ⟨provider, (mem_filter.mp hpr).1, readinessEntry_eq_some hsm⟩
  have hem : FromListed providers (∅ : Pass V) := by
    intro target held hget
    rw [ExtTreeMap.getElem?_empty] at hget
    cases hget
  generalize (providers.filter (·.gridNetworkRef == network)).filterMap (readinessEntry results)
    = entries at hes
  generalize (∅ : Pass V) = collected at hem
  induction entries generalizing collected with
  | nil => exact hem
  | cons entry entries ih =>
    apply ih
    · exact fun entry' hen' => hes entry' (mem_cons_of_mem _ hen')
    · exact hem.publishStrictest (hes entry mem_cons_self)

theorem FromListed.qualifyOne (h : FromListed providers collected)
    (hpr : provider ∈ providers) (identities : List String) (epoch sequence : Nat) :
    FromListed providers (qualifyOne numbers identities epoch sequence collected provider) := by
  unfold Observed.qualifyOne
  split
  · exact h
  · rename_i identity hid
    have hhl : ∃ provider' ∈ providers, routingIdentity provider' = some identity ∧
        provider'.uid
          = ((collected[identity]?).getD { observations := [], source := provider.uid }).source := by
      rcases hget : collected[identity]? with _ | held
      · exact ⟨provider, hpr, hid, rfl⟩
      · exact h identity held hget
    dsimp only
    split_ifs <;> exact h.insert hhl

theorem FromListed.qualify (h : FromListed providers collected) (network : String)
    (epoch sequence : Nat) :
    FromListed providers (qualify numbers collected providers network epoch sequence) := by
  unfold Observed.qualify
  have hsub : ∀ provider ∈ providers.filter (·.gridNetworkRef == network), provider ∈ providers :=
    fun provider hpr => (mem_filter.mp hpr).1
  dsimp only
  generalize (providers.filter (·.gridNetworkRef == network)).filterMap routingIdentity = identities
  generalize providers.filter (·.gridNetworkRef == network) = bound at hsub
  induction bound generalizing collected with
  | nil => exact h
  | cons provider bound ih =>
    apply ih
    · exact h.qualifyOne (hsub provider mem_cons_self) identities epoch sequence
    · exact fun provider' hpr' => hsub provider' (mem_cons_of_mem _ hpr')

/-- **A pass publishes only for the providers it listed.** -/
theorem fromListed_collect (publication : Publication V) :
    FromListed providers (publication.collect numbers providers) := by
  unfold Publication.collect
  split
  · exact fromListed_resolveReadiness _ _
  · exact (fromListed_resolveReadiness _ _).qualify _ _ _

/-! ### What is held -/

def Collected.cached (held : Collected V) (site provider : String) (elapsed now ttl : Nat) :
    Cached V where
  samples := (held.publish site provider elapsed).observations
  collectedAt := now
  expiresAt := now + ttl
  source := held.source

theorem getElem?_publishSignals (inner : Held V) (site : String) (elapsed now ttl : Nat)
    (target : String) :
    (publishSignals inner collected site elapsed now ttl)[target]? =
      (match collected[target]? with
        | some held => some (held.cached site target elapsed now ttl)
        | none => inner[target]?).filter fun held => held.expiresAt > now := by
  unfold publishSignals refresh
  rw [getElem?_retain, getElem?_foldl_toList_insert (fun _ (held : Collected V) =>
    ({ samples := held.observations, collectedAt := now, expiresAt := now + ttl
       source := held.source } : Cached V)),
    getElem?_ofList_map collected fun provider held => held.publish site provider elapsed]
  cases collected[target]? with
  | none => rfl
  | some held => rfl

/-- What is served of a target, if the rules allow. -/
def Rollup.view (rollup : Rollup V) (target : String) : Option (Cached V) :=
  rollup.inner[target]?.filter fun held => held.expiresAt > rollup.now

variable {settings : Settings V} {rollup rollup' : Rollup V} {target : String} {held : Cached V}
  {ops : List (RollupOp V)} {reader : Labels} {hidden : String → Bool}

theorem view_tick {elapsed : Nat}
    (h : (rollup.step settings (.tick elapsed)).view target = some held) :
    rollup.view target = some held := by
  obtain ⟨hhl, hlt⟩ := Option.filter_eq_some_iff.mp h
  refine Option.filter_eq_some_iff.mpr ⟨hhl, ?_⟩
  rw [decide_eq_true_iff] at hlt ⊢
  exact Nat.lt_of_le_of_lt (Nat.le_add_right _ _) hlt

open Rollup

theorem view_stepWithout_publish (hidden : String → Bool) (publication : Publication V) :
    (rollup.stepWithout settings hidden (.publish publication)).view target =
      (match (publication.collect settings.numbers rollup.listed)[target]?.filter
          (fun held : Collected V => !hidden held.source) with
        | some held => some (held.cached settings.site target publication.elapsed rollup.now
            settings.ttl)
        | none => rollup.inner[target]?).filter fun held => held.expiresAt > rollup.now := by
  unfold view stepWithout
  rw [getElem?_publishSignals, getElem?_retain, Option.filter_filter]
  simp only [Bool.and_self]

theorem view_publish {publication : Publication V}
    (h : (rollup.step settings (.publish publication)).view target = some held) :
    (∃ published, (publication.collect settings.numbers rollup.listed)[target]? = some published ∧
        held = published.cached settings.site target publication.elapsed rollup.now settings.ttl) ∨
      (publication.collect settings.numbers rollup.listed)[target]? = none ∧
        rollup.view target = some held := by
  unfold view step at h
  rw [getElem?_publishSignals] at h
  obtain ⟨h, hlv⟩ := Option.filter_eq_some_iff.mp h
  obtain ⟨h, -⟩ := Option.filter_eq_some_iff.mp h
  rcases hcl : (publication.collect settings.numbers rollup.listed)[target]? with _ | published
  · rw [hcl] at h
    exact .inr ⟨rfl, Option.filter_eq_some_iff.mpr ⟨h, hlv⟩⟩
  · rw [hcl] at h
    exact .inl ⟨published, rfl, (Option.some.inj h).symm⟩

/-! ### The rules of a pass -/

def OnePolicy (providers : List InferenceProvider) : Prop :=
  ∀ p ∈ providers, ∀ q ∈ providers, ∀ target, routingIdentity p = some target →
    routingIdentity q = some target → p.matchLabels = q.matchLabels

theorem mem_signalAccess {required : Selectors}
    (h : (signalAccess providers)[target]? = some required) :
    ∃ provider ∈ providers, routingIdentity provider = some target ∧
      provider.matchLabels.isEmpty = false ∧ required = [provider.matchLabels] := by
  obtain ⟨provider, hpr, hen⟩ := mem_filterMap.mp (mem_of_getElem?_ofList h)
  simp only [Option.bind_eq_bind, Option.bind_eq_some_iff] at hen
  obtain ⟨identity, hid, hen⟩ := hen
  split_ifs at hen with hem
  cases hen
  exact ⟨provider, hpr, hid, by simpa using hem, rfl⟩

theorem signalAccess_ne_none (hpr : provider ∈ providers)
    (hid : routingIdentity provider = some target)
    (hlb : provider.matchLabels.isEmpty = false) :
    (signalAccess providers)[target]? ≠ none := by
  intro hnn
  have hmem : target ∈ signalAccess providers := by
    unfold signalAccess
    rw [ExtTreeMap.mem_ofList, contains_iff_mem, mem_map]
    refine ⟨(target, [provider.matchLabels]), mem_filterMap.mpr ⟨provider, hpr, ?_⟩, rfl⟩
    simp [hid, hlb]
  rw [ExtTreeMap.mem_iff_isSome_getElem?, hnn] at hmem
  cases hmem

/-- **The rule of a target is the policy of the providers listed under it.** -/
theorem denies_eq (hpl : OnePolicy providers) (hpr : provider ∈ providers)
    (hid : routingIdentity provider = some target) :
    denies (signalAccess providers) (some reader) target
      = !labelsSatisfy provider.matchLabels reader := by
  unfold denies
  rcases hrl : (signalAccess providers)[target]? with _ | required
  · -- no rule: the provider is unrestricted
    have hem : provider.matchLabels.isEmpty = true := by
      by_contra hlb
      exact signalAccess_ne_none hpr hid (Bool.eq_false_iff.mpr hlb) hrl
    have hnil : provider.matchLabels.toList = [] := by
      rw [← List.isEmpty_iff, ExtTreeMap.isEmpty_toList, hem]
    rw [labelsSatisfy, hnil]
    rfl
  · obtain ⟨other, hor, hot, hlb, rfl⟩ := mem_signalAccess hrl
    have hsm : other.matchLabels = provider.matchLabels :=
      hpl other hor provider hpr target hot hid
    rw [hsm] at hlb
    rw [hsm, Option.any_some]
    simp [permits, hlb]

/-! ### Passes that keep up with the providers -/

/-- A list names, for every target still held, the provider it was scraped from under that identity,
and gives all providers of one identity one policy. -/
def Rollup.KeepsUp (rollup : Rollup V) : RollupOp V → Prop
  | .list listing =>
    OnePolicy listing.providers ∧
      ∀ target held, rollup.view target = some held →
        ∃ provider ∈ listing.providers, routingIdentity provider = some target ∧
          provider.uid = held.source
  | _ => True

/-- The rules are those of the listed providers, and what is held is theirs. -/
structure Rollup.Kept (rollup : Rollup V) : Prop where
  access : rollup.access = signalAccess rollup.listed
  policy : OnePolicy rollup.listed
  lastListed : ∀ provider ∈ rollup.listed,
    rollup.lastListed[provider.uid]? = some provider.matchLabels
  held : ∀ target held, rollup.view target = some held →
    ∃ provider ∈ rollup.listed, routingIdentity provider = some target ∧ provider.uid = held.source

/-- Providers that are objects of their own are each remembered. -/
theorem getElem?_foldl_lastListed {providers : List InferenceProvider}
    (hds : (providers.map InferenceProvider.uid).Nodup)
    (lastListed : ExtTreeMap String Labels) (hpr : provider ∈ providers) :
    (providers.foldl (fun listed provider => listed.insert provider.uid provider.matchLabels)
      lastListed)[provider.uid]? = some provider.matchLabels := by
  induction providers generalizing lastListed with
  | nil => cases hpr
  | cons first rest ih =>
    rw [map_cons, nodup_cons] at hds
    rw [foldl_cons]
    rcases mem_cons.mp hpr with rfl | hrs
    · -- it is not listed again
      have hfr : ∀ (rest : List InferenceProvider) (listed : ExtTreeMap String Labels),
          provider.uid ∉ rest.map InferenceProvider.uid →
          (rest.foldl (fun listed provider => listed.insert provider.uid provider.matchLabels)
            listed)[provider.uid]? = listed[provider.uid]? := by
        intro rest
        induction rest with
        | nil => exact fun _ _ => rfl
        | cons next rest ih =>
          intro listed hnot
          rw [map_cons, mem_cons, not_or] at hnot
          rw [foldl_cons, ih _ hnot.2, OrdMap.getElem?_insert, if_neg (Ne.symm hnot.1)]
      rw [hfr rest _ hds.1, OrdMap.getElem?_insert, if_pos rfl]
    · exact ih hds.2 _ hrs

theorem Rollup.Kept.step (h : rollup.Kept) {op : RollupOp V} (hop : rollup.KeepsUp op) :
    (rollup.step settings op).Kept := by
  cases op with
  | tick elapsed =>
    exact ⟨h.access, h.policy, h.lastListed, fun t held hvw => h.held t held (view_tick hvw)⟩
  | list listing =>
    refine ⟨rfl, hop.1, fun provider hpr => ?_, hop.2⟩
    exact getElem?_foldl_lastListed listing.distinct rollup.lastListed hpr
  | publish publication =>
    refine ⟨h.access, h.policy, h.lastListed, fun t held hvw => ?_⟩
    rcases view_publish hvw with ⟨published, hpub, rfl⟩ | ⟨-, hvw⟩
    · exact fromListed_collect publication t published hpub
    · exact h.held t held hvw

theorem kept_initial : ({} : Rollup V).Kept := by
  refine ⟨rfl, nofun, nofun, fun target held hvw => ?_⟩
  obtain ⟨hhl, -⟩ := Option.filter_eq_some_iff.mp hvw
  cases hhl

theorem kept_after (hops : Run.Along (step settings) KeepsUp {} ops) :
    (after settings ops).Kept := by
  have hst : ∀ (rollup : Rollup V) op, rollup.KeepsUp op → rollup.Kept →
      (rollup.step settings op).Kept := fun _ _ hop h => h.step hop
  exact Run.run_invariant_along hst hops kept_initial

/-! ### What is served -/

def served (inner : Held V) (target : Option String) (denied : String → Bool) (instant : Nat) :
    Held V :=
  OrdMap.retain inner fun name held =>
    held.expiresAt > instant && (!(target.any (· != name)) && !denied name)

/-- **A body is written from the targets served, and from nothing else.** -/
theorem renderWith_eq (inner : Held V) (target : Option String) (collect : List String)
    (denied : String → Bool) (now : ClockReading) :
    renderWith numbers inner target collect denied now =
      (values (served inner target denied now.instant)).foldl
        (renderTarget numbers collect now) ([], 0) := by
  unfold renderWith values served
  rw [retain_eq_filter, ExtTreeMap.toList_filter, foldl_map, foldl_filter]
  congr 1
  funext rendered entry
  by_cases hexpired : entry.2.expiresAt ≤ now.instant
  · simp [hexpired, Nat.not_lt.mpr hexpired]
  · have hlv : now.instant < entry.2.expiresAt := Nat.lt_of_not_le hexpired
    cases htr : target.any (· != entry.1) <;> cases hdn : denied entry.1 <;>
      simp [hexpired, hlv]

def Rollup.serves (rollup : Rollup V) (target : Option String) (reader : Labels) : Held V :=
  served rollup.inner target (denies rollup.access (some reader)) rollup.now

theorem view_of_serves {asked : Option String}
    (h : (rollup.serves asked reader)[target]? = some held) :
    rollup.view target = some held ∧ denies rollup.access (some reader) target = false := by
  obtain ⟨hhl, hsr⟩ := getElem?_retain_eq_some.mp h
  rw [Bool.and_eq_true, Bool.and_eq_true, Bool.not_eq_true', Bool.not_eq_true'] at hsr
  exact ⟨Option.filter_eq_some_iff.mpr ⟨hhl, hsr.1⟩, hsr.2.2⟩

def Rollup.MayUse (rollup : Rollup V) (reader : Labels) (uid : String) : Prop :=
  ∃ required, rollup.lastListed[uid]? = some required ∧ labelsSatisfy required reader = true

/-- **A peer is served only what it may use**, of the providers the passes keep up with. -/
theorem Rollup.Kept.mayUse (h : rollup.Kept) {asked : Option String}
    (hsr : (rollup.serves asked reader)[target]? = some held) :
    rollup.MayUse reader held.source := by
  obtain ⟨hvw, hdn⟩ := view_of_serves hsr
  obtain ⟨provider, hpr, hid, huid⟩ := h.held target held hvw
  rw [h.access, denies_eq h.policy hpr hid, Bool.not_eq_false'] at hdn
  exact ⟨provider.matchLabels, huid ▸ h.lastListed provider hpr, hdn⟩

/-! ### The same without the samples withheld -/

/-- Each identity is one provider's, and was while anything is held of it. -/
def OneProvider (rollup : Rollup V) (providers : List InferenceProvider) : Prop :=
  ∀ p ∈ providers, ∀ target, routingIdentity p = some target →
    (∀ q ∈ providers, routingIdentity q = some target → q.uid = p.uid) ∧
      ∀ held, rollup.view target = some held → p.uid = held.source

def Rollup.Unshared (rollup : Rollup V) : RollupOp V → Prop
  | .list listing => OneProvider rollup listing.providers
  | _ => True

theorem oneProvider_step (h : OneProvider rollup rollup.listed) {op : RollupOp V}
    (hop : rollup.Unshared op) :
    OneProvider (rollup.step settings op) (rollup.step settings op).listed := by
  cases op with
  | tick elapsed =>
    intro p hp t ht
    exact ⟨(h p hp t ht).1, fun held hvw => (h p hp t ht).2 held (view_tick hvw)⟩
  | list listing => exact hop
  | publish publication =>
    intro p hp t ht
    refine ⟨(h p hp t ht).1, fun held hvw => ?_⟩
    rcases view_publish hvw with ⟨published, hpub, rfl⟩ | ⟨-, hvw⟩
    · obtain ⟨q, hq, hqt, huid⟩ := fromListed_collect publication t published hpub
      exact ((h p hp t ht).1 q hq hqt).symm.trans huid
    · exact (h p hp t ht).2 held hvw

/-- A rollup and the same without some providers' samples. -/
structure Without (hidden : String → Bool) (rollup rollup' : Rollup V) : Prop where
  now : rollup'.now = rollup.now
  listed : rollup'.listed = rollup.listed
  access : rollup'.access = rollup.access
  view : ∀ target, rollup'.view target = (rollup.view target).filter fun held => !hidden held.source

theorem step_publish_eq (publication : Publication V) :
    rollup.step settings (.publish publication)
      = rollup.stepWithout settings (fun _ => false) (.publish publication) := by
  have hall : retain (publication.collect settings.numbers rollup.listed)
      (fun _ _ => !false) = publication.collect settings.numbers rollup.listed :=
    retain_eq_self fun _ _ _ => rfl
  unfold step stepWithout
  dsimp only
  rw [hall]

/-- **A step leaves the same, but for the hidden providers' samples.** -/
theorem Without.step (h : Without hidden rollup rollup') (hone : OneProvider rollup rollup.listed)
    (op : RollupOp V) :
    Without hidden (rollup.step settings op) (rollup'.stepWithout settings hidden op) := by
  cases op with
  | tick elapsed =>
    refine ⟨congrArg (· + elapsed) h.now, h.listed, h.access, fun t => ?_⟩
    -- what is served later is what is served now and has not expired
    have hlt : ∀ r : Rollup V, ({ r with now := r.now + elapsed } : Rollup V).view t
        = (r.view t).filter fun held => held.expiresAt > r.now + elapsed := by
      intro r
      unfold Rollup.view
      rw [Option.filter_filter]
      congr 1
      funext held
      by_cases hlv : r.now + elapsed < held.expiresAt
      · simp [hlv, Nat.lt_of_le_of_lt (Nat.le_add_right r.now elapsed) hlv]
      · simp [hlv]
    show ({ rollup' with now := rollup'.now + elapsed } : Rollup V).view t
      = (({ rollup with now := rollup.now + elapsed } : Rollup V).view t).filter _
    rw [hlt, hlt, h.view, h.now, Option.filter_filter, Option.filter_filter]
    simp only [Bool.and_comm]
  | list listing => exact ⟨h.now, rfl, rfl, h.view⟩
  | publish publication =>
    refine ⟨h.now, h.listed, h.access, fun t => ?_⟩
    have hvw := h.view t
    unfold Rollup.view at hvw
    rw [step_publish_eq, view_stepWithout_publish, view_stepWithout_publish, h.listed, h.now]
    rw [h.now] at hvw
    rcases hcl : (publication.collect settings.numbers rollup.listed)[t]? with _ | published
    · exact hvw
    have hall : (some published).filter (fun _ : Collected V => !false) = some published := rfl
    rw [hall]
    cases hhd : hidden published.source with
    | false =>
      have hkp : (some published).filter (fun held : Collected V => !hidden held.source)
          = some published := by rw [Option.filter_some, hhd]; rfl
      rw [hkp, Option.filter_filter]
      simp [Option.filter_some, Collected.cached, hhd]
    | true =>
      have hlf : (some published).filter (fun held : Collected V => !hidden held.source)
          = none := by rw [Option.filter_some, hhd]; rfl
      -- what was held of the target is the same provider's, and hidden too
      obtain ⟨p, hp, hpt, huid⟩ := fromListed_collect publication t published hcl
      have hnn : (rollup.view t).filter (fun held => !hidden held.source) = none := by
        rw [Option.filter_eq_none_iff]
        intro held hhl
        rw [← (hone p hp t hpt).2 held hhl, huid, hhd]
        nofun
      rw [hlf]
      refine (hvw.trans hnn).trans (Option.filter_eq_none_iff.mpr fun held hhl => ?_).symm
      obtain rfl := Option.some.inj (Option.filter_eq_some_iff.mp hhl).1
      simp [Collected.cached, hhd]

theorem without_run (hops : Run.Along (step settings) Unshared rollup ops)
    (hone : OneProvider rollup rollup.listed) (h : Without hidden rollup rollup') :
    Without hidden (Run.run (step settings) rollup ops)
      (Run.run (stepWithout settings hidden) rollup' ops) := by
  induction ops generalizing rollup rollup' with
  | nil => exact h
  | cons op ops ih => exact ih hops.2 (oneProvider_step hone hops.1) (h.step hone op)

/-- A run with the samples of some providers never held. -/
def Rollup.afterWithout (settings : Settings V) (hidden : String → Bool) (ops : List (RollupOp V)) :
    Rollup V :=
  Run.run (Rollup.stepWithout settings hidden) {} ops

theorem without_after (hops : Run.Along (step settings) Unshared {} ops) :
    Without hidden (after settings ops) (afterWithout settings hidden ops) := by
  apply without_run hops nofun
  refine ⟨rfl, rfl, rfl, fun t => ?_⟩
  rfl

/-- The providers a reader may not use. -/
def Rollup.withholds (rollup : Rollup V) (reader : Labels) (uid : String) : Bool :=
  rollup.lastListed[uid]?.any fun required => !labelsSatisfy required reader

theorem getElem?_serves (asked : Option String) :
    (rollup.serves asked reader)[target]? = (rollup.view target).filter fun _ =>
      !(asked.any (· != target)) && !denies rollup.access (some reader) target := by
  unfold serves served view
  rw [getElem?_retain, Option.filter_filter]

/-- **What is withheld might as well not be held.** -/
theorem Rollup.Kept.serves_eq (h : rollup.Kept)
    (hwt : Without (rollup.withholds reader) rollup rollup') (asked : Option String) :
    rollup'.serves asked reader = rollup.serves asked reader := by
  refine ExtTreeMap.ext_getElem? fun t => ?_
  rw [getElem?_serves, getElem?_serves, hwt.view, hwt.access]
  rcases hvw : rollup.view t with _ | held
  · rfl
  -- the provider's policy and the rule of its identity say the same
  obtain ⟨provider, hpr, hid, huid⟩ := h.held t held hvw
  have hrl : denies rollup.access (some reader) t = rollup.withholds reader held.source := by
    unfold withholds
    rw [← huid, h.lastListed provider hpr, Option.any_some, h.access,
      denies_eq h.policy hpr hid]
  rw [hrl, Option.filter_filter, Option.filter_some, Option.filter_some]
  cases rollup.withholds reader held.source <;> simp

/-- **A peer reads only the load of providers it may use, while the passes keep up with them.**
When every list names the provider of each target still held, and gives the providers of one identity
one policy, the body a peer is served is written from targets scraped from providers whose policy, as
last listed, its labels satisfy.  When besides no identity is shared by providers or passes from one
to another while a sample of it is held, body and age are as if no sample of a provider it may not use
had been held. -/
theorem peer_reads_usable_load (settings : Settings V) (ops : List (RollupOp V))
    (hops : Run.Along (Rollup.step settings) Rollup.KeepsUp {} ops) (asked : Option String)
    (collect : List String) (reader : Labels) (wall : Int) :
    let rollup := Rollup.after settings ops
    rollup.render settings asked collect reader wall =
        (OrdMap.values (rollup.serves asked reader)).foldl
          (renderTarget settings.numbers collect { instant := rollup.now, wall }) ([], 0) ∧
      (∀ (target : String) (held : Cached V), (rollup.serves asked reader)[target]? = some held →
        rollup.MayUse reader held.source) ∧
      (Run.Along (Rollup.step settings) Rollup.Unshared {} ops →
        (Rollup.afterWithout settings (rollup.withholds reader) ops).render settings asked collect
          reader wall = rollup.render settings asked collect reader wall) := by
  intro rollup
  have hkp : rollup.Kept := kept_after hops
  refine ⟨renderWith_eq _ _ _ _ _, fun target held => hkp.mayUse, fun hun => ?_⟩
  have hwt : Without (rollup.withholds reader) rollup
      (Rollup.afterWithout settings (rollup.withholds reader) ops) := without_after hun
  unfold Rollup.render
  rw [renderWith_eq, renderWith_eq, hwt.now]
  have hsr := hkp.serves_eq hwt asked
  unfold Rollup.serves at hsr
  rw [hwt.now] at hsr
  rw [hsr]

/-- A provider that only sites of the gold tier may use. -/
def goldPool : InferenceProvider where
  uid := "u1"
  name := some "gold"
  generation := some 1
  clusterName := none
  gridNetworkRef := "grid"
  matchLabels := ExtTreeMap.ofList [("tier", "gold")]

def goldListing : Listing := ⟨[goldPool], by decide⟩

def queueScrape : Publication Int where
  network := "grid"
  results uid :=
    if uid = "u1" then
      some [{ metric := "queue", labels := ∅, value := 3, timestampMs := none, age := 0 }]
    else none
  publisher := none
  elapsed := 0

def eastSettings : Settings Int := ⟨Numbers.whole, "east", 60⟩

theorem keepsUp_goldListing :
    Run.Along (step eastSettings) KeepsUp {} [.list goldListing, .publish queueScrape] := by
  refine ⟨⟨fun p hp q hq target _ _ => ?_, fun target held hvw => ?_⟩, trivial, trivial⟩
  · rw [mem_singleton.mp hp, mem_singleton.mp hq]
  · obtain ⟨hhl, -⟩ := Option.filter_eq_some_iff.mp hvw
    cases hhl

theorem peer_reads_usable_load_gold :
    (Rollup.after eastSettings [.list goldListing, .publish queueScrape]).MayUse
      (ExtTreeMap.ofList [("tier", "gold")]) "u1" := by
  have hsr : ((Rollup.after eastSettings [.list goldListing, .publish queueScrape]).serves none
      (ExtTreeMap.ofList [("tier", "gold")]))["gold"]?.map Cached.source = some "u1" := by
    decide +kernel
  obtain ⟨held, hhl, hsc⟩ := Option.map_eq_some_iff.mp hsr
  have hrd := peer_reads_usable_load eastSettings _ keepsUp_goldListing none []
    (ExtTreeMap.ofList [("tier", "gold")]) 0
  exact hsc ▸ hrd.2.1 "gold" held hhl

/-- **A deleted provider's load is read by everyone.**  The gold pool is deleted; the next pass lists
nothing, so there is no rule for it any more, and until its samples expire a peer without labels is
served them. -/
theorem deleted_provider_is_read :
    let ops : List (RollupOp Int) :=
      [.list goldListing, .publish queueScrape, .list ⟨[], by decide⟩]
    let rollup := Rollup.after eastSettings ops
    (rollup.serves none ∅)["gold"]?.map Cached.source = some "u1" ∧
      rollup.withholds ∅ "u1" = true ∧
      (rollup.render eastSettings none [] ∅ 0).1.isEmpty = false ∧
      ((Rollup.afterWithout eastSettings (rollup.withholds ∅) ops).render eastSettings none [] ∅
        0).1.isEmpty = true := by
  decide +kernel

end PraxisGrid.Operator.Observed
