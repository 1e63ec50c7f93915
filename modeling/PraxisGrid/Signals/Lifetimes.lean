/-
PraxisGrid/Signals/Lifetimes.lean

Learning lifetimes.

A provider is qualified for one lifetime number at a time, and holds the windows of that lifetime
alone.  Of everything that can happen to a provider only two things leave it qualified: it stays
as it was (`Provider.Retires`), or a publication is accepted (`Provider.Qualifies`), which goes on
with the lifetime of the same object, generation and publisher or begins one with a number above
the serial.  A ledger beside the store keeps the accepted publications with the lifetime each
of them left; the windows of a qualified provider are those of its lifetime replayed.
-/
import PraxisGrid.Signals.Fencing

namespace PraxisGrid

open Std Text Saturate OrdMap Run LoadStore List

variable {V : Type} {readings : Readings V} {provider provider' provider'' : Provider V}
  {batch : Batch V} {scrape : ScrapeClock} {maxAgeMs : Int} {combine : String → Combine}
  {windowMs : Nat} {revision : Revision}

/-! ### One provider -/

namespace Provider

/-- The serial never decreases, and below its largest value it changes with the windows. -/
structure Counts (provider provider' : Provider V) : Prop where
  serial : provider.guard.serial.toNat ≤ provider'.guard.serial.toNat
  metrics : provider'.guard.serial = provider.guard.serial →
    provider.guard.serial.toNat < wordMax → provider'.metrics = provider.metrics

theorem Counts.refl (provider : Provider V) : provider.Counts provider :=
  ⟨le_rfl, fun _ _ => rfl⟩

theorem Counts.trans (h : provider.Counts provider') (h' : provider'.Counts provider'') :
    provider.Counts provider'' := by
  refine ⟨h.serial.trans h'.serial, fun heq hlt => ?_⟩
  have hmid : provider'.guard.serial = provider.guard.serial := by
    have hle := h'.serial
    rw [heq] at hle
    exact UInt64.toNat_inj.mp (hle.antisymm h.serial)
  rw [h'.metrics (heq.trans hmid.symm) (hmid ▸ hlt), h.metrics hmid hlt]

theorem counts_of_serial (h : provider'.guard.serial = satAdd provider.guard.serial 1) :
    provider.Counts provider' := by
  have hnat : provider'.guard.serial.toNat = min (provider.guard.serial.toNat + 1) wordMax := by
    rw [h, toNat_satAdd]
    rfl
  have hlt := provider.guard.serial.toNat_lt
  refine ⟨?_, fun heq hmax => ?_⟩
  · rw [hnat, wordMax]
    omega
  · rw [heq] at hnat
    omega

/-- The provider lost its qualification or is as it was. -/
structure Retires (provider provider' : Provider V) : Prop where
  counts : provider.Counts provider'
  kept : ∀ e, provider'.guard.epoch = some e → provider.guard.epoch = some e ∧
    provider'.metrics = provider.metrics ∧ provider'.guard.newest = provider.guard.newest

theorem Retires.refl (provider : Provider V) : provider.Retires provider :=
  ⟨Counts.refl provider, fun _ h => ⟨h, rfl, rfl⟩⟩

theorem Retires.trans (h : provider.Retires provider') (h' : provider'.Retires provider'') :
    provider.Retires provider'' := by
  refine ⟨h.counts.trans h'.counts, fun e he => ?_⟩
  obtain ⟨he', hmet', hnew'⟩ := h'.kept e he
  obtain ⟨he, hmet, hnew⟩ := h.kept e he'
  exact ⟨he, hmet'.trans hmet, hnew'.trans hnew⟩

theorem counts_of_lt (hlt : provider.guard.serial.toNat < provider'.guard.serial.toNat) :
    provider.Counts provider' := by
  refine ⟨hlt.le, fun heq => ?_⟩
  rw [heq] at hlt
  exact absurd hlt (lt_irrefl _)

theorem retires_of_serial (hser : provider'.guard.serial = satAdd provider.guard.serial 1)
    (hep : provider'.guard.epoch = none) : provider.Retires provider' :=
  ⟨counts_of_serial hser, fun e he => by cases hep.symm.trans he⟩

theorem retires_disqualify (provider : Provider V) : provider.Retires provider.disqualify :=
  retires_of_serial rfl rfl

theorem retires_invalidate : provider.Retires provider.invalidate :=
  retires_of_serial rfl rfl

theorem retires_reject (provider : Provider V) : provider.Retires provider.reject :=
  retires_of_serial rfl rfl

theorem retires_observe :
    provider.Retires (provider.observe revision) := by
  unfold observe
  split_ifs
  · exact Retires.refl provider
  · exact retires_of_serial rfl rfl
  · exact ⟨⟨le_rfl, fun _ _ => rfl⟩, fun _ h => ⟨h, rfl, rfl⟩⟩

/-- The revision goes on with the lifetime and its windows, or begins one on empty windows. -/
def Carries (revision : Revision) (provider provider' : Provider V) (windows : Windows V) : Prop :=
  ∃ e, provider'.guard.epoch = some e ∧
    ((provider.guard.epoch = some e ∧ windows = provider.metrics ∧
        ∃ held, provider.guard.newest = some held ∧ revision.changes held = false) ∨
      (provider.guard.serial.toNat < e.toNat ∧ e.toNat ≤ provider'.guard.serial.toNat ∧
        windows = ∅))

/-- A publication is accepted and qualifies the provider. -/
structure Qualifies (readings : Readings V) (batch : Batch V) (scrape : ScrapeClock)
    (combine : String → Combine) (windowMs : Nat) (revision : Revision)
    (provider provider' : Provider V) : Prop where
  metadata : batch.revision = some revision
  complete : batch.complete = true
  serial : provider.guard.serial.toNat < provider'.guard.serial.toNat
  newest : provider'.guard.newest = some revision
  windows : ∃ windows, Carries revision provider provider' windows ∧
    provider'.metrics = pushRows readings scrape combine windowMs windows batch.rows

/-- What happened before the commit does not matter to the lifetime. -/
theorem Retires.qualifies (h : provider.Retires provider')
    (h' : Qualifies readings batch scrape combine windowMs revision provider' provider'') :
    Qualifies readings batch scrape combine windowMs revision provider provider'' := by
  refine ⟨h'.metadata, h'.complete, h.counts.serial.trans_lt h'.serial, h'.newest, ?_⟩
  obtain ⟨windows, ⟨e, he, ⟨hep, hwn, hnew⟩ | ⟨hlt, hle⟩⟩, hmet⟩ := h'.windows
  · obtain ⟨hep', hmet', hnew'⟩ := h.kept e hep
    exact ⟨windows, ⟨e, he, .inl ⟨hep', hwn.trans hmet', hnew' ▸ hnew⟩⟩, hmet⟩
  · exact ⟨windows, ⟨e, he, .inr ⟨h.counts.serial.trans_lt hlt, hle⟩⟩, hmet⟩

/-- The rows of a publication were pushed on the windows of the lifetime that goes on, or on the
empty windows of a lifetime with a number above the serial. -/
def Carried (readings : Readings V) (scrape : ScrapeClock) (combine : String → Combine)
    (windowMs : Nat) (revision : Revision) (rows : List (Observation V))
    (provider provider' : Provider V) (e : UInt64) : Prop :=
  provider'.guard.newest = some revision ∧
    ((provider.guard.epoch = some e ∧
        (∃ held, provider.guard.newest = some held ∧ revision.changes held = false) ∧
        provider'.metrics = pushRows readings scrape combine windowMs provider.metrics rows) ∨
      (provider.guard.serial.toNat < e.toNat ∧ e.toNat ≤ provider'.guard.serial.toNat ∧
        provider'.metrics = pushRows readings scrape combine windowMs ∅ rows))

theorem Qualifies.carried {e : UInt64}
    (h : Qualifies readings batch scrape combine windowMs revision provider provider')
    (h' : provider'.Retires provider'') (he : provider''.guard.epoch = some e) :
    Carried readings scrape combine windowMs revision batch.rows provider provider'' e := by
  obtain ⟨he', hmet, hnew⟩ := h'.kept e he
  obtain ⟨windows, ⟨e', he'', hcar⟩, hwn⟩ := h.windows
  cases he''.symm.trans he'
  refine ⟨hnew.trans h.newest, ?_⟩
  rw [hmet, hwn]
  rcases hcar with ⟨hep, rfl, hhl⟩ | ⟨hlt, hle, rfl⟩
  · exact .inl ⟨hep, hhl, rfl⟩
  · exact .inr ⟨hlt, hle.trans h'.counts.serial, rfl⟩

/-- Qualification either fails and retires the provider, or carries a lifetime. -/
theorem qualify_cases {accepted : Bool}
    (h : provider.qualify revision scrape maxAgeMs = (accepted, provider'))
    (hser : provider.guard.serial.toNat < wordMax) :
    (accepted = false ∧ provider.Retires provider') ∨
      (accepted = true ∧ provider.guard.serial.toNat < provider'.guard.serial.toNat ∧
        provider'.guard.newest = some revision ∧
        Carries revision provider provider' provider'.metrics) := by
  -- the serial is below its largest value, so raising it any number of times counts
  have hone : ∀ serial : UInt64, provider.guard.serial.toNat < serial.toNat ∨
      serial = provider.guard.serial → provider.guard.serial.toNat < (satAdd serial 1).toNat := by
    intro serial h
    rw [toNat_satAdd]
    have hwr : (1 : UInt64).toNat = 1 := rfl
    rcases h with h | rfl
    · omega
    · omega
  unfold qualify at h
  rcases hrb : rebaseAge scrape.referenceMs revision.timestampMs scrape.localNowMs with - | atMs
  · rw [hrb] at h
    cases h
    exact .inl ⟨rfl, retires_invalidate⟩
  rw [hrb] at h
  dsimp only at h
  by_cases hcl : (provider.guard.newest.all revision.changes || provider.guard.epoch.isNone ||
      !provider.guard.fresh scrape.localNowMs maxAgeMs) = true
  · rw [if_pos hcl] at h
    have hrs : provider.guard.serial.toNat <
        (satAdd (satAdd provider.guard.serial 1) 1).toNat := hone _ (.inl (hone _ (.inr rfl)))
    split_ifs at h
    · cases h
      exact .inr ⟨rfl, hrs, rfl, _, rfl, .inr ⟨hrs, le_rfl, rfl⟩⟩
    · cases h
      exact .inl ⟨rfl, counts_of_lt (hone _ (.inl hrs)), nofun⟩
  · rw [if_neg hcl] at h
    simp only [Bool.or_eq_true, not_or, Bool.not_eq_true, Option.isNone_eq_false_iff] at hcl
    obtain ⟨⟨hsm, hep⟩, -⟩ := hcl
    obtain ⟨e, he⟩ := Option.isSome_iff_exists.mp hep
    have hrs : provider.guard.serial.toNat < (satAdd provider.guard.serial 1).toNat :=
      hone _ (.inr rfl)
    split_ifs at h
    · cases h
      refine .inr ⟨rfl, hrs, rfl, e, ?_, .inl ⟨he, rfl, ?_⟩⟩
      · show some (provider.guard.epoch.getD _) = some e
        rw [he, Option.getD_some]
      · rcases hnew : provider.guard.newest with - | held
        · rw [hnew] at hsm
          cases hsm
        · rw [hnew] at hsm
          exact ⟨held, rfl, hsm⟩
    · cases h
      exact .inl ⟨rfl, counts_of_lt (hone _ (.inl hrs)), nofun⟩

theorem accept_cases {accepted : Bool} {decided : Provider V}
    (h : provider.accept batch scrape maxAgeMs = (accepted, decided)) :
    (provider.Retires decided ∧ (accepted = true → decided.guard.epoch = none ∧
        provider.guard.serial.toNat < decided.guard.serial.toNat)) ∨
      (accepted = true ∧ batch.complete = true ∧ ∃ revision, batch.revision = some revision ∧
        provider.guard.serial.toNat < decided.guard.serial.toNat ∧
        decided.guard.newest = some revision ∧
        Carries revision provider decided decided.metrics) := by
  unfold accept at h
  by_cases hrl : batch.revision.any provider.rollback = true
  · rw [if_pos hrl] at h
    cases h
    exact .inl ⟨Retires.refl provider, nofun⟩
  rw [if_neg hrl] at h
  by_cases hrc : (batch.revision.any fun next =>
      provider.guard.newest.any fun held => next.order ≤ held.order) = true
  · rw [if_pos hrc] at h
    cases h
    exact .inl ⟨Retires.refl provider, nofun⟩
  rw [if_neg hrc] at h
  by_cases href : (batch.refusal.isSome || !batch.complete ||
      provider.guard.serial.toNat == wordMax) = true
  · rw [if_pos href] at h
    cases h
    exact .inl ⟨retires_reject provider, nofun⟩
  rw [if_neg href] at h
  simp only [Bool.or_eq_true, Bool.not_eq_true', beq_iff_eq, not_or, Bool.not_eq_false] at href
  obtain ⟨⟨-, hcm⟩, hmax⟩ := href
  have hser : provider.guard.serial.toNat < wordMax := by
    have hlt := provider.guard.serial.toNat_lt
    rw [wordMax] at hmax ⊢
    omega
  have hrs : provider.guard.serial.toNat < (satAdd provider.guard.serial 1).toNat := by
    rw [toNat_satAdd]
    exact lt_min (Nat.lt_succ_self _) hser
  rcases hrev : batch.revision with - | revision
  · rw [hrev] at h
    cases h
    split_ifs <;> exact .inl ⟨retires_of_serial rfl rfl, fun _ => ⟨rfl, hrs⟩⟩
  · rw [hrev] at h
    dsimp only at h
    split_ifs at h with hzr
    · cases h
      exact .inl ⟨retires_of_serial rfl rfl, fun _ => ⟨rfl, hrs⟩⟩
    · rcases qualify_cases h hser with ⟨rfl, hrt⟩ | ⟨rfl, hlt, hnew, hcar⟩
      · exact .inl ⟨hrt, nofun⟩
      · exact .inr ⟨rfl, hcm, revision, rfl, hlt, hnew, hcar⟩

/-- **A commit retires the provider or qualifies it.** -/
theorem commit_cases {result : Commit}
    (hcom : provider.commit readings batch scrape maxAgeMs combine windowMs =
      (result, provider')) :
    (provider.Retires provider' ∧ (result = .accepted → provider'.guard.epoch = none)) ∨
      (result = .accepted ∧ ∃ revision,
        Qualifies readings batch scrape combine windowMs revision provider provider') := by
  unfold commit at hcom
  split_ifs at hcom with hdp
  · cases hcom
    exact .inl ⟨Retires.refl provider, nofun⟩
  rcases hac : provider.accept batch scrape maxAgeMs with ⟨accepted, decided⟩
  rw [hac] at hcom
  cases accepted with
  | false =>
    cases hcom
    rcases accept_cases hac with ⟨hrt, -⟩ | ⟨hfl, -⟩
    · exact .inl ⟨hrt, nofun⟩
    · cases hfl
  | true =>
    dsimp only at hcom
    have hser : provider.guard.serial.toNat < decided.guard.serial.toNat := by
      rcases accept_cases hac with ⟨-, h⟩ | ⟨-, -, -, -, hlt, -⟩
      · exact (h rfl).2
      · exact hlt
    split_ifs at hcom
    · -- a batch that does not fit clears what its acceptance began
      cases hcom
      refine .inl ⟨⟨counts_of_lt ?_, nofun⟩, nofun⟩
      exact hser.trans_le (retires_invalidate).counts.serial
    · cases hcom
      rcases accept_cases hac with ⟨-, h⟩ | ⟨-, hcm, revision, hrev, -, hnew, hcar⟩
      · refine .inl ⟨⟨counts_of_lt hser, fun e he => ?_⟩, fun _ => (h rfl).1⟩
        cases (h rfl).1.symm.trans he
      · exact .inr ⟨rfl, revision, hrev, hcm, hser, hnew, _, hcar, rfl⟩

end Provider

/-! ### One ingest -/

namespace LoadStore

variable {store store' : LoadStore V} {key : String} {staged : Staged V} {now : Option Clock}
  {text : List Char}

theorem retires_of_providers (h : store'.providers[key]? = store.providers[key]?) :
    (store.held key).Retires (store'.held key) := by
  rw [held_congr h]
  exact Provider.Retires.refl _

theorem retires_mapProviders (f : String → Provider V → Provider V)
    (hf : ∀ provider : Provider V, provider.Retires (f key provider)) :
    (store.held key).Retires ((store.mapProviders f).held key) := by
  rcases hget : store.providers[key]? with - | provider
  · apply retires_of_providers
    rw [providers_mapProviders, hget, Option.map_none]
  · have haf : (store.mapProviders f).providers[key]? = some (f key provider) := by
      rw [providers_mapProviders, hget, Option.map_some]
    rw [held_of_providers hget, held_of_providers haf]
    exact hf provider

theorem retires_rejectResponse :
    (store.held key).Retires ((store.rejectResponse scrape).held key) := by
  apply retires_mapProviders
  intro provider
  split_ifs
  · exact provider.retires_reject
  · exact Provider.Retires.refl provider

theorem retires_rememberFences (batches : Batches V) :
    (store.held key).Retires ((store.rememberFences batches).held key) := by
  cases remembered store batches key with
  | kept hpr => exact retires_of_providers hpr
  | closed hpr hpre => exact retires_of_providers (hpr.trans hpre.symm)
  | observed _ _ _ _ _ hpr =>
    rw [held_of_providers hpr]
    exact Provider.retires_observe

/-- What an ingest does to the lifetime of one provider. -/
inductive Lives (readings : Readings V) (scrape : ScrapeClock) (store : LoadStore V) (key : String)
    (store' : LoadStore V) (outcomes : List (Outcome V)) : Prop
  | retired (hretires : (store.held key).Retires (store'.held key))
    (hnone : ∀ outcome ∈ outcomes, outcome.key = key → outcome.commit = .accepted →
      (store'.held key).guard.epoch = none)
  | qualified {outcome : Outcome V} {revision : Revision} {middle : Provider V}
    (hfilter : outcomes.filter (fun outcome => outcome.key == key) = [outcome])
    (haccepted : outcome.commit = .accepted)
    (hqualifies : Provider.Qualifies readings outcome.batch scrape store.combine store.windowMs
      revision (store.held key) middle)
    (hretires : middle.Retires (store'.held key))

/-- A commit at one key retires or qualifies the provider. -/
theorem Committed.lives {swept : LoadStore V} {outcomes : List (Outcome V)}
    (h : Committed readings scrape maxAgeMs swept staged.batches key store'
      (outcomes.filter fun outcome => outcome.key == key)) :
    Lives readings scrape swept key store' outcomes := by
  have hmem : ∀ outcome ∈ outcomes, outcome.key = key →
      outcome ∈ outcomes.filter fun outcome => outcome.key == key :=
    fun outcome hout hkey => mem_filter.mpr ⟨hout, beq_iff_eq.mpr hkey⟩
  generalize hfl : outcomes.filter (fun outcome => outcome.key == key) = filtered at h hmem
  cases h with
  | missing _ hpr =>
    refine .retired (retires_of_providers hpr) fun outcome hout hkey => ?_
    cases hmem outcome hout hkey
  | old _ _ _ hpr =>
    refine .retired (retires_of_providers hpr) fun outcome hout hkey hacc => ?_
    rw [mem_singleton.mp (hmem outcome hout hkey)] at hacc
    cases hacc
  | capped _ hpr hpre =>
    refine .retired (retires_of_providers (hpr.trans hpre.symm))
      fun outcome hout hkey hacc => ?_
    rw [mem_singleton.mp (hmem outcome hout hkey)] at hacc
    cases hacc
  | decided _ _ _ hcom hpr =>
    rcases Provider.commit_cases hcom with ⟨hrt, hnn⟩ | ⟨hacc, revision, hql⟩
    · refine .retired ?_ fun outcome hout hkey hacc => ?_
      · rw [held_of_providers hpr]
        exact hrt
      · rw [mem_singleton.mp (hmem outcome hout hkey)] at hacc
        rw [held_of_providers hpr]
        exact hnn hacc
    · refine .qualified hfl hacc hql ?_
      rw [held_of_providers hpr]
      exact Provider.Retires.refl _

/-- **An ingest retires a provider or qualifies it.** -/
theorem lives_ingest (readings : Readings V) (store : LoadStore V) (text : List Char)
    (scrape : ScrapeClock) (maxAgeMs : Int) (now : Option Clock) (key : String) :
    Lives readings scrape store key (store.ingestOutcomes readings text scrape maxAgeMs now).1
      (store.ingestOutcomes readings text scrape maxAgeMs now).2.2 := by
  have hing := ingests readings store text scrape maxAgeMs now
  generalize store.ingestOutcomes readings text scrape maxAgeMs now = result at hing ⊢
  generalize stage readings text scrape now = staged at hing
  have hadvanced : ∀ advanced : LoadStore V,
      store.advanceOrders (store.incoming staged.batches) = some advanced →
      (store.held key).Retires ((advanced.rememberFences staged.batches).held key) := by
    intro advanced hadv
    rw [← held_congr (providers_advanceOrders hadv)]
    exact retires_rememberFences staged.batches
  cases hing with
  | capped hadv =>
    exact .retired (retires_rejectResponse) nofun
  | invalid hadv hinv =>
    exact .retired ((hadvanced _ hadv).trans (retires_rejectResponse))
      nofun
  | @commits advanced swept tally hadv hinv hsw =>
    have hset : store.SameSettings swept := by
      rw [hsw]
      exact { sameSettings_fenced hadv staged.batches with }
    have hpre : (store.held key).Retires (swept.held key) := by
      rw [hsw]
      refine (hadvanced _ hadv).trans (retires_mapProviders _ fun provider => ?_)
      split
      · exact Provider.Retires.refl provider
      · dsimp only
        split_ifs
        · exact provider.retires_disqualify
        · exact Provider.Retires.refl provider
    have haf : ∀ s : LoadStore V, (s.held key).Retires (s.retireSuperseded.held key) := by
      intro s
      refine retires_mapProviders _ fun provider => ?_
      split_ifs
      · exact provider.retires_disqualify
      · exact Provider.Retires.refl provider
    have hlv := (committed readings scrape maxAgeMs swept staged.batches key).lives
    generalize swept.commitResponse readings staged.batches scrape maxAgeMs = result at hlv ⊢
    cases hlv with
    | retired hrt hnn =>
      refine .retired ((hpre.trans hrt).trans (haf result.1)) ?_
      intro outcome hout hkey hacc
      -- what is not qualified after the commits stays so
      rcases hep : (result.1.retireSuperseded.held key).guard.epoch with - | e
      · rfl
      · have hkp := ((haf result.1).kept e hep).1
        rw [hnn outcome hout hkey hacc] at hkp
        cases hkp
    | qualified hfl hacc hql hrt =>
      rw [hset.combine, hset.window] at hql
      exact .qualified hfl hacc (hpre.qualifies hql)
        (hrt.trans (haf result.1))

end LoadStore

/-! ### The ledger -/

/-- An accepted publication, with the lifetime it left its provider in. -/
structure Publication (V : Type) where
  key : String
  revision : Revision
  rows : List (Observation V)
  scrape : ScrapeClock
  lifetime : Option UInt64

/-- Exactly the announced rows, all at the time of the metadata, no series twice. -/
def Publication.Complete (publication : Publication V) : Prop :=
  publication.rows.length = publication.revision.batchSamples ∧
    (∀ row ∈ publication.rows, row.originMs = publication.revision.timestampMs) ∧
    (publication.rows.map fun row => (row.metric, row.labels)).Nodup

def publication (store : LoadStore V) (scrape : ScrapeClock) (outcome : Outcome V) :
    Option (Publication V) :=
  if outcome.commit = .accepted then
    outcome.batch.revision.map fun revision =>
      { key := outcome.key
        revision := revision
        rows := outcome.batch.rows
        scrape := scrape
        lifetime := (store.held outcome.key).guard.epoch }
  else none

def replay (readings : Readings V) (combine : String → Combine) (windowMs : Nat)
    (publications : List (Publication V)) : Windows V :=
  publications.foldl
    (fun windows publication =>
      pushRows readings publication.scrape combine windowMs windows publication.rows) ∅

structure Ledger (V : Type) where
  store : LoadStore V
  accepted : List (Publication V) := []
  begun : List (String × UInt64) := []

namespace Ledger

def begins (store : LoadStore V) (publication : Publication V) : Option (String × UInt64) :=
  if publication.lifetime = (store.held publication.key).guard.epoch then none
  else publication.lifetime.map fun e => (publication.key, e)

def accepts (readings : Readings V) (store : LoadStore V) : SignalOp → List (Publication V)
  | .ingest text referenceMs localNowMs owner now =>
    match store.revisionMaxAgeMs with
    | none => []
    | some maxAgeMs =>
      let scrape := store.scrapeOf referenceMs localNowMs owner
      let result := store.ingestOutcomes readings text scrape maxAgeMs now
      result.2.2.filterMap (publication result.1 scrape)
  | .learningState _ _ _ => []

/-- The ledger after one operation. -/
def step (readings : Readings V) (ledger : Ledger V) (op : SignalOp) : Ledger V where
  store := ledger.store.step readings op
  accepted := ledger.accepted ++ accepts readings ledger.store op
  begun := ledger.begun ++ (accepts readings ledger.store op).filterMap (begins ledger.store)

def lifetime (ledger : Ledger V) (key : String) (e : UInt64) : List (Publication V) :=
  ledger.accepted.filter fun publication =>
    publication.key == key && publication.lifetime == some e

theorem store_run (ops : List SignalOp) :
    (run (Ledger.step readings) ledger ops).store =
      run (LoadStore.step readings) ledger.store ops :=
  run_map Ledger.store fun _ _ => rfl

/-! ### One operation at one key -/

/-- One publication of the provider is accepted and qualifies it. -/
structure Enters (readings : Readings V) (combine : String → Combine) (windowMs : Nat)
    (store : LoadStore V) (key : String) (store' : LoadStore V)
    (publications : List (Publication V)) (accepted : Publication V) : Prop where
  filter : publications.filter (fun publication => publication.key == key) = [accepted]
  lifetime : accepted.lifetime = (store'.held key).guard.epoch
  complete : accepted.Complete
  serial : (store.held key).guard.serial.toNat < (store'.held key).guard.serial.toNat
  carried : ∀ e, (store'.held key).guard.epoch = some e →
    Provider.Carried readings accepted.scrape combine windowMs accepted.revision accepted.rows
      (store.held key) (store'.held key) e

/-- What an operation does to one provider and its publications. -/
inductive Turns (readings : Readings V) (combine : String → Combine) (windowMs : Nat)
    (store : LoadStore V) (key : String) (store' : LoadStore V)
    (publications : List (Publication V)) : Prop
  | retired (hretires : (store.held key).Retires (store'.held key))
    (hnone : ∀ publication ∈ publications, publication.key = key → publication.lifetime = none)
  | qualified {accepted : Publication V}
    (henters : Enters readings combine windowMs store key store' publications accepted)

theorem Turns.counts {store store' : LoadStore V} {key : String}
    {publications : List (Publication V)}
    (h : Turns readings combine windowMs store key store' publications) :
    (store.held key).Counts (store'.held key) := by
  cases h with
  | retired hrt => exact hrt.counts
  | qualified hen => exact Provider.counts_of_lt hen.serial

theorem publication_eq_some {store : LoadStore V} {outcome : Outcome V} {accepted : Publication V}
    (h : publication store scrape outcome = some accepted) :
    outcome.commit = .accepted ∧ accepted.key = outcome.key ∧
      accepted.lifetime = (store.held outcome.key).guard.epoch := by
  unfold publication at h
  split_ifs at h with hacc
  obtain ⟨revision, -, rfl⟩ := Option.map_eq_some_iff.mp h
  exact ⟨hacc, rfl, rfl⟩

theorem complete_of_batch {revision : Revision} (hrev : batch.revision = some revision)
    (h : batch.complete = true) (key : String) (lifetime : Option UInt64) :
    (⟨key, revision, batch.rows, scrape, lifetime⟩ : Publication V).Complete := by
  rw [Batch.complete, hrev, Option.all_some] at h
  simp only [Bool.and_eq_true, decide_eq_true_eq, beq_iff_eq, all_eq_true] at h
  exact ⟨h.2.1.symm, h.2.2, h.1.2⟩

/-- **Every operation retires a provider or qualifies it by one publication.** -/
theorem turns_step (readings : Readings V) {store : LoadStore V}
    (hage : store.revisionMaxAgeMs = some maxAgeMs) (op : SignalOp) (key : String) :
    Turns readings store.combine store.windowMs store key (store.step readings op)
      (accepts readings store op) := by
  cases op with
  | learningState k nowMs boundMs =>
    refine .retired ?_ nofun
    have hput : ∀ provider provider' : Provider V, store.providers[k]? = some provider →
        provider.Retires provider' → (store.held key).Retires ((store.put k provider').held key) := by
      intro provider provider' hpr hrt
      by_cases hk : k = key
      · subst hk
        have haf : (store.put k provider').providers[k]? = some provider' := by
          rw [providers_put, if_pos rfl]
        rw [held_of_providers hpr, held_of_providers haf]
        exact hrt
      · apply retires_of_providers
        rw [providers_put, if_neg hk]
    refine step_learningState (P := fun s => (store.held key).Retires (s.held key)) hage
      (Provider.Retires.refl _) fun provider provider' hpr hcs => ?_
    apply hput provider provider' hpr
    rcases hcs with rfl | rfl
    · exact Provider.Retires.refl provider'
    · exact provider.retires_disqualify
  | ingest text referenceMs localNowMs owner now =>
    rw [step_ingest hage]
    simp only [accepts, hage]
    generalize store.scrapeOf referenceMs localNowMs owner = scrape
    have hlv := lives_ingest readings store text scrape maxAgeMs now key
    generalize store.ingestOutcomes readings text scrape maxAgeMs now = result at hlv ⊢
    cases hlv with
    | retired hrt hnn =>
      refine .retired hrt fun accepted hmem hkey => ?_
      obtain ⟨outcome, hout, hsm⟩ := mem_filterMap.mp hmem
      obtain ⟨hacc, hkey', hlf⟩ := publication_eq_some hsm
      have hkey : outcome.key = key := hkey'.symm.trans hkey
      rw [hlf, hkey]
      exact hnn outcome hout hkey hacc
    | @qualified outcome revision middle hfl hacc hql hrt =>
      have hkey : outcome.key = key := by
        have hmem : outcome ∈ result.2.2.filter fun outcome => outcome.key == key := by
          rw [hfl]
          exact mem_singleton_self outcome
        exact beq_iff_eq.mp (mem_filter.mp hmem).2
      have hpb : (result.2.2.filterMap (publication result.1 scrape)).filter
          (fun accepted => accepted.key == key) = [(⟨outcome.key, revision, outcome.batch.rows,
            scrape, (result.1.held outcome.key).guard.epoch⟩ : Publication V)] := by
        rw [filter_filterMap_comm (q := fun outcome => outcome.key == key), hfl]
        · rw [filterMap_cons, publication, if_pos hacc, hql.metadata]
          rfl
        · intro outcome accepted hsm
          rw [(publication_eq_some hsm).2.1]
      refine .qualified ⟨hpb, ?_, complete_of_batch hql.metadata hql.complete _ _,
        hql.serial.trans_le hrt.counts.serial, fun e he => hql.carried hrt he⟩
      rw [hkey]

/-! ### The invariant of the ledger -/

/-- What the ledger knows of one provider. -/
structure SoundAt (readings : Readings V) (combine : String → Combine) (windowMs : Nat)
    (ledger : Ledger V) (key : String) : Prop where
  past : ∀ accepted ∈ ledger.accepted, accepted.key = key → ∀ e, accepted.lifetime = some e →
    accepted.Complete ∧ e.toNat ≤ (ledger.store.held key).guard.serial.toNat
  epoch : ∀ e, (ledger.store.held key).guard.epoch = some e →
    e.toNat ≤ (ledger.store.held key).guard.serial.toNat
  windows : ∀ e, (ledger.store.held key).guard.epoch = some e →
    (ledger.store.held key).metrics = replay readings combine windowMs (ledger.lifetime key e)
  identity : ∀ e, (ledger.store.held key).guard.epoch = some e →
    ∃ held, (ledger.store.held key).guard.newest = some held ∧
      ∀ accepted ∈ ledger.lifetime key e, accepted.revision.changes held = false
  begun : (ledger.begun.filter fun named => named.1 == key).Pairwise
    fun first second => first.2.toNat < second.2.toNat
  bound : ∀ named ∈ ledger.begun, named.1 = key →
    named.2.toNat ≤ (ledger.store.held key).guard.serial.toNat

/-- The publications of a lifetime after one operation. -/
theorem lifetime_step (readings : Readings V) (ledger : Ledger V) (op : SignalOp) (key : String)
    (e : UInt64) : (ledger.step readings op).lifetime key e = ledger.lifetime key e ++
      ((accepts readings ledger.store op).filter fun accepted => accepted.key == key).filter
        fun accepted => accepted.lifetime == some e := by
  rw [lifetime, step, filter_append, filter_filter, lifetime]
  congr 2
  funext accepted
  exact Bool.and_comm _ _

/-- The lifetimes that one operation begins for a provider. -/
theorem begun_step (readings : Readings V) (ledger : Ledger V) (op : SignalOp) (key : String) :
    ((ledger.step readings op).begun.filter fun named => named.1 == key) =
      (ledger.begun.filter fun named => named.1 == key) ++
        ((accepts readings ledger.store op).filter fun accepted => accepted.key == key).filterMap
          (begins ledger.store) := by
  rw [step, filter_append, filter_filterMap_comm (q := fun accepted => accepted.key == key)]
  intro accepted named hsm
  unfold begins at hsm
  split_ifs at hsm
  obtain ⟨e, -, rfl⟩ := Option.map_eq_some_iff.mp hsm
  rfl

theorem replay_append (readings : Readings V) (combine : String → Combine) (windowMs : Nat)
    (publications : List (Publication V)) (accepted : Publication V) :
    replay readings combine windowMs (publications ++ [accepted]) =
      pushRows readings accepted.scrape combine windowMs
        (replay readings combine windowMs publications) accepted.rows := by
  rw [replay, foldl_append]
  rfl

theorem changes_eq_false_iff {revision held : Revision} : revision.changes held = false ↔
    held.uid = revision.uid ∧ held.generation = revision.generation ∧
      held.publisherEpoch = revision.publisherEpoch := by
  simp [Revision.changes, and_assoc]

/-- Two revisions that agree with a third agree. -/
theorem changes_of_changes {first second held : Revision} (h : first.changes held = false)
    (h' : second.changes held = false) : first.changes second = false := by
  rw [changes_eq_false_iff] at h h' ⊢
  exact ⟨h'.1.symm.trans h.1, h'.2.1.symm.trans h.2.1, h'.2.2.symm.trans h.2.2⟩

section Step

variable {ledger : Ledger V} {key : String} {op : SignalOp}

/-- A provider that is retired keeps what the ledger knows. -/
theorem SoundAt.retired (h : ledger.SoundAt readings combine windowMs key)
    (hrt : (ledger.store.held key).Retires ((ledger.step readings op).store.held key))
    (hnn : ∀ accepted ∈ accepts readings ledger.store op, accepted.key = key →
      accepted.lifetime = none) :
    (ledger.step readings op).SoundAt readings combine windowMs key := by
  have hfl : ∀ accepted ∈ (accepts readings ledger.store op).filter
      fun accepted => accepted.key == key, accepted.lifetime = none :=
    fun accepted hmem => hnn accepted (mem_filter.mp hmem).1
      (beq_iff_eq.mp (mem_filter.mp hmem).2)
  have hlf : ∀ e, (ledger.step readings op).lifetime key e = ledger.lifetime key e := by
    intro e
    rw [lifetime_step, filter_eq_nil_iff.mpr, append_nil]
    intro accepted hmem
    rw [hfl accepted hmem]
    exact Bool.false_ne_true
  have hbg : (ledger.step readings op).begun.filter (fun named => named.1 == key) =
      ledger.begun.filter fun named => named.1 == key := by
    rw [begun_step, filterMap_eq_nil_iff.mpr, append_nil]
    intro accepted hmem
    rw [begins, hfl accepted hmem, Option.map_none, ite_self]
  have hser := hrt.counts.serial
  constructor
  · intro accepted hmem hkey e he
    rcases mem_append.mp hmem with hmem | hmem
    · obtain ⟨hcm, hle⟩ := h.past accepted hmem hkey e he
      exact ⟨hcm, hle.trans hser⟩
    · cases (hnn accepted hmem hkey).symm.trans he
  · intro e he
    exact (h.epoch e (hrt.kept e he).1).trans hser
  · intro e he
    obtain ⟨he', hmet, -⟩ := hrt.kept e he
    rw [hmet, hlf, h.windows e he']
  · intro e he
    obtain ⟨he', -, hnew⟩ := hrt.kept e he
    rw [hnew, hlf]
    exact h.identity e he'
  · rw [hbg]
    exact h.begun
  · intro named hmem hkey
    have hmem' : named ∈ (ledger.step readings op).begun.filter fun named => named.1 == key :=
      mem_filter.mpr ⟨hmem, beq_iff_eq.mpr hkey⟩
    rw [hbg] at hmem'
    exact (h.bound named (mem_filter.mp hmem').1 hkey).trans hser

/-- No publication of the ledger belongs to a lifetime above the serial. -/
theorem SoundAt.lifetime_eq_nil (h : ledger.SoundAt readings combine windowMs key) {e : UInt64}
    (he : (ledger.store.held key).guard.serial.toNat < e.toNat) : ledger.lifetime key e = [] := by
  apply filter_eq_nil_iff.mpr
  intro accepted hmem htr
  rw [Bool.and_eq_true, beq_iff_eq, beq_iff_eq] at htr
  have hle := (h.past accepted hmem htr.1 e htr.2).2
  omega

section Qualified

variable {accepted : Publication V} {e : UInt64}
  (h : Enters readings combine windowMs ledger.store key (ledger.step readings op).store
    (accepts readings ledger.store op) accepted)
  (hsound : ledger.SoundAt readings combine windowMs key)
  (he : ((ledger.step readings op).store.held key).guard.epoch = some e)

include h

theorem Enters.key_eq : accepted.key = key := by
  have hmem : accepted ∈ (accepts readings ledger.store op).filter
      fun accepted => accepted.key == key := by
    rw [h.filter]
    exact mem_singleton_self accepted
  exact beq_iff_eq.mp (mem_filter.mp hmem).2

theorem Enters.eq_of_mem {other : Publication V} (hmem : other ∈ accepts readings ledger.store op)
    (hkey : other.key = key) : other = accepted := by
  have hot : other ∈ (accepts readings ledger.store op).filter
      fun accepted => accepted.key == key :=
    mem_filter.mpr ⟨hmem, beq_iff_eq.mpr hkey⟩
  rwa [h.filter, mem_singleton] at hot

include he in
theorem Enters.lifetime_step :
    (ledger.step readings op).lifetime key e = ledger.lifetime key e ++ [accepted] := by
  rw [Ledger.lifetime_step, h.filter, filter_cons_of_pos, filter_nil]
  rw [h.lifetime, he]
  exact beq_self_eq_true _

include hsound

include he in
theorem Enters.epoch_le :
    e.toNat ≤ ((ledger.step readings op).store.held key).guard.serial.toNat := by
  obtain ⟨-, ⟨hep, -⟩ | ⟨-, hle, -⟩⟩ := h.carried e he
  · exact (hsound.epoch e hep).trans h.serial.le
  · exact hle

/-- A lifetime that begins has a number above the serial. -/
theorem Enters.begins_lt {named : String × UInt64}
    (hsm : begins ledger.store accepted = some named) :
    (ledger.store.held key).guard.serial.toNat < named.2.toNat ∧
      named.2.toNat ≤ ((ledger.step readings op).store.held key).guard.serial.toNat := by
  unfold begins at hsm
  split_ifs at hsm with hnew
  obtain ⟨e, he, rfl⟩ := Option.map_eq_some_iff.mp hsm
  have he' := h.lifetime.symm.trans he
  refine ⟨?_, h.epoch_le hsound he'⟩
  obtain ⟨-, ⟨hep, -⟩ | ⟨hlt, -⟩⟩ := h.carried e he'
  · rw [h.key_eq, he, hep] at hnew
    exact absurd rfl hnew
  · exact hlt

include he in
theorem Enters.windows : ((ledger.step readings op).store.held key).metrics =
      replay readings combine windowMs ((ledger.step readings op).lifetime key e) := by
  rw [h.lifetime_step he, replay_append]
  obtain ⟨-, ⟨hep, -, hwn⟩ | ⟨hlt, -, hwn⟩⟩ := h.carried e he
  · rw [hwn, hsound.windows e hep]
  · rw [hwn, hsound.lifetime_eq_nil hlt]
    rfl

include he in
/-- The publications of the lifetime are of one object, generation and publisher. -/
theorem Enters.identity :
    ∀ other ∈ (ledger.step readings op).lifetime key e,
      other.revision.changes accepted.revision = false := by
  intro other hot
  rw [h.lifetime_step he, mem_append, mem_singleton] at hot
  rcases hot with hot | rfl
  · obtain ⟨-, ⟨hep, ⟨held, hhl, hsm⟩, -⟩ | ⟨hlt, -⟩⟩ := h.carried e he
    · obtain ⟨held', hhl', hsm'⟩ := hsound.identity e hep
      cases hhl.symm.trans hhl'
      exact changes_of_changes (hsm' other hot) hsm
    · rw [hsound.lifetime_eq_nil hlt] at hot
      cases hot
  · exact changes_eq_false_iff.mpr ⟨rfl, rfl, rfl⟩

/-- A provider that a publication qualifies keeps what the ledger knows. -/
theorem SoundAt.enters : (ledger.step readings op).SoundAt readings combine windowMs key := by
  constructor
  · intro other hot hkey e he
    rcases mem_append.mp hot with hot | hot
    · obtain ⟨hcm, hle⟩ := hsound.past other hot hkey e he
      exact ⟨hcm, hle.trans h.serial.le⟩
    · rw [h.eq_of_mem hot hkey] at he ⊢
      exact ⟨h.complete, h.epoch_le hsound (h.lifetime.symm.trans he)⟩
  · exact fun e he => h.epoch_le hsound he
  · exact fun e he => h.windows hsound he
  · exact fun e he => ⟨accepted.revision, (h.carried e he).1, h.identity hsound he⟩
  · rw [begun_step, h.filter, pairwise_append]
    refine ⟨hsound.begun, ?_, fun first hfr second hsec => ?_⟩
    · rw [filterMap_cons]
      split
      · exact Pairwise.nil
      · exact pairwise_singleton _ _
    · obtain ⟨_, hmem, hsm⟩ := mem_filterMap.mp hsec
      rw [mem_singleton.mp hmem] at hsm
      have hpre := hsound.bound first (mem_filter.mp hfr).1
        (beq_iff_eq.mp (mem_filter.mp hfr).2)
      exact hpre.trans_lt (h.begins_lt hsound hsm).1
  · intro named hnm hkey
    have hnm : named ∈ (ledger.step readings op).begun.filter fun named => named.1 == key :=
      mem_filter.mpr ⟨hnm, beq_iff_eq.mpr hkey⟩
    rw [begun_step, h.filter, mem_append] at hnm
    rcases hnm with hnm | hnm
    · exact (hsound.bound named (mem_filter.mp hnm).1 hkey).trans h.serial.le
    · obtain ⟨_, hmem, hsm⟩ := mem_filterMap.mp hnm
      rw [mem_singleton.mp hmem] at hsm
      exact (h.begins_lt hsound hsm).2

end Qualified

/-- **One operation keeps what the ledger knows of every provider.** -/
theorem SoundAt.step (h : ledger.SoundAt readings combine windowMs key)
    (hage : ledger.store.revisionMaxAgeMs = some maxAgeMs)
    (hcm : ledger.store.combine = combine) (hwn : ledger.store.windowMs = windowMs)
    (op : SignalOp) : (ledger.step readings op).SoundAt readings combine windowMs key := by
  have htn := turns_step readings hage op key
  rw [hcm, hwn] at htn
  cases htn with
  | retired hrt hnn => exact h.retired hrt hnn
  | qualified hen => exact h.enters hen

end Step

/-! ### Runs -/

def start (windowMs : Nat) (combine : String → Combine) (localSite : Option String)
    (maxAgeMs : Int) : Ledger V where
  store := .guarded windowMs combine localSite maxAgeMs

/-- The settings of the ledger and what it knows of every provider. -/
structure Sound (readings : Readings V) (combine : String → Combine) (windowMs : Nat)
    (maxAgeMs : Int) (ledger : Ledger V) : Prop where
  maxAge : ledger.store.revisionMaxAgeMs = some maxAgeMs
  combines : ledger.store.combine = combine
  window : ledger.store.windowMs = windowMs
  at_key : ∀ key, ledger.SoundAt readings combine windowMs key

theorem Sound.step {ledger : Ledger V} (h : ledger.Sound readings combine windowMs maxAgeMs)
    (op : SignalOp) : (ledger.step readings op).Sound readings combine windowMs maxAgeMs :=
  have hset := sameSettings_step h.maxAge op
  ⟨hset.maxAge.trans h.maxAge, hset.combine.trans h.combines,
    hset.window.trans h.window, fun key => (h.at_key key).step h.maxAge h.combines h.window op⟩

theorem sound_start (localSite : Option String) :
    (start windowMs combine localSite maxAgeMs : Ledger V).Sound readings combine windowMs
      (max maxAgeMs 0) := by
  refine ⟨rfl, rfl, rfl, fun key => ?_⟩
  have hhl : (start windowMs combine localSite maxAgeMs : Ledger V).store.held key = {} := by
    rw [held]
    simp only [start, guarded, withRevisionGuard, ExtTreeMap.getElem?_empty,
      Option.getD_none]
  have hep (e : UInt64) :
      ((start windowMs combine localSite maxAgeMs : Ledger V).store.held key).guard.epoch ≠ some e := by
    rw [hhl]
    rintro ⟨⟩
  constructor
  · rintro _ ⟨⟩
  · exact fun e he => absurd he (hep e)
  · exact fun e he => absurd he (hep e)
  · exact fun e he => absurd he (hep e)
  · exact Pairwise.nil
  · rintro _ ⟨⟩

theorem sound_run (localSite : Option String) (ops : List SignalOp) :
    (run (Ledger.step readings) (start windowMs combine localSite maxAgeMs) ops).Sound readings
      combine windowMs (max maxAgeMs 0) :=
  run_invariant (P := Sound readings combine windowMs (max maxAgeMs 0)) (fun _ op h => h.step op)
    (sound_start localSite)

end Ledger

namespace LoadStore

variable {store : LoadStore V} {key : String}

/-- The serial counts over a whole run. -/
theorem counts_run (readings : Readings V) (key : String)
    (hage : store.revisionMaxAgeMs = some maxAgeMs) (ops : List SignalOp) :
    (run (step readings) store ops).revisionMaxAgeMs = some maxAgeMs ∧
      (store.held key).Counts ((run (step readings) store ops).held key) := by
  refine run_invariant (P := fun s : LoadStore V => s.revisionMaxAgeMs = some maxAgeMs ∧
    (store.held key).Counts (s.held key)) ?_ ⟨hage, Provider.Counts.refl _⟩
  rintro s op ⟨hs, hcn⟩
  exact ⟨(sameSettings_step hs op).maxAge.trans hs,
    hcn.trans (Ledger.turns_step readings hs op key).counts⟩

/-- A read returns the serial of the provider it leaves. -/
theorem serial_learningState (hage : store.revisionMaxAgeMs = some maxAgeMs) (nowMs boundMs : Int) :
    (store.learningState key nowMs boundMs).1.serial =
      ((store.learningState key nowMs boundMs).2.held key).guard.serial := by
  simp only [learningState, hage]
  rcases hget : store.providers[key]? with - | provider
  · show (0 : UInt64) = (store.held key).guard.serial
    rw [held, hget]
    rfl
  · dsimp only
    rw [held_of_providers (by rw [providers_put, if_pos rfl])]

/-- Below its largest value, two reads of one serial enclose no change of the windows. -/
theorem metrics_of_serial (hage : store.revisionMaxAgeMs = some maxAgeMs)
    (middle later : List SignalOp)
    (hser : ((run (step readings) store (middle ++ later)).held key).guard.serial =
      (store.held key).guard.serial) (hmax : (store.held key).guard.serial.toNat < wordMax) :
    ((run (step readings) store middle).held key).metrics = (store.held key).metrics := by
  obtain ⟨hage', hfr⟩ := counts_run readings key hage middle
  obtain ⟨-, hsec⟩ := counts_run readings key hage' later
  rw [run_append] at hser
  have hle := hsec.serial
  rw [hser] at hle
  exact hfr.metrics (UInt64.toNat_inj.mp (hle.antisymm hfr.serial)) hmax

theorem nodup_of_pairwise_filter {l : List (String × UInt64)}
    (h : ∀ key, (l.filter fun named => named.1 == key).Pairwise
      fun first second => first.2.toNat < second.2.toNat) : l.Nodup := by
  induction l with
  | nil => exact nodup_nil
  | cons named l ih =>
    refine nodup_cons.mpr ⟨fun hmem => ?_, ih fun key => ?_⟩
    · have hsl := h named.1
      rw [filter_cons, if_pos (beq_self_eq_true _), pairwise_cons] at hsl
      have hlt := hsl.1 named (mem_filter.mpr ⟨hmem, beq_self_eq_true _⟩)
      exact absurd hlt (lt_irrefl _)
    · have hkey := h key
      rw [filter_cons] at hkey
      split_ifs at hkey
      · exact (pairwise_cons.mp hkey).2
      · exact hkey

/-- **Learning lifetimes never mix revisions.**  After every run of a guarded store, the windows of
a provider that is qualified for a lifetime are those of the publications accepted in that
lifetime, replayed; these are complete and of one object, generation and publisher.  No lifetime
number is ever begun twice for a provider.  And two reads of the learning state that agree on a
serial below its largest value enclose no change of the windows. -/
theorem lifetimes_never_mix (readings : Readings V) (windowMs : Nat) (combine : String → Combine)
    (localSite : Option String) (maxAgeMs : Int) (ops : List SignalOp) :
    let ledger := run (Ledger.step readings) (Ledger.start windowMs combine localSite maxAgeMs) ops
    ledger.store = run (step readings) (guarded windowMs combine localSite maxAgeMs) ops ∧
      (∀ key provider e, ledger.store.providers[key]? = some provider →
        provider.guard.epoch = some e →
        provider.metrics = replay readings combine windowMs (ledger.lifetime key e) ∧
          (∀ accepted ∈ ledger.lifetime key e, accepted.Complete) ∧
          ∀ first ∈ ledger.lifetime key e, ∀ second ∈ ledger.lifetime key e,
            first.revision.uid = second.revision.uid ∧
              first.revision.generation = second.revision.generation ∧
              first.revision.publisherEpoch = second.revision.publisherEpoch) ∧
      ledger.begun.Nodup ∧
      ∀ key nowMs boundMs middle later nowMs' boundMs',
        let read := ledger.store.learningState key nowMs boundMs
        let last := (run (step readings) read.2 (middle ++ later)).learningState key nowMs' boundMs'
        last.1 = read.1 → read.1.serial.toNat < wordMax →
        ((run (step readings) read.2 middle).held key).metrics = (read.2.held key).metrics := by
  intro ledger
  have hsound : ledger.Sound readings combine windowMs (max maxAgeMs 0) :=
    Ledger.sound_run localSite ops
  refine ⟨Ledger.store_run ops, ?_, ?_, ?_⟩
  · intro key provider e hpr he
    have hkey := hsound.at_key key
    rw [← held_of_providers hpr] at he ⊢
    obtain ⟨held, -, hid⟩ := hkey.identity e he
    refine ⟨hkey.windows e he, fun accepted hmem => ?_, fun first hfr second hsc => ?_⟩
    · obtain ⟨hmem, htr⟩ := List.mem_filter.mp hmem
      rw [Bool.and_eq_true, beq_iff_eq, beq_iff_eq] at htr
      exact (hkey.past accepted hmem htr.1 e htr.2).1
    · exact Ledger.changes_eq_false_iff.mp
        (Ledger.changes_of_changes (hid second hsc) (hid first hfr))
  · exact nodup_of_pairwise_filter fun key => (hsound.at_key key).begun
  · intro key nowMs boundMs middle later nowMs' boundMs' read last hsm hmax
    have hst : ledger.store.SameSettings
        (ledger.store.step readings (.learningState key nowMs boundMs)) :=
      sameSettings_step hsound.maxAge _
    have hrd : read.2.revisionMaxAgeMs = some (max maxAgeMs 0) :=
      hst.maxAge.trans hsound.maxAge
    have hsr : read.1.serial = (read.2.held key).guard.serial :=
      serial_learningState hsound.maxAge nowMs boundMs
    obtain ⟨hlt, -⟩ := counts_run readings key hrd (middle ++ later)
    have hls : last.1.serial = (last.2.held key).guard.serial :=
      serial_learningState hlt nowMs' boundMs'
    -- the last read is one more operation
    have hrun : last.2 = run (step readings) read.2
        (middle ++ (later ++ [.learningState key nowMs' boundMs'])) := by
      rw [← List.append_assoc, run_append]
      rfl
    refine metrics_of_serial hrd middle
      (later ++ [.learningState key nowMs' boundMs']) ?_ (hsr ▸ hmax)
    rw [← hrun, ← hls, hsm, hsr]

/-- Two publications of the first generation of provider `m` of site `a`, and two of the second. -/
def generations : List SignalOp :=
  [(1, 1), (2, 1), (3, 2), (4, 2)].map fun (sequence, generation) =>
    .ingest (Revision.row ⟨1, sequence, generation, 1, 1000 * sequence, "u1"⟩ "a" "m"
      ++ exposition "queue" "a" "m" [] sequence (1000 * sequence))
      (1000 * sequence) (1000 * sequence) "a" (some 0)

def generationsLedger : Ledger Int :=
  run (Ledger.step .whole) (Ledger.start 60000 (fun _ => .max) (some "here") 10000) generations

theorem lifetimes_never_mix_generations :
    (generationsLedger.lifetime "a/m" 2).length = 2 ∧
      (generationsLedger.lifetime "a/m" 6).length = 2 ∧
      ∃ provider, generationsLedger.store.providers["a/m"]? = some provider ∧
        provider.metrics = replay .whole (fun _ => .max) 60000
          (generationsLedger.lifetime "a/m" 6) := by
  have hep : (generationsLedger.store.providers["a/m"]?).bind
      (fun provider => provider.guard.epoch) = some 6 := by
    decide +kernel
  obtain ⟨provider, hget, he⟩ := Option.bind_eq_some_iff.mp hep
  have hlf := (lifetimes_never_mix .whole 60000 (fun _ => .max) (some "here") 10000
    generations).2.1 "a/m" provider 6 hget he
  exact ⟨by decide +kernel, by decide +kernel, provider, hget, hlf.1⟩

/-! ### The largest serial -/

section Saturated

variable {scrape : ScrapeClock} {now : Option Clock} {text : List Char} {provider : Provider V}

theorem stage_nil :
    stage readings [] scrape now = {} := rfl

/-- A response without rows disqualifies a provider that it owns. -/
theorem ingest_nil (readings : Readings V) (maxAgeMs : Int) (now : Option Clock)
    (hor : store.revisionOrders = ∅) (how : owns scrape key = true)
    (hst : (keySite key).isSome) (hpr : store.providers[key]? = some provider) :
    (store.ingestOutcomes readings [] scrape maxAgeMs now).1.revisionOrders = ∅ ∧
      (store.ingestOutcomes readings [] scrape maxAgeMs now).1.providers[key]? =
        some provider.disqualify := by
  have hadv : store.advanceOrders (store.incoming ∅) = some store := by
    obtain ⟨orders, maxAge, providers, owners, admitted, window, combine, site⟩ := store
    obtain rfl : orders = ∅ := hor
    rfl
  have hms : (∅ : Batches V)[key]? = none := ExtTreeMap.getElem?_empty
  have hing := ingests readings store [] scrape maxAgeMs now
  generalize store.ingestOutcomes readings [] scrape maxAgeMs now = result at hing ⊢
  rw [stage_nil] at hing
  cases hing with
  | capped hnn => cases hnn.symm.trans hadv
  | invalid _ hinv => cases hinv
  | @commits advanced swept tally hadv' hinv hsw =>
    obtain rfl := Option.some.inj (hadv'.symm.trans hadv)
    have hsp : swept.providers[key]? = some provider.disqualify := by
      obtain ⟨site, hst⟩ := Option.isSome_iff_exists.mp hst
      have hfn := (remembered advanced ∅ key).of_missing hms
      rw [owns, hst, Option.any_some] at how
      rw [hsw, invalidateMissing, providers_mapProviders, hfn, hpr, Option.map_some]
      simp only [hst, how]
      rfl
    have hcm := (committed readings scrape maxAgeMs swept ∅ key).of_missing hms
    refine ⟨?_, ?_⟩
    · show (swept.commitResponse readings ∅ scrape maxAgeMs).1.revisionOrders = ∅
      rw [(commitResponse_fills readings scrape maxAgeMs swept ∅).orders, hsw]
      show (advanced.rememberFences ∅).revisionOrders = ∅
      rw [(rememberFences_fills advanced ∅).orders, hor]
    · show (swept.commitResponse readings ∅ scrape maxAgeMs).1.retireSuperseded.providers[key]? = _
      rw [retireSuperseded, providers_mapProviders, hcm, hsp]
      rfl

theorem ingest_refused (hbt : (stage readings text scrape now).batches = ∅)
    (hinv : (stage readings text scrape now).invalid = true) (how : owns scrape key = true)
    (hpr : store.providers[key]? = some provider) :
    (store.ingestOutcomes readings text scrape maxAgeMs now).1.providers[key]? =
      some provider.reject := by
  have hrj : ∀ s : LoadStore V, s.providers[key]? = some provider →
      (s.rejectResponse scrape).providers[key]? = some provider.reject := by
    intro s hs
    rw [rejectResponse, providers_mapProviders, hs, Option.map_some, if_pos how]
  have hing := ingests readings store text scrape maxAgeMs now
  generalize store.ingestOutcomes readings text scrape maxAgeMs now = result at hing ⊢
  cases hing with
  | capped hadv => exact hrj store hpr
  | @invalid advanced hadv _ =>
    apply hrj
    rw [hbt, (remembered advanced ∅ key).of_missing ExtTreeMap.getElem?_empty,
      providers_advanceOrders hadv]
    exact hpr
  | commits hadv hvl => cases hinv.symm.trans hvl

/-- A response of site `a` without rows. -/
def emptyResponse : SignalOp := .ingest [] 1000 1000 "a" (some 0)

/-- A response of site `a` that is refused. -/
def refusedResponse : SignalOp := .ingest ['x'] 1000 1000 "a" (some 0)

/-- A row of provider `m` of site `a` without metadata. -/
def legacyResponse : SignalOp := .ingest (exposition "queue" "a" "m" [] 2 1000) 1000 1000 "a" (some 0)

theorem owns_scrapeOf (store : LoadStore V) (referenceMs localNowMs : Int) :
    owns (store.scrapeOf referenceMs localNowMs "a") "a/m" = true := by
  have hst : keySite "a/m" = some "a" := by decide +kernel
  rw [owns, hst, Option.any_some, scrapeOf, beq_self_eq_true, Bool.or_true]

/-- Responses without rows raise the serial of an unqualified provider and keep its windows. -/
theorem run_emptyResponse (n : Nat) (hage : store.revisionMaxAgeMs = some maxAgeMs)
    (hor : store.revisionOrders = ∅) (hpr : store.providers["a/m"]? = some provider)
    (hep : provider.guard.epoch = none) :
    ∃ provider', (run (step readings) store (replicate n emptyResponse)).providers["a/m"]? =
        some provider' ∧ provider'.metrics = provider.metrics ∧ provider'.guard.epoch = none ∧
      provider'.guard.serial.toNat = min (provider.guard.serial.toNat + n) wordMax ∧
      (run (step readings) store (replicate n emptyResponse)).revisionMaxAgeMs =
        some maxAgeMs := by
  induction n generalizing store provider with
  | zero =>
    have hlt := provider.guard.serial.toNat_lt
    refine ⟨provider, hpr, rfl, hep, ?_, hage⟩
    rw [wordMax]
    omega
  | succ n ih =>
    rw [replicate_succ, run_cons]
    have hst : (keySite "a/m").isSome := by decide +kernel
    have hsp : store.step readings emptyResponse = (store.ingestOutcomes readings []
        (store.scrapeOf 1000 1000 "a") maxAgeMs (some 0)).1 := step_ingest hage
    have hset := (sameSettings_ingest readings store [] (store.scrapeOf 1000 1000 "a")
      maxAgeMs (some 0)).maxAge
    have hnil := ingest_nil readings maxAgeMs (some 0) hor (owns_scrapeOf store 1000 1000) hst
      hpr
    obtain ⟨hor', hpr'⟩ := hnil
    rw [hsp]
    obtain ⟨provider', hget, hmet, hep', hser, hage'⟩ :=
      ih (hset.trans hage) hor' hpr' rfl
    refine ⟨provider', hget, hmet, hep', ?_, hage'⟩
    have hone : provider.disqualify.guard.serial.toNat =
        min (provider.guard.serial.toNat + 1) wordMax := toNat_satAdd _ _
    rw [hser, hone]
    omega

end Saturated

theorem learningState_of_unqualified (hage : store.revisionMaxAgeMs = some maxAgeMs)
    {provider : Provider V} (hpr : store.providers[key]? = some provider)
    (hep : provider.guard.epoch = none) (nowMs boundMs : Int) :
    store.learningState key nowMs boundMs =
      (⟨none, provider.guard.serial⟩, store.put key provider) := by
  simp [learningState, hage, hpr, hep]

/-- A refused response clears the windows of a provider whose serial has its largest value, and no
read of the learning state shows it. -/
theorem reads_of_saturated {store : LoadStore Int} {provider : Provider Int}
    (hage : store.revisionMaxAgeMs = some maxAgeMs)
    (hpr : store.providers["a/m"]? = some provider) (hep : provider.guard.epoch = none)
    (hser : provider.guard.serial.toNat = wordMax) (hmet : provider.metrics ≠ ∅) :
    ((run (step .whole) (store.learningState "a/m" 1000 10000).2
        [refusedResponse]).learningState "a/m" 1000 10000).1 =
        (store.learningState "a/m" 1000 10000).1 ∧
      ((run (step .whole) (store.learningState "a/m" 1000 10000).2
        [refusedResponse]).held "a/m").metrics ≠
        ((store.learningState "a/m" 1000 10000).2.held "a/m").metrics := by
  rw [learningState_of_unqualified hage hpr hep, run_cons, run_nil]
  have hput : (store.put "a/m" provider).providers["a/m"]? = some provider := by
    rw [providers_put, if_pos rfl]
  have hage' : (store.put "a/m" provider).revisionMaxAgeMs = some maxAgeMs := hage
  generalize store.put "a/m" provider = read at hput hage' ⊢
  have hst : read.step .whole refusedResponse = (read.ingestOutcomes .whole ['x']
      (read.scrapeOf 1000 1000 "a") maxAgeMs (some 0)).1 := step_ingest hage'
  have href : (read.ingestOutcomes .whole ['x'] (read.scrapeOf 1000 1000 "a") maxAgeMs
      (some 0)).1.providers["a/m"]? = some provider.reject :=
    ingest_refused rfl rfl (owns_scrapeOf read 1000 1000) hput
  have hset := (sameSettings_ingest .whole read ['x'] (read.scrapeOf 1000 1000 "a") maxAgeMs
    (some 0)).maxAge.trans hage'
  rw [hst]
  generalize (read.ingestOutcomes .whole ['x'] _ maxAgeMs (some 0)).1 = later at href hset ⊢
  rw [learningState_of_unqualified hset href rfl, held_of_providers href,
    held_of_providers hput]
  refine ⟨?_, fun h => hmet h.symm⟩
  -- the serial saturates
  have hsm : provider.reject.guard.serial = provider.guard.serial := by
    rw [← UInt64.toNat_inj]
    show (satAdd provider.guard.serial 1).toNat = _
    rw [toNat_satAdd, hser]
    exact Nat.min_eq_right (Nat.le_add_right _ _)
  rw [hsm]

/-- A row without metadata, and then as many responses without rows as there are serials. -/
def saturating : List SignalOp := legacyResponse :: List.replicate (2 ^ 64) emptyResponse

/-- The windows of the provider are cleared between two reads that agree. -/
theorem agreeing_reads_enclose_a_change :
    let store := run (step .whole) freshStore saturating
    let read := store.learningState "a/m" 1000 10000
    let later := run (step .whole) read.2 [refusedResponse]
    (later.learningState "a/m" 1000 10000).1 = read.1 ∧
      (later.held "a/m").metrics ≠ (read.2.held "a/m").metrics := by
  have hfr : ((freshStore.step .whole legacyResponse).providers["a/m"]?).map (fun provider =>
      (provider.metrics.isEmpty, provider.guard.epoch)) = some (false, none) := by
    decide +kernel
  obtain ⟨first, hget, hfc⟩ := Option.map_eq_some_iff.mp hfr
  obtain ⟨hmt, hep⟩ := Prod.mk.inj hfc
  have hmx : (freshStore.step .whole legacyResponse).revisionMaxAgeMs = some 10000 := by
    decide +kernel
  have hor : (freshStore.step .whole legacyResponse).revisionOrders = ∅ := by
    apply ExtTreeMap.isEmpty_iff.mp
    decide +kernel
  generalize hst : freshStore.step .whole legacyResponse = start at hget hmx hor
  obtain ⟨provider, hpr, hsm, hep', hsr, hmx'⟩ :=
    run_emptyResponse (2 ^ 64) hmx hor hget hep
  rw [saturating, run_cons, hst]
  generalize run (step .whole) start (List.replicate (2 ^ 64) emptyResponse) = store at *
  refine reads_of_saturated hmx' hpr hep' ?_ ?_
  · rw [hsr, wordMax]
    omega
  · rw [hsm]
    intro hem
    rw [hem] at hmt
    cases hmt

end LoadStore

end PraxisGrid
