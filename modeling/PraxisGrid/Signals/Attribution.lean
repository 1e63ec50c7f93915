/-
PraxisGrid/Signals/Attribution.lean

A peer's signals touch only its own site, and the store stays within its caps.

A response that is authenticated for a peer stages batches of that peer's site only, so the
watermarks, fences, sweeps and commits leave the other sites alone.  One sweep visits every site:
it retires the providers that a watermark has overtaken.  It finds none at another site, because
no operation leaves one behind (`LoadStore.Current`).
-/
import Mathlib.Data.Finset.Card
import PraxisGrid.Signals.Stages

namespace PraxisGrid

open Std Text Saturate OrdMap Run Option

namespace LoadStore

variable {V : Type} {readings : Readings V} {store store' : LoadStore V} {scrape : ScrapeClock}
  {now : Option Clock} {key site : String} {batch : Batch V} {text : List Char} {maxAgeMs : Int}
  {batches : Batches V} {provider provider' : Provider V}

/-! ### Settings -/

theorem sameSettings_fenced {incoming : Orders} {advanced : LoadStore V}
    (hadv : store.advanceOrders incoming = some advanced)
    (batches : Batches V) :
    store.SameSettings (advanced.rememberFences batches) := by
  refine SameSettings.trans ?_ (rememberFences_fills advanced batches).toSameSettings
  rw [(advanceOrders_eq_some hadv).1]
  exact ⟨rfl, rfl, rfl, rfl⟩

/-- An ingest changes no setting. -/
theorem sameSettings_ingest (readings : Readings V) (store : LoadStore V) (text : List Char)
    (scrape : ScrapeClock) (maxAgeMs : Int) (now : Option Clock) :
    store.SameSettings (store.ingestOutcomes readings text scrape maxAgeMs now).1 := by
  have h := ingests readings store text scrape maxAgeMs now
  generalize store.ingestOutcomes readings text scrape maxAgeMs now = result at h ⊢
  cases h with
  | capped hadv => exact ⟨rfl, rfl, rfl, rfl⟩
  | invalid hadv => exact { sameSettings_fenced hadv _ with }
  | @commits advanced swept tally hadv hinv hst =>
    have hsw : store.SameSettings swept := by
      rw [hst]
      exact { sameSettings_fenced hadv _ with }
    exact { hsw.trans (commitResponse_fills readings scrape maxAgeMs swept
      (stage readings text scrape now).batches).toSameSettings with }

/-- A guarded store takes a response by `ingestOutcomes`. -/
theorem step_ingest {referenceMs localNowMs : Int} {owner : String}
    (h : store.revisionMaxAgeMs = some maxAgeMs) :
    store.step readings (.ingest text referenceMs localNowMs owner now) =
      (store.ingestOutcomes readings text (store.scrapeOf referenceMs localNowMs owner) maxAgeMs
        now).1 := by
  simp only [step, ingestAt, h, ingestGuarded]

/-- A read retires an expired qualification and nothing else. -/
theorem step_learningState {nowMs boundMs : Int} {P : LoadStore V → Prop}
    (h : store.revisionMaxAgeMs = some maxAgeMs) (hsm : P store)
    (hput : ∀ provider provider', store.providers[key]? = some provider →
      provider' = provider ∨ provider' = provider.disqualify → P (store.put key provider')) :
    P (store.step readings (.learningState key nowMs boundMs)) := by
  simp only [step, learningState, h]
  rcases hget : store.providers[key]? with - | provider
  · exact hsm
  · dsimp only
    split_ifs
    · exact hput provider _ hget (.inr rfl)
    · exact hput provider _ hget (.inl rfl)

theorem sameSettings_step (h : store.revisionMaxAgeMs = some maxAgeMs) (op : SignalOp) :
    store.SameSettings (store.step readings op) := by
  cases op with
  | ingest text referenceMs localNowMs owner now =>
    rw [step_ingest h]
    exact sameSettings_ingest readings store text _ maxAgeMs now
  | learningState key nowMs boundMs =>
    exact step_learningState h (SameSettings.refl store) fun _ _ _ _ => ⟨rfl, rfl, rfl, rfl⟩

/-! ### Providers that a response does not own -/

/-- A response owns the providers that it names. -/
theorem owns_of_attributed (h : batch.Attributed scrape key) : owns scrape key = true := by
  rw [owns, h.site, any_some]
  cases hlc : scrape.isLocal with
  | true => rfl
  | false => simp [h.owner hlc]

/-- What a response does not own it has no batch of. -/
theorem batches_of_not_owns (readings : Readings V) (text : List Char) (now : Option Clock)
    (hkey : owns scrape key = false) :
    (stage readings text scrape now).batches[key]? = none := by
  rcases hbt : (stage readings text scrape now).batches[key]? with - | batch
  · rfl
  · rw [owns_of_attributed (stage_attributed key batch hbt)] at hkey
    cases hkey

/-- The watermark of a site the response does not own stays. -/
theorem orders_of_not_owns {advanced : LoadStore V} (hlc : scrape.isLocal = false)
    (hst : site ≠ scrape.owner)
    (hadv : store.advanceOrders
      (store.incoming (stage readings text scrape now).batches) = some advanced) :
    advanced.revisionOrders[site]? = store.revisionOrders[site]? := by
  rw [(advanceOrders_eq_some hadv).2]
  rcases hinc : (store.incoming (stage readings text scrape now).batches)[site]? with - | order
  · rfl
  · -- an incoming order would be that of a batch of the site
    obtain ⟨key, batch, hbt, rfl, -⟩ := exists_of_incoming hinc
    exact absurd ((stage_attributed key batch hbt).owner hlc) hst

theorem not_owns_iff : owns scrape key = false ↔
    scrape.isLocal = false ∧ keySite key ≠ some scrape.owner := by
  rw [owns, Bool.or_eq_false_iff]
  refine and_congr_right fun _ => ?_
  cases keySite key with
  | none => simp
  | some site => simp

theorem Remembered.of_missing (h : store.Remembered batches key store')
    (hbt : batches[key]? = none) :
    store'.providers[key]? = store.providers[key]? := by
  cases h with
  | kept hpr => exact hpr
  | closed hpr hpre => rw [hpr, hpre]
  | observed hsm => cases hbt.symm.trans hsm

/-- A provider without a batch is not committed. -/
theorem Committed.of_missing {outcomes : List (Outcome V)}
    (h : Committed readings scrape maxAgeMs store batches key store' outcomes)
    (hbt : batches[key]? = none) : store'.providers[key]? = store.providers[key]? := by
  cases h with
  | missing _ hpr => exact hpr
  | old hsm | capped hsm | decided hsm => cases hbt.symm.trans hsm

/-- **What a response does to a provider it does not own**: nothing, except that the provider is
retired if the watermark of its site has overtaken it. -/
theorem providers_of_not_owns (hkey : owns scrape key = false) :
    (store.ingestOutcomes readings text scrape maxAgeMs now).1.providers[key]? =
        store.providers[key]? ∨
      ∃ site revision provider, keySite key = some site ∧ store.providers[key]? = some provider ∧
        provider.guard.epoch.isSome ∧ provider.guard.newest = some revision ∧
        store.Below site revision.order := by
  have hms := batches_of_not_owns readings text now hkey
  obtain ⟨hlc, hot⟩ := not_owns_iff.mp hkey
  have hrj : ∀ s : LoadStore V, (s.rejectResponse scrape).providers[key]? = s.providers[key]? := by
    intro s
    rw [rejectResponse, providers_mapProviders, hkey]
    exact map_id_apply
  have h := ingests readings store text scrape maxAgeMs now
  generalize store.ingestOutcomes readings text scrape maxAgeMs now = result at h ⊢
  generalize hsd : stage readings text scrape now = staged at h hms
  cases h with
  | capped hadv => exact .inl (hrj store)
  | @invalid advanced hadv hinv =>
    refine .inl ((hrj _).trans ?_)
    rw [(remembered advanced staged.batches key).of_missing hms, providers_advanceOrders hadv]
  | @commits advanced swept tally hadv hinv hsw =>
    -- up to the last sweep nothing happens to the provider
    have hfn : (advanced.rememberFences staged.batches).providers[key]? =
        store.providers[key]? := by
      rw [(remembered advanced staged.batches key).of_missing hms,
        providers_advanceOrders hadv]
    have hsp : swept.providers[key]? = store.providers[key]? := by
      rw [hsw, invalidateMissing, providers_mapProviders, hfn]
      rcases hst : keySite key with - | site
      · exact map_id_apply
      · have how : (site == scrape.owner) = false := by
          rw [beq_eq_false_iff_ne]
          rintro rfl
          exact hot hst
        simp only [hlc, how, Bool.false_or, Bool.false_and]
        exact map_id_apply
    have hcm := committed readings scrape maxAgeMs swept staged.batches key
    have hfl := commitResponse_fills readings scrape maxAgeMs swept staged.batches
    generalize swept.commitResponse readings staged.batches scrape maxAgeMs = result at *
    have hrs := (hcm.of_missing hms).trans hsp
    have hor : result.1.revisionOrders = advanced.revisionOrders := by
      rw [hfl.orders, hsw]
      exact (rememberFences_fills advanced staged.batches).orders
    rw [retireSuperseded, providers_mapProviders, hrs]
    rcases hpr : store.providers[key]? with - | provider
    · exact .inl rfl
    · rw [map_some]
      split_ifs with hrt
      · rw [Bool.and_eq_true, any_eq_true] at hrt
        obtain ⟨hep, revision, hnew, hbl⟩ := hrt
        rw [any_eq_true] at hbl
        obtain ⟨site, hst, hbl⟩ := hbl
        refine .inr ⟨site, revision, provider, hst, rfl, hep, hnew, ?_⟩
        rw [← hsd] at hadv
        have hsm := orders_of_not_owns hlc (fun heq => hot (heq ▸ hst)) hadv
        rw [hor, hsm] at hbl
        exact any_below_iff.mp hbl
      · exact .inl rfl

/-- The watermarks of other sites stay. -/
theorem orders_ingest_of_ne (hlc : scrape.isLocal = false) (hst : site ≠ scrape.owner) :
    (store.ingestOutcomes readings text scrape maxAgeMs now).1.revisionOrders[site]? =
      store.revisionOrders[site]? := by
  rcases (ingests readings store text scrape maxAgeMs now).orders with hor |
    ⟨advanced, hadv, hor⟩
  · rw [hor]
  · rw [hor, orders_of_not_owns hlc hst hadv]

/-! ### No provider is left behind its watermark -/

/-- No qualified provider is below the watermark of its site. -/
def Current (store : LoadStore V) : Prop :=
  ∀ (key : String) (provider : Provider V) (revision : Revision) (site : String),
    store.providers[key]? = some provider → provider.guard.epoch.isSome →
    provider.guard.newest = some revision → keySite key = some site →
    ¬ store.Below site revision.order

/-- The last sweep leaves no provider behind its watermark. -/
theorem current_retireSuperseded (store : LoadStore V) : store.retireSuperseded.Current := by
  intro key provider revision site hpr hep hnew hst hbl
  rw [retireSuperseded, providers_mapProviders] at hpr
  obtain ⟨held, hhl, rfl⟩ := map_eq_some_iff.mp hpr
  have hbl : store.Below site revision.order := hbl
  split_ifs at hep hnew with hrt
  · cases hep
  · apply hrt
    rw [hep, hnew, any_some, hst, any_some, any_below_iff.mpr hbl]
    rfl

/-- A refused response retires the providers it owns. -/
theorem Current.rejectResponse (h : ∀ key provider, owns scrape key = false →
      store.providers[key]? = some provider → ∀ revision site, provider.guard.epoch.isSome →
      provider.guard.newest = some revision → keySite key = some site →
      ¬ store.Below site revision.order) : (store.rejectResponse scrape).Current := by
  intro key provider revision site hpr hep hnew hst hbl
  rw [LoadStore.rejectResponse, providers_mapProviders] at hpr
  obtain ⟨held, hhl, rfl⟩ := map_eq_some_iff.mp hpr
  cases how : owns scrape key with
  | true =>
    rw [how] at hep
    cases hep
  | false =>
    rw [how] at hep hnew
    exact h key held how hhl revision site hep hnew hst hbl

theorem Current.ingest (h : store.Current) :
    (store.ingestOutcomes readings text scrape maxAgeMs now).1.Current := by
  have hing := ingests readings store text scrape maxAgeMs now
  generalize store.ingestOutcomes readings text scrape maxAgeMs now = result at hing ⊢
  cases hing with
  | capped hadv =>
    exact Current.rejectResponse fun key provider _ hpr revision site hep hnew hst =>
      h key provider revision site hpr hep hnew hst
  | @invalid advanced hadv hinv =>
    refine Current.rejectResponse fun key provider how hpr revision site hep hnew
      hst hbl => ?_
    -- a provider that is not rejected is not of the response, nor is its site
    obtain ⟨hlc, hot⟩ := not_owns_iff.mp how
    have hsm := (remembered advanced _ key).of_missing
      (batches_of_not_owns readings text now how)
    have hor := (rememberFences_fills advanced (stage readings text scrape now).batches).orders
    rw [hsm, (advanceOrders_eq_some hadv).1] at hpr
    refine h key provider revision site hpr hep hnew hst ?_
    rw [Below, hor, orders_of_not_owns hlc (fun heq => hot (heq ▸ hst)) hadv] at hbl
    exact hbl
  | commits hadv hinv hsw => exact current_retireSuperseded _

theorem Current.put (h : store.Current) (hpr : store.providers[key]? = some provider)
    (hgr : provider'.guard.epoch.isSome → provider'.guard = provider.guard) :
    (store.put key provider').Current := by
  intro k q revision site hq hep hnew hst
  rw [providers_put] at hq
  split_ifs at hq with hk
  · cases hq
    subst hk
    rw [hgr hep] at hnew hep
    exact h key provider revision site hpr hep hnew hst
  · exact h k q revision site hq hep hnew hst

/-- **No operation leaves a qualified provider behind its watermark.** -/
theorem Current.step (h : store.Current) (hage : store.revisionMaxAgeMs = some maxAgeMs)
    (op : SignalOp) : (store.step readings op).Current := by
  cases op with
  | ingest text referenceMs localNowMs owner now =>
    rw [step_ingest hage]
    exact h.ingest
  | learningState key nowMs boundMs =>
    refine step_learningState hage h fun provider provider' hpr hcs =>
      h.put hpr fun hep => ?_
    rcases hcs with rfl | rfl
    · rfl
    · cases hep

/-! ### The caps -/

/-- The providers of a site. -/
def siteKeys (store : LoadStore V) (site : String) : Finset String :=
  store.providers.keys.toFinset.filter fun key => keySite key = some site

/-- The slots cover the providers and are within the caps. -/
structure Counted (store : LoadStore V) : Prop where
  total : store.providers.keys.toFinset.card ≤ store.admitted
  totalCap : store.admitted ≤ maxProviders
  site : ∀ site : String, (store.siteKeys site).card ≤ (store.ownerProviders[site]?).getD 0
  siteCap : ∀ site : String, (store.ownerProviders[site]?).getD 0 ≤ maxProvidersPerOwner

theorem mem_keys_put {k : String} :
    k ∈ (store.put key provider).providers.keys.toFinset ↔
      k = key ∨ k ∈ store.providers.keys.toFinset := by
  simp only [List.mem_toFinset, mem_keys_iff, providers_put]
  split_ifs with hk
  · simp [hk]
  · simp [Ne.symm hk]

section

variable (h : store.Counted)
include h

/-- Storing a provider under a key that is held takes no slot. -/
theorem Counted.put (hpr : store.providers[key]? = some provider) :
    (store.put key provider').Counted := by
  have hky : (store.put key provider').providers.keys.toFinset =
      store.providers.keys.toFinset := by
    ext k
    rw [mem_keys_put, or_iff_right_iff_imp]
    rintro rfl
    rw [List.mem_toFinset, mem_keys_iff]
    exact ⟨provider, hpr⟩
  refine ⟨hky ▸ h.total, h.totalCap, fun site => ?_, h.siteCap⟩
  rw [siteKeys, hky]
  exact h.site site

/-- A new provider takes one slot in all and one of its site. -/
theorem Counted.admitted (hst : keySite key = some site)
    (hadm : store.admitNewProvider site = some store') : (store'.put key provider).Counted := by
  unfold admitNewProvider at hadm
  dsimp only at hadm
  split_ifs at hadm with hrm
  cases hadm
  have hky : ∀ s : LoadStore V, (s.put key provider).providers.keys.toFinset =
      insert key s.providers.keys.toFinset := by
    intro s
    ext k
    rw [mem_keys_put, Finset.mem_insert]
  refine ⟨?_, hrm.1, fun site' => ?_, fun site' => ?_⟩
  · rw [hky]
    exact (Finset.card_insert_le _ _).trans (Nat.succ_le_succ h.total)
  · rw [siteKeys, hky, Finset.filter_insert]
    show _ ≤ ((store.ownerProviders.insert site _)[site']?).getD 0
    rw [getElem?_insert]
    split_ifs with hkey hsm hsm
    · subst hsm
      exact (Finset.card_insert_le _ _).trans (Nat.succ_le_succ (h.site site))
    · exact absurd (some.inj (hst.symm.trans hkey)) hsm
    · exact (h.site site').trans (by rw [hsm]; exact Nat.le_succ _)
    · exact h.site site'
  · show ((store.ownerProviders.insert site _)[site']?).getD 0 ≤ _
    rw [getElem?_insert]
    split_ifs with hsm
    · exact hrm.2
    · exact h.siteCap site'

theorem Counted.occupy (hst : keySite key = some site)
    (hoc : store.occupy key site = some (store', provider)) :
    (store'.put key provider').Counted := by
  unfold LoadStore.occupy at hoc
  rcases hget : store.providers[key]? with - | provider''
  · rw [hget] at hoc
    obtain ⟨s, hadm, heq⟩ := map_eq_some_iff.mp hoc
    obtain rfl := (Prod.mk.inj heq).1
    exact h.admitted hst hadm
  · rw [hget] at hoc
    obtain rfl := (Prod.mk.inj (some.inj hoc)).1
    exact h.put hget

/-- A sweep takes no slot. -/
theorem Counted.mapProviders (f : String → Provider V → Provider V) :
    (store.mapProviders f).Counted := by
  have hky : (store.mapProviders f).providers.keys.toFinset = store.providers.keys.toFinset := by
    ext k
    simp only [List.mem_toFinset, mem_keys_iff, providers_mapProviders]
    cases store.providers[k]? with
    | none => simp
    | some provider => simp
  refine ⟨hky ▸ h.total, h.totalCap, fun site => ?_, h.siteCap⟩
  rw [siteKeys, hky]
  exact h.site site

theorem Counted.rememberFences {staged : Staged V} (hst : staged.Attributed scrape) :
    (store.rememberFences staged.batches).Counted := by
  show (run LoadStore.rememberFence store staged.batches.toList).Counted
  refine run_invariant_along (P := Counted) ?_
    (along_of_forall (D := fun named => staged.batches[named.1]? = some named.2) ?_) h
  · rintro s ⟨key, batch⟩ hbt hs
    have hsi := (hst key batch hbt).site
    unfold LoadStore.rememberFence
    dsimp only
    split
    · split_ifs
      · exact hs
      · split
        · exact hs
        · rename_i hoc
          exact hs.occupy hsi hoc
    · exact hs
  · rintro ⟨key, batch⟩ hmem
    exact ExtTreeMap.mem_toList_iff_getElem?_eq_some.mp hmem

theorem Counted.commitResponse {staged : Staged V} (hst : staged.Attributed scrape) :
    (store.commitResponse readings staged.batches scrape maxAgeMs).1.Counted := by
  show (run (commitEntry readings scrape maxAgeMs) (store, []) staged.batches.toList).1.Counted
  refine run_invariant_along (P := fun committed : LoadStore V × List (Outcome V) =>
      committed.1.Counted) ?_
    (along_of_forall (D := fun named => staged.batches[named.1]? = some named.2) ?_) h
  · rintro ⟨s, outcomes⟩ ⟨key, batch⟩ hbt hs
    have hsi := (hst key batch hbt).site
    show (s.commitBatch readings scrape maxAgeMs key batch).2.Counted
    unfold commitBatch
    dsimp only
    split_ifs
    · exact hs
    · unfold LoadStore.commit
      split
      · exact hs
      · rename_i hoc
        exact Counted.occupy hs hsi hoc
  · rintro ⟨key, batch⟩ hmem
    exact ExtTreeMap.mem_toList_iff_getElem?_eq_some.mp hmem

theorem Counted.ingest :
    (store.ingestOutcomes readings text scrape maxAgeMs now).1.Counted := by
  have hing := ingests readings store text scrape maxAgeMs now
  generalize store.ingestOutcomes readings text scrape maxAgeMs now = result at hing ⊢
  have hadvanced : ∀ advanced : LoadStore V, store.advanceOrders
      (store.incoming (stage readings text scrape now).batches) = some advanced →
      advanced.Counted := by
    intro advanced hadv
    rw [(advanceOrders_eq_some hadv).1]
    exact ⟨h.total, h.totalCap, h.site, h.siteCap⟩
  cases hing with
  | capped hadv => exact h.mapProviders _
  | invalid hadv hinv =>
    exact ((hadvanced _ hadv).rememberFences stage_attributed).mapProviders _
  | commits hadv hinv hsw =>
    rw [hsw]
    exact Counted.mapProviders (Counted.commitResponse
      (((hadvanced _ hadv).rememberFences stage_attributed).mapProviders _) stage_attributed) _

theorem Counted.step (hage : store.revisionMaxAgeMs = some maxAgeMs) (op : SignalOp) :
    (store.step readings op).Counted := by
  cases op with
  | ingest text referenceMs localNowMs owner now =>
    rw [step_ingest hage]
    exact h.ingest
  | learningState key nowMs boundMs =>
    exact step_learningState hage h fun _ _ hpr _ => h.put hpr

end

/-! ### Reachable stores -/

/-- What holds of a guarded store after every run. -/
structure Guards (maxAgeMs : Int) (localSite : Option String) (store : LoadStore V) : Prop where
  maxAge : store.revisionMaxAgeMs = some maxAgeMs
  localSite : store.localSite = localSite
  current : store.Current
  counted : store.Counted

theorem Guards.step {localSite : Option String} (h : store.Guards maxAgeMs localSite)
    (op : SignalOp) : (store.step readings op).Guards maxAgeMs localSite :=
  have hset := sameSettings_step h.maxAge op
  ⟨hset.maxAge.trans h.maxAge, hset.localSite.trans h.localSite,
    h.current.step h.maxAge op, h.counted.step h.maxAge op⟩

theorem guards_guarded (windowMs : Nat) (combine : String → Combine) (localSite : Option String) :
    (guarded windowMs combine localSite maxAgeMs : LoadStore V).Guards (max maxAgeMs 0) localSite where
  maxAge := rfl
  localSite := rfl
  current key provider revision site hpr := by simp [guarded, withRevisionGuard] at hpr
  counted := by
    refine ⟨?_, Nat.zero_le _, fun site => ?_, fun site => ?_⟩
    · simp [guarded, withRevisionGuard]
    · simp [guarded, withRevisionGuard, siteKeys]
    · simp [guarded, withRevisionGuard]

/-- **Every reachable store satisfies the invariant.** -/
theorem guards_run (windowMs : Nat) (combine : String → Combine) (localSite : Option String)
    (ops : List SignalOp) :
    (run (LoadStore.step readings) (guarded windowMs combine localSite maxAgeMs) ops).Guards
      (max maxAgeMs 0) localSite :=
  run_invariant (P := Guards (max maxAgeMs 0) localSite) (fun _ op h => h.step op)
    (guards_guarded windowMs combine localSite)

/-- **A peer's signals touch only its own site.**  In every reachable guarded store, a response
authenticated for a peer leaves every provider and every watermark of the other sites as they
were, whatever its rows say and whatever becomes of it; and at most 256 providers are held for a
site, 4096 in total. -/
theorem peer_touches_own_site (readings : Readings V) (windowMs : Nat) (combine : String → Combine)
    (localSite : Option String) (maxAgeMs : Int) (ops : List SignalOp) (text : List Char)
    (referenceMs localNowMs : Int) (owner : String) (now : Option Clock)
    (howner : localSite ≠ some owner) :
    let store := run (LoadStore.step readings) (guarded windowMs combine localSite maxAgeMs) ops
    let store' := (store.ingestAt readings text referenceMs localNowMs owner now).1
    (∀ key, keySite key ≠ some owner → store'.providers[key]? = store.providers[key]?) ∧
      (∀ site, site ≠ owner → store'.revisionOrders[site]? = store.revisionOrders[site]?) ∧
      (∀ site, (store.providers.keys.filter fun key => keySite key = some site).length ≤ 256) ∧
      store.providers.size ≤ 4096 := by
  intro store store'
  have hgr : store.Guards (max maxAgeMs 0) localSite :=
    guards_run windowMs combine localSite ops
  have hlc : (store.scrapeOf referenceMs localNowMs owner).isLocal = false := by
    simp only [scrapeOf, hgr.localSite, beq_eq_false_iff_ne]
    exact howner
  have hsp : store' = (store.ingestOutcomes readings text
      (store.scrapeOf referenceMs localNowMs owner) (max maxAgeMs 0) now).1 :=
    step_ingest hgr.maxAge
  have hnd : store.providers.keys.Nodup := by
    rw [← ExtTreeMap.map_fst_toList_eq_keys]
    exact nodup_map_fst_toList _
  refine ⟨fun key hkey => ?_, fun site hst => ?_, fun site => ?_, ?_⟩
  · rw [hsp]
    rcases providers_of_not_owns (not_owns_iff.mpr ⟨hlc, hkey⟩) with hsm |
      ⟨site, revision, provider, hst, hpr, hep, hnw, hbl⟩
    · exact hsm
    · exact absurd hbl
        (hgr.current key provider revision site hpr hep hnw hst)
  · rw [hsp]
    exact orders_ingest_of_ne hlc hst
  · have hcr := (hgr.counted.site site).trans (hgr.counted.siteCap site)
    have hky : store.siteKeys site =
        (store.providers.keys.filter fun key => keySite key = some site).toFinset := by
      ext key
      simp [siteKeys]
    rwa [hky, List.toFinset_card_of_nodup (hnd.filter _)] at hcr
  · have hcr := hgr.counted.total.trans hgr.counted.totalCap
    rwa [List.toFinset_card_of_nodup hnd, ExtTreeMap.length_keys] at hcr

/-- The first publication of provider `m` of site `a`, with one row. -/
def firstPublication : List Char :=
  Revision.row ⟨1, 1, 1, 1, 1000, "u1"⟩ "a" "m" ++ exposition "queue" "a" "m" [] 2 1000

def freshStore : LoadStore Int :=
  guarded 60000 (fun _ => .max) (some "here") 10000

def firstStore : LoadStore Int :=
  run (LoadStore.step .whole) freshStore [.ingest firstPublication 1000 1000 "a" (some 0)]

/-- The same rows under the identity of site `b` leave the provider of site `a` alone. -/
theorem peer_touches_own_site_spoofed :
    ((firstStore.providers["a/m"]?).bind fun provider => provider.guard.epoch) = some 2 ∧
      (firstStore.ingestAt .whole firstPublication 2000 2000 "b" (some 0)).1.providers["a/m"]? =
        firstStore.providers["a/m"]? := by
  have hot : keySite "a/m" ≠ some "b" := by decide +kernel
  have hfr := peer_touches_own_site .whole 60000 (fun _ => .max) (some "here") 10000
    [.ingest firstPublication 1000 1000 "a" (some 0)] firstPublication 2000 2000 "b" (some 0)
    (by decide)
  refine ⟨by decide +kernel, ?_⟩
  unfold firstStore freshStore
  exact hfr.1 "a/m" hot

end LoadStore

end PraxisGrid
