/-
PraxisGrid/Signals/Fencing.lean

The order of publications.

Order is kept in three places: the watermark of a site, the fence of a provider (the newest
metadata that was seen) and its newest revision (the newest that was decided).  Between two
responses newest is at most fence and fence at most watermark (`Provider.Fenced`), and every stage of
a response moves none of the three back (`LoadStore.Moves`).  Metadata that a response brought at or
above the watermark is consumed (`LoadStore.Consumed`): the watermark went past it, or the newest
revision reached it, or the provider found no room and never will.
-/
import PraxisGrid.Signals.Attribution

namespace PraxisGrid

open Std Text Saturate OrdMap Run Option

variable {V : Type} {readings : Readings V} {provider provider' : Provider V} {batch : Batch V}
  {revision : Revision} {order : PublicationOrder} {watermark : Option PublicationOrder}

/-! ### One provider -/

/-- The order is at most the watermark. -/
abbrev AtMost (order : PublicationOrder) (watermark : Option PublicationOrder) : Prop :=
  ∃ order', watermark = some order' ∧ order ≤ order'

namespace Provider

def Reached (provider : Provider V) (order : PublicationOrder) : Prop :=
  ∃ held, provider.guard.newest = some held ∧ order ≤ held.order

def Covers (provider : Provider V) (order : PublicationOrder) : Prop :=
  ∃ held, provider.guard.fence = some held ∧ order ≤ held.order

/-- Newest is at most the fence, and the fence at most the watermark. -/
structure Fenced (watermark : Option PublicationOrder) (provider : Provider V) : Prop where
  newest : ∀ revision, provider.guard.newest = some revision → provider.Covers revision.order
  fence : ∀ held, provider.guard.fence = some held → AtMost held.order watermark

theorem fenced_default :
    ({} : Provider V).Fenced watermark := by
  constructor <;> nofun

theorem Reached.mono {order' : PublicationOrder} (h : provider.Reached order') (hle : order ≤ order') :
    provider.Reached order := by
  obtain ⟨held, hhl, hle'⟩ := h
  exact ⟨held, hhl, hle.trans hle'⟩

/-- Both notions only read the two revisions. -/
theorem Fenced.congr (h : provider.Fenced watermark)
    (hnew : provider'.guard.newest = provider.guard.newest)
    (hfn : provider'.guard.fence = provider.guard.fence) : provider'.Fenced watermark := by
  constructor
  · intro revision hrev
    rw [hnew] at hrev
    rw [Covers, hfn]
    exact h.newest revision hrev
  · intro held hhl
    rw [hfn] at hhl
    exact h.fence held hhl

theorem Reached.congr (h : provider.Reached order)
    (hnew : provider'.guard.newest = provider.guard.newest) : provider'.Reached order := by
  rw [Reached, hnew]
  exact h

theorem Fenced.raise (h : provider.Fenced watermark) {watermark' : Option PublicationOrder}
    (hrs : ∀ order, watermark = some order → AtMost order watermark') :
    provider.Fenced watermark' := by
  refine ⟨h.newest, fun held hhl => ?_⟩
  obtain ⟨order, hor, hle⟩ := h.fence held hhl
  obtain ⟨order', hor', hle'⟩ := hrs order hor
  exact ⟨order', hor', hle.trans hle'⟩

theorem Covers.reject (h : provider.Covers order) : provider.reject.Reached order := by
  obtain ⟨held, hhl, hle⟩ := h
  refine ⟨held, ?_, hle⟩
  show provider.guard.fence.or provider.guard.newest = some held
  rw [hhl, some_or]

theorem Fenced.reached_reject (h : provider.Fenced watermark) (hrc : provider.Reached order) :
    provider.reject.Reached order := by
  obtain ⟨held, hhl, hle⟩ := hrc
  exact (h.newest held hhl).reject.mono hle

theorem Fenced.reject (h : provider.Fenced watermark) : provider.reject.Fenced watermark := by
  refine ⟨fun revision hrev => ?_, h.fence⟩
  have hrev : provider.guard.fence.or provider.guard.newest = some revision := hrev
  rcases or_eq_some_iff.mp hrev with hfn | ⟨-, hnew⟩
  · exact ⟨revision, hfn, le_rfl⟩
  · exact h.newest revision hnew

/-! ### Observation -/

theorem newest_observe (provider : Provider V) (revision : Revision) :
    (provider.observe revision).guard.newest = provider.guard.newest := by
  unfold observe
  split_ifs <;> rfl

/-- The fence stays, or the observed revision is above it and takes its place. -/
theorem fence_observe :
    ((provider.observe revision).guard.fence = provider.guard.fence ∧
        provider.Covers revision.order) ∨
      ((provider.observe revision).guard.fence = some revision ∧
        ¬ provider.Covers revision.order) := by
  have hcov : (provider.guard.fence.any fun held => revision.order ≤ held.order) = true ↔
      provider.Covers revision.order := by
    rw [any_eq_true, Covers]
    simp only [decide_eq_true_eq]
  unfold observe
  split_ifs with hcv
  · exact .inl ⟨rfl, hcov.mp hcv⟩
  · exact .inr ⟨rfl, fun h => hcv (hcov.mpr h)⟩
  · exact .inr ⟨rfl, fun h => hcv (hcov.mpr h)⟩

theorem covers_observe :
    (provider.observe revision).Covers revision.order := by
  rcases fence_observe with ⟨hfn, hcov⟩ | ⟨hfn, -⟩
  · rw [Covers, hfn]
    exact hcov
  · exact ⟨revision, hfn, le_rfl⟩

theorem Fenced.observe (h : provider.Fenced watermark)
    (hrev : AtMost revision.order watermark) :
    (provider.observe revision).Fenced watermark := by
  rcases fence_observe with ⟨hfn, -⟩ | ⟨hfn, hnot⟩
  · exact h.congr (newest_observe provider revision) hfn
  · constructor
    · intro held hhl
      rw [newest_observe] at hhl
      refine ⟨revision, hfn, ?_⟩
      -- the fence before was below the revision, and newest at most that
      by_contra hlt
      obtain ⟨before, hpre, hle⟩ := h.newest held hhl
      exact hnot ⟨before, hpre, (lt_of_not_ge hlt).le.trans hle⟩
    · intro held hhl
      rw [hfn] at hhl
      rw [← some.inj hhl]
      exact hrev

/-- A revision is no rollback of itself, so observing it makes it none. -/
theorem rollback_observe (h : provider.rollback revision = false) :
    (provider.observe revision).rollback revision = false := by
  rcases fence_observe with ⟨hfn, -⟩ | ⟨hfn, -⟩
  · rw [rollback, newest_observe, hfn]
    exact h
  · rw [rollback, hfn, some_or, any_some]
    simp

/-! ### Decisions -/

/-- The two revisions after a publication was qualified. -/
theorem qualify_guard :
    (provider.qualify revision scrape maxAgeMs).2.guard.fence = provider.guard.fence ∧
      (rebaseAge scrape.referenceMs revision.timestampMs scrape.localNowMs ≠ none →
        (provider.qualify revision scrape maxAgeMs).2.guard.newest = some revision) ∧
      (rebaseAge scrape.referenceMs revision.timestampMs scrape.localNowMs = none →
        (provider.qualify revision scrape maxAgeMs).1 = false ∧
        (provider.qualify revision scrape maxAgeMs).2.guard.newest = provider.guard.newest) := by
  unfold qualify
  rcases rebaseAge scrape.referenceMs revision.timestampMs scrape.localNowMs with - | atMs
  · exact ⟨rfl, fun h => absurd rfl h, fun _ => ⟨rfl, rfl⟩⟩
  · refine ⟨?_, fun _ => ?_, nofun⟩
    · dsimp only
      split_ifs <;> rfl
    · dsimp only
      split_ifs <;> rfl

/-- What deciding a publication does to the two revisions. -/
inductive Decided (provider : Provider V) (batch : Batch V) (scrape : ScrapeClock) :
    Bool → Provider V → Prop
  | rollback {revision : Revision} (hrevision : batch.revision = some revision)
    (hrollback : provider.rollback revision = true) : Decided provider batch scrape false provider
  | old {revision : Revision} (hrevision : batch.revision = some revision)
    (hreached : provider.Reached revision.order) : Decided provider batch scrape false provider
  | refused : Decided provider batch scrape false provider.reject
  | legacy {accepted : Bool} {provider' : Provider V} (hrevision : batch.revision = none)
    (hnewest : provider'.guard.newest = provider.guard.newest)
    (hfence : provider'.guard.fence = provider.guard.fence) :
    Decided provider batch scrape accepted provider'
  | skewed {revision : Revision} {provider' : Provider V} (hrevision : batch.revision = some revision)
    (hrefusal : batch.refusal = none)
    (hrebase : rebaseAge scrape.referenceMs revision.timestampMs scrape.localNowMs = none)
    (hnewest : provider'.guard.newest = provider.guard.newest)
    (hfence : provider'.guard.fence = provider.guard.fence) :
    Decided provider batch scrape false provider'
  | taken {revision : Revision} {accepted : Bool} {provider' : Provider V}
    (hrevision : batch.revision = some revision) (hrefusal : batch.refusal = none)
    (hrollback : provider.rollback revision = false) (hreached : ¬ provider.Reached revision.order)
    (hnewest : provider'.guard.newest = some revision)
    (hfence : provider'.guard.fence = provider.guard.fence) :
    Decided provider batch scrape accepted provider'

theorem reached_iff : (provider.guard.newest.any fun held => order ≤ held.order) = true ↔
    provider.Reached order := by
  rw [any_eq_true, Reached]
  simp only [decide_eq_true_eq]

theorem decided_accept (provider : Provider V) (batch : Batch V) (scrape : ScrapeClock)
    (maxAgeMs : Int) : provider.Decided batch scrape (provider.accept batch scrape maxAgeMs).1
      (provider.accept batch scrape maxAgeMs).2 := by
  unfold accept
  by_cases hrl : batch.revision.any provider.rollback = true
  · rw [if_pos hrl]
    obtain ⟨revision, hrev, hrl⟩ := (any_eq_true ..).mp hrl
    exact .rollback hrev hrl
  rw [if_neg hrl]
  by_cases hrc : (batch.revision.any fun next =>
      provider.guard.newest.any fun held => next.order ≤ held.order) = true
  · rw [if_pos hrc]
    obtain ⟨revision, hrev, hrc⟩ := (any_eq_true ..).mp hrc
    exact .old hrev (reached_iff.mp hrc)
  rw [if_neg hrc]
  by_cases href : (batch.refusal.isSome || !batch.complete ||
      provider.guard.serial.toNat == wordMax) = true
  · rw [if_pos href]
    exact .refused
  rw [if_neg href]
  have hrf : batch.refusal = none := by
    rw [Bool.or_eq_true, Bool.or_eq_true, not_or, not_or] at href
    exact not_isSome_iff_eq_none.mp href.1.1
  rcases hrev : batch.revision with - | revision
  · dsimp only
    split_ifs <;> exact .legacy hrev rfl rfl
  · rw [hrev, any_some] at hrl hrc
    rw [Bool.not_eq_true] at hrl
    have hrc : ¬ provider.Reached revision.order := fun h => hrc (reached_iff.mpr h)
    dsimp only
    split_ifs with hzr
    · exact .taken hrev hrf hrl hrc rfl rfl
    · obtain ⟨hfn, htk, hsk⟩ := qualify_guard
      by_cases hrb :
          rebaseAge scrape.referenceMs revision.timestampMs scrape.localNowMs = none
      · obtain ⟨hfl, hnew⟩ := hsk hrb
        rw [hfl]
        exact .skewed hrev hrf hrb hnew hfn
      · exact .taken hrev hrf hrl hrc (htk hrb) hfn

/-- A commit is a duplicate, or decides the publication; after the decision it can only clear the
windows or push into them. -/
theorem decided_commit {scrape : ScrapeClock} {maxAgeMs : Int} {combine : String → Combine}
    {windowMs : Nat} {result : Commit}
    (hcom : provider.commit readings batch scrape maxAgeMs combine windowMs =
      (result, provider')) :
    (provider.duplicate batch = true ∧ result = .duplicate ∧ provider' = provider) ∨
      ∃ accepted decided, provider.Decided batch scrape accepted decided ∧
        provider'.guard.newest = decided.guard.newest ∧
        provider'.guard.fence = decided.guard.fence ∧
        (result = .accepted → accepted = true) := by
  unfold commit at hcom
  split_ifs at hcom with hdp
  · cases hcom
    exact .inl ⟨hdp, rfl, rfl⟩
  · have hdecided := decided_accept provider batch scrape maxAgeMs
    rcases hac : provider.accept batch scrape maxAgeMs with ⟨accepted, decided⟩
    rw [hac] at hcom hdecided
    refine .inr ⟨accepted, decided, hdecided, ?_⟩
    cases accepted with
    | false =>
      cases hcom
      exact ⟨rfl, rfl, nofun⟩
    | true =>
      dsimp only at hcom
      split_ifs at hcom
      · cases hcom
        exact ⟨rfl, rfl, fun _ => rfl⟩
      · cases hcom
        exact ⟨rfl, rfl, fun _ => rfl⟩

section Commit

variable {scrape : ScrapeClock} {accepted : Bool}

section

variable (hdecided : provider.Decided batch scrape accepted provider')
include hdecided

theorem Decided.fenced (h : provider.Fenced watermark)
    (hcov : ∀ revision, batch.revision = some revision → batch.refusal = none →
      provider.rollback revision = false → provider.Covers revision.order) :
    provider'.Fenced watermark := by
  cases hdecided with
  | rollback => exact h
  | old => exact h
  | refused => exact h.reject
  | legacy _ hnew hfn | skewed _ _ _ hnew hfn => exact h.congr hnew hfn
  | @taken revision _ _ hrev hrf hrl _ hnew hfn =>
    constructor
    · intro newest hsm
      cases hnew.symm.trans hsm
      rw [Covers, hfn]
      exact hcov _ hrev hrf hrl
    · intro held hhl
      exact h.fence held (hfn.symm.trans hhl)

theorem Decided.reached (h : provider.Fenced watermark) (hrc : provider.Reached order) :
    provider'.Reached order := by
  cases hdecided with
  | rollback => exact hrc
  | old => exact hrc
  | refused => exact h.reached_reject hrc
  | legacy _ hnew | skewed _ _ _ hnew => exact hrc.congr hnew
  | @taken revision _ _ _ _ _ hnot hnew =>
    refine ⟨revision, hnew, ?_⟩
    -- an order above the revision would have reached it before
    by_contra hlt
    exact hnot (hrc.mono (lt_of_not_ge hlt).le)

theorem Decided.reaches (hrev : batch.revision = some revision)
    (hrl : provider.rollback revision = false)
    (hsk : rebaseAge scrape.referenceMs revision.timestampMs scrape.localNowMs = none →
      batch.refusal.isSome) (hcov : provider.Covers revision.order) :
    provider'.Reached revision.order := by
  have hon : ∀ revision', batch.revision = some revision' → revision' = revision :=
    fun _ h => some.inj (h.symm.trans hrev)
  cases hdecided with
  | rollback hrev' htr =>
    rw [hon _ hrev', hrl] at htr
    cases htr
  | old hrev' hrc => rwa [hon _ hrev'] at hrc
  | refused => exact hcov.reject
  | legacy hnn => cases hrev.symm.trans hnn
  | skewed hrev' hrf hrb =>
    rw [hon _ hrev'] at hrb
    have hsm := hsk hrb
    rw [hrf] at hsm
    cases hsm
  | taken hrev' _ _ _ hnew =>
    rw [hon _ hrev'] at hnew
    exact ⟨revision, hnew, le_rfl⟩

end

theorem Decided.of_accepted (hdecided : provider.Decided batch scrape true provider')
    (hrev : batch.revision = some revision) :
    batch.refusal = none ∧ provider.rollback revision = false ∧
      ¬ provider.Reached revision.order ∧ provider'.Reached revision.order := by
  cases hdecided with
  | legacy hnn => cases hrev.symm.trans hnn
  | taken hrev' hrf hrl hrc hnew =>
    rw [some.inj (hrev'.symm.trans hrev)] at hrl hrc hnew
    exact ⟨hrf, hrl, hrc, revision, hnew, le_rfl⟩

theorem reached_of_duplicate (h : provider.duplicate batch = true)
    (hrev : batch.revision = some revision) : provider.Reached revision.order := by
  rcases hnew : provider.guard.newest with - | held
  · rw [duplicate, hrev, hnew] at h
    cases h
  · rw [duplicate, hrev, hnew] at h
    simp only [Bool.and_eq_true, beq_iff_eq] at h
    exact ⟨held, hnew, h.1.1.1.1.1.1.le⟩

end Commit

end Provider

/-! ### The stages at one key -/

namespace LoadStore

variable {store store' advanced : LoadStore V} {scrape : ScrapeClock} {now : Option Clock}
  {key site : String} {text : List Char} {maxAgeMs : Int} {staged : Staged V} {incoming : Orders}

/-- Nothing moves back at one key. -/
structure Moves (key site : String) (store store' : LoadStore V) : Prop where
  watermark : ∀ order, store.revisionOrders[site]? = some order →
    AtMost order store'.revisionOrders[site]?
  fenced : (store.held key).Fenced store.revisionOrders[site]? →
    (store'.held key).Fenced store'.revisionOrders[site]?
  reached : (store.held key).Fenced store.revisionOrders[site]? →
    ∀ order, (store.held key).Reached order → (store'.held key).Reached order
  closed : store.providers[key]? = none → store.Closed site →
    store'.providers[key]? = none ∧ store'.Closed site

theorem Moves.refl (store : LoadStore V) : Moves key site store store where
  watermark order h := ⟨order, h, le_rfl⟩
  fenced := id
  reached _ _ := id
  closed hnn hcl := ⟨hnn, hcl⟩

theorem Moves.trans {store'' : LoadStore V} (h : Moves key site store store')
    (h' : Moves key site store' store'') : Moves key site store store'' where
  watermark order hor := by
    obtain ⟨order', hor', hle⟩ := h.watermark order hor
    obtain ⟨order'', hor'', hle'⟩ := h'.watermark order' hor'
    exact ⟨order'', hor'', hle.trans hle'⟩
  fenced hfn := h'.fenced (h.fenced hfn)
  reached hfn order hrc :=
    h'.reached (h.fenced hfn) order (h.reached hfn order hrc)
  closed hnn hcl := h'.closed (h.closed hnn hcl).1 (h.closed hnn hcl).2

/-- A provider that stays, under a watermark that stays. -/
theorem moves_of_providers (hor : store'.revisionOrders = store.revisionOrders)
    (hcl : store.Closed site → store'.Closed site)
    (hpr : store'.providers[key]? = store.providers[key]?) : Moves key site store store' := by
  refine ⟨fun order h => ⟨order, hor ▸ h, le_rfl⟩, fun h => ?_, fun _ order h => ?_,
    fun hnn h => ⟨hpr.trans hnn, hcl h⟩⟩
  · rw [held_congr hpr, hor]
    exact h
  · rw [held_congr hpr]
    exact h

/-- A provider that is replaced, under a watermark that stays. -/
theorem moves_of_held (hor : store'.revisionOrders = store.revisionOrders)
    (hpr : store'.providers[key]? = some provider)
    (hfn : (store.held key).Fenced store.revisionOrders[site]? →
      provider.Fenced store.revisionOrders[site]? ∧
        ∀ order, (store.held key).Reached order → provider.Reached order)
    (hopen : store.providers[key]? = none → ¬ store.Closed site) : Moves key site store store' := by
  refine ⟨fun order h => ⟨order, hor ▸ h, le_rfl⟩, fun h => ?_, fun h order hrc => ?_,
    fun hnn h => absurd h (hopen hnn)⟩
  · rw [held_of_providers hpr, hor]
    exact (hfn h).1
  · rw [held_of_providers hpr]
    exact (hfn h).2 order hrc

/-- A sweep moves nothing back if it does not at each provider. -/
theorem moves_mapProviders (f : String → Provider V → Provider V)
    (hf : ∀ provider watermark, provider.Fenced watermark → (f key provider).Fenced watermark ∧
      ∀ order, provider.Reached order → (f key provider).Reached order) :
    Moves key site store (store.mapProviders f) := by
  rcases hget : store.providers[key]? with - | provider
  · refine moves_of_providers rfl id ?_
    rw [providers_mapProviders, hget, map_none]
  · have haf : (store.mapProviders f).providers[key]? = some (f key provider) := by
      rw [providers_mapProviders, hget, map_some]
    refine moves_of_held rfl haf ?_ fun hnn => by cases hget.symm.trans hnn
    rw [held_of_providers hget]
    exact hf provider _

theorem moves_rejectResponse (store : LoadStore V) (scrape : ScrapeClock) :
    Moves key site store (store.rejectResponse scrape) := by
  apply moves_mapProviders
  intro provider watermark hfn
  split_ifs
  · exact ⟨hfn.reject, fun _ => hfn.reached_reject⟩
  · exact ⟨hfn, fun _ => id⟩

theorem moves_retireSuperseded (store : LoadStore V) :
    Moves key site store store.retireSuperseded := by
  apply moves_mapProviders
  intro provider watermark hfn
  split_ifs
  · exact ⟨hfn.congr rfl rfl, fun _ h => h.congr rfl⟩
  · exact ⟨hfn, fun _ => id⟩

theorem moves_invalidateMissing (batches : Batches V) :
    Moves key site store (store.invalidateMissing batches scrape incoming) := by
  apply moves_mapProviders
  intro provider watermark hfn
  split
  · exact ⟨hfn, fun _ => id⟩
  · dsimp only
    split_ifs
    · exact ⟨hfn.congr rfl rfl, fun _ h => h.congr rfl⟩
    · exact ⟨hfn, fun _ => id⟩

theorem watermark_advanceOrders (h : store.advanceOrders incoming = some store')
    (hor : store.revisionOrders[site]? = some order ∨ incoming[site]? = some order) :
    AtMost order store'.revisionOrders[site]? := by
  rw [(advanceOrders_eq_some h).2]
  rcases hinc : incoming[site]? with - | high
  · rw [hinc] at hor
    rcases hor with hor | hor
    · exact ⟨order, hor, le_rfl⟩
    · cases hor
  · refine ⟨raise store.revisionOrders[site]? high, rfl, ?_⟩
    rcases hor with hor | hor
    · exact le_raise_of_mem hor
    · rw [← some.inj (hinc.symm.trans hor)]
      exact le_raise _

theorem moves_advanceOrders (h : store.advanceOrders incoming = some store') :
    Moves key site store store' := by
  have hpr : store'.providers[key]? = store.providers[key]? := providers_advanceOrders h
  have hrs : ∀ order, store.revisionOrders[site]? = some order →
      AtMost order store'.revisionOrders[site]? :=
    fun order hor => watermark_advanceOrders h (.inl hor)
  refine ⟨hrs, fun hfn => ?_, fun _ order hrc => ?_, fun hnn hcl => ?_⟩
  · rw [held_congr hpr]
    exact hfn.raise hrs
  · rw [held_congr hpr]
    exact hrc
  · refine ⟨hpr.trans hnn, ?_⟩
    rw [(advanceOrders_eq_some h).1]
    exact hcl

/-- The metadata of a response is at most the watermarks it raised. -/
theorem watermark_of_batch
    (hadv : store.advanceOrders (store.incoming staged.batches) = some advanced)
    (hbt : staged.batches[key]? = some batch)
    (hor : store.publicationOrder key batch = some order) :
    AtMost order advanced.revisionOrders[batch.site]? := by
  obtain ⟨high, hhg, hle⟩ := le_incoming hbt hor
  obtain ⟨order', hor', hle'⟩ := watermark_advanceOrders hadv (.inr hhg)
  exact ⟨order', hor', hle.trans hle'⟩

theorem moves_rememberFences (hst : ∀ batch, staged.batches[key]? = some batch → batch.site = site)
    (hle : ∀ batch order, staged.batches[key]? = some batch →
      store.publicationOrder key batch = some order →
      AtMost order store.revisionOrders[site]?) :
    Moves key site store (store.rememberFences staged.batches) := by
  have hfl := rememberFences_fills store staged.batches
  have hrm := remembered store staged.batches key
  generalize store.rememberFences staged.batches = store' at hfl hrm ⊢
  cases hrm with
  | kept hpr => exact moves_of_providers hfl.orders (·.fills hfl) hpr
  | closed hpr hpre =>
    exact moves_of_providers hfl.orders (·.fills hfl) (hpr.trans hpre.symm)
  | observed hbt _ hor _ hopen hpr =>
    refine moves_of_held hfl.orders hpr (fun hfn => ?_) (hst _ hbt ▸ hopen)
    exact ⟨hfn.observe (hle _ _ hbt hor), fun _ h => h.congr (Provider.newest_observe _ _)⟩

/-- Metadata at the watermark that could be accepted is covered by the fence of its provider once
the fences are remembered, if there is room for the provider. -/
theorem covers_rememberFences (hbt : staged.batches[key]? = some batch)
    (hrev : batch.revision = some revision) (hid : batch.invalidIdentity = false)
    (hrl : (store.held key).rollback revision = false)
    (hbl : ¬ store.Below batch.site revision.order) :
    ((store.rememberFences staged.batches).providers[key]? = none ∧
        (store.rememberFences staged.batches).Closed batch.site) ∨
      (((store.rememberFences staged.batches).held key).Covers revision.order ∧
        ((store.rememberFences staged.batches).held key).rollback revision = false) := by
  have hor : store.publicationOrder key batch = some revision.order := by
    rw [publicationOrder, hid, hrev, if_neg Bool.false_ne_true, bind_some, if_neg]
    rcases hget : store.providers[key]? with - | provider
    · exact Bool.false_ne_true
    · rw [held_of_providers hget] at hrl
      rw [any_some, hrl]
      exact Bool.false_ne_true
  cases remembered store staged.batches key with
  | kept _ h => exact absurd (h batch hbt _ hor) hbl
  | closed hpr _ hcl => exact .inl ⟨hpr, hcl batch hbt⟩
  | observed hbt' hrev' _ _ _ hpr =>
    cases hbt'.symm.trans hbt
    cases hrev'.symm.trans hrev
    rw [held_of_providers hpr]
    exact .inr ⟨Provider.covers_observe, Provider.rollback_observe hrl⟩

/-- The rollback test of a commit is the one from before the fences were remembered. -/
theorem rollback_of_rememberFences
    (hrl : ((store.rememberFences staged.batches).held key).rollback revision = false)
    (hbt : staged.batches[key]? = some batch) (hrev : batch.revision = some revision) :
    (store.held key).rollback revision = false := by
  cases remembered store staged.batches key with
  | kept hpr => rwa [held_congr hpr] at hrl
  | closed hpr hpre => rwa [held_congr (hpr.trans hpre.symm)] at hrl
  | observed hbt' hrev' hor =>
    cases hbt'.symm.trans hbt
    cases hrev'.symm.trans hrev
    obtain ⟨-, revision', hrev', -, hrl'⟩ := publicationOrder_eq_some hor
    rwa [some.inj (hrev'.symm.trans hrev)] at hrl'

/-- The condition under which a batch can be committed: metadata that could be accepted is covered
by the fence. -/
def Readied (store : LoadStore V) (staged : Staged V) (key : String) : Prop :=
  ∀ batch revision, staged.batches[key]? = some batch → batch.revision = some revision →
    batch.refusal = none → (store.held key).rollback revision = false →
    ¬ store.Below batch.site revision.order →
    (store.providers[key]? = none ∧ store.Closed batch.site) ∨
      (store.held key).Covers revision.order

section Commits

variable {swept : LoadStore V} {outcomes : List (Outcome V)}

theorem Committed.moves
    (h : Committed readings scrape maxAgeMs swept staged.batches key store' outcomes)
    (hfl : swept.Fills store')
    (hst : ∀ batch, staged.batches[key]? = some batch → batch.site = site)
    (hrd : swept.Readied staged key) : Moves key site swept store' := by
  have hsm : store'.providers[key]? = swept.providers[key]? → Moves key site swept store' :=
    moves_of_providers hfl.orders (·.fills hfl)
  cases h with
  | missing _ hpr | old _ _ _ hpr => exact hsm hpr
  | capped _ hpr hpre => exact hsm (hpr.trans hpre.symm)
  | @decided batch _ result provider hbt hbl hopen hcom hpr =>
    refine moves_of_held hfl.orders hpr (fun hfn => ?_) (hst batch hbt ▸ hopen)
    rcases Provider.decided_commit hcom with ⟨-, -, hkp⟩ |
      ⟨accepted, decided, hdecided, hnew, hfc, -⟩
    · rw [hkp]
      exact ⟨hfn, fun _ => id⟩
    · refine ⟨(hdecided.fenced hfn fun revision hrev hrf hrl => ?_).congr
        hnew hfc, fun order hrc => (hdecided.reached hfn hrc).congr hnew⟩
      rcases hrd batch revision hbt hrev hrf hrl
        (hbl revision hrev) with ⟨hnn, hcl⟩ | hcov
      · exact absurd hcl (hopen hnn)
      · exact hcov

theorem Committed.of_accepted
    (h : Committed readings scrape maxAgeMs swept staged.batches key store' outcomes)
    (hrd : swept.Readied staged key) {outcome : Outcome V} (hout : outcome ∈ outcomes)
    (hacc : outcome.commit = .accepted) (hrev : outcome.batch.revision = some revision) :
    staged.batches[key]? = some outcome.batch ∧
      ¬ swept.Below outcome.batch.site revision.order ∧
      (swept.held key).Covers revision.order ∧
      ¬ (swept.held key).Reached revision.order ∧ (store'.held key).Reached revision.order ∧
      (swept.providers[key]? = none → ¬ swept.Closed outcome.batch.site) := by
  cases h with
  | missing => cases hout
  | old | capped =>
    rw [List.mem_singleton.mp hout] at hacc
    cases hacc
  | @decided batch _ result provider hbt hbl hopen hcom hpr =>
    obtain rfl := List.mem_singleton.mp hout
    have hacc : result = .accepted := hacc
    have hrev : batch.revision = some revision := hrev
    rcases Provider.decided_commit hcom with ⟨-, hdp, -⟩ |
      ⟨accepted, decided, hdecided, hnew, -, htr⟩
    · cases hdp.symm.trans hacc
    · rw [htr hacc] at hdecided
      obtain ⟨hrf, hrl, hrh, hrc⟩ := hdecided.of_accepted hrev
      have hbl := hbl revision hrev
      refine ⟨hbt, hbl, ?_, hrh, ?_, hopen⟩
      · rcases hrd batch revision hbt hrev hrf hrl hbl with
          ⟨hnn, hcl⟩ | hcov
        · exact absurd hcl (hopen hnn)
        · exact hcov
      · rw [held_of_providers hpr]
        exact hrc.congr hnew

end Commits

/-! ### The whole ingest at one key -/

/-- The sweep for missing providers leaves those alone that have a batch. -/
theorem providers_invalidateMissing {batches : Batches V}
    (hbt : batches[key]? = some batch) :
    (store.invalidateMissing batches scrape incoming).providers[key]? = store.providers[key]? := by
  have hcn : batches.contains key = true := by
    rw [ExtTreeMap.contains_eq_isSome_getElem?, hbt]
    rfl
  rw [invalidateMissing, providers_mapProviders]
  rcases keySite key with - | site
  · exact map_id_apply
  · simp only [hcn, Bool.not_true, Bool.and_false]
    exact map_id_apply

/-- The batches of a response are ready when they are committed. -/
theorem readied (hst : staged.Attributed scrape) :
    ((store.rememberFences staged.batches).invalidateMissing staged.batches scrape
      incoming).Readied staged key := by
  intro batch revision hbt hrev hrf hrl hbl
  have hfl := rememberFences_fills store staged.batches
  have hsm : ((store.rememberFences staged.batches).invalidateMissing staged.batches scrape
      incoming).providers[key]? = (store.rememberFences staged.batches).providers[key]? :=
    providers_invalidateMissing hbt
  have hid : batch.invalidIdentity = false := by
    rw [← Bool.not_eq_true]
    intro hinv
    have hso := (hst key batch hbt).identity hinv
    rw [hrf] at hso
    cases hso
  rw [held_congr hsm] at hrl ⊢
  rw [hsm]
  have hbl : ¬ store.Below batch.site revision.order :=
    fun h => hbl (hfl.below_iff.mpr h)
  rcases covers_rememberFences hbt hrev hid
    (rollback_of_rememberFences hrl hbt hrev) hbl with hcl | ⟨hcov, -⟩
  · exact .inl hcl
  · exact .inr hcov

theorem site_of_attributed (hst : staged.Attributed scrape) (hkey : keySite key = some site) :
    ∀ batch, staged.batches[key]? = some batch → batch.site = site :=
  fun batch hbt => some.inj ((hst key batch hbt).site.symm.trans hkey)

theorem moves_fenced (hst : staged.Attributed scrape) (hkey : keySite key = some site)
    (hadv : store.advanceOrders (store.incoming staged.batches) = some advanced) :
    Moves key site store (advanced.rememberFences staged.batches) := by
  have hsi := site_of_attributed hst hkey
  refine (moves_advanceOrders hadv).trans (moves_rememberFences hsi ?_)
  intro batch order hbt hor
  rw [publicationOrder_congr (providers_advanceOrders hadv)] at hor
  rw [← hsi batch hbt]
  exact watermark_of_batch hadv hbt hor

/-- **An ingest moves nothing back.** -/
theorem moves_ingest (hkey : keySite key = some site) :
    Moves key site store (store.ingestOutcomes readings text scrape maxAgeMs now).1 := by
  have hst : (stage readings text scrape now).Attributed scrape := stage_attributed
  have hing := ingests readings store text scrape maxAgeMs now
  generalize store.ingestOutcomes readings text scrape maxAgeMs now = result at hing ⊢
  generalize stage readings text scrape now = staged at hst hing
  cases hing with
  | capped hadv => exact moves_rejectResponse store scrape
  | invalid hadv hinv =>
    exact (moves_fenced hst hkey hadv).trans (moves_rejectResponse _ scrape)
  | @commits advanced swept tally hadv hinv hsw =>
    have hrd : swept.Readied staged key := hsw ▸ readied hst
    have hmv : Moves key site store swept := by
      rw [hsw]
      exact (moves_fenced hst hkey hadv).trans (moves_invalidateMissing _)
    refine (hmv.trans ?_).trans (moves_retireSuperseded _)
    exact (committed readings scrape maxAgeMs swept staged.batches key).moves
      (commitResponse_fills readings scrape maxAgeMs swept staged.batches)
      (site_of_attributed hst hkey) hrd

/-- What is known of a publication that an ingest accepted. -/
structure Publishes (key site : String) (revision : Revision) (store store' : LoadStore V) :
    Prop where
  watermark : store'.revisionOrders[site]? = some revision.order
  fresh : ¬ (store.held key).Reached revision.order
  reached : (store'.held key).Reached revision.order
  room : store.providers[key]? = none → ¬ store.Closed site

/-- **A publication is accepted at the watermark of its site**, and the newest revision of its
provider reaches it only then. -/
theorem publishes_ingest {outcome : Outcome V}
    (hout : outcome ∈ (store.ingestOutcomes readings text scrape maxAgeMs now).2.2)
    (hacc : outcome.commit = .accepted) (hrev : outcome.batch.revision = some revision)
    (hfn : ∀ site, keySite outcome.key = some site →
      (store.held outcome.key).Fenced store.revisionOrders[site]?) :
    ∃ site, keySite outcome.key = some site ∧ Publishes outcome.key site revision store
      (store.ingestOutcomes readings text scrape maxAgeMs now).1 := by
  have hst : (stage readings text scrape now).Attributed scrape := stage_attributed
  have hing := ingests readings store text scrape maxAgeMs now
  generalize store.ingestOutcomes readings text scrape maxAgeMs now = result at hing hout ⊢
  generalize stage readings text scrape now = staged at hst hing
  generalize hkey : outcome.key = key at hfn ⊢
  cases hing with
  | capped hadv => cases hout
  | invalid hadv hinv => cases hout
  | @commits advanced swept tally hadv hinv hsw =>
    have hrd : swept.Readied staged key := hsw ▸ readied hst
    have hcm := committed readings scrape maxAgeMs swept staged.batches key
    have hfl := commitResponse_fills readings scrape maxAgeMs swept staged.batches
    have hmem : outcome ∈ (swept.commitResponse readings staged.batches scrape
        maxAgeMs).2.filter fun outcome => outcome.key == key :=
      List.mem_filter.mpr ⟨hout, beq_iff_eq.mpr hkey⟩
    obtain ⟨hbt, hbl, hcov, hfr, hrc, hrm⟩ :=
      hcm.of_accepted hrd hmem hacc hrev
    have hsi := (hst key outcome.batch hbt).site
    have hmv : Moves key outcome.batch.site store swept := by
      rw [hsw]
      exact (moves_fenced hst hsi hadv).trans (moves_invalidateMissing _)
    have hpre := hfn _ hsi
    have haf := (hcm.moves hfl (site_of_attributed hst hsi) hrd).fenced (hmv.fenced hpre)
    have hrt : Moves key outcome.batch.site _ _ := moves_retireSuperseded
      (swept.commitResponse readings staged.batches scrape maxAgeMs).1
    refine ⟨outcome.batch.site, hsi, ?_, ?_, hrt.reached haf _ hrc, ?_⟩
    · -- not below the watermark, and covered by the fence, which is at most the watermark
      obtain ⟨held, hhl, hle⟩ := hcov
      obtain ⟨order, hor, hle'⟩ := (hmv.fenced hpre).fence held hhl
      have heq : revision.order = order := by
        refine (hle.trans hle').antisymm ?_
        by_contra hlt
        exact hbl ⟨order, hor, lt_of_not_ge hlt⟩
      rw [heq, ← hor, ← hfl.orders]
      rfl
    · exact fun h => hfr (hmv.reached hpre _ h)
    · intro hnn hcl
      obtain ⟨hnn', hcl'⟩ := hmv.closed hnn hcl
      exact hrm hnn' hcl'

/-! ### Consumed orders -/

/-- No publication of the provider with an order up to this one can be accepted any more. -/
def Consumed (key site : String) (order : PublicationOrder) (store : LoadStore V) : Prop :=
  store.Below site order ∨ (store.held key).Reached order ∨
    (store.providers[key]? = none ∧ store.Closed site)

theorem Consumed.moves (h : Consumed key site order store) (hmv : Moves key site store store')
    (hfn : (store.held key).Fenced store.revisionOrders[site]?) :
    Consumed key site order store' := by
  rcases h with ⟨current, hcur, hlt⟩ | hrc | ⟨hnn, hcl⟩
  · obtain ⟨current', hcur', hle⟩ := hmv.watermark current hcur
    exact .inl ⟨current', hcur', hlt.trans_le hle⟩
  · exact .inr (.inl (hmv.reached hfn order hrc))
  · exact .inr (.inr (hmv.closed hnn hcl))

theorem Consumed.lt_of_publishes (h : Consumed key site order store)
    (hmv : Moves key site store store') (hpb : Publishes key site revision store store') :
    order < revision.order := by
  rcases h with ⟨current, hcur, hlt⟩ | hrc | ⟨hnn, hcl⟩
  · obtain ⟨current', hcur', hle⟩ := hmv.watermark current hcur
    rw [hpb.watermark] at hcur'
    rw [some.inj hcur']
    exact hlt.trans_le hle
  · by_contra hle
    exact hpb.fresh (hrc.mono (le_of_not_gt hle))
  · exact absurd hcl (hpb.room hnn)

/-- A revision is on its way to be consumed: once the fences are remembered, the watermark is past
it, or there is no room for its provider, or the fence covers it. -/
def Covered (key site : String) (revision : Revision) (store : LoadStore V) : Prop :=
  store.Below site revision.order ∨ (store.providers[key]? = none ∧ store.Closed site) ∨
    ((store.held key).Covers revision.order ∧ (store.held key).rollback revision = false)

theorem covered_fenced (hbt : staged.batches[key]? = some batch)
    (hadv : store.advanceOrders (store.incoming staged.batches) = some advanced)
    (hrev : batch.revision = some revision) (hid : batch.invalidIdentity = false)
    (hrl : (store.held key).rollback revision = false) :
    Covered key batch.site revision (advanced.rememberFences staged.batches) := by
  by_cases hbl : advanced.Below batch.site revision.order
  · exact .inl ((rememberFences_fills advanced staged.batches).below_iff.mpr hbl)
  · refine .inr (covers_rememberFences hbt hrev hid ?_ hbl)
    rwa [held_congr (providers_advanceOrders hadv)]

theorem Covered.rejectResponse (h : Covered key site revision store)
    (how : owns scrape key = true)
    (hfn : (store.held key).Fenced store.revisionOrders[site]?) :
    Consumed key site revision.order (store.rejectResponse scrape) := by
  have hmv : Moves key site store _ := moves_rejectResponse store scrape
  rcases h with hbl | hcl | ⟨hcov, -⟩
  · exact Consumed.moves (.inl hbl) hmv hfn
  · exact Consumed.moves (.inr (.inr hcl)) hmv hfn
  · refine .inr (.inl ?_)
    rcases hget : store.providers[key]? with - | provider
    · rw [held, hget] at hcov
      obtain ⟨held, hhl, -⟩ := hcov
      cases hhl
    · have hrj : (store.rejectResponse scrape).providers[key]? = some provider.reject := by
        rw [LoadStore.rejectResponse, providers_mapProviders, hget, map_some, if_pos how]
      rw [held_of_providers hget] at hcov
      rw [held_of_providers hrj]
      exact hcov.reject

/-- A response that is taken consumes what the fences cover, whatever is decided of the batch. -/
theorem Covered.commits {outcomes : List (Outcome V)}
    (h : Covered key batch.site revision store)
    (hcm : Committed readings scrape maxAgeMs store staged.batches key store' outcomes)
    (hmv : Moves key batch.site store store')
    (hfn : (store.held key).Fenced store.revisionOrders[batch.site]?)
    (hbt : staged.batches[key]? = some batch) (hat : batch.Attributed scrape key)
    (hrev : batch.revision = some revision) :
    Consumed key batch.site revision.order store' := by
  rcases h with hbl | hcl | ⟨hcov, hrl⟩
  · exact Consumed.moves (.inl hbl) hmv hfn
  · exact Consumed.moves (.inr (.inr hcl)) hmv hfn
  · cases hcm with
    | missing hnn => cases hnn.symm.trans hbt
    | old hbt' hrev' hbl =>
      cases hbt'.symm.trans hbt
      cases hrev'.symm.trans hrev
      exact Consumed.moves (.inl hbl) hmv hfn
    | capped hbt' hpr _ hcl =>
      cases hbt'.symm.trans hbt
      exact .inr (.inr ⟨hpr, hcl⟩)
    | decided hbt' _ _ hcom hpr =>
      cases hbt'.symm.trans hbt
      refine .inr (.inl ?_)
      rw [held_of_providers hpr]
      rcases Provider.decided_commit hcom with ⟨hdp, -, rfl⟩ |
        ⟨accepted, decided, hdecided, hnew, -, -⟩
      · exact Provider.reached_of_duplicate hdp hrev
      · exact (hdecided.reaches hrev hrl (hat.skew revision hrev)
          hcov).congr hnew

/-- **Valid metadata is consumed by the response that brings it**, whatever becomes of the payload:
unless the response brings too many new sites. -/
theorem consumed_ingest (hbt : (stage readings text scrape now).batches[key]? = some batch)
    (hor : store.publicationOrder key batch = some order)
    (hadv : (store.advanceOrders
      (store.incoming (stage readings text scrape now).batches)).isSome)
    (hfd : (store.held key).Fenced store.revisionOrders[batch.site]?) :
    Consumed key batch.site order (store.ingestOutcomes readings text scrape maxAgeMs now).1 := by
  have hst : (stage readings text scrape now).Attributed scrape := stage_attributed
  have hing := ingests readings store text scrape maxAgeMs now
  generalize store.ingestOutcomes readings text scrape maxAgeMs now = result at *
  generalize stage readings text scrape now = staged at *
  have hat := hst key batch hbt
  obtain ⟨hid, revision, hrev, rfl, hrl⟩ := publicationOrder_eq_some hor
  cases hing with
  | capped hnn =>
    rw [hnn] at hadv
    cases hadv
  | invalid hadv hinv =>
    exact (covered_fenced hbt hadv hrev hid hrl).rejectResponse
      (owns_of_attributed hat)
      ((moves_fenced hst hat.site hadv).fenced hfd)
  | @commits advanced swept tally hadv hinv hsw =>
    have hcv := covered_fenced hbt hadv hrev hid hrl
    have hmv := moves_fenced hst hat.site hadv
    have hrd : swept.Readied staged key := hsw ▸ readied hst
    have hsm : swept.providers[key]? = (advanced.rememberFences staged.batches).providers[key]? := by
      rw [hsw]
      exact providers_invalidateMissing hbt
    have hcv : Covered key batch.site revision swept := by
      rw [Covered, held_congr hsm, hsm, hsw]
      exact hcv
    have hfn : (swept.held key).Fenced swept.revisionOrders[batch.site]? := by
      rw [held_congr hsm, hsw]
      exact hmv.fenced hfd
    have hco := committed readings scrape maxAgeMs swept staged.batches key
    have hcm := hco.moves
      (commitResponse_fills readings scrape maxAgeMs swept staged.batches)
      (fun batch' hbt' => by rw [some.inj (hbt'.symm.trans hbt)]) hrd
    exact (hcv.commits hco hcm hfn hbt hat hrev).moves
      (moves_retireSuperseded _) (hcm.fenced hfn)

/-! ### Runs -/

def accepted (outcome : Outcome V) : Option (String × Revision) :=
  if outcome.commit = .accepted then
    outcome.batch.revision.map fun revision => (outcome.key, revision)
  else none

theorem accepted_eq_some {outcome : Outcome V} {named : String × Revision}
    (h : accepted outcome = some named) :
    outcome.commit = .accepted ∧ outcome.batch.revision = some named.2 ∧ named.1 = outcome.key := by
  unfold accepted at h
  split_ifs at h with hacc
  obtain ⟨revision, hrev, rfl⟩ := map_eq_some_iff.mp h
  exact ⟨hacc, hrev, rfl⟩

/-- The publications that an operation accepts. -/
def published (readings : Readings V) (store : LoadStore V) :
    SignalOp → List (String × Revision)
  | .ingest text referenceMs localNowMs owner now =>
    match store.revisionMaxAgeMs with
    | none => []
    | some maxAgeMs =>
      (store.ingestOutcomes readings text (store.scrapeOf referenceMs localNowMs owner) maxAgeMs
        now).2.2.filterMap accepted
  | .learningState _ _ _ => []

/-- The publications that a run accepts, in order. -/
def publications (readings : Readings V) (store : LoadStore V) :
    List SignalOp → List (String × Revision)
  | [] => []
  | op :: ops => store.published readings op ++ publications readings (store.step readings op) ops

def Fenced (store : LoadStore V) : Prop :=
  ∀ key site : String, keySite key = some site →
    (store.held key).Fenced store.revisionOrders[site]?

/-- Storing a provider with the same two revisions moves nothing back. -/
theorem moves_put {k : String} (hpr : store.providers[k]? = some provider)
    (hnew : provider'.guard.newest = provider.guard.newest)
    (hfn : provider'.guard.fence = provider.guard.fence) :
    Moves key site store (store.put k provider') := by
  by_cases hk : k = key
  · subst hk
    have haf : (store.put k provider').providers[k]? = some provider' := by
      rw [providers_put, if_pos rfl]
    refine moves_of_held rfl haf ?_ fun hnn => by cases hpr.symm.trans hnn
    rw [held_of_providers hpr]
    exact fun h => ⟨h.congr hnew hfn, fun _ h => h.congr hnew⟩
  · refine moves_of_providers rfl id ?_
    rw [providers_put, if_neg hk]

theorem moves_step (readings : Readings V) (hage : store.revisionMaxAgeMs = some maxAgeMs)
    (op : SignalOp) (hkey : keySite key = some site) :
    Moves key site store (store.step readings op) := by
  cases op with
  | ingest text referenceMs localNowMs owner now =>
    rw [step_ingest hage]
    exact moves_ingest hkey
  | learningState k nowMs boundMs =>
    refine step_learningState hage (Moves.refl store) fun provider provider' hpr hcs => ?_
    rcases hcs with rfl | rfl
    · exact moves_put hpr rfl rfl
    · exact moves_put hpr rfl rfl

theorem Fenced.step (h : store.Fenced) (readings : Readings V)
    (hage : store.revisionMaxAgeMs = some maxAgeMs) (op : SignalOp) :
    (store.step readings op).Fenced :=
  fun key site hkey => (moves_step readings hage op hkey).fenced (h key site hkey)

theorem publishes_step (h : store.Fenced) (hage : store.revisionMaxAgeMs = some maxAgeMs)
    {op : SignalOp} (hpub : (key, revision) ∈ store.published readings op) :
    ∃ site, keySite key = some site ∧
      Publishes key site revision store (store.step readings op) := by
  cases op with
  | learningState k nowMs boundMs => cases hpub
  | ingest text referenceMs localNowMs owner now =>
    rw [step_ingest hage]
    simp only [published, hage, List.mem_filterMap] at hpub
    obtain ⟨outcome, hout, hsm⟩ := hpub
    obtain ⟨hacc, hrev, rfl⟩ := accepted_eq_some hsm
    exact publishes_ingest hout hacc hrev fun site hst => h _ site hst

theorem filter_filterMap_comm {α β : Type*} {f : α → Option β} {p : β → Bool} {q : α → Bool}
    {l : List α} (h : ∀ a b, f a = some b → p b = q a) :
    (l.filterMap f).filter p = (l.filter q).filterMap f := by
  rw [List.filterMap_filter, List.filter_filterMap]
  congr 1
  funext a
  rcases hf : f a with - | b
  · simp
  · rw [filter_some, h a b hf]

theorem outcomes_filter (readings : Readings V) (store : LoadStore V) (text : List Char)
    (scrape : ScrapeClock) (maxAgeMs : Int) (now : Option Clock) (key : String) :
    ((store.ingestOutcomes readings text scrape maxAgeMs now).2.2.filter
      fun outcome => outcome.key == key).length ≤ 1 := by
  have hing := ingests readings store text scrape maxAgeMs now
  generalize store.ingestOutcomes readings text scrape maxAgeMs now = result at hing ⊢
  cases hing with
  | capped hadv | invalid hadv hinv => exact Nat.zero_le 1
  | @commits advanced swept tally hadv hinv hsw =>
    have hcm := committed readings scrape maxAgeMs swept
      (stage readings text scrape now).batches key
    generalize List.filter _ _ = outcomes at hcm ⊢
    cases hcm with
    | missing => exact Nat.zero_le 1
    | old => exact le_rfl
    | capped => exact le_rfl
    | decided => exact le_rfl

/-- A response accepts at most one publication of a provider. -/
theorem published_filter (readings : Readings V) (store : LoadStore V) (op : SignalOp)
    (key : String) :
    ((store.published readings op).filter fun named => named.1 == key).length ≤ 1 := by
  cases op with
  | learningState k nowMs boundMs => exact Nat.zero_le 1
  | ingest text referenceMs localNowMs owner now =>
    unfold published
    rcases store.revisionMaxAgeMs with - | maxAgeMs
    · exact Nat.zero_le 1
    · have hlen := outcomes_filter readings store text
        (store.scrapeOf referenceMs localNowMs owner) maxAgeMs now key
      dsimp only
      generalize (store.ingestOutcomes readings text _ maxAgeMs now).2.2 = outcomes at hlen ⊢
      have hcm : (outcomes.filterMap accepted).filter (fun named => named.1 == key) =
          (outcomes.filter fun outcome => outcome.key == key).filterMap accepted :=
        filter_filterMap_comm fun outcome named hacc => by
          rw [(accepted_eq_some hacc).2.2]
      rw [hcm]
      exact (List.length_filterMap_le _ _).trans hlen

/-- Nothing consumed is accepted in the rest of a run. -/
theorem Consumed.publications (readings : Readings V) (hkey : keySite key = some site)
    (ops : List SignalOp) (h : Consumed key site order store) (hfn : store.Fenced)
    (hage : store.revisionMaxAgeMs = some maxAgeMs) :
    ∀ revision, (key, revision) ∈ store.publications readings ops → order < revision.order := by
  induction ops generalizing store with
  | nil =>
    nofun
  | cons op ops ih =>
    intro revision hmem
    have hmv := moves_step readings hage op hkey
    rcases List.mem_append.mp hmem with hmem | hmem
    · obtain ⟨site', hst', hpb⟩ := publishes_step hfn hage hmem
      cases hst'.symm.trans hkey
      exact h.lt_of_publishes hmv hpb
    · exact ih (h.moves hmv (hfn key site hkey)) (hfn.step readings hage op)
        ((sameSettings_step hage op).maxAge.trans hage) revision hmem

/-- The orders of the accepted publications of one provider strictly increase. -/
theorem pairwise_publications (ops : List SignalOp) (hfn : store.Fenced)
    (hage : store.revisionMaxAgeMs = some maxAgeMs) :
    ((store.publications readings ops).filter fun named => named.1 == key).Pairwise
      fun first second => first.2.order < second.2.order := by
  induction ops generalizing store with
  | nil => exact List.Pairwise.nil
  | cons op ops ih =>
    have hage' : (store.step readings op).revisionMaxAgeMs = some maxAgeMs :=
      (sameSettings_step hage op).maxAge.trans hage
    show ((store.published readings op ++ _).filter _).Pairwise _
    rw [List.filter_append, List.pairwise_append]
    refine ⟨?_, ih (hfn.step readings hage op) hage', ?_⟩
    · have hlen := published_filter readings store op key
      generalize (store.published readings op).filter _ = first at hlen
      match first, hlen with
      | [], _ => exact List.Pairwise.nil
      | [named], _ => exact List.pairwise_singleton _ _
    · -- the publication is consumed once it is accepted
      rintro ⟨key₁, first⟩ hfr ⟨key₂, second⟩ hsec
      obtain ⟨hmem₁, heq₁⟩ := List.mem_filter.mp hfr
      obtain ⟨hmem₂, heq₂⟩ := List.mem_filter.mp hsec
      have hkey₁ : key₁ = key := beq_iff_eq.mp heq₁
      have hkey₂ : key₂ = key := beq_iff_eq.mp heq₂
      rw [hkey₁] at hmem₁
      rw [hkey₂] at hmem₂
      obtain ⟨site, hst, hpb⟩ := publishes_step hfn hage hmem₁
      exact Consumed.publications readings hst ops (.inr (.inl hpb.reached))
        (hfn.step readings hage op) hage' second hmem₂

/-- No watermark is ever lowered by one operation. -/
theorem watermark_step (hage : store.revisionMaxAgeMs = some maxAgeMs) (op : SignalOp)
    (hord : store.revisionOrders[site]? = some order) :
    AtMost order (store.step readings op).revisionOrders[site]? := by
  cases op with
  | learningState k nowMs boundMs =>
    exact step_learningState (P := fun s => AtMost order s.revisionOrders[site]?) hage
      ⟨order, hord, le_rfl⟩ fun _ _ _ _ => ⟨order, hord, le_rfl⟩
  | ingest text referenceMs localNowMs owner now =>
    rw [step_ingest hage]
    generalize store.scrapeOf referenceMs localNowMs owner = scrape
    rcases (ingests readings store text scrape maxAgeMs now).orders with hor |
      ⟨advanced, hadv, hor⟩
    · exact ⟨order, hor ▸ hord, le_rfl⟩
    · rw [hor]
      exact watermark_advanceOrders hadv (.inl hord)

theorem fenced_run (readings : Readings V) (windowMs : Nat) (combine : String → Combine)
    (localSite : Option String) (maxAgeMs : Int) (ops : List SignalOp) :
    (run (LoadStore.step readings) (guarded windowMs combine localSite maxAgeMs) ops).Fenced := by
  refine (run_invariant (P := fun store : LoadStore V => store.Guards (max maxAgeMs 0) localSite ∧
    store.Fenced) (fun store op h => ⟨h.1.step op, h.2.step readings h.1.maxAge op⟩) ?_).2
  refine ⟨guards_guarded windowMs combine localSite, fun key site _ => ?_⟩
  rw [held]
  simp only [guarded, withRevisionGuard, ExtTreeMap.getElem?_empty, getD_none]
  exact Provider.fenced_default

/-- **Publication fencing.**  In every run of a guarded store no watermark is lowered; the orders
of the publications that one provider accepts strictly increase, and each is the watermark of its
site when it is accepted; and once a response that is not refused for its number of sites brought
valid metadata of a provider, no publication of that provider up to its order is accepted later,
whatever became of the payload. -/
theorem publications_fenced (readings : Readings V) (windowMs : Nat) (combine : String → Combine)
    (localSite : Option String) (maxAgeMs : Int) (ops later : List SignalOp) :
    let start : LoadStore V := guarded windowMs combine localSite maxAgeMs
    let store := run (LoadStore.step readings) start ops
    (∀ (site : String) order, store.revisionOrders[site]? = some order →
        ∃ order', (run (LoadStore.step readings) store later).revisionOrders[site]? = some order' ∧
          order ≤ order') ∧
      (∀ key, ((start.publications readings ops).filter fun named => named.1 == key).Pairwise
        fun first second => first.2.order < second.2.order) ∧
      (∀ op key revision, (key, revision) ∈ store.published readings op →
        ∃ site, keySite key = some site ∧
          (store.step readings op).revisionOrders[site]? = some revision.order) ∧
      (∀ text referenceMs localNowMs owner now key batch order,
        let staged := stage readings text (store.scrapeOf referenceMs localNowMs owner) now
        staged.batches[key]? = some batch → store.publicationOrder key batch = some order →
        (store.advanceOrders (store.incoming staged.batches)).isSome →
        ∀ revision, (key, revision) ∈
          (store.step readings (.ingest text referenceMs localNowMs owner now)).publications readings
            later → order < revision.order) := by
  intro start store
  have hgr : store.Guards (max maxAgeMs 0) localSite :=
    guards_run windowMs combine localSite ops
  have hfn : store.Fenced := fenced_run readings windowMs combine localSite maxAgeMs ops
  refine ⟨fun site order hor => ?_, fun key => ?_, fun op key revision hpb => ?_, ?_⟩
  · have hrun : (run (LoadStore.step readings) store later).Guards (max maxAgeMs 0) localSite ∧
        ∃ order', (run (LoadStore.step readings) store later).revisionOrders[site]? = some order' ∧
          order ≤ order' := by
      refine run_invariant (P := fun store : LoadStore V => store.Guards (max maxAgeMs 0) localSite ∧
        ∃ order', store.revisionOrders[site]? = some order' ∧ order ≤ order') ?_
        ⟨hgr, order, hor, le_rfl⟩
      rintro s op ⟨hs, order', hor', hle⟩
      obtain ⟨order'', hor'', hle'⟩ := watermark_step hs.maxAge op hor'
      exact ⟨hs.step op, order'', hor'', hle.trans hle'⟩
    exact hrun.2
  · exact pairwise_publications ops
      (fenced_run readings windowMs combine localSite maxAgeMs [])
      (guards_guarded windowMs combine localSite).maxAge
  · obtain ⟨site, hst, hps⟩ := publishes_step hfn hgr.maxAge hpb
    exact ⟨site, hst, hps.watermark⟩
  · intro text referenceMs localNowMs owner now key batch order staged hbt hor hac
    have hst := (stage_attributed key batch hbt).site
    refine Consumed.publications readings hst later ?_
      (hfn.step readings hgr.maxAge _) (hgr.step _).maxAge
    rw [step_ingest hgr.maxAge]
    exact consumed_ingest hbt hor hac (hfn key batch.site hst)

def tornPublication : List Char :=
  Revision.row ⟨2, 7, 1, 1, 1000, "u1"⟩ "a" "m" ++ exposition "queue" "a" "m" [] 2 1000

/-- A complete publication of the same order. -/
def mendedPublication : List Char :=
  Revision.row ⟨1, 7, 1, 1, 1000, "u1"⟩ "a" "m" ++ exposition "queue" "a" "m" [] 2 1000

/-- The complete publication is accepted by an empty store, but not after the torn one. -/
theorem publications_fenced_torn :
    freshStore.published .whole (.ingest mendedPublication 1000 1000 "a" (some 0)) =
        [("a/m", ⟨1, 7, 1, 1, 1000, "u1"⟩)] ∧
      ∀ revision, ("a/m", revision) ∈ (freshStore.step .whole
          (.ingest tornPublication 1000 1000 "a" (some 0))).publications
        .whole [.ingest mendedPublication 1000 1000 "a" (some 0)] →
        toLex (1, 7) < revision.order := by
  have hor : ((stage .whole tornPublication (freshStore.scrapeOf 1000 1000 "a")
      (some 0)).batches["a/m"]?).bind (freshStore.publicationOrder "a/m") = some (toLex (1, 7)) := by
    decide +kernel
  obtain ⟨batch, hbt, hor⟩ := Option.bind_eq_some_iff.mp hor
  have hfn := (publications_fenced .whole 60000 (fun _ => .max) (some "here") 10000 []
    [.ingest mendedPublication 1000 1000 "a" (some 0)]).2.2.2
  exact ⟨by decide +kernel, hfn tornPublication 1000 1000 "a" (some 0) "a/m" batch
    (toLex (1, 7)) hbt hor (by decide +kernel)⟩

end LoadStore

end PraxisGrid
