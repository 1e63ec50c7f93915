/-
PraxisGrid/Signals/Delayed.lean

Responses that arrive late.

A response is delayed for a site when every batch of the site has one valid metadata row whose
order is below the watermark of the site.  Its batches are not committed and raise no watermark,
but it can still cost the site its qualification: refused as a whole it rejects every provider it
owns, and taken it disqualifies the providers it does not name, unless one of its batches shows it
to be outdated.  A batch whose generation rolls back does not show that.
-/
import PraxisGrid.Signals.Attribution

namespace PraxisGrid

open Std Text Saturate OrdMap Run Option

namespace Provider

variable {V : Type} {provider : Provider V}

/-- Not qualified, with the count of its changes at its end. -/
def Unqualified (provider : Provider V) : Prop :=
  provider.guard.epoch = none ∧ provider.guard.acceptedAt = none ∧
    provider.guard.serial.toNat = wordMax

/-- Nothing is left to reject: no windows, and no authority observed beyond what was taken. -/
def Rejected (provider : Provider V) : Prop :=
  provider.Unqualified ∧ provider.metrics = ∅ ∧
    (provider.guard.fence = none ∨ provider.guard.newest = provider.guard.fence)

theorem disqualify_eq_self_iff : provider.disqualify = provider ↔ provider.Unqualified := by
  obtain ⟨⟨acceptedAt, epoch, fence, newest, serial⟩, metrics⟩ := provider
  have hserial : satAdd serial 1 = serial ↔ serial.toNat = wordMax := by
    have hlt := serial.toNat_lt
    rw [← UInt64.toNat_inj, toNat_satAdd]
    simp only [wordMax, UInt64.toNat_one]
    omega
  simp only [disqualify, Unqualified, Provider.mk.injEq, Guard.mk.injEq, hserial]
  tauto

theorem reject_eq_self_iff : provider.reject = provider ↔ provider.Rejected := by
  obtain ⟨⟨acceptedAt, epoch, fence, newest, serial⟩, metrics⟩ := provider
  rw [Rejected, ← disqualify_eq_self_iff]
  simp only [reject, invalidate, disqualify, Provider.mk.injEq, Guard.mk.injEq]
  cases fence with
  | none => simp
  | some fence => simp; tauto

end Provider

namespace LoadStore

variable {V : Type} {readings : Readings V} {store store' : LoadStore V} {scrape : ScrapeClock}
  {now : Option Clock} {key site : String} {batch : Batch V} {text : List Char} {maxAgeMs : Int}
  {staged : Staged V} {advanced : LoadStore V}

/-- Every batch of a site has one valid metadata row with an order below the watermark. -/
def Delayed (store : LoadStore V) (staged : Staged V) (site : String) : Prop :=
  ∀ named ∈ staged.batches.toList, named.2.site = site →
    named.2.invalidIdentity = false ∧
      named.2.revision.any fun revision =>
        (store.revisionOrders[site]?).any fun current => revision.order < current

instance (store : LoadStore V) (staged : Staged V) (site : String) :
    Decidable (store.Delayed staged site) :=
  inferInstanceAs (Decidable (∀ named ∈ staged.batches.toList, _))

section

variable (h : store.Delayed staged site)
include h

theorem Delayed.below (hbt : staged.batches[key]? = some batch) (hst : batch.site = site)
    {revision : Revision} (hrev : batch.revision = some revision) :
    store.Below site revision.order := by
  have hbl := (h (key, batch) (ExtTreeMap.mem_toList_iff_getElem?_eq_some.mpr hbt) hst).2
  rw [hrev, any_some] at hbl
  exact any_below_iff.mp hbl

/-! ### The stages -/

theorem Delayed.below_incoming {order : PublicationOrder}
    (hinc : (store.incoming staged.batches)[site]? = some order) : store.Below site order := by
  obtain ⟨key, batch, hbt, hst, hor⟩ := exists_of_incoming hinc
  obtain ⟨-, revision, hrev, rfl, -⟩ := publicationOrder_eq_some hor
  exact h.below hbt hst hrev

theorem Delayed.orders
    (hadv : store.advanceOrders (store.incoming staged.batches) = some advanced) :
    advanced.revisionOrders[site]? = store.revisionOrders[site]? := by
  rw [(advanceOrders_eq_some hadv).2]
  rcases hinc : (store.incoming staged.batches)[site]? with - | order
  · rfl
  · obtain ⟨current, hcur, hlt⟩ := h.below_incoming hinc
    rw [hcur]
    show some (max current order) = some current
    rw [max_eq_left hlt.le]

theorem Delayed.below_advanced_iff
    (hadv : store.advanceOrders (store.incoming staged.batches) = some advanced)
    {order : PublicationOrder} : advanced.Below site order ↔ store.Below site order := by
  rw [Below, Below, h.orders hadv]

theorem Delayed.fences (hst : staged.Attributed scrape)
    (hadv : store.advanceOrders (store.incoming staged.batches) = some advanced)
    (hkey : keySite key = some site) :
    (advanced.rememberFences staged.batches).providers[key]? = store.providers[key]? := by
  have hsm : advanced.providers[key]? = store.providers[key]? := providers_advanceOrders hadv
  cases remembered advanced staged.batches key with
  | kept hpr => rw [hpr, hsm]
  | closed hpr hpre => rw [hpr, ← hsm, hpre]
  | @observed batch revision hbt hrev hor hbl hpr =>
    have hsi := some.inj ((hst key batch hbt).site.symm.trans hkey)
    rw [hsi, h.below_advanced_iff hadv] at hbl
    exact absurd (h.below hbt hsi hrev) hbl

theorem Delayed.commits {swept : LoadStore V} {outcomes : List (Outcome V)}
    (hst : staged.Attributed scrape)
    (hor : swept.revisionOrders[site]? = store.revisionOrders[site]?)
    (hkey : keySite key = some site)
    (hcm : Committed readings scrape maxAgeMs swept staged.batches key store' outcomes) :
    store'.providers[key]? = swept.providers[key]? := by
  have hbl : ∀ batch, staged.batches[key]? = some batch → ∃ revision,
      batch.revision = some revision ∧ swept.Below batch.site revision.order := by
    intro batch hbt
    have hsi := some.inj ((hst key batch hbt).site.symm.trans hkey)
    have hvl := (h (key, batch) (ExtTreeMap.mem_toList_iff_getElem?_eq_some.mpr hbt) hsi).2
    obtain ⟨revision, hrev, -⟩ := (any_eq_true ..).mp hvl
    refine ⟨revision, hrev, ?_⟩
    rw [hsi, Below, hor]
    exact h.below hbt hsi hrev
  cases hcm with
  | missing _ hpr | old _ _ _ hpr => exact hpr
  | capped _ hpr hpre => rw [hpr, hpre]
  | decided hbt hnot =>
    obtain ⟨revision, hrev, h⟩ := hbl _ hbt
    exact absurd h (hnot revision hrev)

end

/-! ### What a delayed response does -/

/-- A response that is refused as a whole. -/
def Refused (store : LoadStore V) (staged : Staged V) : Prop :=
  (store.advanceOrders (store.incoming staged.batches)).isNone ∨ staged.invalid

instance (store : LoadStore V) (staged : Staged V) : Decidable (store.Refused staged) :=
  inferInstanceAs (Decidable (_ ∨ _))

theorem Delayed.refused (h : store.Delayed (stage readings text scrape now) site)
    (href : store.Refused (stage readings text scrape now)) (hkey : keySite key = some site)
    (how : owns scrape key = true) :
    (store.ingestOutcomes readings text scrape maxAgeMs now).1.providers[key]? =
      (store.providers[key]?).map Provider.reject := by
  have hrj : ∀ s : LoadStore V, (s.rejectResponse scrape).providers[key]? =
      (s.providers[key]?).map Provider.reject := by
    intro s
    rw [rejectResponse, providers_mapProviders, how]
    rfl
  have hing := ingests readings store text scrape maxAgeMs now
  generalize store.ingestOutcomes readings text scrape maxAgeMs now = result at hing ⊢
  cases hing with
  | capped hadv => exact hrj store
  | invalid hadv hinv =>
    refine (hrj _).trans ?_
    rw [h.fences stage_attributed hadv hkey]
  | commits hadv hinv =>
    rcases href with hnn | hinv'
    · rw [hadv] at hnn
      cases hnn
    · cases hinv.symm.trans hinv'

def Outdated (store : LoadStore V) (staged : Staged V) (site : String) : Prop :=
  ∃ named ∈ staged.batches.toList, named.2.site = site ∧
    (store.publicationOrder named.1 named.2).isSome

instance (store : LoadStore V) (staged : Staged V) (site : String) :
    Decidable (store.Outdated staged site) :=
  inferInstanceAs (Decidable (∃ named ∈ staged.batches.toList, _))

theorem outdated_iff : store.Outdated staged site ↔
    ((store.incoming staged.batches)[site]?).isSome := by
  constructor
  · rintro ⟨⟨key, batch⟩, hmem, rfl, hsm⟩
    obtain ⟨order, hor⟩ := isSome_iff_exists.mp hsm
    obtain ⟨high, hhg, -⟩ :=
      le_incoming (ExtTreeMap.mem_toList_iff_getElem?_eq_some.mp hmem) hor
    rw [hhg]
    rfl
  · intro hsm
    obtain ⟨order, hor⟩ := isSome_iff_exists.mp hsm
    obtain ⟨key, batch, hbt, hst, hor⟩ := exists_of_incoming hor
    refine ⟨(key, batch), ExtTreeMap.mem_toList_iff_getElem?_eq_some.mpr hbt, hst, ?_⟩
    rw [hor]
    rfl

theorem retireSuperseded_of_current {provider : Provider V}
    (hpr : store.providers[key]? = some provider) (hkey : keySite key = some site)
    (h : provider.guard.epoch.isSome → ∀ revision, provider.guard.newest = some revision →
      ¬ store.Below site revision.order) :
    store.retireSuperseded.providers[key]? = some provider := by
  rw [retireSuperseded, providers_mapProviders, hpr, map_some, if_neg]
  intro hrt
  rw [Bool.and_eq_true, any_eq_true] at hrt
  obtain ⟨hep, revision, hnew, hbl⟩ := hrt
  rw [hkey, any_some] at hbl
  exact h hep revision hnew (any_below_iff.mp hbl)

theorem Delayed.any_below_iff_outdated (h : store.Delayed staged site)
    (hadv : store.advanceOrders (store.incoming staged.batches) = some advanced) :
    (((store.incoming staged.batches)[site]?).any fun next =>
        ((advanced.rememberFences staged.batches).revisionOrders[site]?).any fun current =>
          next < current) = decide (store.Outdated staged site) := by
  rw [(rememberFences_fills advanced staged.batches).orders, h.orders hadv, Bool.eq_iff_iff,
    decide_eq_true_iff, outdated_iff]
  rcases hinc : (store.incoming staged.batches)[site]? with - | order
  · simp
  · rw [any_some, any_below_iff]
    exact iff_of_true (h.below_incoming hinc) rfl

/-- A response that is taken disqualifies the providers it owns and does not name, unless it is
outdated. -/
theorem Delayed.taken (hcur : store.Current)
    (h : store.Delayed (stage readings text scrape now) site)
    (htk : ¬ store.Refused (stage readings text scrape now)) (hkey : keySite key = some site)
    (how : owns scrape key = true) :
    (store.ingestOutcomes readings text scrape maxAgeMs now).1.providers[key]? =
      (store.providers[key]?).map fun provider =>
        if store.Outdated (stage readings text scrape now) site ∨
            key ∈ (stage readings text scrape now).batches then provider
        else provider.disqualify := by
  have hst : (stage readings text scrape now).Attributed scrape := stage_attributed
  have hing := ingests readings store text scrape maxAgeMs now
  generalize store.ingestOutcomes readings text scrape maxAgeMs now = result at hing ⊢
  generalize stage readings text scrape now = staged at *
  cases hing with
  | capped hadv => exact absurd (.inl (isNone_iff_eq_none.mpr hadv)) htk
  | invalid hadv hinv => exact absurd (.inr hinv) htk
  | @commits advanced swept tally hadv hinv hsw =>
    have hor : swept.revisionOrders[site]? = store.revisionOrders[site]? := by
      rw [← h.orders hadv, ← (rememberFences_fills advanced staged.batches).orders, hsw]
      rfl
    -- the sweep is the only stage that can touch a provider of the site
    have hsp : swept.providers[key]? = (store.providers[key]?).map fun provider =>
        if store.Outdated staged site ∨ key ∈ staged.batches then provider
        else provider.disqualify := by
      rw [hsw, invalidateMissing, providers_mapProviders, h.fences hst hadv hkey]
      congr 1
      funext provider
      have hsi : (scrape.isLocal || site == scrape.owner) = true := by
        rwa [owns, hkey, any_some] at how
      simp only [hkey, hsi, h.any_below_iff_outdated hadv, Bool.true_and]
      by_cases hkp : store.Outdated staged site ∨ key ∈ staged.batches
      · rw [if_pos hkp, if_neg]
        simpa [or_iff_not_imp_left] using hkp
      · have hms : staged.batches.contains key = false := by
          rw [← Bool.not_eq_true, ExtTreeMap.contains_iff_mem]
          exact fun hmem => hkp (.inr hmem)
        have hot : ¬ store.Outdated staged site := fun h => hkp (.inl h)
        rw [if_neg hkp, if_pos]
        simp [hms, hot]
    have hcm := committed readings scrape maxAgeMs swept staged.batches key
    have hfl := commitResponse_fills readings scrape maxAgeMs swept staged.batches
    generalize swept.commitResponse readings staged.batches scrape maxAgeMs = result at *
    have hrs := (h.commits hst hor hkey hcm).trans hsp
    rcases hpr : store.providers[key]? with - | provider
    · rw [retireSuperseded, providers_mapProviders, hrs, hpr]
      rfl
    · rw [hpr, map_some] at hrs
      refine retireSuperseded_of_current hrs hkey fun hep revision hnew hbl => ?_
      rw [Below, hfl.orders, hor] at hbl
      split_ifs at hep hnew with hkp
      · exact hcur key provider revision site hpr hep hnew hkey hbl
      · cases hep

/-- A site is left as it was exactly if what is done to each of its providers does nothing. -/
theorem unchanged_iff {store' : LoadStore V} {change : String → Provider V → Provider V}
    (hchange : ∀ key, keySite key = some site →
      store'.providers[key]? = (store.providers[key]?).map (change key)) :
    (∀ key, keySite key = some site → store'.providers[key]? = store.providers[key]?) ↔
      ∀ key provider, keySite key = some site → store.providers[key]? = some provider →
        change key provider = provider := by
  refine ⟨fun h key provider hkey hpr => ?_, fun h key hkey => ?_⟩
  · have hsm := h key hkey
    rw [hchange key hkey, hpr] at hsm
    exact some.inj hsm
  · rw [hchange key hkey]
    rcases hpr : store.providers[key]? with - | provider
    · rfl
    · exact congrArg some (h key provider hkey hpr)

/-- **When a delayed response changes nothing.**  In every reachable guarded store, a response
whose batches of a site all have valid metadata below the watermark of the site leaves every
provider of the site as it was if and only if the response does not own the site, or it is refused
as a whole and nothing is left to reject, or it is taken and either one of those batches is not a
generation rollback or the providers it does not name are not qualified, with their counts of changes
at their end. -/
theorem delayed_response_iff (readings : Readings V) (windowMs : Nat) (combine : String → Combine)
    (localSite : Option String) (maxAgeMs : Int) (ops : List SignalOp) (text : List Char)
    (referenceMs localNowMs : Int) (owner : String) (now : Option Clock) (site : String)
    (hdelayed : (run (LoadStore.step readings) (guarded windowMs combine localSite maxAgeMs)
      ops).Delayed (stage readings text
        ((run (LoadStore.step readings) (guarded windowMs combine localSite maxAgeMs)
          ops).scrapeOf referenceMs localNowMs owner) now) site) :
    let store := run (LoadStore.step readings) (guarded windowMs combine localSite maxAgeMs) ops
    let scrape := store.scrapeOf referenceMs localNowMs owner
    let staged := stage readings text scrape now
    (∀ key, keySite key = some site →
        (store.ingestAt readings text referenceMs localNowMs owner now).1.providers[key]? =
          store.providers[key]?) ↔
      (localSite ≠ some owner ∧ site ≠ owner) ∨
        (store.Refused staged ∧ ∀ key provider, keySite key = some site →
          store.providers[key]? = some provider → provider.Rejected) ∨
        (¬ store.Refused staged ∧ (store.Outdated staged site ∨ ∀ key provider,
          keySite key = some site → store.providers[key]? = some provider →
          key ∉ staged.batches → provider.Unqualified)) := by
  intro store scrape staged
  have hdl : store.Delayed staged site := hdelayed
  have hgr : store.Guards (max maxAgeMs 0) localSite :=
    guards_run windowMs combine localSite ops
  have hst : (store.ingestAt readings text referenceMs localNowMs owner now).1 =
      (store.ingestOutcomes readings text scrape (max maxAgeMs 0) now).1 :=
    step_ingest hgr.maxAge
  rw [hst]
  by_cases how : localSite ≠ some owner ∧ site ≠ owner
  · refine iff_of_true (fun key hkey => ?_) (.inl how)
    have hos : owns scrape key = false := by
      refine not_owns_iff.mpr ⟨?_, fun hso => how.2 (Option.some.inj (hkey.symm.trans hso))⟩
      show (store.localSite == some owner) = false
      rw [hgr.localSite, beq_eq_false_iff_ne]
      exact how.1
    rcases providers_of_not_owns hos with hsm |
      ⟨site', revision, provider, hsi', hpr, hep, hnw, hbl⟩
    · exact hsm
    · exact absurd hbl
        (hgr.current key provider revision site' hpr hep hnw hsi')
  · have hos : ∀ key, keySite key = some site → owns scrape key = true := by
      intro key hkey
      rw [← Bool.not_eq_false, not_owns_iff]
      rintro ⟨hlc, hoth⟩
      refine how ⟨?_, fun hsm => hoth (hkey.trans (congrArg some hsm))⟩
      have hlc : (store.localSite == some owner) = false := hlc
      rwa [hgr.localSite, beq_eq_false_iff_ne] at hlc
    rw [or_iff_right how]
    by_cases hrf : store.Refused staged
    · rw [or_iff_left (fun h => h.1 hrf), and_iff_right hrf,
        unchanged_iff fun key hkey => hdl.refused hrf hkey (hos key hkey)]
      simp only [Provider.reject_eq_self_iff]
    · rw [or_iff_right (fun h => hrf h.1), and_iff_right hrf,
        unchanged_iff fun key hkey => hdl.taken hgr.current hrf hkey (hos key hkey)]
      by_cases hot : store.Outdated staged site
      · exact iff_of_true (fun _ _ _ _ => if_pos (.inl hot)) (.inl hot)
      · rw [or_iff_right hot]
        refine forall₄_congr fun key provider _ _ => ite_eq_left_iff.trans ?_
        exact imp_congr (not_congr (or_iff_right hot)) Provider.disqualify_eq_self_iff

/-- Providers `m` and `n` of site `a` in the publication of epoch 1 and sequence 5. -/
def pairPublication : List Char :=
  Revision.row ⟨1, 5, 2, 1, 1000, "u1"⟩ "a" "m" ++ exposition "queue" "a" "m" [] 2 1000 ++
    Revision.row ⟨1, 5, 1, 1, 1000, "u2"⟩ "a" "n" ++ exposition "queue" "a" "n" [] 3 1000

def pairStore : LoadStore Int :=
  run (LoadStore.step .whole) freshStore [.ingest pairPublication 1000 1000 "a" (some 0)]

/-- A late copy of sequence 4, which names `m` alone. -/
def latePublication : List Char :=
  Revision.row ⟨1, 4, 2, 1, 900, "u1"⟩ "a" "m" ++ exposition "queue" "a" "m" [] 2 900

/-- The late copy leaves both providers as they were. -/
theorem delayed_response_iff_late :
    pairStore.Delayed (stage .whole latePublication (pairStore.scrapeOf 2000 2000 "a") (some 0)) "a" ∧
    ∀ key, keySite key = some "a" →
      (pairStore.ingestAt .whole latePublication 2000 2000 "a" (some 0)).1.providers[key]? =
        pairStore.providers[key]? := by
  refine ⟨by decide +kernel, ?_⟩
  unfold pairStore freshStore
  exact (delayed_response_iff .whole 60000 (fun _ => .max) (some "here") 10000
    [.ingest pairPublication 1000 1000 "a" (some 0)] latePublication 2000 2000 "a" (some 0) "a"
    (by decide +kernel)).mpr (.inr (.inr ⟨by decide +kernel, .inl (by decide +kernel)⟩))

/-- The publication of sequence 3, from before the generation of `m` changed. -/
def rolledBackPublication : List Char :=
  Revision.row ⟨1, 3, 1, 1, 900, "u1"⟩ "a" "m" ++ exposition "queue" "a" "m" [] 2 900

/-- The delayed publication is below the watermark, and provider `n` loses its qualification. -/
theorem rolled_back_response_disqualifies :
    pairStore.Delayed (stage .whole rolledBackPublication (pairStore.scrapeOf 2000 2000 "a")
        (some 0)) "a" ∧
      ((pairStore.providers["a/n"]?).bind fun provider => provider.guard.epoch) = some 2 ∧
      ((pairStore.ingestAt .whole rolledBackPublication 2000 2000 "a" (some 0)).1.providers["a/n"]?).map
        (fun provider => provider.guard.epoch) = some none := by
  decide +kernel

end LoadStore

end PraxisGrid
