/-
PraxisGrid/Signals/Stages.lean

What one ingest does to one provider, stage by stage.

A staged batch is attributed: its key is built of its site, a peer's batch is of the peer's own
site, and a batch with an invalid identity or an implausible metadata stamp is refused
(`stage_attributed`).  The stages that sweep the whole store act on each provider by itself, and
the two loops over the batches change a provider only at its own key (`remembered`, `committed`).
-/
import PraxisGrid.Lib.Run
import PraxisGrid.Signals.Guarded

namespace PraxisGrid

open Std Text Saturate OrdMap Run Option

variable {V : Type} {readings : Readings V} {store store' : LoadStore V} {scrape : ScrapeClock}
  {now : Option Clock} {key : String} {batch : Batch V}

/-! ### Keys -/

/-- The site is read back off a key. -/
theorem keySite_key {site cluster : String} (h : '/' ∉ site.toList) :
    keySite (LoadStore.key site cluster) = some site := by
  have hkey : (LoadStore.key site cluster).toList = site.toList ++ '/' :: cluster.toList := by
    simp [LoadStore.key]
  rw [keySite, hkey, splitOnce_append h, map_some, String.ofList_toList]

theorem not_mem_of_validTarget {value : String} (h : validTarget value = true) :
    '/' ∉ value.toList := by
  intro hmem
  have hany : (value.toList.any fun ch => isControl ch || ch == '/') = true :=
    List.any_eq_true.mpr ⟨'/', hmem, by simp⟩
  rw [validTarget, hany] at h
  simp at h

/-! ### Staged batches -/

/-- What staging guarantees of a batch. -/
structure Batch.Attributed (scrape : ScrapeClock) (key : String) (batch : Batch V) : Prop where
  site : keySite key = some batch.site
  owner : scrape.isLocal = false → batch.site = scrape.owner
  identity : batch.invalidIdentity = true → batch.refusal.isSome
  skew : ∀ revision, batch.revision = some revision →
    rebaseAge scrape.referenceMs revision.timestampMs scrape.localNowMs = none →
    batch.refusal.isSome

/-- A row is attributed to its own site, and to the owner of a peer's response. -/
theorem attributedRow_eq_ok {line : List Char} {observation : Observation V} {site : String}
    (h : attributedRow readings line scrape = .ok (observation, site)) :
    '/' ∉ site.toList ∧ (scrape.isLocal = false → site = scrape.owner) ∧
      ∀ metric, Metric.parse readings line = some metric →
        metric.timestampMs = some observation.originMs := by
  unfold attributedRow at h
  split at h
  · rename_i observation' labels hsm hlb
    split at h
    · cases h
    · rename_i site' hsi
      split_ifs at h with hvl how
      cases h
      simp only [Bool.or_eq_true, Bool.not_eq_true', not_or, Bool.not_eq_false] at hvl
      refine ⟨not_mem_of_validTarget hvl.1, fun hlc => ?_, fun metric hmt => ?_⟩
      · simpa [hlc] using how
      · -- the observation is read off the same line
        simp only [parseSample, hmt, bind_eq_bind, bind_some] at hsm
        rcases hst : metric.timestampMs with - | atMs
        · rw [hst] at hsm
          cases hsm
        · rw [hst, bind_some] at hsm
          split_ifs at hsm
          · cases hsm
          · obtain ⟨targets, -, hsm⟩ := bind_eq_some_iff.mp hsm
            rw [← some.inj hsm]
  · cases h

/-- A revision carries the time of its row. -/
theorem Revision.timestampMs_of_parse {metric : Metric V} {revision : Revision}
    (h : Revision.parse metric = some revision) :
    metric.timestampMs = some revision.timestampMs := by
  unfold Revision.parse at h
  split_ifs at h
  obtain ⟨labels, -, h⟩ := bind_eq_some_iff.mp h
  split at h
  · split_ifs at h
    · cases h
    · simp only [bind_eq_bind] at h
      obtain ⟨generation, -, h⟩ := bind_eq_some_iff.mp h
      obtain ⟨batchSamples, -, h⟩ := bind_eq_some_iff.mp h
      split_ifs at h
      · cases h
      · obtain ⟨batchSequence, -, h⟩ := bind_eq_some_iff.mp h
        obtain ⟨publisherEpoch, -, h⟩ := bind_eq_some_iff.mp h
        obtain ⟨timestampMs, hst, h⟩ := bind_eq_some_iff.mp h
        rw [hst, ← some.inj h]
  · cases h

section Push

variable {observation : Observation V} {line : List Char}

@[simp] theorem Batch.site_push : (batch.push readings observation line now).site = batch.site := by
  unfold Batch.push
  split_ifs <;> rfl

/-- A refusal stays. -/
theorem Batch.refusal_push (h : batch.refusal.isSome) :
    (batch.push readings observation line now).refusal.isSome := by
  unfold Batch.push
  dsimp only
  split_ifs
  · rw [isSome_or, h, Bool.true_or]
  · exact h
  · exact h
  · rw [isSome_or, h, Bool.true_or]

/-- A row of a plausible age keeps its batch attributed. -/
theorem Batch.Attributed.push (h : batch.Attributed scrape key)
    (hst : ∀ metric, Metric.parse readings line = some metric →
      metric.timestampMs = some observation.originMs)
    (hage : rebaseAge scrape.referenceMs observation.originMs scrape.localNowMs ≠ none) :
    (batch.push readings observation line now).Attributed scrape key where
  site := by rw [Batch.site_push, h.site]
  owner := by rw [Batch.site_push]; exact h.owner
  identity := by
    intro hid
    unfold Batch.push at hid ⊢
    dsimp only at hid ⊢
    split_ifs at hid ⊢ with hmt hinv
    · rw [isSome_or, isSome_some, Bool.or_true]
    · exact absurd hid hinv
    · exact h.identity hid
    · rw [isSome_or, isSome_some, Bool.or_true]
  skew := by
    intro revision hrev hsk
    by_cases hmt : observation.metric = revisionMetric
    · -- the revision is the one of this row, whose age is plausible
      simp only [Batch.push, if_pos hmt] at hrev
      obtain ⟨hpr, -⟩ := filter_eq_some_iff.mp hrev
      obtain ⟨metric, hmt, hpr⟩ := bind_eq_some_iff.mp hpr
      have hsm := (hst metric hmt).symm.trans (Revision.timestampMs_of_parse hpr)
      rw [some.inj hsm] at hage
      exact absurd hsk hage
    · apply Batch.refusal_push
      refine h.skew revision ?_ hsk
      simp only [Batch.push, if_neg hmt] at hrev
      split_ifs at hrev <;> exact hrev

end Push

@[simp] theorem Staged.batches_reject (staged : Staged V) (cause : Dropped) :
    (staged.reject cause).batches = staged.batches := rfl

/-- All staged batches are attributed. -/
def Staged.Attributed (scrape : ScrapeClock) (staged : Staged V) : Prop :=
  ∀ (key : String) (batch : Batch V), staged.batches[key]? = some batch →
    batch.Attributed scrape key

/-- A row that is staged keeps all batches attributed. -/
theorem Staged.push_attributed {staged staged' : Staged V} {line : List Char}
    (hst : staged.Attributed scrape)
    (h : staged.push readings line scrape now = .ok staged') : staged'.Attributed scrape := by
  obtain ⟨⟨observation, site⟩, hrow, h⟩ := Bincode.bind_eq_ok.mp h
  obtain ⟨hfr, how, hsp⟩ := attributedRow_eq_ok hrow
  dsimp only at h
  -- the batch before the row, or a new one of the row's site
  have hpre : ((staged.batches[LoadStore.key site observation.cluster]?).getD
      { site := site }).Attributed scrape (LoadStore.key site observation.cluster) := by
    rcases hget : staged.batches[LoadStore.key site observation.cluster]? with - | before
    · exact ⟨keySite_key hfr, how, (nofun), nofun⟩
    · exact hst _ before hget
  split_ifs at h with hcap hage
  · cases h
    intro key batch hbt
    rw [Staged.batches_reject, getElem?_insert] at hbt
    split_ifs at hbt with hkey
    · cases hbt
      subst hkey
      refine ⟨?_, ?_, fun _ => rfl, fun _ _ _ => rfl⟩
      · rw [hpre.site, Batch.site_push]
      · intro hlc
        rw [Batch.site_push]
        exact hpre.owner hlc
    · exact hst key batch hbt
  · cases h
    intro key batch hbt
    rw [getElem?_insert] at hbt
    split_ifs at hbt with hkey
    · cases hbt
      subst hkey
      exact hpre.push hsp fun hnn => hage (by rw [hnn]; rfl)
    · exact hst key batch hbt

/-- **Every staged batch is attributed.** -/
theorem stage_attributed {text : List Char} : (stage readings text scrape now).Attributed scrape := by
  have hln : ∀ (lines : List (List Char)) (staged : Staged V), staged.Attributed scrape →
      (lines.foldl (Staged.pushLine readings scrape now) staged).Attributed scrape := by
    intro lines staged hst
    show (run (Staged.pushLine readings scrape now) staged lines).Attributed scrape
    refine run_invariant (P := Staged.Attributed scrape) ?_ hst
    intro staged line hst
    unfold Staged.pushLine
    split_ifs
    · exact hst
    · split
      · rename_i staged' hps
        exact Staged.push_attributed hst hps
      · exact hst
  have hem : ({} : Staged V).Attributed scrape := by
    intro key batch hbt
    simp at hbt
  unfold stage
  dsimp only
  split_ifs
  · exact hem
  · exact hln _ _ hem
  · exact hln _ _ hem

/-! ### Watermarks -/

namespace LoadStore

variable {batches : Batches V} {order : PublicationOrder} {site : String}

theorem le_raise (held : Option PublicationOrder) :
    order ≤ raise held order := by
  cases held with
  | none => exact le_rfl
  | some held => exact le_max_right held order

theorem le_raise_of_mem {held : Option PublicationOrder} {order order' : PublicationOrder}
    (h : held = some order') : order' ≤ raise held order := by
  rw [h]
  exact le_max_left order' order

theorem raise_eq (held : Option PublicationOrder) (order : PublicationOrder) :
    raise held order = order ∨ held = some (raise held order) := by
  cases held with
  | none => exact .inl rfl
  | some held =>
    rcases max_choice held order with h | h
    · exact .inr (congrArg some h.symm)
    · exact .inl h

/-- An incoming order is that of a batch of its site. -/
theorem exists_of_incoming (h : (store.incoming batches)[site]? = some order) :
    ∃ key batch, batches[key]? = some batch ∧ batch.site = site ∧
      store.publicationOrder key batch = some order := by
  -- the batches seen so far, as a condition along the loop
  have hmem : Along store.includeOrder (fun _ entry => entry ∈ batches.toList) ∅ batches.toList :=
    along_of_forall fun _ => id
  have h : (run store.includeOrder ∅ batches.toList)[site]? = some order := h
  refine run_invariant_along
    (P := fun incoming : Orders => ∀ (site : String) (order : PublicationOrder),
      incoming[site]? = some order → ∃ key batch, batches[key]? = some batch ∧
        batch.site = site ∧ store.publicationOrder key batch = some order)
    ?_ hmem (by simp) site order h
  rintro incoming ⟨key, batch⟩ hen ih site order hget
  unfold includeOrder at hget
  split at hget
  · exact ih site order hget
  · rename_i order' hor
    rw [getElem?_insert] at hget
    split_ifs at hget with hst
    · rw [← some.inj hget]
      rcases raise_eq incoming[batch.site]? order' with heq | heq
      · rw [heq]
        exact ⟨key, batch, ExtTreeMap.mem_toList_iff_getElem?_eq_some.mp hen, hst, hor⟩
      · exact hst ▸ ih _ _ heq
    · exact ih site order hget

/-- The incoming order of a site is at least that of each of its batches. -/
theorem le_incoming (hbt : batches[key]? = some batch)
    (hor : store.publicationOrder key batch = some order) :
    ∃ high, (store.incoming batches)[batch.site]? = some high ∧ order ≤ high := by
  have hen := ExtTreeMap.mem_toList_iff_getElem?_eq_some.mpr hbt
  obtain ⟨before, after, hsp⟩ := List.append_of_mem hen
  have hrun : store.incoming batches = run store.includeOrder
      (store.includeOrder (run store.includeOrder ∅ before) (key, batch)) after := by
    rw [← run_cons, ← run_append, ← hsp]
    rfl
  rw [hrun]
  -- the batch raises the order, and the batches after it never lower it
  refine run_invariant
    (P := fun incoming : Orders => ∃ high, incoming[batch.site]? = some high ∧ order ≤ high) ?_ ?_
  · rintro incoming ⟨key', batch'⟩ ⟨high, hhg, hle⟩
    unfold includeOrder
    split
    · exact ⟨high, hhg, hle⟩
    · rw [getElem?_insert]
      split_ifs with hst
      · rw [hst]
        exact ⟨_, rfl, hle.trans (le_raise_of_mem hhg)⟩
      · exact ⟨high, hhg, hle⟩
  · simp only [includeOrder, hor, getElem?_insert, if_true]
    exact ⟨_, rfl, le_raise _⟩

/-- **What advancing the watermarks does**: the incoming orders raise those of their sites. -/
theorem advanceOrders_eq_some {incoming : Orders} (h : store.advanceOrders incoming = some store') :
    store' = { store with revisionOrders := store'.revisionOrders } ∧
      ∀ site : String, store'.revisionOrders[site]? =
        ((incoming[site]?).map (raise store.revisionOrders[site]?)).or
          store.revisionOrders[site]? := by
  unfold advanceOrders at h
  dsimp only at h
  split_ifs at h
  cases h
  refine ⟨rfl, fun site => ?_⟩
  refine (getElem?_foldl_toList_insert raise store.revisionOrders incoming site).trans ?_
  cases incoming[site]? with
  | none => rfl
  | some order => rfl

theorem providers_advanceOrders {incoming : Orders} (h : store.advanceOrders incoming = some store') :
    store'.providers[key]? = store.providers[key]? := by
  rw [(advanceOrders_eq_some h).1]

/-! ### Sweeps -/

@[simp] theorem providers_mapProviders (f : String → Provider V → Provider V) :
    (store.mapProviders f).providers[key]? = (store.providers[key]?).map (f key) :=
  ExtTreeMap.getElem?_map

def entry (store : LoadStore V) (key : String) : Option (Provider V) := store.providers[key]?

/-- The provider under a key; one that is not held is as good as new. -/
def held (store : LoadStore V) (key : String) : Provider V := (store.providers[key]?).getD {}

theorem held_of_providers {provider : Provider V} (h : store.providers[key]? = some provider) :
    store.held key = provider := by
  rw [held, h, getD_some]

theorem held_congr (h : store'.providers[key]? = store.providers[key]?) :
    store'.held key = store.held key := by
  rw [held, held, h]

/-! ### Admission -/

/-- The settings of two stores agree. -/
structure SameSettings (store store' : LoadStore V) : Prop where
  maxAge : store'.revisionMaxAgeMs = store.revisionMaxAgeMs
  window : store'.windowMs = store.windowMs
  combine : store'.combine = store.combine
  localSite : store'.localSite = store.localSite

theorem SameSettings.refl (store : LoadStore V) : store.SameSettings store := ⟨rfl, rfl, rfl, rfl⟩

theorem SameSettings.trans {store'' : LoadStore V} (h : store.SameSettings store')
    (h' : store'.SameSettings store'') : store.SameSettings store'' :=
  ⟨h'.maxAge.trans h.maxAge, h'.window.trans h.window, h'.combine.trans h.combine,
    h'.localSite.trans h.localSite⟩

/-- The slots of a store only fill up, and its settings and watermarks stay. -/
structure Fills (store store' : LoadStore V) : Prop extends store.SameSettings store' where
  orders : store'.revisionOrders = store.revisionOrders
  admitted : store.admitted ≤ store'.admitted
  owners : ∀ owner : String,
    (store.ownerProviders[owner]?).getD 0 ≤ (store'.ownerProviders[owner]?).getD 0

theorem Fills.refl (store : LoadStore V) : store.Fills store :=
  ⟨SameSettings.refl store, rfl, le_rfl, fun _ => le_rfl⟩

theorem Fills.trans {store'' : LoadStore V} (h : store.Fills store') (h' : store'.Fills store'') :
    store.Fills store'' where
  toSameSettings := h.toSameSettings.trans h'.toSameSettings
  orders := h'.orders.trans h.orders
  admitted := h.admitted.trans h'.admitted
  owners owner := (h.owners owner).trans (h'.owners owner)

theorem Fills.put (h : store.Fills store') (provider : Provider V) :
    store.Fills (store'.put key provider) := { h with }

/-- There is no room for a new provider of a site. -/
def Closed (store : LoadStore V) (site : String) : Prop :=
  maxProviders ≤ store.admitted ∨ maxProvidersPerOwner ≤ (store.ownerProviders[site]?).getD 0

theorem Closed.fills (h : store.Closed site) (hfl : store.Fills store') : store'.Closed site :=
  h.imp (fun h => h.trans hfl.admitted) fun h => h.trans (hfl.owners site)

theorem admitNewProvider_eq_none (h : store.admitNewProvider site = none) : store.Closed site := by
  unfold admitNewProvider at h
  dsimp only at h
  split_ifs at h with hrm
  rw [not_and_or, Nat.not_lt, Nat.not_lt] at hrm
  exact hrm

/-- A provider that is admitted takes a slot and nothing else. -/
theorem admitNewProvider_eq_some (h : store.admitNewProvider site = some store') :
    store.Fills store' ∧ store'.providers = store.providers ∧ ¬ store.Closed site := by
  unfold admitNewProvider at h
  dsimp only at h
  split_ifs at h with hrm
  cases h
  refine ⟨⟨⟨rfl, rfl, rfl, rfl⟩, rfl, Nat.le_succ _, fun owner => ?_⟩, rfl, fun hcl => ?_⟩
  · rw [getElem?_insert]
    split_ifs with how
    · rw [how]
      exact Nat.le_succ _
    · exact le_rfl
  · exact hcl.elim (Nat.not_le.mpr hrm.1) (Nat.not_le.mpr hrm.2)

/-- There is no room for a new provider, or the one held is handed out. -/
theorem occupy_cases (store : LoadStore V) (key site : String) :
    (store.occupy key site = none ∧ store.providers[key]? = none ∧ store.Closed site) ∨
      ∃ store', store.occupy key site = some (store', store.held key) ∧ store.Fills store' ∧
        store'.providers = store.providers ∧
        (store.providers[key]? = none → ¬ store.Closed site) := by
  rcases hget : store.providers[key]? with - | provider
  · rcases hadm : store.admitNewProvider site with - | store'
    · refine .inl ⟨?_, rfl, admitNewProvider_eq_none hadm⟩
      simp only [occupy, hget, hadm, map_none]
    · obtain ⟨hfl, hpr, hopen⟩ := admitNewProvider_eq_some hadm
      refine .inr ⟨store', ?_, hfl, hpr, fun _ => hopen⟩
      simp only [occupy, hget, hadm, map_some, held, getD_none]
  · refine .inr ⟨store, ?_, Fills.refl store, rfl, nofun⟩
    simp only [occupy, hget, held, getD_some]

/-! ### Fences -/

/-- The order is below the watermark of the site. -/
def Below (store : LoadStore V) (site : String) (order : PublicationOrder) : Prop :=
  ∃ current, store.revisionOrders[site]? = some current ∧ order < current

theorem any_below_iff : ((store.revisionOrders[site]?).any fun current => order < current) = true ↔
    store.Below site order := by
  rw [Below, any_eq_true]
  simp only [decide_eq_true_eq]

/-- Whether the order of a batch is valid depends on the provider alone. -/
theorem publicationOrder_congr (h : store'.providers[key]? = store.providers[key]?) :
    store'.publicationOrder key batch = store.publicationOrder key batch := by
  rw [publicationOrder, publicationOrder, h]

/-- Metadata counts if it is valid and rolls nothing back. -/
theorem publicationOrder_eq_some (h : store.publicationOrder key batch = some order) :
    batch.invalidIdentity = false ∧ ∃ revision, batch.revision = some revision ∧
      order = revision.order ∧ (store.held key).rollback revision = false := by
  unfold publicationOrder at h
  split_ifs at h with hid
  obtain ⟨revision, hrev, h⟩ := bind_eq_some_iff.mp h
  split_ifs at h with hrl
  refine ⟨Bool.not_eq_true _ ▸ hid, revision, hrev, (some.inj h).symm, ?_⟩
  rcases hget : store.providers[key]? with - | provider
  · rw [held, hget]
    rfl
  · rw [held_of_providers hget]
    rw [hget, any_some, Bool.not_eq_true] at hrl
    exact hrl

/-- A batch is old, finds no room, or its metadata is observed. -/
theorem rememberFence_cases (store : LoadStore V) (key : String) (batch : Batch V) :
    (store.rememberFence (key, batch) = store ∧
        ∀ order, store.publicationOrder key batch = some order → store.Below batch.site order) ∨
      (store.rememberFence (key, batch) = store ∧ store.providers[key]? = none ∧
        store.Closed batch.site) ∨
      ∃ revision, batch.revision = some revision ∧
        store.publicationOrder key batch = some revision.order ∧
        ¬ store.Below batch.site revision.order ∧
        (store.providers[key]? = none → ¬ store.Closed batch.site) ∧
        ∃ store', store.rememberFence (key, batch) =
            store'.put key ((store.held key).observe revision) ∧
          store.Fills store' ∧ store'.providers = store.providers := by
  rcases hor : store.publicationOrder key batch with - | order
  · exact .inl ⟨by simp only [rememberFence, hor], nofun⟩
  · obtain ⟨-, revision, hrev, rfl, -⟩ := publicationOrder_eq_some hor
    by_cases hbl : store.Below batch.site revision.order
    · refine .inl ⟨?_, fun order h => some.inj h ▸ hbl⟩
      simp only [rememberFence, hor, hrev, if_pos (any_below_iff.mpr hbl)]
    · have hnot : ¬ ((store.revisionOrders[batch.site]?).any fun current =>
          revision.order < current) = true := fun h => hbl (any_below_iff.mp h)
      rcases store.occupy_cases key batch.site with ⟨hoc, hnn, hcl⟩ |
        ⟨store', hoc, hfl, hpr, hopen⟩
      · refine .inr (.inl ⟨?_, hnn, hcl⟩)
        simp only [rememberFence, hor, hrev, if_neg hnot, hoc]
      · refine .inr (.inr ⟨revision, hrev, rfl, hbl, hopen, store', ?_, hfl, hpr⟩)
        simp only [rememberFence, hor, hrev, if_neg hnot, hoc]

theorem providers_put {provider : Provider V} {k : String} :
    (store.put key provider).providers[k]? =
      if key = k then some provider else store.providers[k]? := getElem?_insert _ _ _ _

theorem rememberFence_fills (store : LoadStore V) (entry : String × Batch V) :
    store.Fills (store.rememberFence entry) := by
  obtain ⟨key, batch⟩ := entry
  rcases store.rememberFence_cases key batch with ⟨h, -⟩ | ⟨h, -⟩ |
    ⟨_, -, -, -, -, store', h, hfl, -⟩
  · rw [h]
    exact Fills.refl store
  · rw [h]
    exact Fills.refl store
  · rw [h]
    exact hfl.put _

/-- A batch leaves the other providers alone. -/
theorem rememberFence_frame (store : LoadStore V) (named : String × Batch V) (k : String)
    (hk : k ≠ named.1) : (store.rememberFence named).entry k = store.entry k := by
  obtain ⟨key, batch⟩ := named
  show (store.rememberFence (key, batch)).providers[k]? = store.providers[k]?
  rcases store.rememberFence_cases key batch with ⟨h, -⟩ | ⟨h, -⟩ |
    ⟨_, -, -, -, -, store', h, -, hpr⟩
  · rw [h]
  · rw [h]
  · rw [h, providers_put, if_neg (Ne.symm hk), hpr]

theorem rememberFences_fills (store : LoadStore V) (batches : Batches V) :
    store.Fills (store.rememberFences batches) := by
  show store.Fills (run rememberFence store batches.toList)
  exact run_invariant (P := store.Fills) (fun s entry h => h.trans (rememberFence_fills s entry))
    (Fills.refl store)

/-- What remembering the fences of a response does at one key. -/
inductive Remembered (store : LoadStore V) (batches : Batches V) (key : String)
    (store' : LoadStore V) : Prop
  | kept (hproviders : store'.providers[key]? = store.providers[key]?)
    (hbelow : ∀ batch, batches[key]? = some batch →
      ∀ order, store.publicationOrder key batch = some order → store.Below batch.site order)
  | closed (hproviders : store'.providers[key]? = none) (hbefore : store.providers[key]? = none)
    (hclosed : ∀ batch, batches[key]? = some batch → store'.Closed batch.site)
  | observed {batch revision} (hbatch : batches[key]? = some batch)
    (hrevision : batch.revision = some revision)
    (horder : store.publicationOrder key batch = some revision.order)
    (hbelow : ¬ store.Below batch.site revision.order)
    (hopen : store.providers[key]? = none → ¬ store.Closed batch.site)
    (hproviders : store'.providers[key]? = some ((store.held key).observe revision))

theorem Fills.below_iff (h : store.Fills store') :
    store'.Below site order ↔ store.Below site order := by
  rw [Below, Below, h.orders]

/-- **The fence of a provider follows the metadata of its own batch only.** -/
theorem remembered (store : LoadStore V) (batches : Batches V) (key : String) :
    store.Remembered batches key (store.rememberFences batches) := by
  rcases hbt : batches[key]? with - | batch
  · refine .kept ?_ fun _ h => by cases hbt.symm.trans h
    apply run_frame rememberFence_frame
    intro hmem
    obtain ⟨⟨_, batch⟩, hen, rfl⟩ := List.mem_map.mp hmem
    cases hbt.symm.trans (ExtTreeMap.mem_toList_iff_getElem?_eq_some.mp hen)
  · obtain ⟨s, hfl, hvw, haf, hfn⟩ := run_at (s := store) (R := Fills) Fills.refl
      (fun _ _ _ => Fills.trans) rememberFence_fills rememberFence_frame
      (nodup_map_fst_toList batches)
      (ExtTreeMap.mem_toList_iff_getElem?_eq_some.mpr hbt)
    have hfn : (store.rememberFences batches).providers[key]? =
      (s.rememberFence (key, batch)).providers[key]? := hfn
    have hvw : s.providers[key]? = store.providers[key]? := hvw
    have hon : ∀ batch', batches[key]? = some batch' → batch' = batch :=
      fun _ h => some.inj (h.symm.trans hbt)
    rcases s.rememberFence_cases key batch with ⟨h, hbl⟩ | ⟨h, hnn, hcl⟩ |
      ⟨revision, hrev, hor, hbl, hopen, s', h, -, -⟩
    · refine .kept (by rw [hfn, h, hvw]) fun batch' hbt' order hor => ?_
      obtain rfl := hon batch' hbt'
      rw [← hfl.below_iff]
      exact hbl order ((publicationOrder_congr hvw).trans hor)
    · refine .closed (by rw [hfn, h, hnn]) (by rw [← hvw, hnn]) fun batch' hbt' => ?_
      obtain rfl := hon batch' hbt'
      rw [h] at haf
      exact hcl.fills haf
    · refine .observed hbt hrev ((publicationOrder_congr hvw).symm.trans hor) ?_ ?_ ?_
      · rw [← hfl.below_iff]
        exact hbl
      · exact fun hnn hcl => hopen (hvw.trans hnn) (hcl.fills hfl)
      · rw [hfn, h, providers_put, if_pos rfl, held_congr hvw]

/-! ### Commits -/

section Commits

variable (readings) (scrape) (maxAgeMs : Int)

/-- A batch is old, finds no room, or is decided by its provider. -/
theorem commitBatch_cases (store : LoadStore V) (key : String) (batch : Batch V) :
    ((∃ revision, batch.revision = some revision ∧ store.Below batch.site revision.order) ∧
        store.commitBatch readings scrape maxAgeMs key batch = (.rejected, store)) ∨
      (∀ revision, batch.revision = some revision → ¬ store.Below batch.site revision.order) ∧
        ((store.providers[key]? = none ∧ store.Closed batch.site ∧
            store.commitBatch readings scrape maxAgeMs key batch = (.capped, store)) ∨
          ∃ store' result provider, store.Fills store' ∧ store'.providers = store.providers ∧
            (store.providers[key]? = none → ¬ store.Closed batch.site) ∧
            (store.held key).commit readings batch scrape maxAgeMs store.combine store.windowMs =
              (result, provider) ∧
            store.commitBatch readings scrape maxAgeMs key batch =
              (result, store'.put key provider)) := by
  have hold : (batch.revision.any fun revision =>
      (store.revisionOrders[batch.site]?).any fun order => revision.order < order) = true ↔
      ∃ revision, batch.revision = some revision ∧ store.Below batch.site revision.order := by
    rw [any_eq_true]
    exact exists_congr fun revision => and_congr_right fun _ => any_below_iff
  by_cases hbl : ∃ revision, batch.revision = some revision ∧
      store.Below batch.site revision.order
  · exact .inl ⟨hbl, if_pos (hold.mpr hbl)⟩
  · have hcom : store.commitBatch readings scrape maxAgeMs key batch =
        store.commit readings key batch scrape maxAgeMs := if_neg fun h => hbl (hold.mp h)
    refine .inr ⟨fun revision hrev h => hbl ⟨revision, hrev, h⟩, ?_⟩
    rw [hcom]
    rcases store.occupy_cases key batch.site with ⟨hoc, hnn, hcl⟩ |
      ⟨store', hoc, hfl, hpr, hopen⟩
    · exact .inl ⟨hnn, hcl, by simp only [commit, hoc]⟩
    · generalize hrs : (store.held key).commit readings batch scrape maxAgeMs store.combine
        store.windowMs = result
      refine .inr ⟨store', result.1, result.2, hfl, hpr, hopen, rfl, ?_⟩
      simp only [commit, hoc, hfl.combine, hfl.window, hrs]

theorem commitEntry_fills (committed : LoadStore V × List (Outcome V)) (entry : String × Batch V) :
    committed.1.Fills (commitEntry readings scrape maxAgeMs committed entry).1 := by
  obtain ⟨key, batch⟩ := entry
  show committed.1.Fills (committed.1.commitBatch readings scrape maxAgeMs key batch).2
  rcases commitBatch_cases readings scrape maxAgeMs committed.1 key batch with ⟨-, h⟩ |
    ⟨-, ⟨-, -, h⟩ | ⟨_, _, _, hfl, -, -, -, h⟩⟩
  · rw [h]
    exact Fills.refl _
  · rw [h]
    exact Fills.refl _
  · rw [h]
    exact hfl.put _

theorem commitEntry_outcomes (committed : LoadStore V × List (Outcome V)) :
    (commitEntry readings scrape maxAgeMs committed (key, batch)).2 =
      committed.2 ++
        [⟨key, batch, (committed.1.commitBatch readings scrape maxAgeMs key batch).1⟩] := rfl

/-- What a commit shows at one key. -/
def committedAt (committed : LoadStore V × List (Outcome V)) (key : String) :
    Option (Provider V) × List (Outcome V) :=
  (committed.1.providers[key]?, committed.2.filter fun outcome => outcome.key == key)

/-- A commit leaves the other providers and their outcomes alone. -/
theorem commitEntry_frame (committed : LoadStore V × List (Outcome V)) (entry : String × Batch V)
    (k : String) (hk : k ≠ entry.1) :
    committedAt (commitEntry readings scrape maxAgeMs committed entry) k =
      committedAt committed k := by
  obtain ⟨key, batch⟩ := entry
  refine Prod.ext ?_ ?_
  · show (committed.1.commitBatch readings scrape maxAgeMs key batch).2.providers[k]? = _
    rcases commitBatch_cases readings scrape maxAgeMs committed.1 key batch with ⟨-, h⟩ |
      ⟨-, ⟨-, -, h⟩ | ⟨_, _, _, -, hpr, -, -, h⟩⟩
    · rw [h]
      rfl
    · rw [h]
      rfl
    · rw [h, providers_put, if_neg (Ne.symm hk), hpr]
      rfl
  · have hkey : (key == k) = false := beq_eq_false_iff_ne.mpr (Ne.symm hk)
    simp [committedAt, commitEntry, hkey]

theorem commitResponse_fills (store : LoadStore V) (batches : Batches V) :
    store.Fills (store.commitResponse readings batches scrape maxAgeMs).1 := by
  show store.Fills (run (commitEntry readings scrape maxAgeMs) (store, []) batches.toList).1
  apply run_invariant (P := fun committed : LoadStore V × List (Outcome V) =>
    store.Fills committed.1)
  · exact fun committed entry h =>
      h.trans (commitEntry_fills readings scrape maxAgeMs committed entry)
  · exact Fills.refl store

/-- What the commits of a response do at one key. -/
inductive Committed (store : LoadStore V) (batches : Batches V) (key : String) :
    LoadStore V → List (Outcome V) → Prop
  | missing {store' : LoadStore V} (hbatch : batches[key]? = none)
    (hproviders : store'.providers[key]? = store.providers[key]?) :
    Committed store batches key store' []
  | old {batch : Batch V} {revision : Revision} {store' : LoadStore V}
    (hbatch : batches[key]? = some batch) (hrevision : batch.revision = some revision)
    (hbelow : store.Below batch.site revision.order)
    (hproviders : store'.providers[key]? = store.providers[key]?) :
    Committed store batches key store' [⟨key, batch, .rejected⟩]
  | capped {batch : Batch V} {store' : LoadStore V} (hbatch : batches[key]? = some batch)
    (hproviders : store'.providers[key]? = none) (hbefore : store.providers[key]? = none)
    (hclosed : store'.Closed batch.site) :
    Committed store batches key store' [⟨key, batch, .capped⟩]
  | decided {batch : Batch V} {store' : LoadStore V} {result : Commit} {provider : Provider V}
    (hbatch : batches[key]? = some batch)
    (hbelow : ∀ revision, batch.revision = some revision →
      ¬ store.Below batch.site revision.order)
    (hopen : store.providers[key]? = none → ¬ store.Closed batch.site)
    (hcommit : (store.held key).commit readings batch scrape maxAgeMs store.combine
      store.windowMs = (result, provider))
    (hproviders : store'.providers[key]? = some provider) :
    Committed store batches key store' [⟨key, batch, result⟩]

/-- **A provider is committed by its own batch only.** -/
theorem committed (store : LoadStore V) (batches : Batches V) (key : String) :
    Committed readings scrape maxAgeMs store batches key
      (store.commitResponse readings batches scrape maxAgeMs).1
      ((store.commitResponse readings batches scrape maxAgeMs).2.filter
        fun outcome => outcome.key == key) := by
  have hfr := commitEntry_frame readings scrape maxAgeMs
  generalize hrs : store.commitResponse readings batches scrape maxAgeMs = result
  have hrun : run (commitEntry readings scrape maxAgeMs) (store, []) batches.toList = result :=
    hrs
  rcases hbt : batches[key]? with - | batch
  · have hnt : key ∉ batches.toList.map Prod.fst := by
      intro hmem
      obtain ⟨⟨_, batch⟩, hen, rfl⟩ := List.mem_map.mp hmem
      cases hbt.symm.trans (ExtTreeMap.mem_toList_iff_getElem?_eq_some.mp hen)
    have hvw := run_frame (s := ((store, []) : LoadStore V × List (Outcome V))) hfr hnt
    rw [hrun] at hvw
    obtain ⟨hpr, hot⟩ := Prod.mk.inj hvw
    rw [hot]
    exact .missing hbt hpr
  · obtain ⟨s, hfl, hvw, haf, hfn⟩ := run_at (s := ((store, []) : LoadStore V × _))
      (R := fun a b => a.1.Fills b.1) (fun a => Fills.refl a.1) (fun _ _ _ => Fills.trans)
      (commitEntry_fills readings scrape maxAgeMs) hfr (nodup_map_fst_toList batches)
      (ExtTreeMap.mem_toList_iff_getElem?_eq_some.mpr hbt)
    rw [hrun] at hfn haf
    obtain ⟨hvw, hnn⟩ := Prod.mk.inj hvw
    have hvw : s.1.providers[key]? = store.providers[key]? := hvw
    have hbl : ∀ order, s.1.Below batch.site order ↔ store.Below batch.site order :=
      fun order => hfl.below_iff
    -- the outcome of this batch is the only one under its key
    have hot : result.2.filter (fun outcome => outcome.key == key) =
        [⟨key, batch, (s.1.commitBatch readings scrape maxAgeMs key batch).1⟩] := by
      refine (Prod.mk.inj hfn).2.trans ?_
      rw [commitEntry_outcomes, List.filter_append, hnn]
      simp
    have hpr : result.1.providers[key]? =
        (s.1.commitBatch readings scrape maxAgeMs key batch).2.providers[key]? :=
      (Prod.mk.inj hfn).1
    have haf : (s.1.commitBatch readings scrape maxAgeMs key batch).2.Fills result.1 := haf
    rw [hot]
    rcases commitBatch_cases readings scrape maxAgeMs s.1 key batch with ⟨hold, h⟩ |
      ⟨hold, ⟨hnn, hcl, h⟩ | ⟨s', commit, provider, -, -, hopen, hcom, h⟩⟩
    · obtain ⟨revision, hrev, hbw⟩ := hold
      rw [h] at hpr ⊢
      exact .old hbt hrev ((hbl _).mp hbw) (hpr.trans hvw)
    · rw [h] at hpr haf ⊢
      exact .capped hbt (hpr.trans hnn) (hvw.symm.trans hnn) (hcl.fills haf)
    · rw [h] at hpr ⊢
      rw [providers_put, if_pos rfl] at hpr
      refine .decided hbt (fun revision hrev hbw => ?_) (fun hnn hcl => ?_) ?_
        hpr
      · exact hold revision hrev ((hbl _).mpr hbw)
      · exact hopen (hvw.trans hnn) (hcl.fills hfl)
      · rw [← hcom, held_congr hvw, hfl.combine, hfl.window]

end Commits

/-! ### The whole ingest -/

/-- The three ways an ingest can end. -/
inductive Ingests (readings : Readings V) (store : LoadStore V) (scrape : ScrapeClock)
    (maxAgeMs : Int) (staged : Staged V) : LoadStore V × Ingested × List (Outcome V) → Prop
  | capped (hadvance : store.advanceOrders (store.incoming staged.batches) = none) :
    Ingests readings store scrape maxAgeMs staged (store.rejectResponse scrape, { capped := 1 }, [])
  | invalid {advanced : LoadStore V}
    (hadvance : store.advanceOrders (store.incoming staged.batches) = some advanced)
    (hinvalid : staged.invalid = true) :
    Ingests readings store scrape maxAgeMs staged
      ((advanced.rememberFences staged.batches).rejectResponse scrape, staged.rejected, [])
  | commits {advanced swept : LoadStore V} {tally : Ingested}
    (hadvance : store.advanceOrders (store.incoming staged.batches) = some advanced)
    (hinvalid : staged.invalid = false)
    (hswept : swept = (advanced.rememberFences staged.batches).invalidateMissing staged.batches
      scrape (store.incoming staged.batches)) :
    Ingests readings store scrape maxAgeMs staged
      ((swept.commitResponse readings staged.batches scrape maxAgeMs).1.retireSuperseded, tally,
        (swept.commitResponse readings staged.batches scrape maxAgeMs).2)

/-- **An ingest ends in one of the three ways.** -/
theorem ingests (readings : Readings V) (store : LoadStore V) (text : List Char)
    (scrape : ScrapeClock) (maxAgeMs : Int) (now : Option Clock) :
    Ingests readings store scrape maxAgeMs (stage readings text scrape now)
      (store.ingestOutcomes readings text scrape maxAgeMs now) := by
  unfold ingestOutcomes
  generalize stage readings text scrape now = staged
  dsimp only
  rcases hadv : store.advanceOrders (store.incoming staged.batches) with - | advanced
  · exact .capped hadv
  · dsimp only
    split_ifs with hinv
    · exact .invalid hadv hinv
    · exact .commits hadv (Bool.not_eq_true _ ▸ hinv) rfl

/-- The watermarks after an ingest are those from before, or the advanced ones. -/
theorem Ingests.orders {maxAgeMs : Int} {staged : Staged V}
    {result : LoadStore V × Ingested × List (Outcome V)}
    (h : Ingests readings store scrape maxAgeMs staged result) :
    result.1.revisionOrders = store.revisionOrders ∨ ∃ advanced,
      store.advanceOrders (store.incoming staged.batches) = some advanced ∧
        result.1.revisionOrders = advanced.revisionOrders := by
  cases h with
  | capped hadv => exact .inl rfl
  | invalid hadv hinv =>
    exact .inr ⟨_, hadv, (rememberFences_fills _ staged.batches).orders⟩
  | commits hadv hinv hsw =>
    refine .inr ⟨_, hadv,
      (commitResponse_fills readings scrape maxAgeMs _ staged.batches).orders.trans ?_⟩
    rw [hsw]
    exact (rememberFences_fills _ staged.batches).orders

/-! ### Operations -/

end LoadStore

/-- A response that is ingested, or a read of the learning state of a provider. -/
inductive SignalOp
  | ingest (text : List Char) (referenceMs localNowMs : Int) (owner : String) (now : Option Clock)
  | learningState (key : String) (nowMs maxAgeMs : Int)

namespace LoadStore

/-- The store after one operation. -/
def step (readings : Readings V) (store : LoadStore V) : SignalOp → LoadStore V
  | .ingest text referenceMs localNowMs owner now =>
    (store.ingestAt readings text referenceMs localNowMs owner now).1
  | .learningState key nowMs maxAgeMs => (store.learningState key nowMs maxAgeMs).2

/-- An empty store with the revision guard on. -/
def guarded (windowMs : Nat) (combine : String → Combine) (localSite : Option String)
    (maxAgeMs : Int) : LoadStore V :=
  ({ windowMs := windowMs, combine := combine, localSite := localSite } :
    LoadStore V).withRevisionGuard maxAgeMs

end LoadStore

end PraxisGrid
