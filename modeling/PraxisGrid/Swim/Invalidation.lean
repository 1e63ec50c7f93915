/-
PraxisGrid/Swim/Invalidation.lean

When the gossip queue may discard a broadcast.

A queued broadcast `b` is discarded in favour of `a` when their keys agree and `a` is not
older.  The key says which of four lanes a payload is on, not what it carries, so this is
sound only if `a` says again what `b` says: its metadata values, provider state, the
identities it takes from other scopes and its spend (`Covers`).  Then receiving `b` and `a`
leaves what receiving `a` leaves (`invalidation_sound`).  Each clause of `Covers` is needed
(`invalidation_loses`).
-/
import PraxisGrid.Swim.Convergence

namespace PraxisGrid

open Std OrdMap Bincode Saturate Scenario StateBroadcast

/-! ### Keys -/

namespace StateBroadcast

variable {a b : StateBroadcast}

theorem keyKind_eq_state_iff : b.keyKind = .state ↔ b.isMetadataOnly = false := by
  have hcr : b.isCertOnly = true → b.isMetadataOnly = true := by
    intro h
    simp only [isCertOnly, Bool.and_eq_true] at h
    exact h.2
  have hadd : b.isAddressOnly = true → b.isMetadataOnly = true := by
    intro h
    simp only [isAddressOnly, Bool.and_eq_true] at h
    exact h.2
  unfold keyKind
  rcases hmt : b.isMetadataOnly with - | -
  · have hcr : ¬ b.isCertOnly = true := fun h => by
      rw [hcr h] at hmt
      cases hmt
    have hadd : ¬ b.isAddressOnly = true := fun h => by
      rw [hadd h] at hmt
      cases hmt
    rw [if_neg hcr, if_neg hadd, if_neg Bool.false_ne_true]
    exact iff_of_true rfl rfl
  · rw [if_pos rfl]
    split_ifs <;> simp

/-- What the keys of an obsolete broadcast and its successor have in common. -/
theorem of_invalidates (hinv : a.key.invalidates b.key = true) :
    a.originSite = b.originSite ∧ b.revision ≤ a.revision ∧
      a.isMetadataOnly = b.isMetadataOnly ∧
      (b.isMetadataOnly = false → a.providerStateScope = b.providerStateScope) := by
  simp only [StateBroadcastKey.invalidates, Bool.and_eq_true, beq_iff_eq, decide_eq_true_eq] at hinv
  obtain ⟨⟨⟨horig, hgr⟩, hkn⟩, hrev⟩ := hinv
  have horig : a.originSite = b.originSite := horig
  have hkn : a.keyKind = b.keyKind := hkn
  have hmt : a.isMetadataOnly = false ↔ b.isMetadataOnly = false := by
    rw [← keyKind_eq_state_iff, ← keyKind_eq_state_iff, hkn]
  refine ⟨horig, hrev, ?_, fun hb => ?_⟩
  · rw [Bool.eq_iff_iff, ← Bool.not_eq_false, ← Bool.not_eq_false, hmt]
  · have hb' := keyKind_eq_state_iff.mpr hb
    have hgr : a.gridId = b.gridId := by
      simpa [key, hkn, hb'] using hgr
    rw [providerStateScope, providerStateScope, horig, hgr]

end StateBroadcast

/-! ### Lanes -/

namespace LaneRecord

variable {r : LaneRecord} {now : Clock} {lane : Lane} {a b : StateBroadcast}

/-- A value that the lane accepts replaces the values of older broadcasts. -/
theorem values_store_store (horig : a.originSite = b.originSite) (hle : b.revision ≤ a.revision)
    (hcov : ∀ value, b.laneValue lane = some value →
      (∃ value, a.laneValue lane = some value) ∧ a.revision ≤ maxMetadataRevision lane now)
    (site : String) :
    ((r.store now lane b).store now lane a).values[site]? =
      (r.store now lane a).values[site]? := by
  rcases hb : r.incoming now lane b with - | value
  · rw [store.eq_def r now lane b, hb]
  obtain ⟨hvl, -, hrn⟩ := incoming_eq_some_iff.mp hb
  obtain ⟨⟨value', hvl'⟩, hcap⟩ := hcov value hvl
  -- the lane takes `a` whether or not it took `b` before
  have ha : r.incoming now lane a = some value' := by
    refine incoming_eq_some_iff.mpr ⟨hvl', hcap, fun held hhl => ?_⟩
    rw [horig] at hhl
    have hnot := hrn held hhl
    rw [← Bool.not_eq_true, outranks_eq_true_iff] at hnot ⊢
    rintro ⟨hlt, hft⟩
    refine hnot ⟨UInt64.lt_of_le_of_lt hle hlt, .inl ?_⟩
    exact hft.resolve_right (UInt64.not_lt.mpr hcap)
  have hba : (r.store now lane b).incoming now lane a = some value' := by
    refine incoming_eq_some_iff.mpr ⟨hvl', hcap, fun held hhl => ?_⟩
    rw [horig, revisions_store, if_pos rfl, hb] at hhl
    obtain rfl : b.revision = held := Option.some.inj hhl
    rw [← Bool.not_eq_true, outranks_eq_true_iff]
    rintro ⟨hlt, -⟩
    exact UInt64.not_lt.mpr hle hlt
  rw [values_store, hba, values_store, values_store, ha]
  by_cases hst : a.originSite = site
  · rw [if_pos hst, if_pos hst]
    rfl
  · rw [if_neg hst, if_neg hst, if_neg (horig ▸ hst)]

end LaneRecord

namespace StateBroadcastHandler

variable {c : Crypto} {h h' h₁ : StateBroadcastHandler} {now : Clock} {a b : StateBroadcast}
  {tenants : ExtTreeSet String}

/-! ### What a merge leaves to other scopes -/

/-- After a merge, the scope has taken what it supplied. -/
theorem Consistent.ownerOutside_merged (hi : h.Consistent)
    (hall : b.Within (h.replacedNetworks b))
    (hcar : b.carriesProviderState = true) (now : Clock) (id : ProviderIdentity) :
    (h.merged now b).ownerOutside b.providerStateScope id =
      if b.supplies id then none else h.ownerOutside b.providerStateScope id := by
  rw [ownerOutside, hi.owners_merged hall hcar]
  split_ifs with hid
  · simp [Option.filter]
  · rw [ownerOutside, Option.filter_filter]
    congr
    funext owner
    exact Bool.and_self _

theorem Consistent.recordOutside_merged (hi : h.Consistent) (hpl : b.Plain)
    (hall : b.Within (h.replacedNetworks b))
    (hcar : b.carriesProviderState = true) (now : Clock) (k : String) :
    (h.merged now b).recordOutside b.providerStateScope k =
      if (b.supplied k).isSome then none else h.recordOutside b.providerStateScope k := by
  have how := hi.ownerOutside_merged hall hcar now
  rw [recordOutside, hi.providers_merged hpl hall hcar]
  rcases hsp : b.supplied k with - | q
  · rw [Option.none_or, Option.isSome_none, if_neg Bool.false_ne_true]
    apply Option.ext
    intro p
    rw [Option.filter_eq_some_iff, and_iff_left_iff_imp]
    intro hp
    -- the record is not supplied, so its owner stays
    obtain ⟨hhl, hout⟩ := Option.filter_eq_some_iff.mp hp
    have hnot : ¬ b.supplies (providerIdentity p) = true := by
      rw [hi.supplies_iff_supplied hpl hhl]
      rintro ⟨q, hq⟩
      cases hsp.symm.trans hq
    rw [how, if_neg hnot]
    exact hout
  · rw [Option.some_or, Option.isSome_some, if_pos rfl, Option.filter, how,
      if_pos (supplies_of_supplied hsp)]
    rfl

/-! ### Obsolete broadcasts -/

/-- The same records, owners, lane values, and spend of an origin. -/
structure SameOutcome (h h' : StateBroadcastHandler) (origin : String) : Prop where
  providers : ∀ k : String, h'.state.providers[k]? = h.state.providers[k]?
  owners : ∀ id : ProviderIdentity, h'.retained.providerOwners[id]? = h.retained.providerOwners[id]?
  spend : h.SameSpend h' origin
  lanes : ∀ (lane : Lane) (site : String),
    (h'.retained.lanes lane).values[site]? = (h.retained.lanes lane).values[site]?

theorem SameOutcome.refl (h : StateBroadcastHandler) (origin : String) : h.SameOutcome h origin :=
  ⟨fun _ => rfl, fun _ => rfl, fun _ => rfl, fun _ _ => rfl⟩

/-- `a` says again what `b` says: on every lane that `b` uses, with a revision the lane
accepts; and as a state broadcast, with a newer revision that is not from the future, it
carries provider state if `b` does, supplies every identity that `b` takes from another
scope, and claims at least the spend. -/
structure Covers (h : StateBroadcastHandler) (now : Clock) (a b : StateBroadcast) : Prop where
  lanes : ∀ (lane : Lane) (value : String), b.laneValue lane = some value →
    (∃ value, a.laneValue lane = some value) ∧ a.revision ≤ maxMetadataRevision lane now
  revision : b.isMetadataOnly = false →
    b.revision < a.revision ∧ a.revision ≤ maxLeasedRevision (wallMs now)
  records : b.carriesProviderState = true → a.carriesProviderState = true
  owners : ∀ id : ProviderIdentity, b.supplies id = true →
    a.supplies id = true ∨ h.ownerOutside b.providerStateScope id = none
  spend : ∀ tenant, b.claims tenant ≤ a.claims tenant

theorem Fresh.settle (hscope : a.providerStateScope = b.providerStateScope)
    (hrev : b.revision < a.revision) (hfresh : h.Fresh now a) :
    (h.settle now b).Fresh now a := by
  -- the guard is the old one or the one of `b`
  have hlatest : ∀ held,
      (h.settle now b).retained.latestByScope[a.providerStateScope]? = some held →
      held = b.revision ∨ h.retained.latestByScope[a.providerStateScope]? = some held := by
    intro held hheld
    rcases settle_cases h now b with ⟨hs, -⟩ | hs | ⟨-, -, hs⟩
    · rw [hs] at hheld
      exact .inr hheld
    · rw [hs] at hheld
      exact .inr hheld
    · rw [hs, retained_merged, latestByScope_mergedRetained, if_pos hscope.symm] at hheld
      exact .inl (Option.some.inj hheld).symm
  refine ⟨?_, fun held hheld => ?_, fun hheld => ?_⟩
  · rcases settle_cases h now b with ⟨hs, -⟩ | hs | ⟨-, -, hs⟩
    · rw [hs]
      exact hfresh.room
    · rw [hs]
      exact hfresh.room
    · rw [hs, hasRoomForScope, ExtTreeMap.contains_eq_isSome_getElem?, retained_merged,
        latestByScope_mergedRetained, if_pos hscope.symm]
      rfl
  · rcases hlatest held hheld with rfl | hheld
    · rw [← Bool.not_eq_true, outranks_eq_true_iff]
      rintro ⟨hlt, -⟩
      exact UInt64.lt_asymm hlt hrev
    · exact hfresh.rank held hheld
  · rcases hlatest _ hheld with heq | hheld
    · rw [heq] at hrev
      exact UInt64.lt_irrefl _ hrev
    · exact hfresh.new hheld

/-- If `a` is not fresh, an older broadcast of its scope is ignored. -/
theorem settle_of_not_fresh (hsc : a.providerStateScope = b.providerStateScope)
    (hmt : b.isMetadataOnly = false) (hrev : b.revision < a.revision)
    (hcap : a.revision ≤ maxLeasedRevision (wallMs now)) (hfr : ¬ h.Fresh now a) :
    h.settle now b = h := by
  rcases hrm : h.hasRoomForScope b.providerStateScope with - | -
  · simp only [settle, hmt, hrm, Bool.false_eq_true, if_false, Bool.not_false, if_true]
  -- what keeps `a` out is newer than `b` and not from the future
  have hrn : (h.retained.latestByScope[b.providerStateScope]?.any fun held =>
      outranks held b.revision (maxLeasedRevision (wallMs now))) = true := by
    by_contra hnot
    rw [Bool.not_eq_true, Option.any_eq_false] at hnot
    refine hfr ⟨?_, fun held hhl => ?_, fun hhl => ?_⟩
    · rw [hsc]
      exact hrm
    · rw [hsc] at hhl
      have hb := hnot held hhl
      rw [← Bool.not_eq_true, outranks_eq_true_iff] at hb ⊢
      rintro ⟨hlt, hft⟩
      refine hb ⟨UInt64.lt_trans hrev hlt, .inl ?_⟩
      exact hft.resolve_right (UInt64.not_lt.mpr hcap)
    · rw [hsc] at hhl
      have hb := hnot a.revision hhl
      rw [← Bool.not_eq_true, outranks_eq_true_iff] at hb
      exact hb ⟨hrev, .inl hcap⟩
  simp only [settle, hmt, hrm, hrn, Bool.false_eq_true, if_false, Bool.not_true, if_true]

/-- Merges of one broadcast into handlers that agree outside what it supplies. -/
theorem Consistent.merged_agree (hi : h.Consistent) (hi' : h'.Consistent) (hpl : a.Plain)
    (hall : a.Within (h.replacedNetworks a))
    (hall' : a.Within (h'.replacedNetworks a))
    (hcar : a.carriesProviderState = true) (htr : h'.trust = h.trust)
    (how : ∀ id, ¬ a.supplies id = true →
      h'.ownerOutside a.providerStateScope id = h.ownerOutside a.providerStateScope id)
    (hrc : ∀ k, a.supplied k = none →
      h'.recordOutside a.providerStateScope k = h.recordOutside a.providerStateScope k) :
    (∀ k : String, (h'.merged now a).state.providers[k]? = (h.merged now a).state.providers[k]?) ∧
      ∀ id : ProviderIdentity, (h'.merged now a).retained.providerOwners[id]? =
        (h.merged now a).retained.providerOwners[id]? := by
  refine ⟨fun k => ?_, fun id => ?_⟩
  · rw [hi.providers_merged hpl hall hcar, hi'.providers_merged hpl hall' hcar]
    rcases hsp : a.supplied k with - | q
    · rw [hrc k hsp]
    · rfl
  · rw [hi.owners_merged hall hcar, hi'.owners_merged hall' hcar, mergesVerified,
      mergesVerified, htr]
    split_ifs with hid
    · rfl
    · exact how id hid

/-- A covered merge leaves to other scopes what `a` does not supply. -/
theorem Consistent.outside_of_covers (hi : h.Consistent) (hpl : b.Plain) (hpl' : a.Plain)
    (hall : b.Within (h.replacedNetworks b))
    (hcar : b.carriesProviderState = true)
    (hcov : ∀ id : ProviderIdentity, b.supplies id = true →
      a.supplies id = true ∨ h.ownerOutside b.providerStateScope id = none) :
    (∀ id, ¬ a.supplies id = true → (h.merged now b).ownerOutside b.providerStateScope id =
        h.ownerOutside b.providerStateScope id) ∧
      ∀ k, a.supplied k = none → (h.merged now b).recordOutside b.providerStateScope k =
        h.recordOutside b.providerStateScope k := by
  refine ⟨fun id hid => ?_, fun k hk => ?_⟩
  · rw [hi.ownerOutside_merged hall hcar]
    split_ifs with hb
    · rw [(hcov id hb).resolve_left hid]
    · rfl
  · rw [hi.recordOutside_merged hpl hall hcar]
    split_ifs with hb
    · -- a record of another scope under a key of `b` would be one that `a` supplies
      symm
      rw [Option.eq_none_iff_forall_ne_some]
      intro p hp
      obtain ⟨hhl, hout⟩ := Option.filter_eq_some_iff.mp hp
      have hid := (hi.supplies_iff_supplied hpl hhl).mpr (Option.isSome_iff_exists.mp hb)
      rcases hcov _ hid with ha | hnn
      · obtain ⟨q, hq⟩ := (hi.supplies_iff_supplied hpl' hhl).mp ha
        cases hk.symm.trans hq
      · rw [hnn] at hout
        cases hout
    · rfl

theorem verifySignatureIfPinned_congr (htr : h'.trust = h.trust) :
    h'.verifySignatureIfPinned c now b = h.verifySignatureIfPinned c now b := by
  have han : h'.admission b = h.admission b := by
    simp only [admission, htr]
  have hnt : ∀ grid networks,
      h'.validateProviderNetworks grid networks = h.validateProviderNetworks grid networks := by
    intro grid networks
    simp only [validateProviderNetworks, htr]
  simp only [verifySignatureIfPinned, han, hnt]

theorem Admits.settle (hi : h.Owned) (hbnd : h.Bounded) (horig : a.originSite = b.originSite)
    (hadm : h.Admits c now a h₁) :
    (h₁.settle now b).Admits c now a (h₁.settle now b) where
  version := hadm.version
  verified := by
    have htr : (h₁.settle now b).trust = h.trust :=
      trust_settle.trans (trust_of_makeRoomFor hadm.room)
    rw [verifySignatureIfPinned_congr htr]
    exact hadm.verified
  room := by
    have hrm := hbnd.room hadm.room
    rw [horig] at hrm ⊢
    exact makeRoomFor_settle (hi.makeRoomFor hadm.room) hrm

theorem values_settle_offerMetadata (horig : a.originSite = b.originSite)
    (hle : b.revision ≤ a.revision) (hcov : h'.Covers now a b) (lane : Lane) (site : String) :
    (((h.settle now b).offerMetadata now a).retained.lanes lane).values[site]? =
      ((h.offerMetadata now a).retained.lanes lane).values[site]? := by
  have hst := LaneRecord.values_store_store (r := h.retained.lanes lane) horig hle
    (hcov.lanes lane) site
  rw [lanes_offerMetadata, lanes_offerMetadata, ← hst]
  rcases settle_cases h now b with ⟨hs, -⟩ | hs | ⟨-, -, hs⟩
  · rw [hs, hst]
  · rw [hs, lanes_offerMetadata]
  · rw [hs, retained_merged, lanes_mergedRetained, lanes_offerMetadata]

theorem spendSlot_settle_merged (horig : a.originSite = b.originSite)
    (hsp : h.state.SpendRoom b.originSite tenants)
    (hcl : SpendsOn b tenants) (hcl' : SpendsOn a tenants)
    (hle : ∀ tenant, b.claims tenant ≤ a.claims tenant) (tenant : String) :
    (((h.settle now b).offerMetadata now a).merged now a).state.spendSlot tenant a.originSite =
      ((h.offerMetadata now a).merged now a).state.spendSlot tenant a.originSite := by
  -- a merge of `a` raises the slot
  have hrs : ∀ h : StateBroadcastHandler, h.state.SpendRoom b.originSite tenants →
      ((h.offerMetadata now a).merged now a).state.spendSlot tenant a.originSite =
        raise (h.state.spendSlot tenant b.originSite) (a.claims tenant) := by
    intro h hsp
    rw [← horig] at hsp ⊢
    rw [state_merged, spendSlot_mergedState]
    exact (hsp.mergeTenantSpendFromOrigin (hcl' _ _)).2 tenant
  rw [hrs _ (spendRoom_settle hsp hcl), hrs _ hsp]
  rcases settle_cases h now b with ⟨hs, -⟩ | hs | ⟨-, -, hs⟩
  · rw [hs]
  · rw [hs]
    rfl
  · rw [hs, state_merged, spendSlot_mergedState]
    have hsl := (hsp.mergeTenantSpendFromOrigin (hcl _ _)).2 tenant
    refine (congrArg (fun slot => raise slot (a.claims tenant)) hsl).trans ?_
    exact raise_raise (hle tenant)

/-- What an obsolete broadcast leaves outside of what its successor supplies. -/
theorem Consistent.outside_settle (hi : h.Consistent) (hpl : b.Plain) (hpl' : a.Plain)
    (hall : b.carriesProviderState = true → b.Within ((h.offerMetadata now b).replacedNetworks b))
    (hcov : ∀ id : ProviderIdentity, b.supplies id = true →
      a.supplies id = true ∨ h.ownerOutside b.providerStateScope id = none) :
    (∀ id, ¬ a.supplies id = true → (h.settle now b).ownerOutside b.providerStateScope id =
        h.ownerOutside b.providerStateScope id) ∧
      ∀ k, a.supplied k = none → (h.settle now b).recordOutside b.providerStateScope k =
        h.recordOutside b.providerStateScope k := by
  rcases hcar : b.carriesProviderState with - | -
  · obtain ⟨hpr, hos⟩ := settle_of_not_carries h now hcar
    have how : ∀ id, (h.settle now b).ownerOutside b.providerStateScope id =
        h.ownerOutside b.providerStateScope id := by
      intro id
      rw [ownerOutside, hos, ownerOutside]
    refine ⟨fun id _ => how id, fun k _ => ?_⟩
    simp only [recordOutside, hpr, how]
  · rcases settle_cases h now b with ⟨hs, -⟩ | hs | ⟨-, -, hs⟩
    · rw [hs]
      exact ⟨fun _ _ => rfl, fun _ _ => rfl⟩
    · rw [hs]
      exact ⟨fun _ _ => rfl, fun _ _ => rfl⟩
    · rw [hs]
      exact hi.offerMetadata.outside_of_covers hpl hpl' (hall hcar) hcar hcov

/-- Records and owners after an obsolete state broadcast and its successor. -/
theorem Consistent.records_settle_settle (hi : h.Consistent) (hbnd : h.Bounded)
    (ha : h.Admits c now a h₁) (hb : h.Admits c now b h₁) (hpl : a.Plain) (hpl' : b.Plain)
    (hcov : h₁.Covers now a b) (hmt : b.isMetadataOnly = false)
    (hsc : a.providerStateScope = b.providerStateScope) (hfr : h₁.Fresh now a) :
    (∀ k : String, ((h₁.settle now b).settle now a).state.providers[k]? =
        (h₁.settle now a).state.providers[k]?) ∧
      ∀ id : ProviderIdentity, ((h₁.settle now b).settle now a).retained.providerOwners[id]? =
        (h₁.settle now a).retained.providerOwners[id]? := by
  have horig : a.originSite = b.originSite := congrArg ProviderStateScope.originSite hsc
  rcases hcar : a.carriesProviderState with - | -
  · -- neither of the two carries provider state
    have hcar' : b.carriesProviderState = false := by
      rw [← Bool.not_eq_true]
      intro hc
      rw [hcov.records hc] at hcar
      cases hcar
    obtain ⟨hpr, how⟩ := settle_of_not_carries (h₁.settle now b) now hcar
    obtain ⟨hpr', how'⟩ := settle_of_not_carries h₁ now hcar'
    obtain ⟨hpr'', how''⟩ := settle_of_not_carries h₁ now hcar
    exact ⟨fun k => by rw [hpr, hpr', hpr''],
      fun id => by rw [how, how', how'']⟩
  · have hmt' : a.isMetadataOnly = false :=
      isMetadataOnly_eq_false_of_carriesProviderState hcar
    have hfr' : (h₁.settle now b).Fresh now a :=
      hfr.settle hsc (hcov.revision hmt).1
    have hi₁ := hi.makeRoomFor ha.room
    have hi' : (h₁.settle now b).Consistent := hi.settle hb hpl'
    have ha' := ha.settle hi.owned hbnd horig
    obtain ⟨how, hrc⟩ := hi₁.outside_settle hpl' hpl
      (fun hc p hp => hi.authorized.mem_replacedNetworks hb hmt hc hp) hcov.owners
    rw [← hsc] at how hrc
    rw [settle_of_fresh hmt' hfr, settle_of_fresh hmt' hfr']
    exact hi₁.offerMetadata.merged_agree hi'.offerMetadata hpl
      (fun p hp => hi.authorized.mem_replacedNetworks ha hmt' hcar hp)
      (fun p hp => hi'.authorized.mem_replacedNetworks ha' hmt' hcar hp) hcar
      trust_settle how hrc

/-- **An obsolete broadcast leaves no trace** once its successor settles. -/
theorem Consistent.settle_settle (hi : h.Consistent) (hbnd : h.Bounded)
    (ha : h.Admits c now a h₁) (hb : h.Admits c now b h₁) (hinv : a.key.invalidates b.key = true)
    (hpl : a.Plain) (hpl' : b.Plain) (hcov : h₁.Covers now a b)
    (hsp : h₁.state.SpendRoom b.originSite tenants)
    (hcl : SpendsOn b tenants) (hcl' : SpendsOn a tenants) :
    (h₁.settle now a).SameOutcome ((h₁.settle now b).settle now a) a.originSite := by
  obtain ⟨horig, hle, hkn, hsc⟩ := of_invalidates hinv
  have hln := values_settle_offerMetadata (h := h₁) horig hle hcov
  rcases hmt : b.isMetadataOnly with - | -
  · -- state: `a` is merged after `b` as it is merged alone, or `b` was ignored
    have hmt' := hkn.trans hmt
    have hsc := hsc hmt
    obtain ⟨hrev, hcap⟩ := hcov.revision hmt
    by_cases hfr : h₁.Fresh now a
    · obtain ⟨hpr, how⟩ := hi.records_settle_settle hbnd ha hb hpl hpl'
        hcov hmt hsc hfr
      have hs := settle_of_fresh hmt' hfr
      have hs' := settle_of_fresh hmt' (hfr.settle hsc hrev)
      refine ⟨hpr, how, fun tenant => ?_, fun lane site => ?_⟩
      · rw [hs, hs']
        exact spendSlot_settle_merged horig hsp hcl hcl' hcov.spend tenant
      · rw [hs, hs', retained_merged, retained_merged, lanes_mergedRetained, lanes_mergedRetained]
        exact hln lane site
    · rw [settle_of_not_fresh hsc hmt hrev hcap hfr]
      exact .refl _ _
  · -- metadata: only the lanes are touched
    rw [settle_of_metadataOnly (hkn.trans hmt), settle_of_metadataOnly (hkn.trans hmt)]
    have hs : h₁.settle now b = h₁.offerMetadata now b := settle_of_metadataOnly hmt
    refine ⟨fun k => ?_, fun id => ?_, fun tenant => ?_, hln⟩
    · rw [hs]
      rfl
    · rw [hs]
      rfl
    · rw [hs]
      rfl

/-- **Discarding an obsolete broadcast is sound.**  After a run over plain names that left no
verified values behind, let `a` and `b` pass verification and let the key of `a` invalidate
the key of `b`.  If `a` covers `b` and the spend tables have room, receiving `b` and then `a`
leaves the records, owners, lane values, and spend of the origin that receiving `a` alone
leaves. -/
theorem invalidation_sound {siteId : String} {maxOrigins : Nat} {ops : List NodeOp}
    (hops : PlainRun c siteId maxOrigins ops)
    (ha : a.version = stateBroadcastVersion ∧
      ((withCapacity siteId maxOrigins).run c ops).verifySignatureIfPinned c now a = .ok ())
    (hb : b.version = stateBroadcastVersion ∧
      ((withCapacity siteId maxOrigins).run c ops).verifySignatureIfPinned c now b = .ok ())
    (hinv : a.key.invalidates b.key = true) (hplain : a.Plain) (hplain' : b.Plain)
    (hcovers : ((withCapacity siteId maxOrigins).run c ops).Covers now a b)
    (hspend : ((withCapacity siteId maxOrigins).run c ops).state.SpendRoom b.originSite tenants)
    (hclaims : ∀ {tenant : String} {counter : GCounter},
      b.snapshot.tenantSpend[tenant]? = some counter → tenant ∈ tenants)
    (hclaims' : ∀ {tenant : String} {counter : GCounter},
      a.snapshot.tenantSpend[tenant]? = some counter → tenant ∈ tenants) :
    let h := (withCapacity siteId maxOrigins).run c ops
    (h.receiveStateBroadcast c now a).2.SameOutcome
      ((h.receiveStateBroadcast c now b).2.receiveStateBroadcast c now a).2 a.originSite := by
  intro h
  have hi : h.Consistent := hops.consistent
  have hbn : h.Bounded := .run siteId maxOrigins ops
  obtain ⟨horigin, -⟩ := StateBroadcast.of_invalidates hinv
  rcases hrm : h.makeRoomFor b.originSite with - | h₁
  · -- there is no room for the origin: both are dropped
    have hdr : (h.receiveStateBroadcast c now b).2 = h := by
      refine (receiveStateBroadcast_of_not_admits fun h₁ hadm => ?_).1
      rw [hadm.room] at hrm
      cases hrm
    rw [hdr]
    exact .refl _ _
  · have ha₁ : h.Admits c now a h₁ := ⟨ha.1, ha.2, by rw [horigin]; exact hrm⟩
    have hb₁ : h.Admits c now b h₁ := ⟨hb.1, hb.2, hrm⟩
    have hsm : h.SameSite h₁ b.originSite := .makeRoomFor hrm (victim_ne_self h b.originSite)
    -- what `b` takes from other scopes is of its own site, and stays when room is made
    have hcovers₁ : h₁.Covers now a b := by
      refine ⟨hcovers.lanes, hcovers.revision, hcovers.records, fun id hid => ?_, hcovers.spend⟩
      refine (hcovers.owners id hid).imp_right fun hnn => ?_
      obtain ⟨p, hp, rfl⟩ := StateBroadcast.supplies_iff.mp hid
      rw [ownerOutside, hsm.scopes.owners _ (StateBroadcast.mem_ownProviders.mp hp).2]
      exact hnn
    have hspend₁ := spendRoom_of_makeRoomFor hrm hspend
    rw [receiveStateBroadcast_of_admits hb₁, receiveStateBroadcast_of_admits ha₁,
      receiveStateBroadcast_of_admits (ha₁.settle hi.owned hbn horigin)]
    exact hi.settle_settle hbn ha₁ hb₁ hinv hplain hplain' hcovers₁ hspend₁ (fun _ _ => hclaims)
      fun _ _ => hclaims'

theorem covers_closingItem :
    ((withCapacity "self" 4).run crypto toolRun).Covers 0 closingItem replacingItem := by
  refine ⟨fun lane value hvl => ?_, fun _ => by decide, fun _ => by decide, fun id hid => ?_,
    fun tenant => UInt64.zero_le⟩
  · cases lane <;> cases hvl
  · -- the provider of the obsolete broadcast is new to the handler
    right
    have hnew : ∀ p ∈ replacingItem.ownProviders,
        ((withCapacity "self" 4).run crypto toolRun).ownerOutside
          replacingItem.providerStateScope (providerIdentity p) = none := by decide
    obtain ⟨p, hp, rfl⟩ := supplies_iff.mp hid
    exact hnew p hp

theorem invalidation_sound_toolRun :
    let h := (withCapacity "self" 4).run crypto toolRun
    closingItem.key.invalidates replacingItem.key = true ∧
      (h.receiveStateBroadcast crypto 0 closingItem).2.SameOutcome
        ((h.receiveStateBroadcast crypto 0 replacingItem).2.receiveStateBroadcast
          crypto 0 closingItem).2 "site" := by
  have hinv : closingItem.key.invalidates replacingItem.key = true := by decide
  have hpl : closingItem.Plain ∧ replacingItem.Plain := by
    unfold StateBroadcast.Plain ProviderState.Plain
    decide
  exact ⟨hinv, invalidation_sound plainRun_toolRun ⟨rfl, by decide⟩ ⟨rfl, by decide⟩ hinv
    hpl.1 hpl.2 covers_closingItem spendRoom_toolRun
    (claims_closingItem replacingItem List.mem_cons_self _ _)
    (claims_closingItem closingItem (List.mem_cons_of_mem _ List.mem_cons_self) _ _)⟩

/-- The key of `a` invalidates the key of `b`, and what a handler shows after `b` and `a` is
not what it shows after `a` alone. -/
def Loses {α : Type} (h : StateBroadcastHandler) (a b : StateBroadcast)
    (shown : StateBroadcastHandler → α) : Prop :=
  a.key.invalidates b.key = true ∧
    shown ((h.receiveStateBroadcast crypto 0 b).2.receiveStateBroadcast
      crypto 0 a).2 ≠ shown (h.receiveStateBroadcast crypto 0 a).2

/-- A discarded broadcast is lost if its successor does not say again what it says: provider
state before spend, spend before provider state, another address, an address before one from
the future, another value of the same revision, or a provider taken from another scope.  And where
a spend table has one place left, the discarded claim is not merged first. -/
theorem invalidation_loses :
    let start := withCapacity "self" 4
    let provider := broadcast "site" 1 [record "net" "site" "model"]
    let spend := fun revision => spend "site" revision "tenant" 5
    let empty := fun revision =>
      { broadcast "site" revision [] with authoritativeProviderState := true }
    let gateway := fun revision =>
      { broadcast "site" revision [] with gatewayAddress := some "gateway" }
    let signals := { broadcast "site" 1 [] with signalsAddress := some "signals" }
    let held := (start.receiveStateBroadcast crypto 0
      { provider with gridId := some "grid" }).2
    let records := fun h : StateBroadcastHandler => h.state.providers.keys
    let values := fun lane (h : StateBroadcastHandler) => (h.retained.lanes lane).values["site"]?
    start.Loses (spend 2) provider records ∧
      start.Loses (empty 2) (spend 1) (fun h => h.state.spendSlot "tenant" "site") ∧
      start.Loses (gateway 2) signals (values .signals) ∧
      start.Loses (gateway 1000000) (gateway 1) (values .gateway) ∧
      start.Loses (empty 1) provider records ∧
      held.Loses (empty 2) provider records ∧
      ∀ snap : GridStateSnapshot, snap.tenantSpend.size + 1 = maxTrackedTenants →
        snap.tenantSpend["a"]? = none → snap.tenantSpend["b"]? = none →
        let discarded := GridStateSnapshot.centOf "site" ["b"]
        let successor := GridStateSnapshot.centOf "site" ["a", "b"]
        let merge := fun snap : GridStateSnapshot => snap.mergeTenantSpendFromOrigin "site"
        (merge (merge snap discarded) successor).spendSlot "b" "site" = some 1 ∧
          (merge snap successor).spendSlot "b" "site" = none := by
  simp only [Loses]
  refine ⟨?_, ?_, ?_, ?_, ?_, ?_, fun snap hsz ha hb => ?_⟩
  all_goals first
    | decide
    | exact GridStateSnapshot.last_place_depends_on_order hsz ha hb

end StateBroadcastHandler

end PraxisGrid
