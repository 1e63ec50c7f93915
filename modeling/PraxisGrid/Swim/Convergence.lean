/-
PraxisGrid/Swim/Convergence.lean

Delivery order does not matter to one scope.

What a handler holds for a scope is a register with a revision guard (`ScopeView`).  A newer
broadcast sets the guard, replaces the records if it carries provider state, and raises the spend; an
older one does nothing.  The handler refines the register (`view_receive`), as long as the guard it
holds is not from the future.

On registers the newest broadcast of a series absorbs the others, so every delivery ends in the same
register (`delivery_order_converges`).  One guard covers records and spend, so a spend-only broadcast
shuts out older provider state that comes after it (`delivery_order_matters`).
-/
import Mathlib.Data.Set.Finite.Lemmas
import PraxisGrid.Crdt.Spend
import PraxisGrid.Swim.Replacement

namespace PraxisGrid

open Std OrdMap Bincode Saturate Scenario UInt64

def StateBroadcast.claims (b : StateBroadcast) (tenant : String) : UInt64 :=
  claimedSpend b.snapshot.tenantSpend b.originSite tenant

/-! ### The register of a scope -/

/-- What a handler holds for one scope, and whether it can retain the scope at all. -/
@[ext] structure ScopeView where
  guard : Option UInt64
  fits : Bool
  records : String → Option ProviderState
  spend : String → Option UInt64

namespace ScopeView

/-- Whether a broadcast is merged: the scope can be retained, and the revision is newer than
the guard. -/
def takes (v : ScopeView) (b : StateBroadcast) : Bool :=
  v.fits && v.guard.all fun held => held < b.revision

def receive (v : ScopeView) (b : StateBroadcast) : ScopeView :=
  if v.takes b then
    { v with
      guard := some b.revision
      records := if b.carriesProviderState then b.supplied else v.records
      spend := fun tenant => raise (v.spend tenant) (b.claims tenant) }
  else v

variable {v : ScopeView} {u m b : StateBroadcast}

/-- Everything `u` says is said by `m` again. -/
structure Subsumes (m u : StateBroadcast) : Prop where
  newer : u = m ∨ u.revision < m.revision
  records : u.carriesProviderState = true → m.carriesProviderState = true
  spend : ∀ tenant, u.claims tenant ≤ m.claims tenant

theorem takes_eq_true_iff :
    v.takes b = true ↔ v.fits = true ∧ ∀ held, v.guard = some held → held < b.revision := by
  unfold takes
  cases v.guard with
  | none => simp
  | some held => simp

/-- A broadcast is not taken again, nor is anything older. -/
theorem takes_receive (hum : Subsumes m u) : (v.receive m).takes u = false := by
  rw [← Bool.not_eq_true, takes_eq_true_iff]
  rintro ⟨hft, hgr⟩
  have hle : u.revision ≤ m.revision := by
    rcases hum.newer with rfl | hlt
    · exact le_refl _
    · exact le_of_lt hlt
  by_cases htk : v.takes m = true
  · rw [receive, if_pos htk] at hgr
    exact not_lt.mpr hle (hgr m.revision rfl)
  · -- what shuts out `m` shuts out `u`
    rw [receive, if_neg htk] at hft hgr
    refine htk (takes_eq_true_iff.mpr ⟨hft, fun held hhl => ?_⟩)
    exact lt_of_lt_of_le (hgr held hhl) hle

theorem receive_of_not_takes (htk : v.takes b = false) : v.receive b = v := by
  rw [receive, htk, if_neg Bool.false_ne_true]

/-- **A broadcast absorbs what it subsumes and came before it.** -/
theorem receive_receive (hum : Subsumes m u) : (v.receive u).receive m = v.receive m := by
  rcases hu : v.takes u with - | -
  · rw [receive_of_not_takes hu]
  rcases hum.newer with rfl | hlt
  · exact receive_of_not_takes (takes_receive hum)
  have hm : v.takes m = true := by
    obtain ⟨hft, hgr⟩ := takes_eq_true_iff.mp hu
    exact takes_eq_true_iff.mpr
      ⟨hft, fun held hhl => lt_trans (hgr held hhl) hlt⟩
  have hum' : (v.receive u).takes m = true := by
    rw [receive, if_pos hu]
    obtain ⟨hft, -⟩ := takes_eq_true_iff.mp hu
    refine takes_eq_true_iff.mpr ⟨hft, fun held hhl => ?_⟩
    obtain rfl : u.revision = held := Option.some.inj hhl
    exact hlt
  rw [receive, if_pos hum', receive, if_pos hu, receive, if_pos hm]
  ext1
  · rfl
  · rfl
  · -- the records are those of `m`, or nobody carries any
    rcases hcar : m.carriesProviderState with - | -
    · rcases hcar' : u.carriesProviderState with - | -
      · rfl
      · rw [hum.records hcar'] at hcar
        cases hcar
    · rfl
  · funext tenant
    exact raise_raise (hum.spend tenant)

end ScopeView

namespace StateBroadcastHandler

variable {c : Crypto} {h h' h₁ : StateBroadcastHandler} {now : Clock} {b : StateBroadcast}
  {scope : ProviderStateScope} {series : List StateBroadcast}

/-! ### The handler refines the register -/

def view (h : StateBroadcastHandler) (scope : ProviderStateScope) : ScopeView where
  guard := h.retained.latestByScope[scope]?
  fits := (h.makeRoomFor scope.originSite).any fun h₁ => h₁.hasRoomForScope scope
  records k := h.state.providers[k]?.filter fun p =>
    h.retained.providerOwners[providerIdentity p]?.any fun owner => owner.scope == scope
  spend tenant := h.state.spendSlot tenant scope.originSite

theorem records_view_eq_some_iff {k : String} {p : ProviderState} :
    (h.view scope).records k = some p ↔ h.Holds scope k p := by
  simp only [view, Option.filter_eq_some_iff, Option.any_eq_true, beq_iff_eq]
  rfl

theorem records_view_congr
    (hhl : ∀ (k : String) (p : ProviderState), h'.Holds scope k p ↔ h.Holds scope k p) :
    (h'.view scope).records = (h.view scope).records := by
  funext k
  apply Option.ext
  intro p
  rw [records_view_eq_some_iff, records_view_eq_some_iff, hhl]

theorem SameSite.holds_iff (hs : h.SameSite h' scope.originSite) (hi : h.Owned) (hi' : h'.Owned)
    (k : String) (p : ProviderState) : h'.Holds scope k p ↔ h.Holds scope k p := by
  constructor
  · rintro ⟨hp, owner, ho, rfl⟩
    have hst : p.siteId = owner.scope.originSite := (hi'.site_eq ho).symm
    exact ⟨(hs.records k p hst).mp hp, owner,
      (hs.scopes.owners _ hst).symm.trans ho, rfl⟩
  · rintro ⟨hp, owner, ho, rfl⟩
    have hst : p.siteId = owner.scope.originSite := (hi.site_eq ho).symm
    exact ⟨(hs.records k p hst).mpr hp, owner, (hs.scopes.owners _ hst).trans ho, rfl⟩

theorem mem_knownOrigins_settle {o : String} (ho : o ∈ h.retained.knownOrigins) :
    o ∈ (h.settle now b).retained.knownOrigins := by
  -- offering metadata forgets no lane
  have hof : o ∈ (h.offerMetadata now b).retained.knownOrigins := by
    rw [RetainedOrigins.mem_knownOrigins] at ho ⊢
    refine ho.imp_right fun ho => ho.imp_right fun ho => ho.imp_right ?_
    rintro ⟨lane, hln⟩
    refine ⟨lane, ?_⟩
    rw [lanes_offerMetadata, LaneRecord.values_store, LaneRecord.revisions_store]
    rcases (h.retained.lanes lane).incoming now lane b with - | value
    · simpa using hln
    · by_cases hst : b.originSite = o
      · simp [hst]
      · simpa [hst] using hln
  rcases settle_cases h now b with ⟨hs, -⟩ | hs | ⟨-, -, hs⟩
  · rw [hs]
    exact ho
  · rw [hs]
    exact hof
  · rw [hs, retained_merged, RetainedOrigins.mem_knownOrigins]
    rcases RetainedOrigins.mem_knownOrigins.mp hof with
      ⟨scope, ⟨revision, hhl⟩, rfl⟩ | ⟨scope, ⟨networks, hhl⟩, rfl⟩ | hrs
    · refine .inl ⟨scope, ?_, rfl⟩
      rw [latestByScope_mergedRetained]
      split_ifs
      · exact ⟨_, rfl⟩
      · exact ⟨_, hhl⟩
    · refine .inr (.inl ⟨scope, ?_, rfl⟩)
      rw [providerNetworksByScope_mergedRetained]
      split_ifs
      · exact ⟨_, rfl⟩
      · exact ⟨_, hhl⟩
    · exact .inr (.inr hrs)

/-- Room for an origin is made once: its broadcasts leave the room. -/
theorem makeRoomFor_settle (hi : h.Owned)
    (hrm : b.originSite ∈ h.retained.knownOrigins ∨
      h.retained.knownOrigins.size < h.maxOrigins) :
    (h.settle now b).makeRoomFor b.originSite = some (h.settle now b) := by
  apply makeRoomFor_of_fits
  rw [Bool.or_eq_true, ExtTreeSet.contains_iff_mem, decide_eq_true_eq, capacity_settle.1]
  by_cases hkn : b.originSite ∈ (h.settle now b).retained.knownOrigins
  · exact .inl hkn
  · right
    have hlt := hrm.resolve_left fun ho => hkn (mem_knownOrigins_settle ho)
    refine Nat.lt_of_le_of_lt (size_le_of_subset fun o ho => ?_) hlt
    rcases knownOrigins_settle hi ho with rfl | ho'
    · exact absurd ho hkn
    · exact ho'

/-- Once there is room for the origin, the room for the scope decides. -/
theorem fits_view (scope : ProviderStateScope)
    (hrm : h.makeRoomFor scope.originSite = some h') :
    (h.view scope).fits = h'.hasRoomForScope scope := by
  simp only [view, hrm, Option.any_some]

/-- The guard decides as the register does, if it is not from the future. -/
theorem fresh_iff_takes (hrm : h.makeRoomFor b.originSite = some h)
    (hgr : ∀ held, h.retained.latestByScope[b.providerStateScope]? = some held →
      held ≤ maxLeasedRevision (wallMs now)) :
    h.Fresh now b ↔ (h.view b.providerStateScope).takes b = true := by
  have hft := fits_view b.providerStateScope hrm
  rw [ScopeView.takes_eq_true_iff, hft]
  constructor
  · intro hfr
    refine ⟨hfr.room, fun held hhl => ?_⟩
    have hrn := hfr.rank held hhl
    rw [← Bool.not_eq_true, outranks_eq_true_iff] at hrn
    have hle : held ≤ b.revision := by
      apply UInt64.not_lt.mp
      exact fun hlt => hrn ⟨hlt, .inl (hgr held hhl)⟩
    have hne : held ≠ b.revision := by
      rintro rfl
      exact hfr.new hhl
    exact UInt64.lt_of_le_of_ne hle hne
  · rintro ⟨hsc, hlt⟩
    refine ⟨hsc, fun held hhl => ?_, fun hhl => ?_⟩
    · rw [← Bool.not_eq_true, outranks_eq_true_iff]
      rintro ⟨hgt, -⟩
      exact UInt64.lt_asymm hgt (hlt held hhl)
    · exact UInt64.lt_irrefl _ (hlt _ hhl)

theorem spendRoom_of_makeRoomFor {tenants : ExtTreeSet String} {origin incoming : String}
    (hrm : h.makeRoomFor incoming = some h') (hsp : h.state.SpendRoom origin tenants) :
    h'.state.SpendRoom origin tenants :=
  makeRoomFor_preserves (P := fun h => h.state.SpendRoom origin tenants)
    (fun _ hsp => hsp.congr rfl) hrm hsp

/-- The broadcast claims spend of these tenants alone. -/
def SpendsOn (b : StateBroadcast) (tenants : ExtTreeSet String) : Prop :=
  ∀ (tenant : String) (counter : GCounter),
    b.snapshot.tenantSpend[tenant]? = some counter → tenant ∈ tenants

/-- The spend tables keep their room when a broadcast of listed tenants settles. -/
theorem spendRoom_settle {tenants : ExtTreeSet String}
    (hsp : h.state.SpendRoom b.originSite tenants) (hcl : SpendsOn b tenants) :
    (h.settle now b).state.SpendRoom b.originSite tenants := by
  rcases settle_cases h now b with ⟨hs, -⟩ | hs | ⟨-, -, hs⟩
  · rwa [hs]
  · rw [hs]
    exact hsp
  · rw [hs, state_merged]
    exact (hsp.mergeTenantSpendFromOrigin (hcl _ _)).1.congr tenantSpend_mergedState

/-- A broadcast without provider state leaves records and owners. -/
theorem settle_of_not_carries (h : StateBroadcastHandler) (now : Clock)
    (hcar : b.carriesProviderState = false) :
    (h.settle now b).state.providers = h.state.providers ∧
      ∀ id : ProviderIdentity,
        (h.settle now b).retained.providerOwners[id]? = h.retained.providerOwners[id]? := by
  have hcar' : ¬ b.carriesProviderState = true := by
    rw [hcar]
    exact Bool.false_ne_true
  rcases settle_cases h now b with ⟨hs, -⟩ | hs | ⟨-, -, hs⟩
  · rw [hs]
    exact ⟨rfl, fun _ => rfl⟩
  · rw [hs]
    exact ⟨rfl, fun _ => rfl⟩
  · rw [hs, state_merged, providers_mergedState, if_neg hcar']
    refine ⟨rfl, fun id => ?_⟩
    rw [providerOwners_merged_of_not_replaces fun hc => absurd hc hcar']
    rfl

section Refinement

variable {tenants : ExtTreeSet String} (hi : h.Consistent) (hpl : b.Plain)
  (hsp : h.state.SpendRoom b.originSite tenants) (hcl : SpendsOn b tenants)
include hi hpl hsp hcl

/-- A broadcast that is merged is received by the register. -/
theorem view_merged (hroom : b.originSite ∈ h.retained.knownOrigins ∨
      h.retained.knownOrigins.size < h.maxOrigins)
    (hall : b.carriesProviderState = true → b.Within ((h.offerMetadata now b).replacedNetworks b))
    (hs : h.settle now b = (h.offerMetadata now b).merged now b)
    (htakes : (h.view b.providerStateScope).takes b = true) :
    (h.settle now b).view b.providerStateScope = (h.view b.providerStateScope).receive b := by
  have hi' : (h.offerMetadata now b).Consistent := hi.offerMetadata
  have hguard : (h.settle now b).retained.latestByScope[b.providerStateScope]? =
      some b.revision := by
    rw [hs, retained_merged, latestByScope_mergedRetained, if_pos rfl]
  rw [ScopeView.receive, if_pos htakes]
  ext1
  · exact hguard
  · rw [fits_view b.providerStateScope (makeRoomFor_settle hi.owned hroom), hasRoomForScope,
      ExtTreeMap.contains_eq_isSome_getElem?, hguard]
    rw [Option.isSome_some, Bool.true_or, (ScopeView.takes_eq_true_iff.mp htakes).1]
  · rcases hcar : b.carriesProviderState with - | -
    · obtain ⟨hprovs, howners⟩ := settle_of_not_carries h now hcar
      refine records_view_congr fun k p => ?_
      rw [Holds, hprovs, howners]
      rfl
    · funext k
      apply Option.ext
      intro p
      rw [hs, records_view_eq_some_iff, hi'.holds_merged_iff hpl (hall hcar) hcar]
      rfl
  · funext tenant
    show (h.settle now b).state.spendSlot tenant b.originSite = _
    rw [hs, state_merged, spendSlot_mergedState]
    exact (hsp.mergeTenantSpendFromOrigin (hcl _ _)).2 tenant

/-- An admitted broadcast settles as the register receives it. -/
theorem view_settle (hmt : b.isMetadataOnly = false)
    (hrm : b.originSite ∈ h.retained.knownOrigins ∨
      h.retained.knownOrigins.size < h.maxOrigins)
    (hall : b.carriesProviderState = true → b.Within ((h.offerMetadata now b).replacedNetworks b))
    (hgr : ∀ held, h.retained.latestByScope[b.providerStateScope]? = some held →
      held ≤ maxLeasedRevision (wallMs now)) :
    (h.settle now b).view b.providerStateScope = (h.view b.providerStateScope).receive b := by
  have hft : h.makeRoomFor b.originSite = some h := by
    apply makeRoomFor_of_fits
    simpa only [Bool.or_eq_true, ExtTreeSet.contains_iff_mem, decide_eq_true_eq] using hrm
  have hiff := fresh_iff_takes hft hgr
  by_cases hfr : h.Fresh now b
  · exact view_merged hi hpl hsp hcl hrm hall (settle_of_fresh hmt hfr)
      (hiff.mp hfr)
  · have hnot : (h.view b.providerStateScope).takes b = false := by
      rw [← Bool.not_eq_true, ← hiff]
      exact hfr
    rw [ScopeView.receive_of_not_takes hnot]
    rcases settle_cases h now b with ⟨hs, -⟩ | hs | ⟨-, hfr', -⟩
    · rw [hs]
    · -- the lanes are not part of the register
      have hft' : (h.settle now b).makeRoomFor b.originSite = some (h.settle now b) :=
        makeRoomFor_settle hi.owned hrm
      rw [hs] at hft' ⊢
      ext1
      · rfl
      · rw [fits_view b.providerStateScope hft', fits_view b.providerStateScope hft]
        rfl
      · rfl
      · rfl
    · exact absurd hfr' hfr

/-- **The handler refines the register**: a broadcast that passes verification is received as
the register of its scope receives it, if the guard held is not from the future. -/
theorem view_receive (hbnd : h.Bounded) (hver : b.version = stateBroadcastVersion)
    (hvr : h.verifySignatureIfPinned c now b = .ok ())
    (hmt : b.isMetadataOnly = false)
    (hgr : ∀ held, h.retained.latestByScope[b.providerStateScope]? = some held →
      held ≤ maxLeasedRevision (wallMs now)) :
    (h.receiveStateBroadcast c now b).2.view b.providerStateScope =
      (h.view b.providerStateScope).receive b := by
  rcases hrm : h.makeRoomFor b.originSite with - | h₁
  · -- every retained origin is pinned: the broadcast is dropped
    have hdr : ∀ h₁, ¬ h.Admits c now b h₁ := by
      intro h₁ hadm
      rw [hadm.room] at hrm
      cases hrm
    have hrm' : h.makeRoomFor b.providerStateScope.originSite = none := hrm
    have hnot : (h.view b.providerStateScope).takes b = false := by
      simp only [ScopeView.takes, view, hrm', Option.any_none, Bool.false_and]
    rw [(receiveStateBroadcast_of_not_admits hdr).1, ScopeView.receive_of_not_takes hnot]
  · have hadm : h.Admits c now b h₁ := ⟨hver, hvr, hrm⟩
    have hsm : h.SameSite h₁ b.originSite := .makeRoomFor hrm (victim_ne_self h b.originSite)
    have hrm₁ := hbnd.room hrm
    have hi₁ := hi.makeRoomFor hrm
    have hsp₁ := spendRoom_of_makeRoomFor hrm hsp
    have hlt := hsm.scopes.latest b.providerStateScope rfl
    -- the register does not see that room was made
    have hvw : h₁.view b.providerStateScope = h.view b.providerStateScope := by
      ext1
      · exact hlt
      · rw [fits_view b.providerStateScope hrm, fits_view b.providerStateScope]
        · apply makeRoomFor_of_fits
          rw [Bool.or_eq_true, ExtTreeSet.contains_iff_mem, decide_eq_true_eq]
          exact hrm₁
      · exact records_view_congr (hsm.holds_iff hi.owned hi₁.owned)
      · funext tenant
        exact hsm.spend tenant
    rw [receiveStateBroadcast_of_admits hadm, ← hvw]
    apply view_settle hi₁ hpl hsp₁ hcl hmt hrm₁
    · intro hcar p hp
      exact hi.authorized.mem_replacedNetworks hadm hmt hcar hp
    · intro held hhl
      exact hgr held (hlt.symm.trans hhl)

end Refinement

/-! ### Deliveries -/

/-- A broadcast of the series arrives, passes verification, and meets a guard that is not
from the future. -/
structure Delivery (c : Crypto) (series : List StateBroadcast) (h : StateBroadcastHandler)
    (d : Clock × StateBroadcast) : Prop where
  mem : d.2 ∈ series
  version : d.2.version = stateBroadcastVersion
  verified : h.verifySignatureIfPinned c d.1 d.2 = .ok ()
  guard : ∀ held, h.retained.latestByScope[d.2.providerStateScope]? = some held →
    held ≤ maxLeasedRevision (wallMs d.1)

def arrive (c : Crypto) (h : StateBroadcastHandler) (d : Clock × StateBroadcast) :
    StateBroadcastHandler := (h.receiveStateBroadcast c d.1 d.2).2

structure Delivers (c : Crypto) (series : List StateBroadcast) (h : StateBroadcastHandler)
    (ds : List (Clock × StateBroadcast)) : Prop where
  arrivals : Run.Along (arrive c) (Delivery c series) h ds
  all : ∀ b ∈ series, ∃ now, (now, b) ∈ ds

/-- State broadcasts of one scope with distinct revisions and spend that grows with them; the
newest carries provider state if any does. -/
structure Series (scope : ProviderStateScope) (series : List StateBroadcast) : Prop where
  scope_eq : ∀ b ∈ series, b.providerStateScope = scope
  state : ∀ b ∈ series, b.isMetadataOnly = false
  plain : ∀ b ∈ series, b.Plain
  distinct : ∀ a ∈ series, ∀ b ∈ series, a.revision = b.revision → a = b
  spend : ∀ a ∈ series, ∀ b ∈ series, a.revision ≤ b.revision →
    ∀ tenant, a.claims tenant ≤ b.claims tenant
  newest : ∀ m ∈ series, (∀ b ∈ series, b.revision ≤ m.revision) →
    ∀ b ∈ series, b.carriesProviderState = true → m.carriesProviderState = true

theorem Series.subsumes (hsr : Series scope series) {m u : StateBroadcast} (hm : m ∈ series)
    (hmax : ∀ b ∈ series, b.revision ≤ m.revision) (hu : u ∈ series) : ScopeView.Subsumes m u where
  newer := by
    by_cases heq : u.revision = m.revision
    · exact .inl (hsr.distinct u hu m hm heq)
    · exact .inr (lt_of_le_of_ne (hmax u hu) heq)
  records := hsr.newest m hm hmax u hu
  spend := hsr.spend u hu m hm (hmax u hu)

theorem Series.exists_newest (hne : series ≠ []) :
    ∃ m ∈ series, ∀ b ∈ series, b.revision ≤ m.revision := by
  obtain ⟨b, hb⟩ := List.exists_mem_of_ne_nil series hne
  obtain ⟨m, hm, hmax⟩ := Set.exists_max_image {b | b ∈ series} (fun b => b.revision.toNat)
    (List.finite_toSet series) ⟨b, hb⟩
  exact ⟨m, hm, fun b hb => le_iff_toNat_le.mpr (hmax b hb)⟩

/-- **A delivered series leaves the register where its newest broadcast alone leads.** -/
theorem view_deliver (hsr : Series scope series) {tenants : ExtTreeSet String}
    (hi : h.Consistent) (hbnd : h.Bounded) (hsp : h.state.SpendRoom scope.originSite tenants)
    (hcl : ∀ b ∈ series, SpendsOn b tenants)
    {ds : List (Clock × StateBroadcast)} (hds : h.Delivers c series ds) {m : StateBroadcast}
    (hm : m ∈ series) (hmax : ∀ b ∈ series, b.revision ≤ m.revision) :
    (Run.run (arrive c) h ds).view scope = (h.view scope).receive m := by
  have hst : ∀ b ∈ series, b.originSite = scope.originSite :=
    fun b hb => congrArg ProviderStateScope.originSite (hsr.scope_eq b hb)
  -- the invariants along the arrivals
  have hin : ∀ h d, Delivery c series h d →
      h.Consistent ∧ h.Bounded ∧ h.state.SpendRoom scope.originSite tenants →
      (h.arrive c d).Consistent ∧ (h.arrive c d).Bounded ∧
        (h.arrive c d).state.SpendRoom scope.originSite tenants := by
    rintro h ⟨now, b⟩ hd ⟨hi, hbnd, hsp⟩
    have hcn : (h.arrive c (now, b)).Consistent :=
      hi.receiveStateBroadcast (hsr.plain b hd.mem)
    rcases receiveStateBroadcast_cases with heq | ⟨h₁, hadm, heq⟩
    · rw [arrive, heq]
      exact ⟨hi, hbnd, hsp⟩
    · refine ⟨hcn, ?_, ?_⟩
      · rw [arrive, heq]
        exact hbnd.settle hi.owned hadm.room
      · rw [arrive, heq, ← hst b hd.mem]
        rw [← hst b hd.mem] at hsp
        apply spendRoom_settle _ (hcl b hd.mem)
        exact spendRoom_of_makeRoomFor hadm.room hsp
  -- the handler follows the register
  have hvw : (Run.run (arrive c) h ds).view scope =
      Run.run (fun v (d : Clock × StateBroadcast) => v.receive d.2) (h.view scope) ds := by
    refine Run.run_map_along (fun h : StateBroadcastHandler => h.view scope) hin ?_
      hds.arrivals ⟨hi, hbnd, hsp⟩
    rintro h ⟨now, b⟩ hd ⟨hi, hbnd, hsp⟩
    obtain rfl := hsr.scope_eq b hd.mem
    exact view_receive hi (hsr.plain b hd.mem) hsp (hcl b hd.mem) hbnd hd.version hd.verified
      (hsr.state b hd.mem) hd.guard
  have hmem : ∀ d ∈ ds, d.2 ∈ series := by
    intro d hd
    exact hds.arrivals.of_mem (D := fun d => d.2 ∈ series) (fun _ _ hd => hd.mem) hd
  obtain ⟨now, hnow⟩ := hds.all m hm
  rw [hvw]
  apply Run.run_of_absorbs hnow
  · intro v d hd
    exact ScopeView.receive_receive (hsr.subsumes hm hmax (hmem d hd))
  · intro v d hd
    apply ScopeView.receive_of_not_takes
    exact ScopeView.takes_receive (hsr.subsumes hm hmax (hmem d hd))

/-- **Delivery order does not matter.**  After a run over plain names that left no verified
values behind, and with room in the spend tables, any two deliveries of a series leave its
scope with the same records, the same guard and the same spend. -/
theorem delivery_order_converges {siteId : String} {maxOrigins : Nat} {ops : List NodeOp}
    (hops : PlainRun c siteId maxOrigins ops) {series : List StateBroadcast}
    (hseries : Series scope series) {tenants : ExtTreeSet String}
    (hspend : ((withCapacity siteId maxOrigins).run c ops).state.SpendRoom scope.originSite tenants)
    (hclaims : ∀ b ∈ series, ∀ (tenant : String) (counter : GCounter),
      b.snapshot.tenantSpend[tenant]? = some counter → tenant ∈ tenants)
    {ds ds' : List (Clock × StateBroadcast)}
    (hds : ((withCapacity siteId maxOrigins).run c ops).Delivers c series ds)
    (hds' : ((withCapacity siteId maxOrigins).run c ops).Delivers c series ds') :
    let h := Run.run (arrive c) ((withCapacity siteId maxOrigins).run c ops) ds
    let h' := Run.run (arrive c) ((withCapacity siteId maxOrigins).run c ops) ds'
    (∀ (k : String) (p : ProviderState), h.Holds scope k p ↔ h'.Holds scope k p) ∧
      h.retained.latestByScope[scope]? = h'.retained.latestByScope[scope]? ∧
      ∀ tenant, h.state.spendSlot tenant scope.originSite =
        h'.state.spendSlot tenant scope.originSite := by
  intro h h'
  have hvw : h.view scope = h'.view scope := by
    by_cases hne : series = []
    · -- nothing arrives
      have hnil : ∀ {l}, ((withCapacity siteId maxOrigins).run c ops).Delivers c series l →
          l = [] := by
        intro l hl
        cases l with
        | nil => rfl
        | cons d l =>
          have hmem := hl.arrivals.1.mem
          rw [hne] at hmem
          cases hmem
      show (Run.run (arrive c) _ ds).view scope = (Run.run (arrive c) _ ds').view scope
      rw [hnil hds, hnil hds']
    · obtain ⟨m, hm, hmax⟩ := Series.exists_newest hne
      have hi := hops.consistent
      have hbn : ((withCapacity siteId maxOrigins).run c ops).Bounded :=
        .run siteId maxOrigins ops
      exact (view_deliver hseries hi hbn hspend hclaims hds hm hmax).trans
        (view_deliver hseries hi hbn hspend hclaims hds' hm hmax).symm
  refine ⟨fun k p => ?_, congrArg ScopeView.guard hvw, fun tenant => ?_⟩
  · rw [← records_view_eq_some_iff, ← records_view_eq_some_iff, hvw]
  · exact congrFun (congrArg ScopeView.spend hvw) tenant

/-- The site of `toolRun` withdraws its providers and reports what a tenant spent. -/
def closingItem : StateBroadcast :=
  { spend "site" 3 "tenant" 5 with authoritativeProviderState := true }

theorem series_closingItem : Series ⟨"site", none⟩ [replacingItem, closingItem] := by
  -- of two broadcasts, only the second can be the newer one
  have hpr : ∀ {P : StateBroadcast → StateBroadcast → Prop}, P replacingItem replacingItem →
      P replacingItem closingItem → P closingItem replacingItem → P closingItem closingItem →
      ∀ a ∈ [replacingItem, closingItem], ∀ b ∈ [replacingItem, closingItem], P a b := by
    intro P hrr hrc hcr hcc a ha b hb
    simp only [List.mem_cons, List.not_mem_nil, or_false] at ha hb
    rcases ha with rfl | rfl
    · rcases hb with rfl | rfl
      · exact hrr
      · exact hrc
    · rcases hb with rfl | rfl
      · exact hcr
      · exact hcc
  refine ⟨by decide, by decide, ?_, ?_, ?_, ?_⟩
  · unfold StateBroadcast.Plain ProviderState.Plain
    decide
  · exact hpr (fun _ => rfl) (fun heq => absurd heq (by decide))
      (fun heq => absurd heq (by decide)) (fun _ => rfl)
  · exact hpr (fun _ _ => UInt64.le_refl _) (fun _ _ => UInt64.zero_le)
      (fun hle => absurd hle (by decide)) (fun _ _ => UInt64.le_refl _)
  · intro m hm hmax b hb _
    exact hpr (P := fun m _ => closingItem.revision ≤ m.revision →
      m.carriesProviderState = true) (fun _ => by decide) (fun _ => by decide)
      (fun _ => by decide) (fun _ => by decide) m hm b hb (hmax closingItem (by simp))

theorem spendRoom_toolRun :
    ((withCapacity "self" 4).run crypto toolRun).state.SpendRoom "site"
      (ExtTreeSet.ofList ["tenant"]) := by
  have hem : ((withCapacity "self" 4).run crypto toolRun).state.tenantSpend = ∅ := by
    apply ExtTreeMap.isEmpty_iff.mp
    decide
  refine ⟨fun hhl => ?_, by decide, fun hhl => ?_⟩
  · rw [hem] at hhl
    simp at hhl
  · rw [hem] at hhl
    simp at hhl

theorem claims_closingItem : ∀ b ∈ [replacingItem, closingItem],
    ∀ (tenant : String) (counter : GCounter), b.snapshot.tenantSpend[tenant]? = some counter →
      tenant ∈ (ExtTreeSet.ofList ["tenant"] : ExtTreeSet String) := by
  intro b hb tenant counter hhl
  simp only [List.mem_cons, List.not_mem_nil, or_false] at hb
  rcases hb with rfl | rfl
  · change (∅ : ExtTreeMap String GCounter)[tenant]? = some counter at hhl
    simp at hhl
  · change ((∅ : ExtTreeMap String GCounter).insert "tenant" _)[tenant]? = some counter at hhl
    rw [getElem?_insert] at hhl
    split_ifs at hhl with htn
    · rw [← htn]
      decide
    · simp at hhl

/-- An arrival at time zero that passes and meets a small guard. -/
theorem Delivery.at_zero (hb : b ∈ series) (hver : b.version = stateBroadcastVersion)
    (hvr : h.verifySignatureIfPinned c 0 b = .ok ())
    (hgr : (h.retained.latestByScope[b.providerStateScope]?.all fun held =>
      held ≤ maxLeasedRevision (wallMs 0)) = true) : Delivery c series h (0, b) :=
  ⟨hb, hver, hvr,
    fun held hhl => of_decide_eq_true ((Option.all_eq_true ..).mp hgr held hhl)⟩

theorem delivers_toolRun :
    ((withCapacity "self" 4).run crypto toolRun).Delivers crypto
      [replacingItem, closingItem] [(0, replacingItem), (0, closingItem)] := by
  refine ⟨⟨.at_zero List.mem_cons_self rfl (by decide) (by decide),
    .at_zero (List.mem_cons_of_mem _ List.mem_cons_self) rfl (by decide) (by decide), trivial⟩,
    fun b hb => ⟨0, ?_⟩⟩
  rcases List.mem_cons.mp hb with rfl | hb
  · exact List.mem_cons_self
  · rw [List.mem_singleton.mp hb]
    exact List.mem_cons_of_mem _ List.mem_cons_self

theorem delivers_toolRun_reordered :
    ((withCapacity "self" 4).run crypto toolRun).Delivers crypto
      [replacingItem, closingItem] [(0, closingItem), (0, replacingItem), (0, closingItem)] := by
  have hls : closingItem ∈ [replacingItem, closingItem] :=
    List.mem_cons_of_mem _ List.mem_cons_self
  refine ⟨⟨.at_zero hls rfl (by decide) (by decide),
    .at_zero List.mem_cons_self rfl (by decide) (by decide),
    .at_zero hls rfl (by decide) (by decide), trivial⟩, fun b hb => ⟨0, ?_⟩⟩
  rcases List.mem_cons.mp hb with rfl | hb
  · exact List.mem_cons_of_mem _ List.mem_cons_self
  · rw [List.mem_singleton.mp hb]
    exact List.mem_cons_self

theorem delivery_order_converges_toolRun :
    let h := Run.run (arrive crypto) ((withCapacity "self" 4).run crypto toolRun)
      [(0, replacingItem), (0, closingItem)]
    let h' := Run.run (arrive crypto) ((withCapacity "self" 4).run crypto toolRun)
      [(0, closingItem), (0, replacingItem), (0, closingItem)]
    (∀ k p, h.Holds ⟨"site", none⟩ k p ↔ h'.Holds ⟨"site", none⟩ k p) ∧
      h.retained.latestByScope[(⟨"site", none⟩ : ProviderStateScope)]? =
        h'.retained.latestByScope[(⟨"site", none⟩ : ProviderStateScope)]? ∧
      ∀ tenant, h.state.spendSlot tenant "site" = h'.state.spendSlot tenant "site" :=
  delivery_order_converges plainRun_toolRun series_closingItem spendRoom_toolRun
    claims_closingItem delivers_toolRun delivers_toolRun_reordered

/-- Spend shuts out provider state that was sent before it and comes after it; where the clock
runs back, an older broadcast replaces a newer one; and a spend table with one place left keeps
another tenant if the older of two claims is shut out. -/
theorem delivery_order_matters :
    let provider := broadcast "site" 1 [record "net" "site" "model"]
    let spend := spend "site" 2 "tenant" 5
    let later := broadcast "site" 700000 [record "net" "site" "tool"]
    let start := withCapacity "self" 4
    let receive := Run.run (arrive crypto) start
    let scope : ProviderStateScope := ⟨"site", none⟩
    (provider.providerStateScope = scope ∧ spend.providerStateScope = scope ∧
        (receive [(0, provider), (0, spend)]).state.providers.contains "net/site/model" = true ∧
        (receive [(0, spend), (0, provider)]).state.providers.contains "net/site/model" = false) ∧
      provider.revision ≤ maxLeasedRevision (wallMs 0) ∧
        later.revision ≤ maxLeasedRevision (wallMs 200000000000) ∧
        (receive [(0, provider), (200000000000, later)]).retained.latestByScope[scope]? =
          some 700000 ∧
        (receive [(200000000000, later), (0, provider)]).retained.latestByScope[scope]? =
          some 1 ∧
      ∀ snap : GridStateSnapshot, snap.tenantSpend.size + 1 = maxTrackedTenants →
        snap.tenantSpend["a"]? = none → snap.tenantSpend["b"]? = none →
        let older := GridStateSnapshot.centOf "site" ["b"]
        let newer := GridStateSnapshot.centOf "site" ["a", "b"]
        let merge := fun snap : GridStateSnapshot => snap.mergeTenantSpendFromOrigin "site"
        (merge (merge snap older) newer).spendSlot "b" "site" = some 1 ∧
          (merge snap newer).spendSlot "b" "site" = none := by
  refine ⟨⟨rfl, rfl, ?_, ?_⟩, ?_, ?_, ?_, ?_, fun snap hsz ha hb => ?_⟩
  all_goals first
    | decide
    | exact GridStateSnapshot.last_place_depends_on_order hsz ha hb

end StateBroadcastHandler

end PraxisGrid
