/-
PraxisGrid/Crdt/GridState.lean

The mergeable grid-state snapshot of `crates/crdt/src/grid_state.rs`: capability
catalog, provider records keyed by the flattened string `network/site/provider`, and
per-tenant spend counters.

`mergeTenantSpendFromOrigin` is the gossip trust boundary for spend: it only ever
touches the slot of the claimed origin, and where the tables have room it raises that
slot to the larger value (`spendSlot_mergeOriginSpend`).
-/
import PraxisGrid.Crdt.GCounter
import PraxisGrid.Crdt.OrSet
import PraxisGrid.Lib.Names

namespace PraxisGrid

open Std OrdMap

/-! ### Records -/

def maxTrackedTenants : Nat := 1024

/-- Bound on the sites contributing to one tenant's counter. -/
def maxTenantSpendOrigins : Nat := 256

/-- An IEEE 754 double, by its bit pattern.  No arithmetic is done on it. -/
structure F64 where
  bits : UInt64
deriving DecidableEq

/-- Labels a consumer site must carry; none allows every consumer. -/
structure ProviderAccessPolicy where
  matchLabels : ExtTreeMap String String
deriving DecidableEq

/-- A capability advertised by a grid site. -/
inductive Capability
  | model (name : String)
  | tool (name : String)
  | agent (name : String)
deriving DecidableEq

namespace Capability

/-- Position of the variant in the declaration. -/
def variant : Capability → Fin 3
  | model _ => 0
  | tool _ => 1
  | agent _ => 2

/-- The identifier carried by the variant. -/
def name : Capability → String
  | model name | tool name | agent name => name

instance : Ord Capability := ⟨compareLex (compareOn variant) (compareOn name)⟩

instance : TransOrd Capability :=
  inferInstanceAs (TransCmp (compareLex (compareOn variant) (compareOn name)))

instance : LawfulEqOrd Capability :=
  lawfulEqCmp_compareLex (f := variant) (g := name) (by
    rintro (_ | _ | _) (_ | _ | _) h₁ h₂ <;> simp_all [variant, name])

end Capability

/-- Observed lifecycle phase of a provider. -/
inductive ProviderPhase
  | available
  | pending
  | degraded
  | unavailable
deriving DecidableEq

/-- Normalized provider metrics used by routing. -/
structure ProviderMetricsSnapshot where
  queueDepth : Option F64 := none
  kvCacheUtilization : Option F64 := none
  latencyP99Ms : Option F64 := none
  prefixCacheHitRatio : Option F64 := none
  errorRate : Option F64 := none
  healthy : Option Bool := none
deriving DecidableEq

/-- One provider record advertised by a site. -/
structure ProviderState where
  networkId : String
  siteId : String
  providerId : String
  routingCluster : String
  models : List String
  tools : List String
  backendKind : String
  capacityWeight : UInt32
  phase : ProviderPhase
  metrics : ProviderMetricsSnapshot
  accessPolicy : ProviderAccessPolicy
  revision : UInt64
  writerId : String
deriving DecidableEq

/-- Whether a capacity weight is valid across the operator, SWIM and rendering. -/
def isValidCapacityWeight (weight : UInt32) : Bool :=
  1 ≤ weight && weight ≤ 1000

/-- Capacity of records from peers that do not send one. -/
def defaultCapacityWeight : UInt32 := 1

/-- Whether `p` replaces `other` during a merge: last writer wins by revision, then
by writer name. -/
def ProviderState.supersedes (p other : ProviderState) : Bool :=
  other.revision < p.revision || (p.revision == other.revision && other.writerId < p.writerId)

namespace ProviderState

theorem supersedes_eq {p q : ProviderState} (hrev : p.revision = q.revision)
    (hwr : p.writerId = q.writerId) : p.supersedes = q.supersedes := by
  funext x
  simp only [supersedes, hrev, hwr]

theorem supersedes_self (p : ProviderState) : p.supersedes p = false := by
  simp [supersedes]

end ProviderState

/-- The flattened map key of a provider identity. -/
def providerKey (networkId siteId providerId : String) : String :=
  Names.join3 '/' networkId siteId providerId

/-- The flattened map key of a record. -/
def ProviderState.key (p : ProviderState) : String :=
  providerKey p.networkId p.siteId p.providerId

/-! ### Snapshots -/

/-- Mergeable distributed state for one grid view. -/
structure GridStateSnapshot where
  siteId : String
  capabilities : OrSet Capability
  providers : ExtTreeMap String ProviderState
  tenantSpend : ExtTreeMap String GCounter

namespace GridStateSnapshot

/-- The empty snapshot of one replica. -/
def new (siteId : String) : GridStateSnapshot :=
  ⟨siteId, OrSet.new siteId, ∅, ∅⟩

/-- Insert a record unless the one held under its key is at least as new. -/
def upsertProvider (snap : GridStateSnapshot) (p : ProviderState) : GridStateSnapshot :=
  match snap.providers[p.key]? with
  | some existing =>
      if p.supersedes existing then { snap with providers := snap.providers.insert p.key p }
      else snap
  | none => { snap with providers := snap.providers.insert p.key p }

/-- Merge every counter of another snapshot, creating the ones that are missing under the
own site. -/
def mergeTenantSpend (snap : GridStateSnapshot) (other : ExtTreeMap String GCounter) :
    GridStateSnapshot :=
  { snap with
    tenantSpend := other.toList.foldl (fun spend e =>
      spend.insert e.1 ((spend.getD e.1 (GCounter.new snap.siteId)).merge e.2)) snap.tenantSpend }

def merge (snap other : GridStateSnapshot) : GridStateSnapshot :=
  let snap := { snap with capabilities := snap.capabilities.merge other.capabilities }
  let snap := (values other.providers).foldl upsertProvider snap
  snap.mergeTenantSpend other.tenantSpend

/-- Record spend of a tenant at the own site. -/
def incrementTenantSpend (snap : GridStateSnapshot) (tenant : String) (amountCents : UInt64) :
    GridStateSnapshot :=
  { snap with
    tenantSpend := snap.tenantSpend.insert tenant
      ((snap.tenantSpend.getD tenant (GCounter.new snap.siteId)).increment amountCents) }

/-- Drop every record of one site. -/
def removeOriginProviders (snap : GridStateSnapshot) (origin : String) : GridStateSnapshot :=
  { snap with providers := retain snap.providers fun _ p => p.siteId != origin }

/-- One tenant of `mergeTenantSpendFromOrigin`: the body of its loop. -/
def mergeOriginSpend (snap : GridStateSnapshot) (origin : String) (tenant : String)
    (counter : GCounter) : GridStateSnapshot :=
  let originOnly := counter.retainOrigin origin
  if originOnly.total = 0 then snap
  else if !snap.tenantSpend.contains tenant && maxTrackedTenants ≤ snap.tenantSpend.size then snap
  else
    let entry := snap.tenantSpend.getD tenant (GCounter.new snap.siteId)
    -- the entry is created even when the slot below is refused
    if !entry.hasSlot origin && maxTenantSpendOrigins ≤ entry.slotCount then
      { snap with tenantSpend := snap.tenantSpend.insert tenant entry }
    else { snap with tenantSpend := snap.tenantSpend.insert tenant (entry.merge originOnly) }

/-- Merge the spend of one broadcast, trusting only the slot of its claimed origin. -/
def mergeTenantSpendFromOrigin (snap : GridStateSnapshot) (origin : String)
    (other : ExtTreeMap String GCounter) : GridStateSnapshot :=
  other.toList.foldl (fun snap e => snap.mergeOriginSpend origin e.1 e.2) snap

/-- The spend slot of `site` within `tenant`'s counter. -/
def spendSlot (snap : GridStateSnapshot) (tenant site : String) : Option UInt64 :=
  snap.tenantSpend[tenant]?.bind fun counter => counter.slots[site]?

/-! ### Provider records -/

variable {snap : GridStateSnapshot}

theorem providers_upsertProvider (p : ProviderState) (k : String) :
    (snap.upsertProvider p).providers[k]? =
      if p.key = k ∧ snap.providers[k]?.all p.supersedes = true then some p
      else snap.providers[k]? := by
  unfold upsertProvider
  by_cases hk : p.key = k
  · subst hk
    rcases hhl : snap.providers[p.key]? with - | existing
    · simp
    · by_cases hsup : p.supersedes existing = true
      · simp [hsup]
      · simp [hsup, hhl]
  · rcases hhl : snap.providers[p.key]? with - | existing
    · simp [hk]
    · by_cases hsup : p.supersedes existing = true
      · simp [hk, hsup]
      · simp [hk, hsup]

theorem foldl_upsertProvider_eq (l : List ProviderState) :
    l.foldl upsertProvider snap =
      { snap with providers := (l.foldl upsertProvider snap).providers } := by
  induction l generalizing snap with
  | nil => rfl
  | cons p l ih =>
    have hst : snap.upsertProvider p =
        { snap with providers := (snap.upsertProvider p).providers } := by
      unfold upsertProvider
      split
      · split <;> rfl
      · rfl
    rw [List.foldl_cons, ih]
    exact congrArg (fun s : GridStateSnapshot =>
      { s with providers := (l.foldl upsertProvider (snap.upsertProvider p)).providers }) hst

theorem tenantSpend_foldl_upsertProvider (l : List ProviderState) :
    (l.foldl upsertProvider snap).tenantSpend = snap.tenantSpend := by
  rw [foldl_upsertProvider_eq]

/-- Merging records of one revision and writer: the first record of a key is merged if it
supersedes the one held, and none of the others does. -/
theorem providers_foldl_upsertProvider {l : List ProviderState} {revision : UInt64}
    {writerId : String} (hl : ∀ p ∈ l, p.revision = revision ∧ p.writerId = writerId) (k : String) :
    (l.foldl upsertProvider snap).providers[k]? =
      match l.find? fun p => p.key == k with
      | some p => if snap.providers[k]?.all p.supersedes = true then some p else snap.providers[k]?
      | none => snap.providers[k]? := by
  induction l generalizing snap with
  | nil => rfl
  | cons p l ih =>
    have hl' : ∀ q ∈ l, q.revision = revision ∧ q.writerId = writerId :=
      fun q hq => hl q (List.mem_cons_of_mem p hq)
    rw [List.foldl_cons, ih hl', providers_upsertProvider, List.find?_cons]
    by_cases hk : p.key = k
    · -- a later record of the same key supersedes exactly what `p` does, and not `p`
      have hlt : ∀ q, l.find? (fun q => q.key == k) = some q →
          q.supersedes = p.supersedes ∧ q.supersedes p = false := by
        intro q hq
        obtain ⟨hp, hw⟩ := hl p List.mem_cons_self
        obtain ⟨hp', hw'⟩ := hl' q (List.mem_of_find?_eq_some hq)
        have heq := ProviderState.supersedes_eq (hp'.trans hp.symm) (hw'.trans hw.symm)
        exact ⟨heq, heq ▸ ProviderState.supersedes_self p⟩
      rcases hfn : l.find? (fun q => q.key == k) with - | q
      · simp [hk, hfn]
      · obtain ⟨hsm, hnot⟩ := hlt q hfn
        by_cases hsup : snap.providers[k]?.all p.supersedes = true
        · simp [hk, hfn, hsup, hnot]
        · simp [hk, hfn, hsup, hsm]
    · have hbeq : (p.key == k) = false := beq_eq_false_iff_ne.mpr hk
      simp only [hk, hbeq, false_and, if_false]

/-! ### Spend -/

@[simp] theorem providers_mergeOriginSpend (origin tenant : String) (counter : GCounter) :
    (snap.mergeOriginSpend origin tenant counter).providers = snap.providers := by
  simp only [mergeOriginSpend]
  split_ifs <;> rfl

@[simp] theorem providers_mergeTenantSpendFromOrigin (origin : String)
    (other : ExtTreeMap String GCounter) :
    (snap.mergeTenantSpendFromOrigin origin other).providers = snap.providers := by
  unfold mergeTenantSpendFromOrigin
  induction other.toList generalizing snap with
  | nil => rfl
  | cons e l ih => rw [List.foldl_cons, ih, providers_mergeOriginSpend]

theorem mergeTenantSpendFromOrigin_capabilities (snap : GridStateSnapshot)
    (capabilities : OrSet Capability) (origin : String) (other : ExtTreeMap String GCounter) :
    ({ snap with capabilities := capabilities } : GridStateSnapshot).mergeTenantSpendFromOrigin
        origin other =
      { snap.mergeTenantSpendFromOrigin origin other with capabilities := capabilities } := by
  have htn : ∀ (snap : GridStateSnapshot) (tenant : String) (counter : GCounter),
      ({ snap with capabilities := capabilities } : GridStateSnapshot).mergeOriginSpend
        origin tenant counter =
      { snap.mergeOriginSpend origin tenant counter with capabilities := capabilities } := by
    intro snap tenant counter
    simp only [mergeOriginSpend]
    split_ifs <;> rfl
  unfold mergeTenantSpendFromOrigin
  induction other.toList generalizing snap with
  | nil => rfl
  | cons e l ih => rw [List.foldl_cons, List.foldl_cons, htn, ih]

/-- Whether the spend tables have room for a slot of `origin` in `tenant`'s counter. -/
def hasSpendRoom (snap : GridStateSnapshot) (tenant origin : String) : Bool :=
  let entry := snap.tenantSpend.getD tenant (GCounter.new snap.siteId)
  (snap.tenantSpend.contains tenant || snap.tenantSpend.size < maxTrackedTenants)
    && (entry.hasSlot origin || entry.slotCount < maxTenantSpendOrigins)

theorem spendSlot_eq_slots_getD (tenant site : String) :
    snap.spendSlot tenant site =
      (snap.tenantSpend.getD tenant (GCounter.new snap.siteId)).slots[site]? := by
  unfold spendSlot
  rw [ExtTreeMap.getD_eq_getD_getElem?]
  cases snap.tenantSpend[tenant]? with
  | none => simp [GCounter.new]
  | some counter => rfl

/-- A tracked counter put back as it is, or a fresh one, changes no slot. -/
private theorem spendSlot_insert (tenant : String) (entry : GCounter) (t site : String) :
    ({ snap with tenantSpend := snap.tenantSpend.insert tenant entry } :
      GridStateSnapshot).spendSlot t site =
      if tenant = t then entry.slots[site]? else snap.spendSlot t site := by
  unfold spendSlot
  rw [getElem?_insert]
  split_ifs <;> rfl

/-- **What one claim does.**  It leaves the tables, or puts the counter of its tenant back as it is,
or raises the slot of its origin in that counter. -/
theorem mergeOriginSpend_cases (snap : GridStateSnapshot) (origin tenant : String)
    (counter : GCounter) :
    (¬ (counter.slot origin ≠ 0 ∧ snap.hasSpendRoom tenant origin = true) ∧
        (snap.mergeOriginSpend origin tenant counter = snap ∨
          (snap.tenantSpend.contains tenant = true ∨ snap.tenantSpend.size < maxTrackedTenants) ∧
            snap.mergeOriginSpend origin tenant counter =
              { snap with
                tenantSpend := snap.tenantSpend.insert tenant
                  (snap.tenantSpend.getD tenant (GCounter.new snap.siteId)) })) ∨
      counter.slot origin ≠ 0 ∧ snap.hasSpendRoom tenant origin = true ∧
        snap.mergeOriginSpend origin tenant counter =
          { snap with
            tenantSpend := snap.tenantSpend.insert tenant
              ((snap.tenantSpend.getD tenant (GCounter.new snap.siteId)).merge
                (counter.retainOrigin origin)) } := by
  simp only [mergeOriginSpend, GCounter.total_retainOrigin_eq_zero_iff, hasSpendRoom,
    Bool.and_eq_true, Bool.or_eq_true, Bool.not_eq_true', decide_eq_true_eq]
  split_ifs with hzero htable hslot
  · exact .inl ⟨fun h => h.1 hzero, .inl rfl⟩
  · refine .inl ⟨fun h => ?_, .inl rfl⟩
    rw [htable.1] at h
    exact h.2.1.elim nofun (Nat.not_lt.mpr htable.2)
  all_goals rw [not_and_or, Bool.not_eq_false, Nat.not_le] at htable
  · refine .inl ⟨fun h => ?_, .inr ⟨htable, rfl⟩⟩
    rw [hslot.1] at h
    exact h.2.2.elim nofun (Nat.not_lt.mpr hslot.2)
  · rw [not_and_or, Bool.not_eq_false, Nat.not_le] at hslot
    exact .inr ⟨hzero, ⟨htable, hslot⟩, rfl⟩

/-- **Spend of one tenant.**  Only the slot of the claimed origin in the tenant's counter
can change: where the tables have room it is raised to the larger value. -/
theorem spendSlot_mergeOriginSpend (origin tenant : String) (counter : GCounter)
    (t site : String) :
    (snap.mergeOriginSpend origin tenant counter).spendSlot t site =
      if tenant = t ∧ origin = site ∧ counter.slot origin ≠ 0 ∧
          snap.hasSpendRoom tenant origin = true then
        some (max ((snap.spendSlot tenant origin).getD 0) (counter.slot origin))
      else snap.spendSlot t site := by
  rcases snap.mergeOriginSpend_cases origin tenant counter with
    ⟨hnot, hsm | ⟨-, hsm⟩⟩ | ⟨hzr, hrm, hrs⟩
  · rw [hsm, if_neg fun h => hnot h.2.2]
  · have hnn : ¬ (tenant = t ∧ origin = site ∧ _) := fun h => hnot h.2.2
    rw [hsm, spendSlot_insert, ← spendSlot_eq_slots_getD, if_neg hnn]
    split_ifs with ht
    · rw [ht]
    · rfl
  · rw [hrs, spendSlot_insert, GCounter.slots_merge_retainOrigin _ _ hzr, getElem?_insert,
      ← spendSlot_eq_slots_getD, GCounter.slot_eq_getD, ← spendSlot_eq_slots_getD]
    by_cases ht : tenant = t
    · subst ht
      by_cases hst : origin = site
      · subst hst
        simp [hzr, hrm]
      · simp [hst]
    · simp [ht]

theorem spendSlot_mergeOriginSpend_of_ne {origin site : String} (hne : origin ≠ site)
    (tenant : String) (counter : GCounter) (t : String) :
    (snap.mergeOriginSpend origin tenant counter).spendSlot t site = snap.spendSlot t site := by
  rw [spendSlot_mergeOriginSpend, if_neg]
  exact fun h => hne h.2.1

theorem spendSlot_mergeTenantSpendFromOrigin_of_ne {origin site : String} (hne : origin ≠ site)
    (other : ExtTreeMap String GCounter) (t : String) :
    (snap.mergeTenantSpendFromOrigin origin other).spendSlot t site = snap.spendSlot t site := by
  unfold mergeTenantSpendFromOrigin
  induction other.toList generalizing snap with
  | nil => rfl
  | cons e l ih => rw [List.foldl_cons, ih, spendSlot_mergeOriginSpend_of_ne hne]

end GridStateSnapshot

end PraxisGrid
