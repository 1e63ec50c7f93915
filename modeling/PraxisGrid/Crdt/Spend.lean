/-
PraxisGrid/Crdt/Spend.lean

Spend claims of one origin, where the spend tables have room.

The tables of `crates/crdt/src/grid_state.rs` are bounded, so what a claim does depends on
which claims came before it.  Where the tenants tracked and claimed fit the table and every
tracked counter has a slot of the origin or room for one (`SpendRoom`), it does not: each
slot of the origin is raised to the larger value (`raise`), and the tables keep their room.
-/
import PraxisGrid.Crdt.GridState

namespace PraxisGrid

open Std OrdMap

/-! ### Claims -/

/-- What an origin claims that a tenant spent; zero when it claims nothing. -/
def claimedSpend (other : ExtTreeMap String GCounter) (origin tenant : String) : UInt64 :=
  (other[tenant]?.map fun counter => counter.slot origin).getD 0

/-- A slot raised by a claim; zero claims nothing. -/
def raise (slot : Option UInt64) (claim : UInt64) : Option UInt64 :=
  if claim = 0 then slot else some (max (slot.getD 0) claim)

@[simp] theorem raise_zero (slot : Option UInt64) : raise slot 0 = slot := if_pos rfl

theorem max_max_of_le {x a b : UInt64} (hab : a ≤ b) : max (max x a) b = max x b := by
  rw [UInt64.le_iff_toNat_le] at hab
  apply UInt64.toNat_inj.mp
  simp only [UInt64.toNat_max]
  omega

/-- A larger claim absorbs a smaller one. -/
theorem raise_raise {slot : Option UInt64} {a b : UInt64} (hab : a ≤ b) :
    raise (raise slot a) b = raise slot b := by
  unfold raise
  by_cases hb : b = 0
  · -- then the smaller claim is zero too
    have ha : a = 0 := by
      apply UInt64.le_antisymm
      · rw [← hb]
        exact hab
      · exact UInt64.zero_le
    rw [if_pos hb, if_pos hb, if_pos ha]
  · rw [if_neg hb, if_neg hb]
    by_cases ha : a = 0
    · rw [if_pos ha]
    · rw [if_neg ha, Option.getD_some, max_max_of_le hab]

namespace GridStateSnapshot

variable {snap : GridStateSnapshot} {origin tenant : String} {tenants : ExtTreeSet String}

/-! ### Room in the tables -/

/-- The tenants tracked are among `tenants`, which fit the table, and every tracked counter
has a slot of the origin or room for one. -/
structure SpendRoom (snap : GridStateSnapshot) (origin : String) (tenants : ExtTreeSet String) :
    Prop where
  tracked : ∀ {tenant : String} {counter : GCounter},
    snap.tenantSpend[tenant]? = some counter → tenant ∈ tenants
  size : tenants.size ≤ maxTrackedTenants
  slots : ∀ {tenant : String} {counter : GCounter}, snap.tenantSpend[tenant]? = some counter →
    counter.hasSlot origin = true ∨ counter.slotCount < maxTenantSpendOrigins

section

variable (hi : snap.SpendRoom origin tenants)
include hi

theorem SpendRoom.congr {snap' : GridStateSnapshot} (hsp : snap'.tenantSpend = snap.tenantSpend)
    : snap'.SpendRoom origin tenants := by
  obtain ⟨htr, hsz, hsl⟩ := hi
  exact ⟨by rwa [hsp], hsz, by rwa [hsp]⟩

/-- With room in the tables every tenant of the list can be tracked. -/
theorem SpendRoom.hasSpendRoom (htn : tenant ∈ tenants) :
    snap.hasSpendRoom tenant origin = true := by
  unfold GridStateSnapshot.hasSpendRoom
  rcases hhl : snap.tenantSpend[tenant]? with - | counter
  · -- one more tenant fits: the tracked ones and this one are in the list
    have hcs : tenant ∉ snap.tenantSpend.keys := by
      intro hmem
      obtain ⟨counter, hcn⟩ := mem_keys_iff.mp hmem
      rw [hhl] at hcn
      cases hcn
    have hsub : (tenant :: snap.tenantSpend.keys) ⊆ tenants.toList := by
      intro t ht
      apply ExtTreeSet.mem_toList.mpr
      rcases List.mem_cons.mp ht with rfl | ht
      · exact htn
      · obtain ⟨counter, hcn⟩ := mem_keys_iff.mp ht
        exact hi.tracked hcn
    have hlen := ((List.nodup_cons.mpr ⟨hcs, ExtTreeMap.nodup_keys⟩).subperm hsub).length_le
    rw [List.length_cons, ExtTreeMap.length_keys, ExtTreeSet.length_toList] at hlen
    have hlt : snap.tenantSpend.size < maxTrackedTenants :=
      Nat.lt_of_succ_le (Nat.le_trans hlen hi.size)
    rw [ExtTreeMap.getD_eq_getD_getElem?, hhl]
    simp [hlt, GCounter.slotCount, GCounter.new, maxTenantSpendOrigins]
  · have hcs : snap.tenantSpend.contains tenant = true := by
      rw [ExtTreeMap.contains_eq_isSome_getElem?, hhl]
      rfl
    rw [ExtTreeMap.getD_eq_getD_getElem?, hhl, hcs]
    simpa using hi.slots hhl

theorem SpendRoom.spendSlot_mergeOriginSpend (htn : tenant ∈ tenants) (counter : GCounter)
    (t : String) :
    (snap.mergeOriginSpend origin tenant counter).spendSlot t origin =
      if tenant = t then raise (snap.spendSlot t origin) (counter.slot origin)
      else snap.spendSlot t origin := by
  rw [GridStateSnapshot.spendSlot_mergeOriginSpend, hi.hasSpendRoom htn]
  by_cases ht : tenant = t
  · subst ht
    by_cases hzr : counter.slot origin = 0
    · simp [hzr]
    · simp [hzr, raise]
  · simp [ht]

theorem SpendRoom.mergeOriginSpend (htn : tenant ∈ tenants) (counter : GCounter) :
    (snap.mergeOriginSpend origin tenant counter).SpendRoom origin tenants := by
  -- a counter put back under the tenant, with a slot of the origin or room for one
  have hins : ∀ entry : GCounter,
      entry.hasSlot origin = true ∨ entry.slotCount < maxTenantSpendOrigins →
      ({ snap with tenantSpend := snap.tenantSpend.insert tenant entry } :
        GridStateSnapshot).SpendRoom origin tenants := by
    intro entry hen
    refine ⟨fun {t counter} hhl => ?_, hi.size, fun {t counter} hhl => ?_⟩
    · rw [getElem?_insert] at hhl
      split_ifs at hhl with ht
      · rw [← ht]
        exact htn
      · exact hi.tracked hhl
    · rw [getElem?_insert] at hhl
      split_ifs at hhl
      · rw [← Option.some.inj hhl]
        exact hen
      · exact hi.slots hhl
  have hrm := hi.hasSpendRoom htn
  simp only [GridStateSnapshot.hasSpendRoom, Bool.and_eq_true, Bool.or_eq_true,
    decide_eq_true_eq] at hrm
  rcases snap.mergeOriginSpend_cases origin tenant counter with
    ⟨-, hsm | ⟨-, hsm⟩⟩ | ⟨hzr, -, hrs⟩
  · rwa [hsm]
  · rw [hsm]
    exact hins _ hrm.2
  · rw [hrs]
    apply hins
    left
    rw [GCounter.hasSlot, GCounter.slots_merge_retainOrigin _ _ hzr, ExtTreeMap.contains_insert_self]

/-! ### All claims of a broadcast -/

/-- The loop over the claims, from any point of it on. -/
private theorem SpendRoom.foldl_mergeOriginSpend {l : List (String × GCounter)}
    (hl : ∀ e ∈ l, e.1 ∈ tenants) (hnd : (l.map Prod.fst).Nodup) :
    let merged := l.foldl (fun snap e => snap.mergeOriginSpend origin e.1 e.2) snap
    merged.SpendRoom origin tenants ∧
      ∀ t, merged.spendSlot t origin =
        raise (snap.spendSlot t origin)
          (((l.lookup t).map fun counter => counter.slot origin).getD 0) := by
  induction l generalizing snap with
  | nil => exact ⟨hi, fun t => (raise_zero _).symm⟩
  | cons e l ih =>
    obtain ⟨tenant, counter⟩ := e
    rw [List.map_cons, List.nodup_cons] at hnd
    have htn : tenant ∈ tenants := hl _ List.mem_cons_self
    obtain ⟨hrm, hsl⟩ := ih (hi.mergeOriginSpend htn counter)
      ((List.forall_mem_cons.mp hl).2) hnd.2
    refine ⟨hrm, fun t => ?_⟩
    rw [List.foldl_cons, hsl t, hi.spendSlot_mergeOriginSpend htn, List.lookup_cons]
    by_cases ht : tenant = t
    · subst ht
      -- the tenant is not claimed again
      have hnn : l.lookup tenant = none := by
        rw [List.lookup_eq_none_iff]
        intro e he
        rw [bne_iff_ne]
        intro heq
        exact hnd.1 (List.mem_map.mpr ⟨e, he, heq.symm⟩)
      simp [hnn]
    · have hbeq : (t == tenant) = false := beq_eq_false_iff_ne.mpr (Ne.symm ht)
      simp [hbeq, ht]

end

variable {other : ExtTreeMap String GCounter}

theorem SpendRoom.mergeTenantSpendFromOrigin (hi : snap.SpendRoom origin tenants)
    (hcl : ∀ {tenant : String} {counter : GCounter}, other[tenant]? = some counter →
      tenant ∈ tenants) :
    (snap.mergeTenantSpendFromOrigin origin other).SpendRoom origin tenants ∧
      ∀ t, (snap.mergeTenantSpendFromOrigin origin other).spendSlot t origin =
        raise (snap.spendSlot t origin) (claimedSpend other origin t) := by
  have hl : ∀ e ∈ other.toList, e.1 ∈ tenants := by
    rintro ⟨tenant, counter⟩ he
    exact hcl (ExtTreeMap.mem_toList_iff_getElem?_eq_some.mp he)
  obtain ⟨hrm, hsl⟩ := hi.foldl_mergeOriginSpend hl (nodup_map_fst_toList other)
  refine ⟨hrm, fun t => ?_⟩
  have hst := hsl t
  rw [lookup_toList] at hst
  exact hst

/-! ### Full tables -/

/-- One cent of each of these tenants, claimed by a site. -/
def centOf (site : String) (tenants : List String) : ExtTreeMap String GCounter :=
  ExtTreeMap.ofList (tenants.map fun tenant => (tenant, (GCounter.new site).increment 1))

/-- **Which tenant the last place of a table goes to depends on the order of the claims.**  The
claim of a tenant and then of two keeps the first one, and the claim of the two alone keeps the
other. -/
theorem last_place_depends_on_order (hsz : snap.tenantSpend.size + 1 = maxTrackedTenants)
    (ha : snap.tenantSpend["a"]? = none) (hb : snap.tenantSpend["b"]? = none) :
    ((snap.mergeTenantSpendFromOrigin "site" (centOf "site" ["b"])).mergeTenantSpendFromOrigin
        "site" (centOf "site" ["a", "b"])).spendSlot "b" "site" = some 1 ∧
      (snap.mergeTenantSpendFromOrigin "site" (centOf "site" ["a", "b"])).spendSlot "b" "site" =
        none := by
  generalize hc : (GCounter.new "site").increment 1 = cent
  have hone : cent.slot "site" = 1 := by
    rw [← hc]
    decide
  have hbl : (centOf "site" ["b"]).toList = [("b", cent)] := by
    rw [← hc]
    decide
  have habl : (centOf "site" ["a", "b"]).toList = [("a", cent), ("b", cent)] := by
    rw [← hc]
    decide
  -- a tenant that is not tracked takes the last place
  have hroom : ∀ {tenant : String}, snap.tenantSpend[tenant]? = none →
      snap.hasSpendRoom tenant "site" = true := by
    intro tenant hnn
    unfold hasSpendRoom
    rw [ExtTreeMap.getD_eq_getD_getElem?, hnn, Option.getD_none, Bool.and_eq_true,
      Bool.or_eq_true, decide_eq_true_eq]
    exact ⟨.inr (by omega), by simp [GCounter.slotCount, GCounter.new, maxTenantSpendOrigins]⟩
  unfold mergeTenantSpendFromOrigin
  rw [hbl, habl]
  simp only [List.foldl_cons, List.foldl_nil]
  constructor
  · have hfirst : (snap.mergeOriginSpend "site" "b" cent).spendSlot "b" "site" = some 1 := by
      rw [spendSlot_mergeOriginSpend, if_pos ⟨rfl, rfl, by rw [hone]; decide, hroom hb⟩, hone,
        spendSlot, hb]
      rfl
    rw [spendSlot_mergeOriginSpend, spendSlot_mergeOriginSpend, spendSlot_mergeOriginSpend, hfirst,
      hone]
    simp only [String.reduceEq, false_and, if_false, Option.getD_some]
    exact ite_eq_right_iff.mpr fun _ => by decide
  · have hnot : ¬ (snap.mergeOriginSpend "site" "a" cent).hasSpendRoom "b" "site" = true := by
      rcases snap.mergeOriginSpend_cases "site" "a" cent with ⟨hno, -⟩ | ⟨-, -, hin⟩
      · exact absurd ⟨by rw [hone]; decide, hroom ha⟩ hno
      · have hna : snap.tenantSpend.contains "a" = false := by
          rw [ExtTreeMap.contains_eq_isSome_getElem?, ha, Option.isSome_none]
        have hnb : snap.tenantSpend.contains "b" = false := by
          rw [ExtTreeMap.contains_eq_isSome_getElem?, hb, Option.isSome_none]
        rw [hin, hasSpendRoom, ExtTreeMap.contains_insert, hnb, ExtTreeMap.size_insert]
        simp [hna, hsz]
    rw [spendSlot_mergeOriginSpend, if_neg fun h => hnot h.2.2.2, spendSlot_mergeOriginSpend,
      if_neg fun h => absurd h.1 (by decide), spendSlot, hb]
    rfl

end GridStateSnapshot

end PraxisGrid
