/-
PraxisGrid/Crdt/GCounter.lean

The grow-only counter of `crates/crdt/src/gcounter.rs`: one slot per site, merged
by taking the larger value of each slot (`slots_merge`).

`slot` reads an absent slot as zero.
-/
import PraxisGrid.Lib.Cells
import PraxisGrid.Lib.OrdMap

namespace PraxisGrid

open Std OrdMap Saturate Newer

/-- A grow-only counter with per-site slots. -/
structure GCounter where
  siteId : String
  slots : ExtTreeMap String UInt64
deriving DecidableEq

namespace GCounter

/-- The empty counter of one replica. -/
def new (siteId : String) : GCounter := ⟨siteId, ∅⟩

/-- Add to the slot of the counter's own site, saturating. -/
def increment (c : GCounter) (amount : UInt64) : GCounter :=
  { c with slots := c.slots.insert c.siteId (satAdd (c.slots.getD c.siteId 0) amount) }

/-- Total over all slots, saturating. -/
def total (c : GCounter) : UInt64 :=
  (values c.slots).foldl satAdd 0

/-- Take the larger value of each slot of `other`. -/
def merge (c other : GCounter) : GCounter :=
  { c with
    slots := other.slots.toList.foldl
      (fun slots e => slots.insert e.1 (max (slots.getD e.1 0) e.2)) c.slots }

/-- A copy holding only `origin`'s slot. -/
def retainOrigin (c : GCounter) (origin : String) : GCounter :=
  match c.slots[origin]? with
  | some value => ⟨origin, (∅ : ExtTreeMap String UInt64).insert origin value⟩
  | none => new origin

/-- Number of sites with a slot. -/
def slotCount (c : GCounter) : Nat := c.slots.size

/-- Whether `site` has a slot. -/
def hasSlot (c : GCounter) (site : String) : Bool := c.slots.contains site

/-- Recorded value of a site, zero when it has no slot. -/
def slot (c : GCounter) (site : String) : UInt64 := c.slots.getD site 0

/-! ### What the operations do to a slot -/

theorem slot_eq_getD (c : GCounter) (site : String) : c.slot site = c.slots[site]?.getD 0 :=
  ExtTreeMap.getD_eq_getD_getElem?

theorem slots_retainOrigin (c : GCounter) (origin site : String) :
    (c.retainOrigin origin).slots[site]? = if origin = site then c.slots[origin]? else none := by
  unfold retainOrigin
  rcases h : c.slots[origin]? with - | value
  · simp [new]
  · rw [getElem?_insert, ExtTreeMap.getElem?_empty]

/-- Only the origin's own slot counts towards the total of a restricted counter. -/
theorem total_retainOrigin_eq_zero_iff (c : GCounter) (origin : String) :
    (c.retainOrigin origin).total = 0 ↔ c.slot origin = 0 := by
  unfold retainOrigin total
  rw [slot_eq_getD]
  rcases h : c.slots[origin]? with - | value
  · simp [new]
  · simp only [values_singleton, List.foldl_cons, List.foldl_nil, satAdd_eq_zero_iff,
      Option.getD_some, true_and]

/-- A merge is the pointwise maximum, and adds no slot but those of `other`. -/
theorem slots_merge (c other : GCounter) (site : String) :
    (c.merge other).slots[site]? =
      match other.slots[site]? with
      | some n => some (max (c.slot site) n)
      | none => c.slots[site]? := by
  unfold merge slot
  simp only [ExtTreeMap.getD_eq_getD_getElem?]
  rw [getElem?_foldl_toList_insert fun old n => max (old.getD 0) n]
  cases other.slots[site]? with
  | none => rfl
  | some n => rfl

/-- The merged slot is the newer of the two, with the count as its stamp. -/
theorem slots_merge_newer (c other : GCounter) (site : String) :
    (c.merge other).slots[site]? =
      newer UInt64.toNat c.slots[site]? other.slots[site]? := by
  rw [slots_merge, slot_eq_getD]
  rcases h : other.slots[site]? with - | n
  · rw [newer_none]
  · rcases h' : c.slots[site]? with - | m
    · rw [none_newer]
      apply congrArg some
      rw [← UInt64.toNat_inj, UInt64.toNat_max]
      exact Nat.zero_max _
    · simp only [Option.getD_some, newer]
      split_ifs with hlt
      · rw [Option.some_inj, ← UInt64.toNat_inj, UInt64.toNat_max]
        omega
      · rw [Option.some_inj, ← UInt64.toNat_inj, UInt64.toNat_max]
        omega

/-- Merging a counter restricted to `origin` raises `origin`'s slot to the larger value, and touches
no other. -/
theorem slots_merge_retainOrigin (c other : GCounter) {origin : String}
    (h : other.slot origin ≠ 0) :
    (c.merge (other.retainOrigin origin)).slots =
      c.slots.insert origin (max (c.slot origin) (other.slot origin)) := by
  apply ExtTreeMap.ext_getElem?
  intro site
  rw [slots_merge, slots_retainOrigin, getElem?_insert]
  split_ifs with hst
  · subst hst
    rw [slot_eq_getD] at h
    rw [slot_eq_getD other]
    rcases hs : other.slots[origin]? with - | n
    · rw [hs] at h
      exact absurd rfl h
    · rfl
  · rfl

/-! ### Totals -/

/-- Every slot of the first counter is in the second, with at least its count. -/
def Below (c other : GCounter) : Prop :=
  ∀ (site : String) (n : UInt64), c.slots[site]? = some n →
    ∃ n' : UInt64, other.slots[site]? = some n' ∧ n.toNat ≤ n'.toNat

theorem below_merge (c other : GCounter) : c.Below (c.merge other) := by
  intro site n hn
  rw [slots_merge, slot_eq_getD, hn]
  rcases other.slots[site]? with - | m
  · exact ⟨n, rfl, Nat.le_refl _⟩
  · refine ⟨max n m, rfl, ?_⟩
    rw [UInt64.toNat_max]
    omega

theorem below_increment (c : GCounter) (amount : UInt64) : c.Below (c.increment amount) := by
  intro site n hn
  unfold increment
  rw [getElem?_insert]
  split_ifs with hst
  · subst hst
    refine ⟨_, rfl, ?_⟩
    have hlt := n.toNat_lt
    rw [ExtTreeMap.getD_eq_getD_getElem?, hn, Option.getD_some, toNat_satAdd, wordMax]
    omega
  · exact ⟨n, hn, Nat.le_refl _⟩

theorem toNat_total (c : GCounter) :
    c.total.toNat = min ((values c.slots).map UInt64.toNat).sum wordMax := by
  rw [total, toNat_foldl_satAdd, UInt64.toNat_zero, Nat.zero_add]

/-- Larger slots have the larger total, saturated or not. -/
theorem Below.total_le {c other : GCounter} (h : c.Below other) : c.total ≤ other.total := by
  have hsum : ((values c.slots).map UInt64.toNat).sum ≤
      ((values other.slots).map UInt64.toNat).sum := sum_values_le h
  rw [UInt64.le_iff_toNat_le, toNat_total, toNat_total]
  omega

end GCounter

end PraxisGrid
