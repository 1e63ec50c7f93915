/-
PraxisGrid/Lib/Tiers.lean

Choosing from a list in order of preference: the members of the first tier that has any, a
narrowing that is dropped when it leaves nothing, and the members of least value.
-/
import Mathlib.Data.List.Basic
import Mathlib.Order.BoundedOrder.Basic
import Mathlib.Order.MinMax

namespace PraxisGrid.Tiers

variable {α : Type*} {part xs : List α}

/-! ### A preferred part of a list -/

/-- `part`, or `whole` when `part` is empty. -/
def orWhole (part whole : List α) : List α := if part.length > 0 then part else whole

theorem orWhole_of_ne_nil (whole : List α) (h : part ≠ []) :
    orWhole part whole = part :=
  if_pos (List.length_pos_iff.mpr h)

@[simp] theorem orWhole_nil (whole : List α) : orWhole [] whole = whole := rfl

theorem orWhole_ne_nil {whole : List α} (h : whole ≠ []) : orWhole part whole ≠ [] := by
  by_cases hpr : part = []
  · rw [hpr, orWhole_nil]
    exact h
  · rw [orWhole_of_ne_nil whole hpr]
    exact hpr

theorem orWhole_sublist {whole : List α} (h : part.Sublist whole) :
    (orWhole part whole).Sublist whole := by
  by_cases hpr : part = []
  · rw [hpr, orWhole_nil]
  · rw [orWhole_of_ne_nil whole hpr]
    exact h

/-! ### The first tier with a member -/

/-- The members of `xs` in the first of `tiers` that holds one. -/
def first : List (α → Bool) → List α → List α
  | [], _ => []
  | tier :: tiers, xs => orWhole (xs.filter tier) (first tiers xs)

theorem first_sublist (tiers : List (α → Bool)) (xs : List α) : (first tiers xs).Sublist xs := by
  induction tiers with
  | nil => exact List.nil_sublist xs
  | cons tier tiers ih =>
    by_cases h : xs.filter tier = []
    · rw [first, h, orWhole_nil]
      exact ih
    · rw [first, orWhole_of_ne_nil _ h]
      exact List.filter_sublist

/-- A last tier that takes everything makes the choice total. -/
theorem first_ne_nil {tiers : List (α → Bool)} (hall : (fun _ => true) ∈ tiers) (hxs : xs ≠ []) :
    first tiers xs ≠ [] := by
  induction tiers with
  | nil => cases hall
  | cons tier tiers ih =>
    by_cases h : xs.filter tier = []
    · rw [first, h, orWhole_nil]
      apply ih
      rcases List.mem_cons.mp hall with hti | htr
      · rw [← hti, List.filter_true] at h
        exact absurd h hxs
      · exact htr
    · rw [first, orWhole_of_ne_nil _ h]
      exact h

/-! ### The members of least value -/

section Least

variable {β : Type*} [LinearOrder β]

theorem foldl_min_le (values : List β) (start : β) :
    values.foldl min start ≤ start ∧ ∀ v ∈ values, values.foldl min start ≤ v := by
  induction values generalizing start with
  | nil => exact ⟨le_rfl, nofun⟩
  | cons head tail ih =>
    obtain ⟨hst, htl⟩ := ih (min start head)
    refine ⟨hst.trans (min_le_left _ _), ?_⟩
    intro v hv
    rcases List.mem_cons.mp hv with rfl | hv
    · exact hst.trans (min_le_right _ _)
    · exact htl v hv

theorem foldl_min_mem (values : List β) (start : β) :
    values.foldl min start = start ∨ values.foldl min start ∈ values := by
  induction values generalizing start with
  | nil => exact .inl rfl
  | cons head tail ih =>
    rw [List.foldl_cons]
    rcases ih (min start head) with h | h
    · rw [h]
      rcases min_choice start head with hmin | hmin
      · exact .inl hmin
      · rw [hmin]
        exact .inr List.mem_cons_self
    · exact .inr (List.mem_cons_of_mem _ h)

variable [OrderTop β]

def leastValue (value : α → β) (xs : List α) : β := (xs.map value).foldl min ⊤

theorem leastValue_le {value : α → β} {x : α} (hx : x ∈ xs) :
    leastValue value xs ≤ value x :=
  (foldl_min_le _ _).2 _ (List.mem_map_of_mem hx)

/-- The least value is taken, also when every value is the top one. -/
theorem exists_leastValue {value : α → β} (hxs : xs ≠ []) :
    ∃ x ∈ xs, value x = leastValue value xs := by
  rcases foldl_min_mem (xs.map value) ⊤ with h | h
  · obtain ⟨x, hx⟩ := List.exists_mem_of_ne_nil xs hxs
    refine ⟨x, hx, le_antisymm ?_ (leastValue_le hx)⟩
    rw [leastValue, h]
    exact le_top
  · obtain ⟨x, hx, heq⟩ := List.mem_map.mp h
    exact ⟨x, hx, heq⟩

end Least

end PraxisGrid.Tiers
