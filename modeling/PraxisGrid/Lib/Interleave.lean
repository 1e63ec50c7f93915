/-
PraxisGrid/Lib/Interleave.lean

Lists taken one element of each in turn, and the part of a list that fits a bound.

An element's place in the interleaving depends on how many stand before it in its own list.
Dropping elements from the lists before or after they are interleaved is therefore not the same in
general; it is where the ones that are kept lead their lists (`filter_interleave`).
-/
import Mathlib.Data.List.Infix
import Mathlib.Data.List.Perm.Basic
import Mathlib.Data.List.Range
import Mathlib.Order.MinMax

namespace Interleave

variable {α : Type*} {lists : List (List α)} {list : List α} {count : Nat}

/-! ### One of each in turn -/

def ranks (count : Nat) (lists : List (List α)) : List α :=
  (List.range count).flatMap fun rank => lists.filterMap fun list => list[rank]?

def deepest (lists : List (List α)) : Nat := (lists.map List.length).foldr max 0

def interleave (lists : List (List α)) : List α := ranks (deepest lists) lists

open List

theorem length_le_deepest (h : list ∈ lists) :
    list.length ≤ deepest lists := by
  induction lists with
  | nil => cases h
  | cons first lists ih =>
    show list.length ≤ max first.length (deepest lists)
    rcases mem_cons.mp h with rfl | h
    · exact le_max_left _ _
    · exact (ih h).trans (le_max_right _ _)

theorem ranks_eq_interleave (h : deepest lists ≤ count) :
    ranks count lists = interleave lists := by
  obtain ⟨extra, rfl⟩ := Nat.exists_eq_add_of_le h
  induction extra with
  | zero => rfl
  | succ extra ih =>
    have hnn : (lists.filterMap fun list => list[deepest lists + extra]?) = [] := by
      rw [filterMap_eq_nil_iff]
      intro list hls
      apply getElem?_eq_none
      have := length_le_deepest hls
      omega
    rw [← ih (Nat.le_add_right _ _), ← Nat.add_assoc]
    unfold ranks
    rw [range_succ, flatMap_append, flatMap_singleton, hnn, append_nil]

/-! ### Dropping elements -/

variable {p : α → Bool}

/-- Where the kept elements lead a list, they keep their ranks. -/
theorem getElem?_filter_of_leads (h : list.filter p <+: list) (rank : Nat) :
    (list.filter p)[rank]? = list[rank]?.filter p := by
  obtain ⟨rest, hrs⟩ := h
  have hnn : rest.filter p = [] := by
    have hfl : (list.filter p ++ rest).filter p = list.filter p := by rw [hrs]
    rw [filter_append, filter_filter] at hfl
    simpa using hfl
  by_cases hrn : rank < (list.filter p).length
  · have hls : list[rank]? = (list.filter p)[rank]? := by
      rw [← hrs, getElem?_append_left (by simpa [hrs] using hrn), hrs]
    rw [hls, getElem?_eq_getElem hrn]
    have hmem := getElem_mem hrn
    simp [Option.filter, (mem_filter.mp hmem).2]
  · have hls : list[rank]? = rest[rank - (list.filter p).length]? := by
      conv_lhs => rw [← hrs]
      exact getElem?_append_right (Nat.le_of_not_lt hrn)
    rw [getElem?_eq_none (Nat.le_of_not_lt hrn), hls, eq_comm, Option.filter_eq_none_iff]
    intro a ha hp
    have hmem : a ∈ rest.filter p := mem_filter.mpr ⟨mem_of_getElem? ha, hp⟩
    rw [hnn] at hmem
    cases hmem

/-- **Where the kept elements lead their lists**, the others leave no trace. -/
theorem filter_interleave (h : ∀ list ∈ lists, list.filter p <+: list) :
    (interleave lists).filter p = interleave (lists.map (filter p)) := by
  have hdp : deepest (lists.map (filter p)) ≤ deepest lists := by
    clear h
    induction lists with
    | nil => exact le_rfl
    | cons list lists ih => exact max_le_max (length_filter_le _ _) ih
  rw [← ranks_eq_interleave hdp]
  unfold interleave ranks
  rw [filter_flatMap]
  congr 1
  funext rank
  rw [filter_filterMap, filterMap_map]
  apply filterMap_congr
  intro list hls
  exact (getElem?_filter_of_leads (h list hls) rank).symm

/-! ### What fits -/

section Fitting

variable (fits : List α → Bool)

/-- The elements added after those shown, up to the first that does not fit any more. -/
def fitting (shown : List α) : List α → List α
  | [] => []
  | next :: rest => if fits (shown ++ [next]) then next :: fitting (shown ++ [next]) rest else []

end Fitting

end Interleave
