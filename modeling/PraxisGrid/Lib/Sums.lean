/-
PraxisGrid/Lib/Sums.lean

Sums over the members of a list.

Differently named members, each charged to a budget entry of its name that is at least as large, sum
up to no more than the budget (`sum_le_of_charge`).  When one member changes its state, what the
members hold together changes by what that member took or gave back (`held_set`).
-/
import Mathlib.Algebra.GroupWithZero.Nat
import Mathlib.Algebra.Order.BigOperators.Group.List
import Mathlib.Algebra.Order.Group.Nat
import Mathlib.Data.List.Nodup
import Mathlib.Data.List.Perm.Subperm

/-! ### Charging to a budget -/

namespace Charge

variable {α β κ : Type*}

/-- A list that is contained in another, with multiplicities, has the smaller sum. -/
theorem sum_le_of_subperm {l : List β} {budget : List β} (h : l.Subperm budget) (w : β → Nat) :
    (l.map w).sum ≤ (budget.map w).sum := by
  obtain ⟨l', hpr, hsub⟩ := h
  rw [← (hpr.map w).sum_eq]
  exact (hsub.map w).sum_le_sum fun n _ => Nat.zero_le n

/-- **Charging.**  If differently named elements are each charged to an entry of their name
that is at least as large, their sum is within the budget. -/
theorem sum_le_of_charge {l : List α} {budget : List β} {name : α → κ} (key : β → κ) {v : α → Nat}
    {w : β → Nat} (hnd : (l.map name).Nodup)
    (hch : ∀ a ∈ l, ∃ b ∈ budget, key b = name a ∧ v a ≤ w b) :
    (l.map v).sum ≤ (budget.map w).sum := by
  by_cases hnil : l = []
  · subst hnil
    exact Nat.zero_le _
  obtain ⟨a, ha⟩ := List.exists_mem_of_ne_nil l hnil
  have : Nonempty β := ⟨(hch a ha).choose⟩
  -- the entry each element is charged to
  choose! entry hmem hkey hle using hch
  have hen : (l.map entry).Nodup := by
    apply List.Nodup.of_map key
    rw [List.map_map]
    have hsm : l.map (key ∘ entry) = l.map name :=
      List.map_congr_left fun a ha => hkey a ha
    rw [hsm]
    exact hnd
  have hsub : (l.map entry).Subperm budget := by
    apply hen.subperm
    intro b hb
    obtain ⟨a, ha, rfl⟩ := List.mem_map.mp hb
    exact hmem a ha
  calc (l.map v).sum ≤ (l.map (w ∘ entry)).sum := List.sum_le_sum fun a ha => hle a ha
    _ = ((l.map entry).map w).sum := by rw [List.map_map]
    _ ≤ (budget.map w).sum := sum_le_of_subperm hsub w

/-- Taking one from each number takes one from the sum. -/
theorem sum_pred_le (l : List β) (w : β → Nat) :
    (l.map fun b => w b - 1).sum ≤ (l.map w).sum - 1 := by
  induction l with
  | nil => simp
  | cons b l ih =>
    simp only [List.map_cons, List.sum_cons]
    omega

end Charge

/-! ### What the members hold -/

namespace Held

variable {α : Type*} {l : List α} {v w : α → Nat} {a b : α} {i : Nat}

/-- What the members of a list hold together. -/
def held (w : α → Nat) (l : List α) : Nat := (l.map w).sum

@[simp] theorem held_nil : held w [] = 0 := rfl

@[simp] theorem held_cons : held w (a :: l) = w a + held w l := rfl

@[simp] theorem held_append (l' : List α) : held w (l ++ l') = held w l + held w l' := by
  unfold held
  rw [List.map_append, List.sum_append]

@[simp] theorem held_replicate (n : Nat) : held w (List.replicate n a) = n * w a := by
  induction n with
  | zero => rw [List.replicate_zero, held_nil, Nat.zero_mul]
  | succ n ih => rw [List.replicate_succ, held_cons, ih, Nat.succ_mul, Nat.add_comm]

/-- **One member changes.** -/
theorem held_set (h : l[i]? = some a) : held w (l.set i b) + w a = held w l + w b := by
  induction l generalizing i with
  | nil => cases h
  | cons c l ih =>
    cases i with
    | zero =>
      cases h
      rw [List.set_cons_zero, held_cons, held_cons]
      omega
    | succ i =>
      have htl := ih h
      rw [List.set_cons_succ, held_cons, held_cons]
      omega

theorem held_add : held (fun a => v a + w a) l = held v l + held w l := by
  induction l with
  | nil => rfl
  | cons a l ih =>
    rw [held_cons, held_cons, held_cons, ih]
    omega

theorem le_held (h : l[i]? = some a) : w a ≤ held w l := by
  induction l generalizing i with
  | nil => cases h
  | cons c l ih =>
    rw [held_cons]
    cases i with
    | zero =>
      cases h
      exact Nat.le_add_right _ _
    | succ i => exact Nat.le_trans (ih h) (Nat.le_add_left _ _)

end Held
