/-
PraxisGrid/Lib/Cells.lean

Cells that several parties write: saturating 64-bit words, last-writer-wins registers, and a cell
written by compare-and-swap.

The word operations are the natural-number operations clamped, and are read back through `toNat`.
`newer` keeps the value with the larger stamp, and the first of two with the same stamp: it is
idempotent and associative as it stands, and commutative where one stamp is never given to two values
(`Agree`).  A compare-and-swap overwrites exactly what its writer read (`Past.eq_of_write`).
-/
import Mathlib.Algebra.Group.Int.Defs
import Mathlib.Algebra.GroupWithZero.Nat
import Mathlib.Order.Lattice
import Mathlib.Tactic.Common

/-! ### Saturating words -/

namespace Saturate

/-- Largest 64-bit word, as a natural number. -/
def wordMax : Nat := 2 ^ 64 - 1

/-- Clamp a natural number into a 64-bit word. -/
def saturate (n : Nat) : UInt64 :=
  UInt64.ofNat (min n wordMax)

def satAdd (a b : UInt64) : UInt64 :=
  saturate (a.toNat + b.toNat)

/-- Addition that fails on overflow. -/
def checkedAdd (a b : UInt64) : Option UInt64 :=
  if a.toNat + b.toNat ≤ wordMax then some (saturate (a.toNat + b.toNat)) else none

def satSub (a b : UInt64) : UInt64 :=
  saturate (a.toNat - b.toNat)

/-- Saturating subtraction of signed 64-bit words. -/
def signedSub (a b : Int) : Int :=
  max (-(2 ^ 63)) (min (a - b) (2 ^ 63 - 1))

@[simp] theorem toNat_saturate (n : Nat) : (saturate n).toNat = min n wordMax := by
  have h : min n wordMax < UInt64.size := by
    simp only [wordMax, UInt64.size]
    omega
  exact UInt64.toNat_ofNat_of_lt' h

@[simp] theorem toNat_satAdd (a b : UInt64) :
    (satAdd a b).toNat = min (a.toNat + b.toNat) wordMax :=
  toNat_saturate _

@[simp] theorem toNat_satSub (a b : UInt64) : (satSub a b).toNat = a.toNat - b.toNat := by
  have hlt := a.toNat_lt
  simp only [satSub, toNat_saturate, wordMax]
  omega

theorem toNat_checkedAdd {a b c : UInt64} (h : checkedAdd a b = some c) :
    c.toNat = a.toNat + b.toNat := by
  unfold checkedAdd at h
  split_ifs at h with hle
  rw [← Option.some.inj h, toNat_saturate, Nat.min_eq_left hle]

/-- The saturating sum of a list is the sum, clamped once. -/
theorem toNat_foldl_satAdd (l : List UInt64) (a : UInt64) :
    (l.foldl satAdd a).toNat = min (a.toNat + (l.map UInt64.toNat).sum) wordMax := by
  induction l generalizing a with
  | nil =>
    have hlt := a.toNat_lt
    simp only [List.foldl_nil, List.map_nil, List.sum_nil, wordMax]
    omega
  | cons b l ih =>
    rw [List.foldl_cons, ih, toNat_satAdd, List.map_cons, List.sum_cons]
    omega

theorem satAdd_eq_zero_iff {a b : UInt64} : satAdd a b = 0 ↔ a = 0 ∧ b = 0 := by
  simp only [← UInt64.toNat_inj, toNat_satAdd, UInt64.toNat_zero, wordMax]
  omega

end Saturate

/-! ### Last-writer-wins registers -/

namespace Newer

variable {α σ : Type*} [LinearOrder σ] {stamp : α → σ} {x y z : Option α}

/-- The newer of two optional values; the first where neither is. -/
def newer (stamp : α → σ) : Option α → Option α → Option α
  | x, none => x
  | none, some b => some b
  | some a, some b => if stamp a < stamp b then some b else some a

/-- Two values that are both present are the same if their stamps are. -/
def Agree (stamp : α → σ) (x y : Option α) : Prop :=
  ∀ a b, x = some a → y = some b → stamp a = stamp b → a = b

@[simp] theorem newer_none : newer stamp x none = x := by
  cases x <;> rfl

@[simp] theorem none_newer : newer stamp none x = x := by
  cases x <;> rfl

theorem newer_eq_or (x y : Option α) : newer stamp x y = x ∨ newer stamp x y = y := by
  rcases y with - | b
  · exact .inl newer_none
  rcases x with - | a
  · exact .inr rfl
  simp only [newer]
  split_ifs
  · exact .inr rfl
  · exact .inl rfl

theorem newer_self (x : Option α) : newer stamp x x = x := by
  cases x with
  | none => rfl
  | some a => exact if_neg (lt_irrefl _)

omit [LinearOrder σ] in
/-- Values that their stamps determine always agree. -/
theorem agree_of_injective (hst : Function.Injective stamp) (x y : Option α) :
    Agree stamp x y :=
  fun _ _ _ _ h => hst h

theorem newer_comm (h : Agree stamp x y) : newer stamp x y = newer stamp y x := by
  rcases x with - | a
  · simp
  rcases y with - | b
  · simp
  simp only [newer]
  rcases lt_trichotomy (stamp a) (stamp b) with hlt | heq | hgt
  · rw [if_pos hlt, if_neg (lt_asymm hlt)]
  · rw [if_neg (heq ▸ lt_irrefl _), if_neg (heq ▸ lt_irrefl _), h a b rfl rfl heq]
  · rw [if_neg (lt_asymm hgt), if_pos hgt]

theorem newer_assoc (x y z : Option α) :
    newer stamp (newer stamp x y) z = newer stamp x (newer stamp y z) := by
  rcases x with - | a
  · simp
  rcases y with - | b
  · simp
  rcases z with - | d
  · simp
  simp only [newer]
  -- the first of the largest stamps is kept on both sides
  by_cases hab : stamp a < stamp b
  · by_cases hbd : stamp b < stamp d
    · simp [hab, hbd, lt_trans hab hbd]
    · simp [hab, hbd]
  · by_cases hbd : stamp b < stamp d
    · simp [hab, hbd]
    · have had : ¬ stamp a < stamp d := fun h => hab (lt_of_lt_of_le h (not_lt.mp hbd))
      simp [hab, hbd, had]

end Newer

/-! ### Compare-and-swap -/

namespace Versioned

variable {α : Type*}

/-- A value with the version of its last write. -/
structure Cell (α : Type*) where
  value : α
  version : Nat

/-- Write over what was read; none if the cell is not what was read any more. -/
def write (stored read : Option (Cell α)) (value : α) : Option (Cell α) :=
  match read, stored with
  | none, none => some ⟨value, 0⟩
  | some read, some stored =>
      if read.version = stored.version then some ⟨value, stored.version + 1⟩ else none
  | _, _ => none

/-- What was read is a state the cell had, now or before. -/
def Past (read stored : Option (Cell α)) : Prop :=
  ∀ cell, read = some cell →
    ∃ current, stored = some current ∧ cell.version ≤ current.version ∧
      (cell.version = current.version → cell = current)

variable {stored read read' : Option (Cell α)} {value : α} {cell : Cell α}

theorem Past.refl (stored : Option (Cell α)) : Past stored stored := by
  rintro cell rfl
  exact ⟨cell, rfl, Nat.le_refl _, fun _ => rfl⟩

theorem value_of_write (h : write stored read value = some cell) : cell.value = value := by
  unfold write at h
  rcases read with - | r <;> rcases stored with - | s
  · exact Option.some.inj h ▸ rfl
  · cases h
  · cases h
  · dsimp only at h
    split_ifs at h
    exact Option.some.inj h ▸ rfl

/-- A write that goes through overwrites what was read. -/
theorem Past.eq_of_write (hps : Past read stored) (h : write stored read value = some cell) :
    stored = read := by
  unfold write at h
  rcases read with - | r <;> rcases stored with - | s
  · rfl
  · cases h
  · cases h
  · dsimp only at h
    split_ifs at h with hver
    obtain ⟨current, hcur, -, hsm⟩ := hps r rfl
    cases hcur
    rw [hsm hver]

theorem Past.write (hps : Past read stored) (h : write stored read' value = some cell) :
    Past read (some cell) := by
  rintro r rfl
  obtain ⟨current, rfl, hle, -⟩ := hps r rfl
  -- the new version is above the old one
  have hver : cell.version = current.version + 1 := by
    unfold Versioned.write at h
    rcases read' with - | r'
    · cases h
    · dsimp only at h
      split_ifs at h
      exact Option.some.inj h ▸ rfl
  refine ⟨cell, rfl, by omega, fun heq => ?_⟩
  omega

end Versioned
