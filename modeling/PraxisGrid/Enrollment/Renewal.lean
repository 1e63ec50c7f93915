/-
PraxisGrid/Enrollment/Renewal.lean

Which renewals and seeds a site's enrollment record admits:
`crates/enrollment/src/store/renewal.rs`.

A renewal is admitted for the key of the leaf it presents: the current key rotates the record, and
the key that was replaced last may ask once more for the current one.  Every other leaf is a
second holder, unless its time puts it outside the record's incarnation.
-/
import Mathlib.Tactic.Common

namespace PraxisGrid.Enrollment

/-! ### Time -/

/-- A point in time between the first and the last one that can be represented, in nanoseconds. -/
structure Instant where
  ns : Int
  le : ns ≤ 253402300799999999999
deriving DecidableEq

def Instant.max : Instant := ⟨253402300799999999999, Int.le_refl _⟩

/-- The time after a positive span, at most the last one. -/
def Instant.saturatingAdd (time : Instant) (span : Nat) : Instant :=
  ⟨min (time.ns + span) Instant.max.ns, Int.min_le_right _ _⟩

instance : LE Instant := ⟨fun a b => a.ns ≤ b.ns⟩

instance : LT Instant := ⟨fun a b => a.ns < b.ns⟩

instance (a b : Instant) : Decidable (a ≤ b) := inferInstanceAs (Decidable (a.ns ≤ b.ns))

instance (a b : Instant) : Decidable (a < b) := inferInstanceAs (Decidable (a.ns < b.ns))

/-- Slack between the start of a leaf and the times of a record: ten minutes. -/
def recordSkew : Nat := 10 * 60 * 1000000000

/-! ### Renewals -/

abbrev Uuid := Nat

structure Renewal where
  siteName : String
  presentedKey : String
  requestedKey : String
  presentedNotBefore : Instant

/-- A name's enrollment record, as renewal reads it. -/
structure Held where
  id : Uuid
  currentKey : String
  previousKey : Option String
  recordedAt : Instant
  epochAt : Instant
  frozen : Bool
  seedGeneration : Option Nat
deriving DecidableEq

/-- A record written now. -/
def Held.new (id : Uuid) (currentKey : String) (previousKey : Option String) (now : Instant) : Held :=
  ⟨id, currentKey, previousKey, now, now, false, none⟩

def Held.rotate (held : Held) (requestedKey : String) (now : Instant) : Held :=
  { held with
    previousKey := some held.currentKey
    currentKey := requestedKey
    recordedAt := now }

/-- What an admitted renewal does to the record. -/
inductive RenewAction
  /-- the requested key becomes current -/
  | rotate
  /-- a retry after a lost response -/
  | resign
deriving DecidableEq

/-- Why a renewal was refused. -/
inductive Refusal
  | unknownSite
  | keyReused
  /-- two holders of one identity: the record is frozen -/
  | forked
  | frozen
  | superseded
  | recordBehind
deriving DecidableEq

/-- Decide a renewal against the name's record. -/
def Renewal.decide (held : Option Held) (renewal : Renewal) : Except Refusal RenewAction :=
  match held with
  | none => .error .unknownSite
  | some held =>
    let rollsBack :=
      renewal.presentedKey = held.currentKey ∧ held.previousKey = some renewal.requestedKey
    if held.frozen then .error .frozen
    else if renewal.requestedKey = renewal.presentedKey ∨ rollsBack then .error .keyReused
    else if renewal.presentedKey = held.currentKey then .ok .rotate
    else if held.previousKey = some renewal.presentedKey ∧ renewal.requestedKey = held.currentKey then
      .ok .resign
    -- A leaf from before a recovery, or from after a restored record, is not a fork.
    else if renewal.presentedNotBefore.saturatingAdd recordSkew < held.epochAt then
      .error .superseded
    else if held.recordedAt.saturatingAdd recordSkew < renewal.presentedNotBefore then
      .error .recordBehind
    else .error .forked

/-! ### Seeds -/

/-- A reserved name's identity as bootstrap last vouched for it. -/
structure SeedRecord where
  siteName : String
  keySha256 : String
  generation : Nat
  issuedAt : Instant

/-- The record of an incarnation that the seed begins. -/
def SeedRecord.held (seed : SeedRecord) (id : Uuid) (now : Instant) : Held :=
  { Held.new id seed.keySha256 none now with
    seedGeneration := some seed.generation
    epochAt := seed.issuedAt }

/-- What applying a seed did. -/
inductive Seeded
  | registered
  | reset (replacedKey : String)
  | acknowledged
  | unchanged
  | older
  | notReserved

def seedDecision (held : Option (Held × Bool)) (seed : SeedRecord) : Seeded :=
  match held with
  | none => .registered
  | some (_, false) => .notReserved
  | some (held, true) =>
    if held.seedGeneration.any fun applied => seed.generation < applied then .older
    else if held.seedGeneration = some seed.generation then .unchanged
    else if held.currentKey = seed.keySha256 ∨ held.previousKey = some seed.keySha256 then
      .acknowledged
    else .reset held.currentKey

/-! ### What a decision says -/

section Decisions

variable {held : Held} {renewal : Renewal}

theorem decide_eq_rotate_iff :
    renewal.decide (some held) = .ok .rotate ↔ held.frozen = false
      ∧ renewal.presentedKey = held.currentKey ∧ renewal.requestedKey ≠ held.currentKey
      ∧ held.previousKey ≠ some renewal.requestedKey := by
  unfold Renewal.decide
  grind

theorem decide_eq_resign_iff :
    renewal.decide (some held) = .ok .resign ↔ held.frozen = false
      ∧ held.previousKey = some renewal.presentedKey ∧ renewal.requestedKey = held.currentKey
      ∧ renewal.presentedKey ≠ held.currentKey := by
  unfold Renewal.decide
  grind

theorem seedDecision_eq_reset_iff {reserved : Bool} {seed : SeedRecord} {replaced : String} :
    seedDecision (some (held, reserved)) seed = .reset replaced ↔ reserved = true
      ∧ (∀ applied ∈ held.seedGeneration, applied < seed.generation)
      ∧ held.currentKey ≠ seed.keySha256 ∧ held.previousKey ≠ some seed.keySha256
      ∧ replaced = held.currentKey := by
  unfold seedDecision
  cases reserved with
  | false => simp
  | true =>
    cases hgn : held.seedGeneration with
    | none => grind
    | some applied =>
      simp only [Option.mem_some_iff]
      grind

end Decisions

end PraxisGrid.Enrollment
