/-
PraxisGrid/Operator/Lease.lean

Transport revisions of an operator: the durable leases of `crates/operator/src/main.rs` and the
process-local allocator `RevisionClock` of `crates/operator/src/swim_runtime.rs`.

A process reserves a range of revisions by raising the high-water mark in a `ConfigMap`, and
renews it before it runs out.  Both go through one compare-and-swap loop, modelled call by call: a
read, a plan made at the clock of that moment, and a write that may conflict, fail, or go through
without its answer arriving.  The data of the `ConfigMap` is modelled as what it parses to.
-/
import PraxisGrid.Lib.Cells
import PraxisGrid.Swim.Trust

namespace PraxisGrid

open Saturate Versioned

/-! ### Leases -/

/-- Revision and generation ranges reserved for one process, both ends included. -/
structure RevisionLease where
  firstRevision : UInt64
  lastRevision : UInt64
  firstNodeGeneration : UInt64
  lastNodeGeneration : UInt64

def revisionLeaseSize : UInt64 := revisionLeaseSpan

/-- Identity renewals reserved for one operator. -/
def nodeGenerationLeaseSize : UInt64 := (1 : UInt64) <<< 20

/-- Conflicts retried during one reservation. -/
def revisionReservationAttempts : Nat := 8

def okOr {α : Type} (value : Option α) (error : String) : Except String α :=
  match value with
  | none => .error error
  | some value => .ok value

/-- A lease of `revisionLeaseSize` revisions from `first`, generations left zero. -/
def revisionRange (first : UInt64) : Except String RevisionLease := do
  let last ← okOr (checkedAdd first (revisionLeaseSize - 1)) "SWIM revision range exhausted"
  .ok ⟨first, last, 0, 0⟩

def leaseFromSeeds (firstRevision nodeGeneration : UInt64) : Except String RevisionLease := do
  let lastNodeGeneration ← okOr (checkedAdd nodeGeneration (nodeGenerationLeaseSize - 1))
    "SWIM node generation range exhausted"
  let range ← revisionRange firstRevision
  .ok { range with
    firstNodeGeneration := nodeGeneration
    lastNodeGeneration := lastNodeGeneration }

/-- First revision past the mark and the clock, reseeded at the clock when its lease would pass
the cap of the peers. -/
def nextRevisionStart (currentHigh nowMs : UInt64) : UInt64 :=
  let next := max (satAdd currentHigh 1) nowMs
  let last := satAdd next (revisionLeaseSize - 1)
  if maxLeasedRevision nowMs < last then nowMs else next

/-- The next lease, past the persisted marks. -/
def planNextLease (currentHigh currentGenerationHigh nowMs nowNanos : UInt64) :
    Except String RevisionLease := do
  let generation ← okOr (checkedAdd currentGenerationHigh 1) "SWIM node generation exhausted"
  leaseFromSeeds (nextRevisionStart currentHigh nowMs) (max generation nowNanos)

/-- Milliseconds since the epoch. -/
def unixMillis (now : Clock) : Except String UInt64 :=
  if now / 1000000 ≤ wordMax then .ok (UInt64.ofNat (now / 1000000))
  else .error "Unix millisecond value exceeds u64"

/-- Nanoseconds since the epoch. -/
def unixNanos (now : Clock) : Except String UInt64 :=
  if now ≤ wordMax then .ok (UInt64.ofNat now) else .error "Unix nanosecond value exceeds u64"

def initialRevisionLease (now : Clock) : Except String RevisionLease := do
  leaseFromSeeds (← unixMillis now) (← unixNanos now)

def nextRevisionLease (currentHigh currentGenerationHigh : UInt64) (now : Clock) :
    Except String RevisionLease := do
  planNextLease currentHigh currentGenerationHigh (← unixMillis now) (← unixNanos now)

/-! ### The persisted marks -/

/-- What the data keys of the `ConfigMap` parse to; none if a key is missing or no number. -/
structure RevisionData where
  revisionHighWatermark : Option UInt64
  revision : Option UInt64 := none
  nodeGenerationHighWatermark : Option UInt64
  nodeGeneration : Option UInt64 := none

/-- The `ConfigMap` of a site: its data, if it has any, with its resource version. -/
abbrev RevisionConfigMap := Cell (Option RevisionData)

def revisionConfigMapName (siteName : String) : String := "grid-swim-revision-hwm-" ++ siteName

/-- The marks of one reservation. -/
def revisionLeaseData (lease : RevisionLease) : RevisionData where
  revisionHighWatermark := some lease.lastRevision
  nodeGenerationHighWatermark := some lease.lastNodeGeneration

/-- The revision mark of some data, under its current or its old key. -/
def RevisionData.highWatermark (data : RevisionData) : Option UInt64 :=
  data.revisionHighWatermark.or data.revision

/-- The marks a `ConfigMap` holds, if there is one. -/
def heldMarks (siteName : String) (read : Option RevisionConfigMap) :
    Except String (Option (UInt64 × UInt64)) :=
  let cmName := revisionConfigMapName siteName
  match read with
  | none => .ok none
  | some cm =>
    match cm.value with
    | none => .error (cmName ++ " has no data")
    | some data =>
      match data.highWatermark with
      | none => .error (cmName ++ " has no valid revision high-water mark")
      | some revision =>
        .ok (some (revision,
          (data.nodeGenerationHighWatermark.or data.nodeGeneration).getD 0))

/-- What a lease is planned for: a starting process, or one whose range ends at `last`. -/
inductive LeasePlan
  | reserve
  | renew (last : UInt64)

def LeasePlan.lease (plan : LeasePlan) (held : Option (UInt64 × UInt64)) (now : Clock) :
    Except String RevisionLease :=
  match plan with
  | .reserve =>
    match held with
    | some (revision, generation) => nextRevisionLease revision generation now
    | none => initialRevisionLease now
  | .renew last => do
    let (revision, generation) := held.getD (last, 0)
    let range ← revisionRange (nextRevisionStart (max revision last) (← unixMillis now))
    .ok { range with firstNodeGeneration := generation, lastNodeGeneration := generation }

/-! ### The compare-and-swap loop -/

/-- What one attempt does next. -/
inductive CasPhase
  | reading
  | planning (read : Option RevisionConfigMap)
  | writing (read : Option RevisionConfigMap) (lease : RevisionLease) (plannedAt : Clock)

/-- The loop of `cas_revision_lease` between two calls. -/
structure CasTask where
  plan : LeasePlan
  attemptsLeft : Nat := revisionReservationAttempts
  phase : CasPhase := .reading

/-- How a call to the API server can fail: it has no effect, or its answer is lost. -/
inductive ApiFault
  | failed (error : String)
  | lost (error : String)

/-- The message of a failed call. -/
def ApiFault.error : ApiFault → String
  | .failed error | .lost error => error

inductive CasProgress
  | continues (task : CasTask)
  | done (result : Except String RevisionLease)

/-- The next call or plan of the loop, and the `ConfigMap` after it. -/
def CasTask.advance (siteName : String) (task : CasTask) (stored : Option RevisionConfigMap)
    (now : Clock) (fault : Option ApiFault) : CasProgress × Option RevisionConfigMap :=
  let cmName := revisionConfigMapName siteName
  match task.phase with
  | .reading =>
    match fault with
    | some fault => (.done (.error ("read " ++ cmName ++ ": " ++ fault.error)), stored)
    | none => (.continues { task with phase := .planning stored }, stored)
  | .planning read =>
    match heldMarks siteName read >>= fun held => task.plan.lease held now with
    | .error e => (.done (.error e), stored)
    | .ok lease => (.continues { task with phase := .writing read lease now }, stored)
  | .writing read lease _ =>
    let written := write stored read (some (revisionLeaseData lease))
    match fault with
    | some (.failed error) => (.done (.error ("write " ++ cmName ++ ": " ++ error)), stored)
    | some (.lost error) =>
      (.done (.error ("write " ++ cmName ++ ": " ++ error)), written.or stored)
    | none =>
      match written with
      | some cm => (.done (.ok lease), some cm)
      | none =>
        -- a conflict
        if task.attemptsLeft ≤ 1 then
          (.done (.error ("could not reserve SWIM revisions in " ++ cmName ++ " after 8 conflicts")),
            stored)
        else
          (.continues { task with attemptsLeft := task.attemptsLeft - 1, phase := .reading }, stored)

/-! ### The allocator -/

/-- A renewal in flight: its task, or what it sent, or that it stopped without sending. -/
inductive Renewal
  | running (task : CasTask)
  | finished (range : Except String (UInt64 × UInt64))
  | closed

/-- Wait before retrying a failed renewal, in nanoseconds. -/
def renewalRetry : Nat := 5 * 1000000000

/-- The allocator over durably reserved ranges.  `renews` says that there is a renewer. -/
structure RevisionClock where
  next : UInt64
  last : UInt64
  renews : Bool
  renewal : Option Renewal := none
  retryAt : Option Nat := none

namespace RevisionClock

/-- An allocator over a lease; none if the lease is empty or starts at zero. -/
def new (lease : RevisionLease) (renews : Bool) : Option RevisionClock :=
  if lease.firstRevision = 0 ∨ lease.lastRevision < lease.firstRevision then none
  else some { next := lease.firstRevision, last := lease.lastRevision, renews := renews }

/-- Switch to a renewed range once it is persisted. -/
def adoptRenewal (clock : RevisionClock) (instant : Nat) : RevisionClock :=
  match clock.renewal with
  | none | some (.running _) => clock
  | some (.finished (.ok (first, last))) =>
    if first ≠ 0 ∧ first ≤ last then { clock with next := first, last := last, renewal := none }
    else { clock with renewal := none, retryAt := some (instant + renewalRetry) }
  | some (.finished (.error _)) | some .closed =>
    { clock with renewal := none, retryAt := some (instant + renewalRetry) }

/-- Start persisting the next range unless one is in flight or a retry is pending. -/
def renew (clock : RevisionClock) (instant : Nat) : RevisionClock :=
  if clock.renewal.isSome || clock.retryAt.any fun at_ => instant < at_ then clock
  else if !clock.renews then clock
  else { clock with renewal := some (.running { plan := .renew clock.last }) }

/-- The next reserved revision, if the range has one left.  The two instants are those at which
a renewal is adopted and started. -/
def take (clock : RevisionClock) (adoptAt renewAt : Nat) : Option UInt64 × RevisionClock :=
  let clock := clock.adoptRenewal adoptAt
  let revision := if clock.next ≤ clock.last then some clock.next else none
  let clock := { clock with next := satAdd clock.next (if revision.isSome then 1 else 0) }
  let clock :=
    if satSub clock.last clock.next < revisionLeaseSpan / 2 then clock.renew renewAt else clock
  (revision, clock)

end RevisionClock

end PraxisGrid
