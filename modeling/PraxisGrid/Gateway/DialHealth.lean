/-
PraxisGrid/Gateway/DialHealth.lean

The one probe of a down dial: `crates/gateway/crates/ai-grid-filters/src/health.rs`, and `settle` of
a dialed request in `route.rs`.

A request that finds the dial down reads the clock, loads the stamp of the probe and swaps in its
own, and other requests run between these steps.  A stamp lapses after a cooldown.  A probe that
settles clears the stamp without looking whose it is, so it has to settle before its own lapsed
(`one_probe_at_a_time`): a later one lets a third request in beside the second
(`late_settle_admits_two`).
-/
import Mathlib.Logic.Function.Basic
import PraxisGrid.Lib.Run
import PraxisGrid.Lib.Cells

namespace PraxisGrid.Gateway

open Run Saturate

/-! ### A dial -/

/-- Consecutive failures that take a dial down. -/
def downAfter : Nat := 2

/-- Consecutive successes that bring a down dial back up. -/
def upAfter : Nat := 2

def cooldownMs : UInt64 := 10000

structure DialState where
  /-- When the dial went down or last failed while down, plus one; 0 while up. -/
  downSince : UInt64
  failures : UInt32
  /-- When the probe of a down dial was taken, plus one; 0 while none is held. -/
  probeSince : UInt64
  successes : UInt32

def DialState.down (dial : DialState) : Bool := dial.downSince ≠ 0

/-- The counters wrap around; what is compared with the limits does not. -/
def DialState.record (dial : DialState) (success : Bool) (nowMs : UInt64) : DialState :=
  if success then
    { dial with
      failures := 0
      successes := dial.successes + 1
      downSince := if upAfter ≤ dial.successes.toNat + 1 then 0 else dial.downSince }
  else
    { dial with
      successes := 0
      failures := dial.failures + 1
      downSince :=
        if downAfter ≤ dial.failures.toNat + 1 ∨ dial.down then satAdd nowMs 1 else dial.downSince }

/-- The probe with this stamp is held. -/
def probeHeld (held nowMs : UInt64) : Bool :=
  held ≠ 0 ∧ satSub (satAdd nowMs 1) held < cooldownMs

def dialOutcome (answered reached : Bool) (elapsed budget : Nat) : Option Bool :=
  if !reached then none
  else if answered then some true
  else if elapsed ≤ budget then some false else none

/-! ### Requests on one dial -/

/-- Where a request is. -/
inductive Stage
  | new
  /-- It found the dial down. -/
  | down
  /-- It read the clock. -/
  | timed (nowMs : UInt64)
  /-- It loaded a stamp that holds no probe. -/
  | loaded (nowMs held : UInt64)
  /-- It is sent as the probe taken at the time it read, or without one: over an up dial, or busy
  where nothing else takes it. -/
  | sent (probe : Option UInt64)
  | settled

/-- The next step of `admit`. -/
def Stage.next (dial : DialState) (nowMs : UInt64) : Stage → Option (Stage × DialState)
  | new => some (if dial.down then down else sent none, dial)
  | down => some (timed nowMs, dial)
  | timed taken =>
    some (if probeHeld dial.probeSince taken then sent none else loaded taken dial.probeSince, dial)
  | loaded taken held =>
    some (if dial.probeSince = held then
      (sent (some taken), { dial with probeSince := satAdd taken 1 }) else (sent none, dial))
  | _ => none

/-- `settle`: the probe is handed back, whosever it is by now. -/
def DialState.settle (dial : DialState) (nowMs : UInt64) (probe : Bool) (outcome : Option Bool) :
    DialState :=
  let recorded := outcome.elim dial fun working => dial.record working nowMs
  if probe then { recorded with probeSince := 0 } else recorded

structure Dialing where
  dial : DialState
  nowMs : UInt64
  requests : Nat → Stage

inductive DialOp
  | tick (ms : UInt64)
  | enter (i : Nat)
  | settle (i : Nat) (answered reached : Bool) (elapsed budget : Nat)

namespace Dialing

def put (s : Dialing) (i : Nat) (next : Stage × DialState) : Dialing :=
  { s with dial := next.2, requests := Function.update s.requests i next.1 }

def step (s : Dialing) : DialOp → Dialing
  | .tick ms => { s with nowMs := satAdd s.nowMs ms }
  | .enter i => ((s.requests i).next s.dial s.nowMs).elim s (s.put i)
  | .settle i answered reached elapsed budget =>
    match s.requests i with
    | .sent probe =>
      s.put i (.settled, s.dial.settle s.nowMs probe.isSome
        (dialOutcome answered reached elapsed budget))
    | _ => s

/-- The request was admitted as the probe less than a cooldown ago and is not settled. -/
def Probing (s : Dialing) (i : Nat) (taken : UInt64) : Prop :=
  s.requests i = .sent (some taken) ∧ satSub s.nowMs taken < cooldownMs

/-- A probe settles before it lapsed. -/
def SettlesInTime (s : Dialing) : DialOp → Prop
  | .settle i _ _ _ _ =>
    ∀ taken, s.requests i = .sent (some taken) → satSub s.nowMs taken < cooldownMs
  | _ => True

/-! ### One request's stamp -/

/-- What a request that is being admitted has read. -/
def Read (nowMs : UInt64) : Stage → Prop
  | .timed taken => taken ≤ nowMs
  | .loaded taken held => taken ≤ nowMs ∧ probeHeld held taken = false
  | _ => True

/-- Only one request probes the dial, and the stamp is its. -/
structure Stamped (s : Dialing) : Prop where
  read : ∀ i, Read s.nowMs (s.requests i)
  owned : ∃ owner, ∀ i taken, s.Probing i taken → i = owner ∧ s.dial.probeSince = satAdd taken 1

variable {s : Dialing} {i : Nat} {next : Stage × DialState}

/-- A request goes on, as the only probe or without one. -/
theorem Stamped.put (h : s.Stamped) (hread : Read s.nowMs next.1)
    (hothers : ∀ j taken, j ≠ i → s.Probing j taken →
      next.2.probeSince = s.dial.probeSince ∧ ∀ own, next.1 ≠ .sent (some own))
    (hown : ∀ own, next.1 = .sent (some own) → next.2.probeSince = satAdd own 1) :
    (s.put i next).Stamped := by
  classical
  obtain ⟨owner, howned⟩ := h.owned
  refine ⟨fun j => ?_, if ∃ own, next.1 = .sent (some own) then i else owner, fun j taken hj => ?_⟩
  · rcases eq_or_ne j i with rfl | hne
    · simpa [Dialing.put] using hread
    · simpa [Dialing.put, hne] using h.read j
  · obtain ⟨hsent, hrecent⟩ := hj
    rcases eq_or_ne j i with rfl | hne
    · have hsent : next.1 = .sent (some taken) := by simpa [Dialing.put] using hsent
      exact ⟨(if_pos ⟨taken, hsent⟩).symm, hown taken hsent⟩
    · have hj : s.Probing j taken := ⟨by simpa [Dialing.put, hne] using hsent, hrecent⟩
      obtain ⟨hsame, hnone⟩ := hothers j taken hne hj
      rw [if_neg fun ⟨own, heq⟩ => hnone own heq]
      exact ⟨(howned j taken hj).1, hsame.trans (howned j taken hj).2⟩

/-- A request goes on without the probe. -/
theorem Stamped.put_unprobed (h : s.Stamped) (hread : Read s.nowMs next.1)
    (hsame : next.2.probeSince = s.dial.probeSince) (hnone : ∀ own, next.1 ≠ .sent (some own)) :
    (s.put i next).Stamped :=
  h.put hread (fun _ _ _ _ => ⟨hsame, hnone⟩) fun own hown => absurd hown (hnone own)

/-- A stamp that a request found lapsed is none that probes the dial. -/
theorem not_probing_of_lapsed {taken nowMs : UInt64} (hnow : nowMs ≤ s.nowMs)
    (hlapsed : probeHeld (satAdd taken 1) nowMs = false) : ¬ s.Probing i taken := by
  rintro ⟨-, hrecent⟩
  have hlt := taken.toNat_lt
  apply decide_eq_false_iff_not.mp hlapsed
  simp only [ne_eq, satAdd_eq_zero_iff, UInt64.lt_iff_toNat_lt, UInt64.le_iff_toNat_le, toNat_satSub,
    toNat_satAdd, wordMax, UInt64.toNat_one] at hnow hrecent ⊢
  exact ⟨fun hzero => absurd hzero.2 (by decide), by omega⟩

theorem Stamped.enter (h : s.Stamped) (hnext : (s.requests i).next s.dial s.nowMs = some next) :
    (s.put i next).Stamped := by
  have hread := h.read i
  generalize s.requests i = stage at hnext hread
  cases stage with
  | new =>
    cases hnext
    split_ifs
    · exact h.put_unprobed trivial rfl (by simp)
    · exact h.put_unprobed trivial rfl (by simp)
  | down =>
    cases hnext
    exact h.put_unprobed UInt64.le_rfl rfl (by simp)
  | timed taken =>
    cases hnext
    split_ifs with hheld
    · exact h.put_unprobed trivial rfl (by simp)
    · exact h.put_unprobed ⟨hread, Bool.eq_false_iff.mpr hheld⟩ rfl (by simp)
  | loaded taken held =>
    cases hnext
    split_ifs with hsame
    · -- the stamp has lapsed, so no other request probes the dial
      refine h.put trivial (fun j other _ hj => ?_) fun own hown => ?_
      · obtain ⟨owner, howned⟩ := h.owned
        rw [← hsame, (howned j other hj).2] at hread
        exact absurd hj (not_probing_of_lapsed hread.1 hread.2)
      · cases hown
        rfl
    · exact h.put_unprobed trivial rfl (by simp)
  | sent probe | settled => cases hnext

theorem Stamped.tick (h : s.Stamped) (ms : UInt64) :
    Stamped { s with nowMs := satAdd s.nowMs ms } := by
  have hle : s.nowMs ≤ satAdd s.nowMs ms := by
    have hlt := s.nowMs.toNat_lt
    rw [UInt64.le_iff_toNat_le, toNat_satAdd, wordMax]
    omega
  obtain ⟨owner, howned⟩ := h.owned
  refine ⟨fun i => ?_, owner, fun i taken hi => howned i taken ⟨hi.1, ?_⟩⟩
  · have hread := h.read i
    dsimp only
    generalize s.requests i = stage at hread ⊢
    cases stage with
    | timed taken => exact UInt64.le_trans hread hle
    | loaded taken held => exact ⟨UInt64.le_trans hread.1 hle, hread.2⟩
    | new | down | sent probe | settled => trivial
  · have hrecent := hi.2
    simp only [UInt64.lt_iff_toNat_lt, UInt64.le_iff_toNat_le, toNat_satSub] at hrecent hle ⊢
    omega

theorem Stamped.step {op : DialOp} (htime : s.SettlesInTime op) (h : s.Stamped) :
    (s.step op).Stamped := by
  cases op with
  | tick ms => exact h.tick ms
  | enter i =>
    rw [Dialing.step]
    cases hnext : (s.requests i).next s.dial s.nowMs with
    | none => exact h
    | some next => exact h.enter hnext
  | settle i answered reached elapsed budget =>
    rw [Dialing.step]
    split
    · rename_i probe hsent
      cases probe with
      | some own =>
        refine h.put trivial (fun j taken hne hj => ?_) (by simp)
        obtain ⟨owner, howned⟩ := h.owned
        have hi := (howned i own ⟨hsent, htime own hsent⟩).1
        exact absurd ((howned j taken hj).1.trans hi.symm) hne
      | none =>
        refine h.put_unprobed trivial ?_ (by simp)
        rcases dialOutcome answered reached elapsed budget with - | - | - <;> rfl
    · exact h

/-- **One probe at a time**, in every run in which no probe settles after it lapsed. -/
theorem one_probe_at_a_time (dial : DialState) (nowMs : UInt64) (ops : List DialOp)
    (hops : Along step SettlesInTime ⟨dial, nowMs, fun _ => .new⟩ ops)
    (i j : Nat) (taken taken' : UInt64)
    (hi : (run step ⟨dial, nowMs, fun _ => .new⟩ ops).Probing i taken)
    (hj : (run step ⟨dial, nowMs, fun _ => .new⟩ ops).Probing j taken') : i = j := by
  have hstart : Stamped ⟨dial, nowMs, fun _ => .new⟩ :=
    ⟨fun _ => trivial, 0, fun _ _ hi => by cases hi.1⟩
  obtain ⟨owner, howned⟩ := (run_invariant_along (fun _ _ => Stamped.step) hops hstart).owned
  rw [(howned i taken hi).1, (howned j taken' hj).1]

/-- A dial that went down at the start. -/
def downDial : Dialing := ⟨⟨1, 2, 0, 0⟩, 0, fun _ => .new⟩

/-- A request is admitted as the probe, and another one when it lapsed. -/
def lapsedOps : List DialOp := .replicate 4 (.enter 0) ++ .tick 10000 :: .replicate 4 (.enter 1)

theorem one_probe_at_a_time_lapsed :
    (run step downDial lapsedOps).Probing 1 10000
      ∧ ∀ j taken, (run step downDial lapsedOps).Probing j taken → j = 1 := by
  have hsecond : (run step downDial lapsedOps).Probing 1 10000 := ⟨rfl, by decide⟩
  refine ⟨hsecond, fun j taken hj => ?_⟩
  exact one_probe_at_a_time _ _ _ (by simp [lapsedOps, Along, SettlesInTime]) j 1 taken 10000 hj hsecond

/-- The first request settles after its probe lapsed, and a third is let in beside the second. -/
theorem late_settle_admits_two :
    ∃ ops, (run step downDial ops).Probing 1 10000 ∧ (run step downDial ops).Probing 2 10000 :=
  ⟨lapsedOps ++ .settle 0 false false 0 0 :: .replicate 4 (.enter 2), ⟨rfl, by decide⟩, rfl, by decide⟩

end Dialing

end PraxisGrid.Gateway
