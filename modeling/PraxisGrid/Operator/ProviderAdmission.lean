/-
PraxisGrid/Operator/ProviderAdmission.lean

Provider admission with hysteresis.

The operator evaluates one observation of a provider at a time and keeps two counters, the
start of the state and the start of the recovery between the evaluations.  Over a history of
healthy samples the counters stand for runs of the history (`Evidence`), so the state changes on
sustained evidence only (`admission_changes_on_sustained_evidence`).  An unhealthy provider is
excluded until the state of a missing signal takes its place (`unhealthy_stays_excluded`).
-/
import PraxisGrid.Gateway.Candidates
import PraxisGrid.Lib.OrdMap

namespace PraxisGrid.Operator.Admission

open Std (ExtTreeMap)
open Gateway (AdmissionState)

-- the metric values: a comparison without laws, as not-a-number has none
variable {F : Type} [LE F] [DecidableLE F] [Zero F]

structure BackendMetrics (F : Type) where
  healthy : Bool
  kvCacheUtilization : F
  queueDepth : F

inductive Observation (F : Type)
  | fresh (metrics : BackendMetrics F) (revision : UInt64)
  | notConfigured
  | missing

inductive PressureSignal
  | queueDepth
  | kvCachePressure
  | none
deriving DecidableEq

inductive AdmissionMode
  | instantaneous
  | stabilized
deriving DecidableEq

inductive MissingMetricsPolicy
  | existingOnly
  | excluded
deriving DecidableEq

structure Policy (F : Type) where
  mode : AdmissionMode := .stabilized
  enterThreshold : F
  exitThreshold : F
  failureThreshold : Nat
  successThreshold : Nat
  minimumStateDuration : Nat
  recoveryHoldDown : Nat
  missingMetrics : MissingMetricsPolicy := .existingOnly
  pressureSignal : PressureSignal := .queueDepth

structure Entry where
  state : AdmissionState
  pressureObservations : Nat
  recoveryObservations : Nat
  stateSince : Nat
  recoverySince : Option Nat
  lastObservation : Option UInt64

abbrev AdmissionMemory := ExtTreeMap String Entry

def newEntry (state : AdmissionState) (now : Nat) : Entry :=
  ⟨state, 0, 0, now, none, none⟩

def missingState (policy : Policy F) : AdmissionState :=
  if policy.pressureSignal = .none then .newAndExisting
  else match policy.missingMetrics with
    | .existingOnly => .existingOnly
    | .excluded => .excluded

def pressureValue (metrics : BackendMetrics F) (policy : Policy F) : F :=
  match policy.pressureSignal with
  | .queueDepth => metrics.queueDepth
  | .kvCachePressure => metrics.kvCacheUtilization
  | .none => 0

def pressed (policy : Policy F) (metrics : BackendMetrics F) : Bool :=
  policy.enterThreshold ≤ pressureValue metrics policy

def recovered (policy : Policy F) (metrics : BackendMetrics F) : Bool :=
  pressureValue metrics policy ≤ policy.exitThreshold

def instantaneousState (observation : Observation F) (policy : Policy F) : AdmissionState :=
  match observation with
  | .missing => missingState policy
  | .fresh metrics _ =>
    if !metrics.healthy then .excluded
    else if pressed policy metrics then .existingOnly
    else .newAndExisting
  | .notConfigured => .newAndExisting

/-- The counters saturate. -/
def count (observations : Nat) : Nat := min (observations + 1) (2 ^ 32 - 1)

/-- The state is set and the counters start over. -/
def Entry.settle (entry : Entry) (state : AdmissionState) (now : Nat) : Entry :=
  { newEntry state now with lastObservation := entry.lastObservation }

/-- A healthy sample of a provider that accepts new sessions. -/
def Entry.press (policy : Policy F) (pressure : Bool) (now : Nat) (entry : Entry) : Entry :=
  let observations := if pressure then count entry.pressureObservations else 0
  let entry := { entry with
    pressureObservations := observations, recoveryObservations := 0, recoverySince := none }
  if pressure ∧ policy.failureThreshold ≤ observations
      ∧ policy.minimumStateDuration ≤ now - entry.stateSince then
    entry.settle .existingOnly now
  else entry

/-- A healthy sample of a provider that does not. -/
def Entry.recover (policy : Policy F) (recovered : Bool) (now : Nat) (entry : Entry) : Entry :=
  if recovered then
    let observations := count entry.recoveryObservations
    let since := entry.recoverySince.getD now
    if policy.successThreshold ≤ observations ∧ policy.recoveryHoldDown ≤ now - since
        ∧ policy.minimumStateDuration ≤ now - entry.stateSince then
      { entry with
        state := .newAndExisting, stateSince := now, recoveryObservations := 0,
        recoverySince := none }
    else { entry with recoveryObservations := observations, recoverySince := some since }
  else { entry with recoveryObservations := 0, recoverySince := none }

def Entry.observe (policy : Policy F) (metrics : BackendMetrics F) (now : Nat) (entry : Entry) :
    Entry :=
  match entry.state with
  | .newAndExisting => entry.press policy (pressed policy metrics) now
  | .existingOnly =>
    { entry with pressureObservations := 0 }.recover policy (recovered policy metrics) now
  | .excluded => entry.recover policy (recovered policy metrics) now

def Entry.take (policy : Policy F) (observation : Observation F) (now : Nat) (entry : Entry) :
    Entry :=
  match observation with
  | .fresh metrics revision =>
    if entry.lastObservation = some revision then entry
    else
      let entry := { entry with lastObservation := some revision }
      if metrics.healthy then entry.observe policy metrics now else entry.settle .excluded now
  | .notConfigured => { entry with lastObservation := none }.settle .newAndExisting now
  | .missing => { entry with lastObservation := none }.settle (missingState policy) now

/-- The state of a provider that was not evaluated before. -/
def initialState (observation : Observation F) (policy : Policy F) : AdmissionState :=
  match observation with
  | .fresh .. | .notConfigured => .newAndExisting
  | .missing => missingState policy

def evaluate (memory : AdmissionMemory) (key : String) (observation : Observation F)
    (policy : Policy F) (now : Nat) : AdmissionState × AdmissionMemory :=
  if policy.mode = .instantaneous then
    let state := instantaneousState observation policy
    (state, memory.insert key (newEntry state now))
  else
    let entry := memory[key]?.getD (newEntry (initialState observation policy) now)
    let entry := entry.take policy observation now
    (entry.state, memory.insert key entry)

section Evaluate

variable {memory : AdmissionMemory} {key other : String} {observation : Observation F}
  {policy : Policy F} {now : Nat}

theorem getElem?_evaluate_of_ne (hne : key ≠ other) :
    (evaluate memory key observation policy now).2[other]? = memory[other]? := by
  unfold evaluate
  split_ifs
  · rw [OrdMap.getElem?_insert, if_neg hne]
  · rw [OrdMap.getElem?_insert, if_neg hne]

theorem evaluate_stabilized {entry : Entry} (hmode : policy.mode = .stabilized)
    (hen : memory[key]?.getD (newEntry (initialState observation policy) now) = entry) :
    evaluate memory key observation policy now
      = ((entry.take policy observation now).state,
        memory.insert key (entry.take policy observation now)) := by
  rw [evaluate, if_neg (by rw [hmode]; decide), hen]

end Evaluate

/-! ### Evidence -/

/-- A fresh observation and when it is evaluated. -/
structure Sample (F : Type) where
  metrics : BackendMetrics F
  revision : UInt64
  now : Nat

/-- The newest samples under pressure, of a history with the newest first. -/
def pressedRun (policy : Policy F) (history : List (Sample F)) : List (Sample F) :=
  history.takeWhile fun sample => pressed policy sample.metrics

def recoveredRun (policy : Policy F) (history : List (Sample F)) : List (Sample F) :=
  history.takeWhile fun sample => recovered policy sample.metrics

variable {policy : Policy F} {history : List (Sample F)} {sample : Sample F} {entry : Entry}

/-- What is known of an entry after a history: its counters are within the runs. -/
structure Evidence (policy : Policy F) (history : List (Sample F)) (entry : Entry) : Prop where
  opened : entry.state ≠ .excluded
  last : entry.lastObservation = history.head?.map Sample.revision
  pressure : entry.pressureObservations ≤ (pressedRun policy history).length
  recovery : entry.recoveryObservations ≤ (recoveredRun policy history).length
  since : ∀ since ∈ entry.recoverySince, ∃ first ∈ recoveredRun policy history, first.now = since

/-- What a change to a state rests on. -/
def Sustained (policy : Policy F) (history : List (Sample F)) (now : Nat) : AdmissionState → Prop
  | .newAndExisting => policy.successThreshold ≤ (recoveredRun policy history).length
    ∧ ∃ first ∈ recoveredRun policy history, policy.recoveryHoldDown ≤ now - first.now
  | .existingOnly => policy.failureThreshold ≤ (pressedRun policy history).length
  | .excluded => False

/-- The state stays, or changes on evidence after the minimum duration. -/
def Moved (policy : Policy F) (history : List (Sample F)) (now : Nat) (entry entry' : Entry) : Prop :=
  entry'.state = entry.state ∧ entry'.stateSince = entry.stateSince
    ∨ entry'.stateSince = now ∧ policy.minimumStateDuration ≤ now - entry.stateSince
      ∧ Sustained policy history now entry'.state

theorem count_le {observations length : Nat} (h : observations ≤ length) :
    count observations ≤ length + 1 :=
  (Nat.min_le_left _ _).trans (Nat.succ_le_succ h)

def Entry.next (policy : Policy F) (sample : Sample F) (entry : Entry) : Entry :=
  entry.take policy (.fresh sample.metrics sample.revision) sample.now

/-- **One healthy sample**: the counters stay within the runs, and a change is on evidence. -/
theorem Evidence.next (h : Evidence policy history entry) (hhl : sample.metrics.healthy = true)
    (hun : sample.revision ∉ history.map Sample.revision) :
    Evidence policy (sample :: history) (entry.next policy sample)
      ∧ Moved policy (sample :: history) sample.now entry (entry.next policy sample) := by
  have hls : entry.lastObservation ≠ some sample.revision := by
    rw [h.last]
    intro hls
    obtain ⟨last, hhd, hrev⟩ := Option.map_eq_some_iff.mp hls
    exact hun (List.mem_map.mpr ⟨last, List.mem_of_head? hhd, hrev⟩)
  have hopen := h.opened
  rw [show entry.next policy sample = _ from (if_neg hls).trans (if_pos hhl)]
  obtain ⟨state, pressures, recoveries, stateSince, recoverySince, last⟩ := entry
  cases state with
  | newAndExisting =>
    unfold Entry.observe
    cases hpr : pressed policy sample.metrics with
    | false => exact ⟨⟨hopen, rfl, Nat.zero_le _, Nat.zero_le _, nofun⟩, .inl ⟨rfl, rfl⟩⟩
    | true =>
      have hcn : pressedRun policy (sample :: history) = sample :: pressedRun policy history :=
        List.takeWhile_cons_of_pos hpr
      have hrun : count pressures ≤ (pressedRun policy (sample :: history)).length := by
        rw [hcn]
        exact count_le h.pressure
      simp only [Entry.press, if_true, true_and]
      split_ifs with hch
      · exact ⟨⟨nofun, rfl, Nat.zero_le _, Nat.zero_le _, nofun⟩,
          .inr ⟨rfl, hch.2, hch.1.trans hrun⟩⟩
      · exact ⟨⟨hopen, rfl, hrun, Nat.zero_le _, nofun⟩, .inl ⟨rfl, rfl⟩⟩
  | existingOnly =>
    unfold Entry.observe
    cases hrc : recovered policy sample.metrics with
    | false => exact ⟨⟨hopen, rfl, Nat.zero_le _, Nat.zero_le _, nofun⟩, .inl ⟨rfl, rfl⟩⟩
    | true =>
      have hcn : recoveredRun policy (sample :: history)
          = sample :: recoveredRun policy history := List.takeWhile_cons_of_pos hrc
      have hrun : count recoveries ≤ (recoveredRun policy (sample :: history)).length := by
        rw [hcn]
        exact count_le h.recovery
      -- the run goes on, or starts with this sample
      obtain ⟨first, hmem, hfr⟩ : ∃ first ∈ recoveredRun policy (sample :: history),
          first.now = recoverySince.getD sample.now := by
        rw [hcn]
        cases recoverySince with
        | none => exact ⟨sample, List.mem_cons_self, rfl⟩
        | some since =>
          obtain ⟨first, hmem, hfr⟩ := h.since since rfl
          exact ⟨first, List.mem_cons_of_mem _ hmem, hfr⟩
      simp only [Entry.recover, if_true]
      split_ifs with hch
      · exact ⟨⟨nofun, rfl, Nat.zero_le _, Nat.zero_le _, nofun⟩,
          .inr ⟨rfl, hch.2.2, hch.1.trans hrun, first, hmem, hfr ▸ hch.2.1⟩⟩
      · refine ⟨⟨hopen, rfl, Nat.zero_le _, hrun, ?_⟩, .inl ⟨rfl, rfl⟩⟩
        rintro _ ⟨⟩
        exact ⟨first, hmem, hfr⟩
  | excluded => exact absurd rfl hopen

/-! ### Histories -/

def after (policy : Policy F) (memory : AdmissionMemory) (key : String) :
    List (Sample F) → AdmissionMemory
  | [] => memory
  | sample :: history =>
    (evaluate (after policy memory key history) key (.fresh sample.metrics sample.revision) policy
      sample.now).2

/-- The entry that a sample taken at `now` finds. -/
def entryAt (memory : AdmissionMemory) (key : String) (now : Nat) : Entry :=
  memory[key]?.getD (newEntry .newAndExisting now)

def admission (memory : AdmissionMemory) (key : String) : AdmissionState :=
  (entryAt memory key 0).state

def changes (policy : Policy F) (memory : AdmissionMemory) (key : String) :
    List (Sample F) → List (Sample F)
  | [] => []
  | sample :: history =>
    if admission (after policy memory key (sample :: history)) key
        = admission (after policy memory key history) key then changes policy memory key history
    else sample :: changes policy memory key history

theorem entryAt_of_getElem? {memory : AdmissionMemory} {key : String}
    (h : memory[key]? = some entry) (now : Nat) : entryAt memory key now = entry := by
  rw [entryAt, h, Option.getD_some]

theorem state_entryAt (memory : AdmissionMemory) (key : String) (now : Nat) :
    (entryAt memory key now).state = admission memory key := by
  unfold admission entryAt
  cases memory[key]? <;> rfl

section Histories

variable {memory : AdmissionMemory} {key : String} (hmode : policy.mode = .stabilized)
include hmode

theorem getElem?_after_cons : (after policy memory key (sample :: history))[key]?
    = some ((entryAt (after policy memory key history) key sample.now).next policy sample) := by
  rw [after, evaluate_stabilized hmode rfl, OrdMap.getElem?_insert, if_pos rfl]
  rfl

variable (hnew : memory[key]? = none)
include hnew

/-- **A history**: the evidence, and no change after the start of the state. -/
theorem evidence_after (hhl : ∀ sample ∈ history, sample.metrics.healthy = true)
    (hcl : history.Pairwise fun later earlier => earlier.now ≤ later.now)
    (hds : (history.map Sample.revision).Nodup) (now : Nat) :
    Evidence policy history (entryAt (after policy memory key history) key now)
      ∧ ∀ change ∈ changes policy memory key history, change ∈ history
        ∧ change.now ≤ (entryAt (after policy memory key history) key now).stateSince := by
  induction history generalizing now with
  | nil =>
    rw [after, entryAt, hnew]
    exact ⟨⟨nofun, rfl, Nat.le_refl 0, Nat.le_refl 0, nofun⟩, nofun⟩
  | cons sample history ih =>
    obtain ⟨hsm, hhl⟩ := List.forall_mem_cons.mp hhl
    obtain ⟨hlt, hcl⟩ := List.pairwise_cons.mp hcl
    obtain ⟨hun, hds⟩ := List.nodup_cons.mp hds
    obtain ⟨hpre, hch⟩ := ih hhl hcl hds sample.now
    obtain ⟨hev, hmv⟩ := hpre.next hsm hun
    have hget : (after policy memory key (sample :: history))[key]? = _ := getElem?_after_cons hmode
    have hnx := entryAt_of_getElem? hget
    have hea : ∀ change ∈ changes policy memory key history, change ∈ sample :: history
        ∧ change.now ≤ (entryAt (after policy memory key (sample :: history)) key now).stateSince := by
      intro change hmem
      obtain ⟨hmem, hle⟩ := hch change hmem
      refine ⟨List.mem_cons_of_mem _ hmem, ?_⟩
      rw [hnx]
      rcases hmv with ⟨-, hsn⟩ | ⟨hsn, -⟩
      · exact hsn ▸ hle
      · exact (hlt change hmem).trans hsn.ge
    refine ⟨hnx now ▸ hev, ?_⟩
    rw [changes]
    split_ifs with hsa
    · exact hea
    · refine List.forall_mem_cons.mpr ⟨⟨List.mem_cons_self, ?_⟩, hea⟩
      rw [← state_entryAt _ _ 0, hnx, ← state_entryAt _ _ sample.now] at hsa
      rw [hnx]
      rcases hmv with ⟨hst, -⟩ | ⟨hsn, -⟩
      · exact absurd hst hsa
      · exact hsn.ge

/-- **Changes of the admission** over a history of healthy samples: on a run under pressure of the
failure threshold, or a recovered one of the success threshold that lasted the hold-down, each the
minimum duration after every change before; the revision evaluated last is not evaluated again, and
the other keys are kept. -/
theorem admission_changes_on_sustained_evidence
    (hhealthy : ∀ earlier ∈ sample :: history, earlier.metrics.healthy = true)
    (hclock : (sample :: history).Pairwise fun later earlier => earlier.now ≤ later.now)
    (hdistinct : ((sample :: history).map Sample.revision).Nodup) :
    let before := after policy memory key history
    let now := after policy memory key (sample :: history)
    (admission now key ≠ admission before key →
        Sustained policy (sample :: history) sample.now (admission now key)
          ∧ ∀ change ∈ changes policy memory key history,
            policy.minimumStateDuration ≤ sample.now - change.now)
      ∧ (∀ metrics later, evaluate now key (.fresh metrics sample.revision) policy later
        = (admission now key, now))
      ∧ ∀ (memory : AdmissionMemory) (observation : Observation F) (later : Nat) (other : String),
        key ≠ other → (evaluate memory key observation policy later).2[other]? = memory[other]? := by
  intro before now
  obtain ⟨hsm, hea⟩ := List.forall_mem_cons.mp hhealthy
  obtain ⟨hun, hdistinct'⟩ := List.nodup_cons.mp hdistinct
  obtain ⟨hbf, hcs⟩ := evidence_after hmode hnew hea (List.pairwise_cons.mp hclock).2
    hdistinct' sample.now
  obtain ⟨hev, hmv⟩ := hbf.next hsm hun
  have hget : now[key]? = some ((entryAt before key sample.now).next policy sample) :=
    getElem?_after_cons hmode
  have hnx := entryAt_of_getElem? hget
  refine ⟨fun hch => ?_, fun metrics later => ?_,
    fun _ _ _ _ hne => getElem?_evaluate_of_ne hne⟩
  · rw [← state_entryAt now key 0, hnx, ← state_entryAt before key sample.now] at hch
    rcases hmv with ⟨hst, -⟩ | ⟨-, hsd, hss⟩
    · exact absurd hst hch
    · refine ⟨?_, fun change hmem => ?_⟩
      · rw [← state_entryAt now key 0, hnx]
        exact hss
      · exact hsd.trans (Nat.sub_le_sub_left (hcs change hmem).2 _)
  · have hsn : ((entryAt before key sample.now).next policy sample).take policy
        (.fresh metrics sample.revision) later = (entryAt before key sample.now).next policy sample :=
      if_pos hev.last
    have hen : now[key]?.getD (newEntry (initialState (.fresh metrics sample.revision) policy)
        later) = _ := hnx later
    rw [evaluate_stabilized hmode hen, hsn, ← hnx 0]
    refine Prod.ext rfl (ExtTreeMap.ext_getElem? fun other => ?_)
    rw [OrdMap.getElem?_insert]
    split_ifs with hkey
    · rw [← hkey, hnx]
      exact hget.symm
    · rfl

end Histories

/-- A policy that restricts on the third sample under pressure. -/
def patient : Policy Nat where
  enterThreshold := 85
  exitThreshold := 70
  failureThreshold := 3
  successThreshold := 1
  minimumStateDuration := 0
  recoveryHoldDown := 0

def busy : BackendMetrics Nat := ⟨true, 0, 90⟩

theorem admission_changes_on_sustained_evidence_busy :
    admission (after patient ∅ "a" [⟨busy, 3, 2⟩, ⟨busy, 2, 1⟩, ⟨busy, 1, 0⟩]) "a" = .existingOnly
      ∧ Sustained patient [⟨busy, 3, 2⟩, ⟨busy, 2, 1⟩, ⟨busy, 1, 0⟩] 2
        (admission (after patient ∅ "a" [⟨busy, 3, 2⟩, ⟨busy, 2, 1⟩, ⟨busy, 1, 0⟩]) "a") :=
  ⟨by decide +kernel, ((@admission_changes_on_sustained_evidence Nat _ _ _ patient
    [⟨busy, 2, 1⟩, ⟨busy, 1, 0⟩] ⟨busy, 3, 2⟩ ∅ "a" rfl rfl (by decide) (by decide) (by decide)).1
    (by decide +kernel)).1⟩

theorem seen_revision_restricts :
    admission (after patient ∅ "a" [⟨busy, 2, 1⟩, ⟨busy, 1, 0⟩]) "a" = .newAndExisting
      ∧ (evaluate (after patient ∅ "a" [⟨busy, 2, 1⟩, ⟨busy, 1, 0⟩]) "a" (.fresh busy 1) patient 2).1
        = .existingOnly := by
  decide +kernel

/-! ### Unhealthy providers -/

def evaluations (policy : Policy F) (memory : AdmissionMemory) :
    List (String × Observation F × Nat) → List (String × AdmissionState)
  | [] => []
  | (key, observation, now) :: calls =>
    (key, (evaluate memory key observation policy now).1)
      :: evaluations policy (evaluate memory key observation policy now).2 calls

/-- What leaves an excluded provider excluded. -/
def KeepsExcluded (policy : Policy F) : Observation F → Prop
  | .fresh metrics _ => metrics.healthy = false
  | .notConfigured => False
  | .missing => policy.missingMetrics = .excluded

theorem state_take_unhealthy {metrics : BackendMetrics F} {revision : UInt64} {now : Nat}
    (hun : metrics.healthy = false) (huns : entry.lastObservation ≠ some revision) :
    (entry.take policy (.fresh metrics revision) now).state = .excluded := by
  rw [Entry.take, if_neg huns, hun]
  rfl

section Unhealthy

variable {memory : AdmissionMemory} {key : String} (hmode : policy.mode = .stabilized)
  (hsignal : policy.pressureSignal ≠ .none)
include hmode hsignal

omit [LE F] [DecidableLE F] [Zero F] hmode in
theorem missingState_eq_excluded_iff :
    missingState policy = .excluded ↔ policy.missingMetrics = .excluded := by
  rw [missingState, if_neg hsignal]
  cases policy.missingMetrics <;> decide

/-- An excluded provider stays so, whoever is evaluated. -/
theorem excluded_evaluations {calls : List (String × Observation F × Nat)}
    (hcl : ∀ call ∈ calls, call.1 = key → KeepsExcluded policy call.2.1)
    (hen : memory[key]? = some entry) (hst : entry.state = .excluded) :
    ∀ answer ∈ evaluations policy memory calls, answer.1 = key → answer.2 = .excluded := by
  induction calls generalizing memory entry with
  | nil => exact nofun
  | cons call calls ih =>
    obtain ⟨other, observation, now⟩ := call
    obtain ⟨hca, hcl⟩ := List.forall_mem_cons.mp hcl
    rw [evaluations, List.forall_mem_cons]
    by_cases hkey : other = key
    · subst hkey
      have hkp : (entry.take policy observation now).state = .excluded := by
        cases observation with
        | fresh metrics revision =>
          by_cases hsn : entry.lastObservation = some revision
          · rw [Entry.take, if_pos hsn, hst]
          · exact state_take_unhealthy (hca rfl) hsn
        | notConfigured => exact absurd (hca rfl) id
        | missing => exact (missingState_eq_excluded_iff hsignal).mpr (hca rfl)
      have hfn : memory[other]?.getD (newEntry (initialState observation policy) now) = entry := by
        rw [hen, Option.getD_some]
      rw [evaluate_stabilized hmode hfn]
      refine ⟨fun _ => hkp, ih hcl ?_ hkp⟩
      rw [OrdMap.getElem?_insert, if_pos rfl]
    · refine ⟨fun h => absurd h hkey, ih hcl ?_ hst⟩
      rw [getElem?_evaluate_of_ne hkey, hen]

/-- **An unhealthy provider stays excluded** from a fresh unhealthy report on, or from its repetition
while it is excluded, as long as what follows of it is unhealthy or, under a policy that excludes for
it, missing; and a missing observation excludes under no other policy. -/
theorem unhealthy_stays_excluded {metrics : BackendMetrics F} {revision : UInt64} {now : Nat}
    {later : List (String × Observation F × Nat)} (hunhealthy : metrics.healthy = false)
    (hseen : ∀ entry, memory[key]? = some entry → entry.lastObservation = some revision →
      entry.state = .excluded)
    (hlater : ∀ call ∈ later, call.1 = key → KeepsExcluded policy call.2.1) :
    (∀ answer ∈ evaluations policy memory ((key, .fresh metrics revision, now) :: later),
        answer.1 = key → answer.2 = .excluded)
      ∧ ((evaluate memory key .missing policy now).1 = .excluded
        ↔ policy.missingMetrics = .excluded) := by
  have htk : ((entryAt memory key now).take policy (.fresh metrics revision) now).state
      = .excluded := by
    by_cases hun : (entryAt memory key now).lastObservation = some revision
    · rw [Entry.take, if_pos hun]
      unfold entryAt at hun ⊢
      cases hget : memory[key]? with
      | none => rw [hget] at hun; cases hun
      | some entry => exact hseen entry hget (by rwa [hget] at hun)
    · exact state_take_unhealthy hunhealthy hun
  refine ⟨?_, ?_⟩
  · rw [evaluations, evaluate_stabilized hmode rfl, List.forall_mem_cons]
    refine ⟨fun _ => htk, excluded_evaluations hmode hsignal hlater ?_ htk⟩
    rw [OrdMap.getElem?_insert, if_pos rfl]
    rfl
  · rw [evaluate_stabilized hmode rfl]
    exact missingState_eq_excluded_iff hsignal

end Unhealthy

/-- The memory after an unhealthy report, which is then evaluated again. -/
def unhealthyMemory : AdmissionMemory :=
  (evaluate ∅ "a" (.fresh { busy with healthy := false } 1) patient 0).2

theorem unhealthy_stays_excluded_repeated :
    ("a", .existingOnly) ∉ evaluations patient unhealthyMemory
      [("a", .fresh { busy with healthy := false } 1, 1),
        ("a", .fresh { busy with healthy := false } 2, 2)] := by
  intro hmem
  have hseen : ∀ entry, unhealthyMemory["a"]? = some entry → entry.lastObservation = some 1 →
      entry.state = .excluded := by
    intro entry he _
    have hstate : unhealthyMemory["a"]?.map Entry.state = some .excluded := by decide +kernel
    rw [he] at hstate
    exact Option.some.inj hstate
  have hexcluded := (unhealthy_stays_excluded rfl (by decide) rfl hseen fun _ h _ => by
    cases List.mem_singleton.mp h
    rfl).1 _ hmem rfl
  cases hexcluded

/-- Losing the metrics opens an excluded provider for the sessions it has. -/
theorem missing_reopens_unhealthy :
    evaluations patient ∅ [("a", .fresh { busy with healthy := false } 1, 0), ("a", .missing, 1)]
      = [("a", .excluded), ("a", .existingOnly)] := by
  decide +kernel

end PraxisGrid.Operator.Admission
