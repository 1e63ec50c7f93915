/-
PraxisGrid/Operator/Revisions.lean

Any number of operator processes of one site drawing transport revisions.

A process reserves a range, draws from it, and renews it in the background, while others do the same
over the same `ConfigMap`.  The mark in it only grows, every range that is handed out lies above the
mark it replaces, and a process draws only from its own ranges, so no revision is drawn twice
(`revisions_never_reused`).

There are two limits to that.  A mark too far above the clock is given up, and the ranges start
again at the clock; and the allocator stays at the largest word once it has drawn it
(`largest_revision_drawn_twice`).
-/
import PraxisGrid.Lib.Run
import PraxisGrid.Operator.Lease

namespace PraxisGrid

open Std OrdMap Bincode Saturate Versioned Run UInt64 Option RevisionClock LeasePlan

/-! ### The system -/

/-- A process of the operator: it reserves its first range, or draws revisions. -/
inductive OperatorProcess
  | reserving (task : CasTask) (renews : Bool)
  | running (clock : RevisionClock)
  | failed

structure GrantedRange where
  first : UInt64
  last : UInt64
  plannedAt : Clock

/-- The processes of one site over their `ConfigMap`.  `drawn` has the revisions returned by
`take`, the latest first. -/
structure RevisionSystem where
  siteName : String
  configMap : Option RevisionConfigMap
  now : Clock
  processes : ExtTreeMap Nat OperatorProcess := ∅
  drawn : List (Nat × UInt64) := []
  granted : List GrantedRange := []

namespace OperatorProcess

/-- The compare-and-swap loop a process has in flight. -/
def task : OperatorProcess → Option CasTask
  | .reserving task _ => some task
  | .running clock =>
    match clock.renewal with
    | some (.running task) => some task
    | _ => none
  | .failed => none

theorem task_running {clock : RevisionClock} {task : CasTask} :
    (OperatorProcess.running clock).task = some task ↔ clock.renewal = some (.running task) := by
  unfold OperatorProcess.task
  dsimp only
  split
  · rename_i hren
    simp [hren]
  · rename_i hot
    exact iff_of_false nofun (hot task)

/-- The process after its loop has made progress. -/
def resume (process : OperatorProcess) (progress : CasProgress) : OperatorProcess :=
  match process with
  | .reserving _ renews =>
    match progress with
    | .continues task => .reserving task renews
    | .done (.error _) => .failed
    | .done (.ok lease) =>
      match RevisionClock.new lease renews with
      | some clock => .running clock
      | none => .failed
  | .running clock =>
    .running { clock with
      renewal := some (match progress with
        | .continues task => .running task
        | .done result =>
          .finished (result.map fun lease => (lease.firstRevision, lease.lastRevision))) }
  | .failed => .failed

end OperatorProcess

def CasTask.grants (task : CasTask) : CasProgress → List GrantedRange
  | .done (.ok lease) =>
    match task.phase with
    | .writing _ _ plannedAt => [⟨lease.firstRevision, lease.lastRevision, plannedAt⟩]
    | _ => []
  | _ => []

/-- One event: a process starts, time passes, the loop of a process makes its next call, a
renewal stops without an answer, or a process draws a revision. -/
inductive RevisionOp
  | start (process : Nat) (renews : Bool)
  | elapse (time : Nat)
  | call (process : Nat) (fault : Option ApiFault)
  | close (process : Nat)
  | take (process : Nat) (adoptAt renewAt : Nat)

namespace RevisionSystem

/-- The loop of a process makes its next call. -/
def call (s : RevisionSystem) (p : Nat) (fault : Option ApiFault) : RevisionSystem :=
  match s.processes[p]? with
  | none => s
  | some process =>
    match process.task with
    | none => s
    | some task =>
      let (progress, configMap) := task.advance s.siteName s.configMap s.now fault
      { s with
        configMap := configMap
        processes := s.processes.insert p (process.resume progress)
        granted := task.grants progress ++ s.granted }

/-- The system after one event. -/
def step (s : RevisionSystem) : RevisionOp → RevisionSystem
  | .start p renews =>
    if s.processes.contains p then s
    else { s with processes := s.processes.insert p (.reserving { plan := .reserve } renews) }
  | .elapse time => { s with now := s.now + time }
  | .call p fault => s.call p fault
  | .close p =>
    match s.processes[p]? with
    | some (.running clock) =>
      match clock.renewal with
      | some (.running _) =>
        { s with
          processes := s.processes.insert p (.running { clock with renewal := some .closed }) }
      | _ => s
    | _ => s
  | .take p adoptAt renewAt =>
    match s.processes[p]? with
    | some (.running clock) =>
      let (revision, clock) := clock.take adoptAt renewAt
      { s with
        processes := s.processes.insert p (.running clock)
        drawn := (revision.map fun revision => (p, revision)).toList ++ s.drawn }
    | _ => s

end RevisionSystem

/-! ### What is planned -/

def markOf (read : Option RevisionConfigMap) : Option UInt64 :=
  read.bind fun cm => cm.value.bind RevisionData.highWatermark

section Plan

variable {siteName : String} {read : Option RevisionConfigMap} {now : Clock} {plan : LeasePlan}
  {lease : RevisionLease} {held : Option (UInt64 × UInt64)} {mark nowMs first : UInt64}

theorem okOr_eq_ok {α : Type} {value : Option α} {error : String} {a : α}
    (h : okOr value error = .ok a) : value = some a := by
  cases value with
  | none => cases h
  | some value => rw [Except.ok.inj h]

theorem revisionRange_eq_ok (h : revisionRange first = .ok lease) :
    lease.firstRevision = first ∧ lease.lastRevision.toNat = first.toNat + 255 := by
  obtain ⟨last, hls, h⟩ := bind_eq_ok.mp h
  rw [← Except.ok.inj h]
  exact ⟨rfl, toNat_checkedAdd (okOr_eq_ok hls)⟩

theorem toNat_maxLeasedRevision :
    (maxLeasedRevision nowMs).toNat = min (nowMs.toNat + 600256) wordMax := by
  have hsp : revisionLeaseSpan.toNat = 256 := rfl
  have hsk : maxLeaseSkew * 1000 = 600000 := rfl
  have hlt := nowMs.toNat_lt
  simp only [maxLeasedRevision, toNat_satAdd, toNat_saturate, hsp, hsk, wordMax]
  omega

theorem nextRevisionStart_of_within (h : mark.toNat ≤ nowMs.toNat + 600000) :
    nextRevisionStart mark nowMs = max (satAdd mark 1) nowMs := by
  have hsz : (revisionLeaseSize - 1).toNat = 255 := rfl
  have hone : (1 : UInt64).toNat = 1 := rfl
  have hcap : ¬ maxLeasedRevision nowMs <
      satAdd (max (satAdd mark 1) nowMs) (revisionLeaseSize - 1) := by
    rw [lt_iff_toNat_lt, toNat_maxLeasedRevision]
    simp only [toNat_satAdd, toNat_max, hsz, hone, wordMax]
    omega
  simp only [nextRevisionStart, if_neg hcap]

/-- **A range stays under the cap of the peers**, wherever the mark is. -/
theorem lastRevision_le_cap (h : revisionRange (nextRevisionStart mark nowMs) = .ok lease) :
    lease.lastRevision ≤ maxLeasedRevision nowMs := by
  have hsz : (revisionLeaseSize - 1).toNat = 255 := rfl
  have hbn := lease.lastRevision.toNat_lt
  obtain ⟨-, hls⟩ := revisionRange_eq_ok h
  unfold nextRevisionStart at hls
  dsimp only at hls
  rw [le_iff_toNat_le]
  split_ifs at hls with hcap
  · rw [hls, toNat_maxLeasedRevision]
    simp only [wordMax]
    omega
  · rw [lt_iff_toNat_lt, Nat.not_lt, toNat_satAdd, hsz] at hcap
    simp only [wordMax] at hcap
    omega

theorem lastRevision_le_cap_of_clock (h : revisionRange nowMs = .ok lease) :
    lease.lastRevision ≤ maxLeasedRevision nowMs := by
  have hbn := lease.lastRevision.toNat_lt
  obtain ⟨-, hls⟩ := revisionRange_eq_ok h
  rw [le_iff_toNat_le, hls, toNat_maxLeasedRevision]
  simp only [wordMax]
  omega

theorem leaseFromSeeds_eq_ok {generation : UInt64} (h : leaseFromSeeds first generation = .ok lease) :
    ∃ range, revisionRange first = .ok range ∧ lease.firstRevision = range.firstRevision ∧
      lease.lastRevision = range.lastRevision := by
  obtain ⟨lastGeneration, -, h⟩ := bind_eq_ok.mp h
  obtain ⟨range, hrn, h⟩ := bind_eq_ok.mp h
  rw [← Except.ok.inj h]
  exact ⟨range, hrn, rfl, rfl⟩

theorem unixMillis_eq_ok (h : unixMillis now = .ok nowMs) :
    nowMs = wallMs now ∧ nowMs.toNat = now / 1000000 := by
  unfold unixMillis at h
  split_ifs at h with hle
  cases h
  have hlt : now / 1000000 < size := Nat.lt_of_le_of_lt hle (by decide)
  refine ⟨?_, toNat_ofNat_of_lt' hlt⟩
  rw [wallMs, saturate, Nat.min_eq_left hle]

def LeasePlan.start (plan : LeasePlan) (mark : Option UInt64) (nowMs : UInt64) : UInt64 :=
  match plan, mark with
  | .reserve, none => nowMs
  | .reserve, some mark => nextRevisionStart mark nowMs
  | .renew last, mark => nextRevisionStart (max (mark.getD last) last) nowMs

/-- **Every plan is a range from its start**, at the clock of the plan. -/
theorem LeasePlan.lease_eq_ok (h : plan.lease held now = .ok lease) :
    ∃ range, revisionRange (plan.start (held.map Prod.fst) (wallMs now)) = .ok range ∧
      (wallMs now).toNat = now / 1000000 ∧ lease.firstRevision = range.firstRevision ∧
      lease.lastRevision = range.lastRevision := by
  cases plan with
  | reserve =>
    rcases held with - | ⟨revision, generation⟩
    · obtain ⟨nowMs, hms, h⟩ := bind_eq_ok.mp h
      obtain ⟨nanos, -, h⟩ := bind_eq_ok.mp h
      obtain ⟨rfl, hnat⟩ := unixMillis_eq_ok hms
      obtain ⟨range, hrn, hen⟩ := leaseFromSeeds_eq_ok h
      exact ⟨range, hrn, hnat, hen⟩
    · obtain ⟨nowMs, hms, h⟩ := bind_eq_ok.mp h
      obtain ⟨nanos, -, h⟩ := bind_eq_ok.mp h
      obtain ⟨rfl, hnat⟩ := unixMillis_eq_ok hms
      obtain ⟨next, -, h⟩ := bind_eq_ok.mp h
      obtain ⟨range, hrn, hen⟩ := leaseFromSeeds_eq_ok h
      exact ⟨range, hrn, hnat, hen⟩
  | renew last =>
    obtain ⟨nowMs, hms, h⟩ := bind_eq_ok.mp h
    obtain ⟨range, hrn, hls⟩ := bind_eq_ok.mp h
    obtain ⟨rfl, hnat⟩ := unixMillis_eq_ok hms
    rw [← Except.ok.inj hls]
    refine ⟨range, ?_, hnat, rfl, rfl⟩
    cases held with
    | none | some marks => exact hrn

theorem heldMarks_eq_ok (h : heldMarks siteName read = .ok held) :
    held.map Prod.fst = markOf read ∧ (held = none → read = none) := by
  unfold heldMarks at h
  rcases read with - | ⟨value, version⟩
  · cases h
    exact ⟨rfl, fun _ => rfl⟩
  · rcases value with - | data
    · cases h
    · rcases hmark : data.highWatermark with - | mark
      · simp only [hmark] at h
        cases h
      · simp only [hmark] at h
        cases h
        exact ⟨hmark.symm, nofun⟩

/-- The range of a renewing process is known to the mark that was read. -/
def LeasePlan.Covered (plan : LeasePlan) (read : Option RevisionConfigMap) : Prop :=
  ∀ last, plan = .renew last → ∃ mark, markOf read = some mark ∧ last ≤ mark

/-- **A planned range lies above the mark that was read**, if that mark is at most the skew above
the clock, and under the cap of the peers in any case. -/
theorem LeasePlan.lease_above (hheld : heldMarks siteName read = .ok held)
    (hlease : plan.lease held now = .ok lease) :
    lease.lastRevision ≤ maxLeasedRevision (wallMs now) ∧
      lease.firstRevision ≤ lease.lastRevision ∧
      (plan.Covered read →
        (∀ mark, markOf read = some mark → mark.toNat ≤ now / 1000000 + 600000) →
        ∀ mark, markOf read = some mark → mark < lease.firstRevision) := by
  obtain ⟨range, hrange, hnat, hfirst, hlast⟩ := lease_eq_ok hlease
  obtain ⟨hmark, hnone⟩ := heldMarks_eq_ok hheld
  obtain ⟨hstart, hsize⟩ := revisionRange_eq_ok hrange
  rw [hmark] at hrange hstart hsize
  refine ⟨?_, ?_, fun hcovered hwithin mark hread => ?_⟩
  · rw [hlast]
    unfold start at hrange
    split at hrange
    · exact lastRevision_le_cap_of_clock hrange
    · exact lastRevision_le_cap hrange
    · exact lastRevision_le_cap hrange
  · rw [hfirst, hlast, UInt64.le_iff_toNat_le, hstart, hsize]
    omega
  · have hbound := range.lastRevision.toNat_lt
    -- both plans go on from the mark
    have hnext : plan.start (some mark) (wallMs now) = max (satAdd mark 1) (wallMs now) := by
      have hwithin := hwithin mark hread
      rw [← hnat] at hwithin
      cases plan with
      | reserve => exact nextRevisionStart_of_within hwithin
      | renew last =>
        obtain ⟨mark', hread', hle⟩ := hcovered last rfl
        cases hread.symm.trans hread'
        have hmax : max mark last = mark := by
          rw [← UInt64.toNat_inj, UInt64.toNat_max]
          exact Nat.max_eq_left (UInt64.le_iff_toNat_le.mp hle)
        rw [start, getD_some, hmax]
        exact nextRevisionStart_of_within hwithin
    have hone : (1 : UInt64).toNat = 1 := rfl
    rw [hread, hnext, UInt64.toNat_max, toNat_satAdd, hone] at hsize
    rw [UInt64.lt_iff_toNat_lt, hfirst, hstart, hread, hnext, UInt64.toNat_max, toNat_satAdd, hone]
    simp only [wordMax] at hsize ⊢
    omega

end Plan

/-! ### One call of the loop -/

def Reached (stored : Option RevisionConfigMap) (revision : UInt64) : Prop :=
  ∃ mark, markOf stored = some mark ∧ revision ≤ mark

def WithinSkew (stored : Option RevisionConfigMap) (now : Clock) : Prop :=
  ∀ mark, markOf stored = some mark → mark.toNat ≤ now / 1000000 + maxLeaseSkew * 1000

instance (stored : Option RevisionConfigMap) (now : Clock) : Decidable (WithinSkew stored now) :=
  match h : markOf stored with
  | none => .isTrue fun _ hmark => nomatch h.symm.trans hmark
  | some mark =>
    decidable_of_iff (mark.toNat ≤ now / 1000000 + maxLeaseSkew * 1000)
      ⟨fun hle _ hmark => Option.some.inj (h.symm.trans hmark) ▸ hle, fun hall => hall mark h⟩

/-- What one call of the loop can do. -/
inductive CasTask.Advances (siteName : String) (task : CasTask)
    (stored : Option RevisionConfigMap) (now : Clock) :
    CasProgress → Option RevisionConfigMap → Prop
  | stops (error : String) : Advances siteName task stored now (.done (.error error)) stored
  | reads (hphase : task.phase = .reading) :
    Advances siteName task stored now (.continues { task with phase := .planning stored }) stored
  | plans {read held lease} (hphase : task.phase = .planning read)
    (hheld : heldMarks siteName read = .ok held) (hlease : task.plan.lease held now = .ok lease) :
    Advances siteName task stored now (.continues { task with phase := .writing read lease now })
      stored
  | retries {read lease plannedAt} (hphase : task.phase = .writing read lease plannedAt) :
    Advances siteName task stored now
      (.continues { task with attemptsLeft := task.attemptsLeft - 1, phase := .reading }) stored
  | writes {read lease plannedAt cm progress} (hphase : task.phase = .writing read lease plannedAt)
    (hwrite : write stored read (some (revisionLeaseData lease)) = some cm)
    (hprogress : progress = .done (.ok lease) ∨ ∃ error, progress = .done (.error error)) :
    Advances siteName task stored now progress (some cm)

/-- **Every call is one of these.** -/
theorem CasTask.advances (siteName : String) (task : CasTask) (stored : Option RevisionConfigMap)
    (now : Clock) (fault : Option ApiFault) :
    task.Advances siteName stored now (task.advance siteName stored now fault).1
      (task.advance siteName stored now fault).2 := by
  rcases hphase : task.phase with - | read | ⟨read, lease, plannedAt⟩
  · simp only [CasTask.advance, hphase]
    cases fault with
    | some fault => exact .stops _
    | none => exact .reads hphase
  · simp only [CasTask.advance, hphase]
    rcases hlease : heldMarks siteName read >>= fun held => task.plan.lease held now with e | lease
    · exact .stops e
    · obtain ⟨held, hheld, hlease⟩ := bind_eq_ok.mp hlease
      exact .plans hphase hheld hlease
  · simp only [CasTask.advance, hphase]
    rcases hwrite : write stored read (some (revisionLeaseData lease)) with - | cm
    · rcases fault with - | error | error
      · dsimp only
        split_ifs
        · exact .stops _
        · exact .retries hphase
      · exact .stops _
      · exact .stops _
    · rcases fault with - | error | error
      · exact .writes hphase hwrite (.inl rfl)
      · exact .stops _
      · exact .writes hphase hwrite (.inr ⟨_, rfl⟩)

/-- What a loop knows between two calls. -/
def CasTask.Sound (task : CasTask) (stored : Option RevisionConfigMap) (now : Clock) : Prop :=
  task.plan.Covered stored ∧
    match task.phase with
    | .reading => True
    | .planning read => Past read stored ∧ task.plan.Covered read ∧ WithinSkew read now
    | .writing read lease _ => Past read stored ∧ lease.firstRevision ≤ lease.lastRevision ∧
      ∀ mark, markOf read = some mark → mark < lease.firstRevision

section Call

variable {siteName : String} {task : CasTask} {stored read : Option RevisionConfigMap}
  {now : Clock} {lease : RevisionLease} {cm : RevisionConfigMap} {plannedAt : Clock}
  {progress : CasProgress}

/-- A write that goes through moves the mark to the end of its range. -/
theorem markOf_of_write (h : write stored read (some (revisionLeaseData lease)) = some cm) :
    markOf (some cm) = some lease.lastRevision := by
  rw [markOf, bind_some, value_of_write h]
  rfl

section

variable (h : task.Sound stored now)
include h

/-- **A write that goes through is above everything the mark has reached**, and the mark
reaches everything it had reached before. -/
theorem CasTask.Sound.write (hph : task.phase = .writing read lease plannedAt)
    (hwr : write stored read (some (revisionLeaseData lease)) = some cm) :
    (∀ revision, Reached stored revision →
        revision < lease.firstRevision ∧ Reached (some cm) revision) ∧
      lease.firstRevision ≤ lease.lastRevision ∧ Reached (some cm) lease.lastRevision := by
  obtain ⟨-, h⟩ := h
  rw [hph] at h
  obtain ⟨hps, hle, hab⟩ := h
  have hmr := markOf_of_write hwr
  refine ⟨?_, hle, ⟨_, hmr, le_refl _⟩⟩
  rintro revision ⟨mark, hst, hrc⟩
  rw [hps.eq_of_write hwr] at hst
  have hbl := hab mark hst
  rw [le_iff_toNat_le] at hrc hle
  rw [lt_iff_toNat_lt] at hbl
  refine ⟨lt_iff_toNat_lt.mpr (by omega), lease.lastRevision, hmr, ?_⟩
  rw [le_iff_toNat_le]
  omega

omit h in
theorem LeasePlan.Covered.mono {plan : LeasePlan} {stored' : Option RevisionConfigMap}
    (h : plan.Covered stored) (hrc : ∀ revision, Reached stored revision →
      Reached stored' revision) : plan.Covered stored' :=
  fun last hpl => hrc last (h last hpl)

theorem CasTask.Sound.of_write {read' : Option RevisionConfigMap} {value : Option RevisionData}
    (hwr : Versioned.write stored read' value = some cm)
    (hrc : ∀ revision, Reached stored revision → Reached (some cm) revision) :
    task.Sound (some cm) now := by
  obtain ⟨hcv, hph⟩ := h
  refine ⟨hcv.mono hrc, ?_⟩
  split at hph
  · trivial
  · obtain ⟨hps, h⟩ := hph
    exact ⟨hps.write hwr, h⟩
  · obtain ⟨hps, h⟩ := hph
    exact ⟨hps.write hwr, h⟩

theorem CasTask.Sound.elapse (time : Nat) :
    task.Sound stored (now + time) := by
  obtain ⟨hcv, hph⟩ := h
  refine ⟨hcv, ?_⟩
  split at hph
  · trivial
  · obtain ⟨hps, hrd, hsk⟩ := hph
    refine ⟨hps, hrd, fun mark hmr => ?_⟩
    have hle : now / 1000000 ≤ (now + time) / 1000000 := Nat.div_le_div_right (by omega)
    exact Nat.le_trans (hsk mark hmr) (Nat.add_le_add_right hle _)
  · exact hph

theorem CasTask.Sound.continues {task' : CasTask} {stored' : Option RevisionConfigMap}
    (hskew : WithinSkew stored now)
    (hadvs : task.Advances siteName stored now (.continues task') stored') :
    stored' = stored ∧ task'.Sound stored now := by
  obtain ⟨hcovered, hphase⟩ := h
  generalize hprog : CasProgress.continues task' = progress at hadvs
  cases hadvs with
  | stops error => cases hprog
  | reads hreading =>
    obtain rfl := CasProgress.continues.inj hprog
    exact ⟨rfl, hcovered, Past.refl _, hcovered, hskew⟩
  | @plans read held lease hplanning hheld hlease =>
    obtain rfl := CasProgress.continues.inj hprog
    rw [hplanning] at hphase
    obtain ⟨hpast, hread, hskew⟩ := hphase
    obtain ⟨-, hle, habove⟩ := lease_above hheld hlease
    exact ⟨rfl, hcovered, hpast, hle, habove hread hskew⟩
  | retries hwriting =>
    obtain rfl := CasProgress.continues.inj hprog
    exact ⟨rfl, hcovered, trivial⟩
  | writes hwriting hwrite hdone =>
    subst hprog
    rcases hdone with hdone | ⟨error, hdone⟩ <;> cases hdone

/-- The mark keeps what it had reached, and every loop stays sound. -/
structure Keeps (stored stored' : Option RevisionConfigMap) (now : Clock) : Prop where
  reached : ∀ revision, Reached stored revision → Reached stored' revision
  sound : ∀ task : CasTask, task.Sound stored now → task.Sound stored' now

omit h in
theorem Keeps.refl (stored : Option RevisionConfigMap) (now : Clock) : Keeps stored stored now :=
  ⟨fun _ => id, fun _ => id⟩

theorem CasTask.Advances.keeps {stored' : Option RevisionConfigMap}
    (hadv : task.Advances siteName stored now progress stored') :
    Keeps stored stored' now := by
  cases hadv with
  | stops error | reads hph | plans hph hhl hls | retries hph => exact Keeps.refl _ _
  | writes hph hwr hpr =>
    obtain ⟨hab, -, -⟩ := h.write hph hwr
    have hrc := fun revision hrev => (hab revision hrev).2
    exact ⟨hrc, fun other hot => hot.of_write hwr hrc⟩

/-- **A range that is handed out is new**, and the mark has reached its end. -/
theorem CasTask.Advances.grant {stored' : Option RevisionConfigMap}
    (hadv : task.Advances siteName stored now (.done (.ok lease)) stored') :
    (∀ revision, Reached stored revision → revision < lease.firstRevision) ∧
      lease.firstRevision ≤ lease.lastRevision ∧ Reached stored' lease.lastRevision ∧
      ∃ plannedAt, task.grants (.done (.ok lease)) =
        [⟨lease.firstRevision, lease.lastRevision, plannedAt⟩] := by
  generalize hpr : CasProgress.done (.ok lease) = progress at hadv
  cases hadv with
  | stops error | reads hph | plans hph hhl hlease | retries hph => cases hpr
  | @writes read lease' plannedAt cm _ hph hwr hdn =>
    subst hpr
    rcases hdn with hdn | ⟨error, hdn⟩
    · obtain rfl := Except.ok.inj (CasProgress.done.inj hdn)
      obtain ⟨hab, hle, hls⟩ := h.write hph hwr
      refine ⟨fun revision hrev => (hab revision hrev).1, hle, hls, plannedAt, ?_⟩
      simp only [CasTask.grants, hph]
    · cases hdn

end

/-- A range that is about to be written is under the cap of the clock it was planned at. -/
def CasTask.Capped (task : CasTask) : Prop :=
  ∀ read lease plannedAt, task.phase = .writing read lease plannedAt →
    lease.lastRevision ≤ maxLeasedRevision (wallMs plannedAt)

theorem CasTask.Capped.advances {stored' : Option RevisionConfigMap} (h : task.Capped)
    (hadvs : task.Advances siteName stored now progress stored') :
    (∀ task', progress = .continues task' → task'.Capped) ∧
      ∀ range ∈ task.grants progress, range.last ≤ maxLeasedRevision (wallMs range.plannedAt) := by
  cases hadvs with
  | stops error => exact ⟨nofun, nofun⟩
  | plans hphase hheld hlease =>
    refine ⟨?_, nofun⟩
    rintro _ hprog _ _ _ hwriting
    cases hprog
    cases hwriting
    exact (lease_above hheld hlease).1
  | reads hphase | retries hphase =>
    refine ⟨?_, nofun⟩
    rintro _ hprog _ _ _ hwriting
    cases hprog
    cases hwriting
  | writes hphase hwrite hdone =>
    rcases hdone with rfl | ⟨error, rfl⟩
    · refine ⟨nofun, fun range hrange => ?_⟩
      simp only [CasTask.grants, hphase] at hrange
      obtain rfl := List.mem_singleton.mp hrange
      exact h _ _ _ hphase
    · exact ⟨nofun, nofun⟩

end Call

/-! ### The allocator -/

namespace RevisionClock

/-- A revision the allocator may still return: one of its range, or of the range it will adopt. -/
def Holds (clock : RevisionClock) (revision : UInt64) : Prop :=
  (clock.next ≤ revision ∧ revision ≤ clock.last) ∨
    ∃ first last, clock.renewal = some (.finished (.ok (first, last))) ∧
      first ≤ revision ∧ revision ≤ last

/-- The ranges of an allocator follow each other, and the mark has reached their ends. -/
structure Sound (clock : RevisionClock) (stored : Option RevisionConfigMap) : Prop where
  next_le : clock.next.toNat ≤ clock.last.toNat + 1
  last_lt : clock.last.toNat < wordMax
  reached : Reached stored clock.last
  renewed : ∀ first last, clock.renewal = some (.finished (.ok (first, last))) →
    clock.last < first ∧ last.toNat < wordMax ∧ Reached stored last

variable {clock clock' : RevisionClock} {stored stored' : Option RevisionConfigMap}
  {revision : UInt64} {renewal : Option Renewal}

theorem Reached.of_le {revision' : UInt64} (h : Reached stored revision) (hle : revision' ≤ revision) :
    Reached stored revision' := by
  obtain ⟨mark, hmr, hrev⟩ := h
  exact ⟨mark, hmr, le_trans hle hrev⟩

theorem Sound.reached_of_holds (h : clock.Sound stored) (hhl : clock.Holds revision) :
    Reached stored revision := by
  rcases hhl with ⟨-, hle⟩ | ⟨first, last, hren, -, hle⟩
  · exact Reached.of_le h.reached hle
  · exact Reached.of_le (h.renewed first last hren).2.2 hle

theorem Sound.mono (h : clock.Sound stored)
    (hrc : ∀ revision, Reached stored revision → Reached stored' revision) :
    clock.Sound stored' where
  next_le := h.next_le
  last_lt := h.last_lt
  reached := hrc _ h.reached
  renewed first last hren :=
    have ⟨hlt, hmax, hls⟩ := h.renewed first last hren
    ⟨hlt, hmax, hrc _ hls⟩

/-- An allocator that moves on only gives revisions up. -/
structure MovesTo (clock clock' : RevisionClock) : Prop where
  next_le : clock.next ≤ clock'.next
  holds : ∀ revision, clock'.Holds revision → clock.Holds revision

theorem MovesTo.trans {clock'' : RevisionClock} (h : clock.MovesTo clock')
    (h' : clock'.MovesTo clock'') : clock.MovesTo clock'' where
  next_le := le_trans h.next_le h'.next_le
  holds revision hhl := h.holds revision (h'.holds revision hhl)

def Rangeless (renewal : Option Renewal) : Prop :=
  ∀ range, renewal ≠ some (.finished (.ok range))

theorem rangeless_none : Rangeless none := nofun

theorem rangeless_running (task : CasTask) : Rangeless (some (.running task)) :=
  nofun

theorem rangeless_closed : Rangeless (some .closed) := nofun

theorem rangeless_error (error : String) : Rangeless (some (.finished (.error error))) :=
  nofun

theorem MovesTo.of_renewal {retryAt : Option Nat} (hren : Rangeless renewal) :
    clock.MovesTo { clock with renewal := renewal, retryAt := retryAt } where
  next_le := le_refl _
  holds revision := by
    rintro (hhl | ⟨first, last, heq, -⟩)
    · exact .inl hhl
    · exact absurd heq (hren (first, last))

theorem Sound.of_renewal {retryAt : Option Nat} (h : clock.Sound stored)
    (hren : Rangeless renewal) :
    Sound { clock with renewal := renewal, retryAt := retryAt } stored where
  next_le := h.next_le
  last_lt := h.last_lt
  reached := h.reached
  renewed first last heq := absurd heq (hren (first, last))

/-- Adopting a range moves past the old one. -/
theorem Sound.adoptRenewal (h : clock.Sound stored) (instant : Nat) :
    (clock.adoptRenewal instant).Sound stored ∧ clock.MovesTo (clock.adoptRenewal instant) := by
  unfold RevisionClock.adoptRenewal
  split
  · exact ⟨h, le_refl _, fun _ => id⟩
  · exact ⟨h, le_refl _, fun _ => id⟩
  · rename_i first last hren
    split_ifs with hrn
    · obtain ⟨hlt, hmax, hrc⟩ := h.renewed first last hren
      have hle := le_iff_toNat_le.mp hrn.2
      have hlt := lt_iff_toNat_lt.mp hlt
      have hnx := h.next_le
      refine ⟨⟨Nat.le_succ_of_le hle, hmax, hrc, nofun⟩, ?_, ?_⟩
      · rw [le_iff_toNat_le]
        dsimp only
        omega
      · rintro revision (hhl | ⟨_, _, heq, -⟩)
        · exact .inr ⟨first, last, hren, hhl⟩
        · cases heq
    · exact ⟨h.of_renewal rangeless_none, MovesTo.of_renewal rangeless_none⟩
  · exact ⟨h.of_renewal rangeless_none, MovesTo.of_renewal rangeless_none⟩
  · exact ⟨h.of_renewal rangeless_none, MovesTo.of_renewal rangeless_none⟩

/-- Starting a renewal changes nothing that is held. -/
theorem Sound.renew (h : clock.Sound stored) (instant : Nat) :
    (clock.renew instant).Sound stored ∧ clock.MovesTo (clock.renew instant) := by
  unfold RevisionClock.renew
  split_ifs
  · exact ⟨h, le_refl _, fun _ => id⟩
  · exact ⟨h, le_refl _, fun _ => id⟩
  · exact ⟨h.of_renewal (rangeless_running _), MovesTo.of_renewal (rangeless_running _)⟩

/-- The next revision of the range leaves the range. -/
def draw (clock : RevisionClock) : Option UInt64 × RevisionClock :=
  let revision := if clock.next ≤ clock.last then some clock.next else none
  (revision, { clock with next := satAdd clock.next (if revision.isSome then 1 else 0) })

theorem take_eq (adoptAt renewAt : Nat) :
    clock.take adoptAt renewAt =
      let drawn := (clock.adoptRenewal adoptAt).draw
      (drawn.1, if satSub drawn.2.last drawn.2.next < revisionLeaseSpan / 2
        then drawn.2.renew renewAt else drawn.2) := rfl

structure Draws (clock : RevisionClock) (revision : Option UInt64) (clock' : RevisionClock) :
    Prop where
  moves : clock.MovesTo clock'
  drawn : ∀ v, revision = some v →
    clock.Holds v ∧ clock.next ≤ v ∧ v < clock'.next ∧ ¬ clock'.Holds v

theorem Sound.draw (h : clock.Sound stored) :
    clock.draw.2.Sound stored ∧ clock.Draws clock.draw.1 clock.draw.2 := by
  have hmax := h.last_lt
  by_cases hle : clock.next ≤ clock.last
  · simp only [RevisionClock.draw, if_pos hle, isSome_some, if_true]
    have hle' := UInt64.le_iff_toNat_le.mp hle
    have hone : (1 : UInt64).toNat = 1 := rfl
    -- the range ends below the largest word, so the sum does not saturate
    have hnx : (satAdd clock.next 1).toNat = clock.next.toNat + 1 := by
      rw [toNat_satAdd, hone]
      omega
    have hlt : clock.next < satAdd clock.next 1 := by
      rw [UInt64.lt_iff_toNat_lt, hnx]
      omega
    refine ⟨⟨?_, h.last_lt, h.reached, h.renewed⟩, ⟨UInt64.le_of_lt hlt, ?_⟩, ?_⟩
    · show (satAdd clock.next 1).toNat ≤ _
      rw [hnx]
      dsimp only
      omega
    · rintro revision (⟨hfr, hls⟩ | hhl)
      · exact .inl ⟨UInt64.le_trans (UInt64.le_of_lt hlt) hfr, hls⟩
      · exact .inr hhl
    · intro v hv
      cases hv
      refine ⟨.inl ⟨UInt64.le_refl _, hle⟩, UInt64.le_refl _, hlt, ?_⟩
      rintro (⟨hfr, -⟩ | ⟨first, last, hren, hfr, -⟩)
      · exact absurd hlt (UInt64.not_lt.mpr hfr)
      · have hab := UInt64.lt_iff_toNat_lt.mp (h.renewed first last hren).1
        have hfr := UInt64.le_iff_toNat_le.mp hfr
        omega
  · simp only [RevisionClock.draw, if_neg hle, isSome_none, Bool.false_eq_true, if_false]
    have hnx : satAdd clock.next 0 = clock.next := by
      have hlt := clock.next.toNat_lt
      rw [← UInt64.toNat_inj, toNat_satAdd]
      show min (clock.next.toNat + 0) wordMax = clock.next.toNat
      simp only [wordMax]
      omega
    refine ⟨⟨?_, h.last_lt, h.reached, h.renewed⟩, ⟨?_, ?_⟩, fun _ h => by cases h⟩
    · show (satAdd clock.next 0).toNat ≤ _
      rw [hnx]
      exact h.next_le
    · show clock.next ≤ satAdd clock.next 0
      rw [hnx]
      exact UInt64.le_refl _
    · intro revision hhl
      have hhl : (satAdd clock.next 0 ≤ revision ∧ revision ≤ clock.last) ∨ _ := hhl
      rw [hnx] at hhl
      exact hhl

theorem Draws.of_moves {revision : Option UInt64} {before after : RevisionClock}
    (h : clock.Draws revision clock') (hpre : before.MovesTo clock)
    (haf : clock'.MovesTo after) : before.Draws revision after where
  moves := hpre.trans (h.moves.trans haf)
  drawn v hv :=
    have ⟨hhl, hle, hlt, hgn⟩ := h.drawn v hv
    ⟨hpre.holds v hhl, le_trans hpre.next_le hle,
      lt_of_lt_of_le hlt haf.next_le, fun hhl => hgn (haf.holds v hhl)⟩

/-- **A revision that is returned is given up**, and lies past all that were returned before. -/
theorem Sound.take (h : clock.Sound stored) (adoptAt renewAt : Nat) :
    (clock.take adoptAt renewAt).2.Sound stored ∧
      clock.Draws (clock.take adoptAt renewAt).1 (clock.take adoptAt renewAt).2 := by
  obtain ⟨hadopted, hadp⟩ := h.adoptRenewal adoptAt
  obtain ⟨hdr, hds⟩ := hadopted.draw
  obtain ⟨hrn, hrs⟩ := hdr.renew renewAt
  rw [take_eq]
  dsimp only
  split_ifs
  · exact ⟨hrn, hds.of_moves hadp hrs⟩
  · exact ⟨hdr, hds.of_moves hadp ⟨le_refl _, fun _ => id⟩⟩

theorem running_of_adoptRenewal {instant : Nat} {task : CasTask}
    (h : (clock.adoptRenewal instant).renewal = some (.running task)) :
    clock.renewal = some (.running task) := by
  unfold adoptRenewal at h
  split at h
  · exact h
  · exact h
  · split_ifs at h
  · cases h
  · cases h

/-- The loop of an allocator is the one it had, or a new one past its range. -/
theorem running_of_take {adoptAt renewAt : Nat} {task : CasTask}
    (h : (clock.take adoptAt renewAt).2.renewal = some (.running task)) :
    clock.renewal = some (.running task) ∨
      task = { plan := .renew (clock.take adoptAt renewAt).2.last } := by
  rw [take_eq] at h ⊢
  dsimp only at h ⊢
  generalize hdr : (clock.adoptRenewal adoptAt).draw = drawn at h ⊢
  have hren : drawn.2.renewal = (clock.adoptRenewal adoptAt).renewal := by
    rw [← hdr]
    rfl
  split_ifs at h ⊢
  · unfold renew at h ⊢
    split_ifs at h ⊢
    · exact .inl (running_of_adoptRenewal (hren ▸ h))
    · exact .inl (running_of_adoptRenewal (hren ▸ h))
    · exact .inr (Renewal.running.inj (some.inj h)).symm
  · exact .inl (running_of_adoptRenewal (hren ▸ h))

end RevisionClock

/-! ### The invariant -/

def OperatorProcess.Holds (process : OperatorProcess) (revision : UInt64) : Prop :=
  ∃ clock, process = .running clock ∧ clock.Holds revision

namespace RevisionSystem

/-- **The invariant of the system.**  No two processes hold one revision, and what was drawn is
behind everybody. -/
structure Safe (s : RevisionSystem) : Prop where
  clocks : ∀ (p : Nat) (clock : RevisionClock), s.processes[p]? = some (.running clock) →
    clock.Sound s.configMap
  tasks : ∀ (p : Nat) (process : OperatorProcess) (task : CasTask), s.processes[p]? = some process →
    process.task = some task → task.Sound s.configMap s.now
  disjoint : ∀ (p q : Nat) (a b : OperatorProcess) (revision : UInt64),
    s.processes[p]? = some a → s.processes[q]? = some b → a.Holds revision → b.Holds revision → p = q
  reached : ∀ d ∈ s.drawn, Reached s.configMap d.2
  given_up : ∀ d ∈ s.drawn, ∀ (p : Nat) (process : OperatorProcess),
    s.processes[p]? = some process → ¬ process.Holds d.2
  below : ∀ d ∈ s.drawn, ∃ clock, s.processes[d.1]? = some (.running clock) ∧ d.2 < clock.next
  increasing : s.drawn.Pairwise fun later earlier => later.1 = earlier.1 → earlier.2 < later.2
  distinct : (s.drawn.map Prod.snd).Nodup

/-- What a step may do to one process and to the `ConfigMap`. -/
structure Replaces (s : RevisionSystem) (p : Nat) (stored : Option RevisionConfigMap)
    (process : OperatorProcess) : Prop extends Keeps s.configMap stored s.now where
  clock : ∀ clock, process = .running clock → clock.Sound stored
  task : ∀ task, process.task = some task → task.Sound stored s.now
  holds : ∀ revision, process.Holds revision →
    (∃ old, s.processes[p]? = some old ∧ old.Holds revision) ∨ ¬ Reached s.configMap revision
  next : ∀ clock, s.processes[p]? = some (.running clock) →
    ∃ clock', process = .running clock' ∧ clock.next ≤ clock'.next

section Steps

variable {s : RevisionSystem} {p : Nat} {stored : Option RevisionConfigMap}
  {process : OperatorProcess}

theorem Safe.reached_of_holds (h : s.Safe) (hp : s.processes[p]? = some process) {revision : UInt64}
    (hhl : process.Holds revision) : Reached s.configMap revision := by
  obtain ⟨clock, rfl, hhl⟩ := hhl
  exact (h.clocks p clock hp).reached_of_holds hhl

/-- What is held after a replacement was held before, or is above the mark. -/
theorem Replaces.holds_cases (h : s.Replaces p stored process) {q : Nat} {a : OperatorProcess}
    {revision : UInt64} (hq : (s.processes.insert p process)[q]? = some a)
    (hhl : a.Holds revision) :
    (∃ old, s.processes[q]? = some old ∧ old.Holds revision) ∨
      (p = q ∧ ¬ Reached s.configMap revision) := by
  rw [getElem?_insert] at hq
  split_ifs at hq with hpq
  · subst hpq
    cases hq
    rcases h.holds revision hhl with hold | hnew
    · exact .inl hold
    · exact .inr ⟨rfl, hnew⟩
  · exact .inl ⟨a, hq, hhl⟩

/-- **Replacing one process keeps the invariant.** -/
theorem Safe.replace (h : s.Safe) (hp : s.Replaces p stored process) (granted : List GrantedRange) :
    Safe { s with
      configMap := stored
      processes := s.processes.insert p process
      granted := granted } where
  clocks q clock hq := by
    have hq : (s.processes.insert p process)[q]? = some (.running clock) := hq
    rw [getElem?_insert] at hq
    split_ifs at hq with hpq
    · exact hp.clock clock (some.inj hq)
    · exact (h.clocks q clock hq).mono hp.reached
  tasks q a task hq hts := by
    have hq : (s.processes.insert p process)[q]? = some a := hq
    rw [getElem?_insert] at hq
    split_ifs at hq with hpq
    · exact hp.task task (some.inj hq ▸ hts)
    · exact hp.sound task (h.tasks q a task hq hts)
  disjoint q r a b revision hq hr ha hb := by
    rcases hp.holds_cases hq ha with ⟨a', hq', ha'⟩ | ⟨rfl, hnew⟩ <;>
      rcases hp.holds_cases hr hb with ⟨b', hr', hb'⟩ | ⟨rfl, hnew'⟩
    · exact h.disjoint q r a' b' revision hq' hr' ha' hb'
    · exact absurd (h.reached_of_holds hq' ha') hnew'
    · exact absurd (h.reached_of_holds hr' hb') hnew
    · rfl
  reached d hd := hp.reached _ (h.reached d hd)
  given_up d hd q a hq ha := by
    rcases hp.holds_cases hq ha with ⟨a', hq', ha'⟩ | ⟨-, hnew⟩
    · exact h.given_up d hd q a' hq' ha'
    · exact hnew (h.reached d hd)
  below d hd := by
    obtain ⟨clock, hcl, hlt⟩ := h.below d hd
    rw [getElem?_insert]
    split_ifs with hpd
    · subst hpd
      obtain ⟨clock', hcl', hle⟩ := hp.next clock hcl
      exact ⟨clock', by rw [hcl'], lt_of_lt_of_le hlt hle⟩
    · exact ⟨clock, hcl, hlt⟩
  increasing := h.increasing
  distinct := h.distinct

/-- A process that does not run takes the place of one that did not. -/
theorem Replaces.of_idle (hkp : Keeps s.configMap stored s.now)
    (hcl : ∀ clock, process ≠ .running clock)
    (hid : ∀ clock, s.processes[p]? ≠ some (.running clock))
    (hts : ∀ task, process.task = some task → task.Sound stored s.now) :
    s.Replaces p stored process where
  toKeeps := hkp
  clock clock hrn := absurd hrn (hcl clock)
  task := hts
  holds _ hhl :=
    have ⟨clock, hrn, _⟩ := hhl
    absurd hrn (hcl clock)
  next clock hrn := absurd hrn (hid clock)

/-- An allocator takes the place of a process that held the same, or less. -/
theorem Replaces.of_running {clock : RevisionClock} (hkp : Keeps s.configMap stored s.now)
    (hsn : clock.Sound stored)
    (hhl : ∀ revision, clock.Holds revision →
      (∃ old, s.processes[p]? = some old ∧ old.Holds revision) ∨ ¬ Reached s.configMap revision)
    (hnx : ∀ old, s.processes[p]? = some (.running old) → old.next ≤ clock.next)
    (hts : ∀ task, clock.renewal = some (.running task) → task.Sound stored s.now) :
    s.Replaces p stored (.running clock) where
  toKeeps := hkp
  clock clock' hcl := OperatorProcess.running.inj hcl ▸ hsn
  task task h := hts task (OperatorProcess.task_running.mp h)
  holds revision := by
    rintro ⟨clock', hcl, hrev⟩
    exact hhl revision (OperatorProcess.running.inj hcl ▸ hrev)
  next old hold := ⟨clock, rfl, hnx old hold⟩

open Replaces

theorem Replaces.of_moves {clock clock' : RevisionClock} (hkp : Keeps s.configMap stored s.now)
    (hp : s.processes[p]? = some (.running clock)) (hsn : clock'.Sound stored)
    (hmv : clock.MovesTo clock')
    (hts : ∀ task, clock'.renewal = some (.running task) → task.Sound stored s.now) :
    s.Replaces p stored (.running clock') := by
  apply of_running hkp hsn _ _ hts
  · intro revision hhl
    exact .inl ⟨_, hp, clock, rfl, hmv.holds revision hhl⟩
  · intro old hold
    obtain rfl := OperatorProcess.running.inj (some.inj (hold.symm.trans hp))
    exact hmv.next_le

theorem Replaces.of_reserving {task : CasTask} {renews : Bool} {progress : CasProgress} (h : s.Safe)
    (hp : s.processes[p]? = some (.reserving task renews)) (hsk : WithinSkew s.configMap s.now)
    (hadv : task.Advances s.siteName s.configMap s.now progress stored)
    (hmax : ∀ range ∈ task.grants progress, range.last.toNat < wordMax) :
    s.Replaces p stored ((OperatorProcess.reserving task renews).resume progress) := by
  have hsn : task.Sound s.configMap s.now := h.tasks p _ task hp rfl
  have hid : ∀ clock, s.processes[p]? ≠ some (.running clock) :=
    fun clock hcl => OperatorProcess.noConfusion (some.inj (hp.symm.trans hcl))
  have hkp := hadv.keeps hsn
  rcases progress with task' | error | lease
  · obtain ⟨rfl, hsn'⟩ := hsn.continues hsk hadv
    exact of_idle hkp nofun hid fun _ hts => some.inj hts ▸ hsn'
  · exact of_idle hkp nofun hid nofun
  · obtain ⟨hab, hle, hls, plannedAt, hgr⟩ := hadv.grant hsn
    have hlt : lease.lastRevision.toNat < wordMax :=
      hmax ⟨_, _, plannedAt⟩ (hgr ▸ List.mem_singleton_self _)
    simp only [OperatorProcess.resume, new]
    split_ifs
    · exact of_idle hkp nofun hid nofun
    · apply of_running hkp _ _ (fun clock hcl => absurd hcl (hid clock))
      · nofun
      · have hle := le_iff_toNat_le.mp hle
        exact ⟨Nat.le_succ_of_le hle, hlt, hls, nofun⟩
      · rintro revision (⟨hfr, -⟩ | ⟨_, _, hren, -⟩)
        · exact .inr fun hrc => absurd (hab revision hrc) (not_lt.mpr hfr)
        · cases hren

theorem Replaces.of_renewing {clock : RevisionClock} {task : CasTask} {progress : CasProgress}
    (h : s.Safe) (hp : s.processes[p]? = some (.running clock))
    (hren : clock.renewal = some (.running task)) (hsk : WithinSkew s.configMap s.now)
    (hadv : task.Advances s.siteName s.configMap s.now progress stored)
    (hmax : ∀ range ∈ task.grants progress, range.last.toNat < wordMax) :
    s.Replaces p stored ((OperatorProcess.running clock).resume progress) := by
  have hcl := h.clocks p clock hp
  have hsn : task.Sound s.configMap s.now :=
    h.tasks p _ task hp (OperatorProcess.task_running.mpr hren)
  have hkp := hadv.keeps hsn
  have hcl' := hcl.mono hkp.reached
  rcases progress with task' | error | lease
  · obtain ⟨rfl, hsn'⟩ := hsn.continues hsk hadv
    have hrn := rangeless_running task'
    apply of_moves hkp hp (hcl'.of_renewal hrn)
      (MovesTo.of_renewal hrn)
    intro task'' hts
    exact Renewal.running.inj (some.inj hts) ▸ hsn'
  · show s.Replaces p stored (.running { clock with renewal := some (.finished (.error error)) })
    have herr := rangeless_error error
    apply of_moves hkp hp (hcl'.of_renewal herr)
      (MovesTo.of_renewal herr)
    intro _ hts
    cases hts
  · obtain ⟨hab, hle, hls, plannedAt, hgr⟩ := hadv.grant hsn
    have hlt : lease.lastRevision.toNat < wordMax :=
      hmax ⟨_, _, plannedAt⟩ (hgr ▸ List.mem_singleton_self _)
    have hfn : ∀ first last, some (Renewal.finished (.ok (lease.firstRevision,
        lease.lastRevision))) = some (.finished (.ok (first, last))) →
        lease.firstRevision = first ∧ lease.lastRevision = last := by
      intro first last heq
      cases heq
      exact ⟨rfl, rfl⟩
    show s.Replaces p stored (.running { clock with
      renewal := some (.finished (.ok (lease.firstRevision, lease.lastRevision))) })
    apply of_running hkp
    · refine ⟨hcl'.next_le, hcl'.last_lt, hcl'.reached, ?_⟩
      intro first last heq
      obtain ⟨rfl, rfl⟩ := hfn first last heq
      exact ⟨hab _ hcl.reached, hlt, hls⟩
    · rintro revision (hhl | ⟨first, last, heq, hfr, -⟩)
      · exact .inl ⟨_, hp, clock, rfl, .inl hhl⟩
      · obtain ⟨rfl, rfl⟩ := hfn first last heq
        exact .inr fun hrc => absurd (hab revision hrc) (not_lt.mpr hfr)
    · intro old hold
      obtain rfl := OperatorProcess.running.inj (some.inj (hold.symm.trans hp))
      exact le_refl _
    · intro _ hts
      cases hts

theorem Safe.record {clock clock' : RevisionClock} {revision : UInt64} (h : s.Safe)
    (hp : s.processes[p]? = some (.running clock)) (hhl : clock.Holds revision)
    (hle : clock.next ≤ revision) (hlt : revision < clock'.next) (hgn : ¬ clock'.Holds revision)
    (haf : Safe { s with processes := s.processes.insert p (.running clock') }) :
    Safe { s with
      processes := s.processes.insert p (.running clock')
      drawn := (p, revision) :: s.drawn } where
  clocks := haf.clocks
  tasks := haf.tasks
  disjoint := haf.disjoint
  reached d hd := by
    rcases List.mem_cons.mp hd with rfl | hd
    · exact h.reached_of_holds hp ⟨clock, rfl, hhl⟩
    · exact h.reached d hd
  given_up d hd q a hq ha := by
    rcases List.mem_cons.mp hd with rfl | hd
    · have hq : (s.processes.insert p (.running clock'))[q]? = some a := hq
      rw [getElem?_insert] at hq
      split_ifs at hq with hpq
      · obtain ⟨clock'', hcl'', hhl''⟩ := ha
        rw [← some.inj hq] at hcl''
        exact hgn (OperatorProcess.running.inj hcl'' ▸ hhl'')
      · exact hpq (h.disjoint p q _ a revision hp hq ⟨clock, rfl, hhl⟩ ha)
    · exact haf.given_up d hd q a hq ha
  below d hd := by
    rcases List.mem_cons.mp hd with rfl | hd
    · refine ⟨clock', ?_, hlt⟩
      rw [getElem?_insert, if_pos rfl]
    · exact haf.below d hd
  increasing := by
    refine List.pairwise_cons.mpr ⟨fun d hd hpd => ?_, h.increasing⟩
    obtain ⟨clock₀, hcl₀, hbl⟩ := h.below d hd
    have hpd : p = d.1 := hpd
    rw [← hpd, hp] at hcl₀
    obtain rfl := OperatorProcess.running.inj (some.inj hcl₀)
    exact lt_of_lt_of_le hbl hle
  distinct := by
    refine List.nodup_cons.mpr ⟨fun hmem => ?_, h.distinct⟩
    obtain ⟨d, hd, heq⟩ := List.mem_map.mp hmem
    exact h.given_up d hd p _ hp (heq ▸ ⟨clock, rfl, hhl⟩)

theorem Safe.start (h : s.Safe) (p : Nat) (renews : Bool) : (s.step (.start p renews)).Safe := by
  simp only [step]
  split_ifs with hcn
  · exact h
  · rw [ExtTreeMap.contains_eq_isSome_getElem?, not_isSome_iff_eq_none] at hcn
    refine h.replace (of_idle (Keeps.refl _ _) ?_ ?_ ?_) s.granted
    · nofun
    · intro clock hcl
      cases hcn.symm.trans hcl
    · rintro task hts
      cases hts
      exact ⟨nofun, trivial⟩

theorem Safe.elapse (h : s.Safe) (time : Nat) : (s.step (.elapse time)).Safe :=
  { h with tasks := fun p process task hp hts => (h.tasks p process task hp hts).elapse time }

theorem Safe.call (h : s.Safe) (hsk : WithinSkew s.configMap s.now) (p : Nat)
    (fault : Option ApiFault) (hmax : ∀ range ∈ (s.call p fault).granted, range.last.toNat < wordMax) :
    (s.call p fault).Safe := by
  unfold RevisionSystem.call at hmax ⊢
  rcases hp : s.processes[p]? with - | process
  · exact h
  · simp only [hp] at hmax ⊢
    rcases hts : process.task with - | task
    · exact h
    · simp only [hts] at hmax ⊢
      have hadv := task.advances s.siteName s.configMap s.now fault
      generalize task.advance s.siteName s.configMap s.now fault = result at hadv hmax ⊢
      obtain ⟨progress, stored⟩ := result
      have hgr : ∀ range ∈ task.grants progress, range.last.toNat < wordMax :=
        fun range hrn => hmax range (List.mem_append_left _ hrn)
      apply h.replace
      cases process with
      | reserving task' renews =>
        cases hts
        exact of_reserving h hp hsk hadv hgr
      | running clock =>
        exact of_renewing h hp (OperatorProcess.task_running.mp hts) hsk hadv hgr
      | failed => cases hts

theorem Safe.close (h : s.Safe) (p : Nat) : (s.step (.close p)).Safe := by
  simp only [step]
  split
  · rename_i clock hp
    split
    · have hcl := rangeless_closed
      refine h.replace (of_moves (Keeps.refl _ _) hp ((h.clocks p clock hp).of_renewal hcl)
        (MovesTo.of_renewal hcl) ?_) s.granted
      nofun
    · exact h
  · exact h

theorem Safe.take (h : s.Safe) (p adoptAt renewAt : Nat) :
    (s.step (.take p adoptAt renewAt)).Safe := by
  simp only [step]
  split
  · rename_i clock hp
    obtain ⟨hsn, hdr⟩ := (h.clocks p clock hp).take adoptAt renewAt
    have hts : ∀ task, (clock.take adoptAt renewAt).2.renewal = some (.running task) →
        task.Sound s.configMap s.now := by
      intro task hren
      rcases running_of_take hren with hold | rfl
      · exact h.tasks p _ task hp (OperatorProcess.task_running.mpr hold)
      · refine ⟨fun last hpl => ?_, trivial⟩
        obtain rfl := renew.inj hpl
        exact hsn.reached
    generalize clock.take adoptAt renewAt = taken at hsn hdr hts ⊢
    obtain ⟨revision, clock'⟩ := taken
    have haf : Safe { s with processes := s.processes.insert p (.running clock') } :=
      h.replace (of_moves (Keeps.refl _ _) hp hsn hdr.moves hts) s.granted
    cases revision with
    | none => exact haf
    | some revision =>
      obtain ⟨hhl, hle, hlt, hgn⟩ := hdr.drawn revision rfl
      exact h.record hp hhl hle hlt hgn haf
  · exact h

theorem granted_subset_step (op : RevisionOp) :
    ∀ range ∈ s.granted, range ∈ (s.step op).granted := by
  intro range hrn
  unfold step
  cases op with
  | elapse time => exact hrn
  | call p fault =>
    simp only [call]
    split
    · exact hrn
    · split
      · exact hrn
      · exact List.mem_append_right _ hrn
  | start p renews | take p adoptAt renewAt =>
    dsimp only
    split <;> exact hrn
  | close p =>
    dsimp only
    split
    · split <;> exact hrn
    · exact hrn

/-- **Every step keeps the invariant**, under the skew and as long as no range reaches the
largest word. -/
theorem Safe.step (h : s.Safe) (hsk : WithinSkew s.configMap s.now) (op : RevisionOp)
    (hmax : ∀ range ∈ (s.step op).granted, range.last.toNat < wordMax) : (s.step op).Safe := by
  cases op with
  | start p renews => exact h.start p renews
  | elapse time => exact h.elapse time
  | call p fault => exact h.call hsk p fault hmax
  | close p => exact h.close p
  | take p adoptAt renewAt => exact h.take p adoptAt renewAt

end Steps

/-! ### The cap of the peers -/

/-- Every range is under the cap, whatever the mark. -/
structure Capped (s : RevisionSystem) : Prop where
  tasks : ∀ (p : Nat) (process : OperatorProcess) (task : CasTask), s.processes[p]? = some process →
    process.task = some task → task.Capped
  granted : ∀ range ∈ s.granted, range.last ≤ maxLeasedRevision (wallMs range.plannedAt)

section Capped

variable {s : RevisionSystem} {p : Nat} {task : CasTask} {process : OperatorProcess}

theorem task_resume {task' : CasTask} {progress : CasProgress} (hts : process.task = some task)
    (hrs : (process.resume progress).task = some task') : progress = .continues task' := by
  cases process with
  | reserving _ renews =>
    rcases progress with task'' | error | lease
    · rw [some.inj hrs]
    · cases hrs
    · simp only [OperatorProcess.resume, new] at hrs
      split_ifs at hrs <;> cases hrs
  | running clock =>
    rcases progress with task'' | error | lease
    · rw [some.inj hrs]
    · cases hrs
    · cases hrs
  | failed => cases hts

theorem Capped.insert (h : s.Capped)
    (hpr : ∀ task, process.task = some task → task.Capped) {q : Nat}
    {other : OperatorProcess} (hq : (s.processes.insert p process)[q]? = some other)
    (hts : other.task = some task) : task.Capped := by
  rw [getElem?_insert] at hq
  split_ifs at hq with hpq
  · exact hpr task (some.inj hq ▸ hts)
  · exact h.tasks q other task hq hts

theorem Capped.step (h : s.Capped) (op : RevisionOp) : (s.step op).Capped := by
  cases op with
  | start p renews =>
    simp only [RevisionSystem.step]
    split_ifs
    · exact h
    · refine ⟨fun q other task hq hts => h.insert ?_ hq hts, h.granted⟩
      rintro task hts _ _ _ hwr
      cases hts
      cases hwr
  | elapse time => exact ⟨h.tasks, h.granted⟩
  | call p fault =>
    simp only [RevisionSystem.step, RevisionSystem.call]
    split
    · exact h
    · rename_i process hp
      split
      · exact h
      · rename_i task hts
        have hadv := task.advances s.siteName s.configMap s.now fault
        obtain ⟨hcn, hgr⟩ := (h.tasks p process task hp hts).advances hadv
        refine ⟨fun q other task' hq hts' => h.insert (fun task'' hts'' => ?_) hq hts',
          fun range hrn => ?_⟩
        · exact hcn task'' (task_resume hts hts'')
        · rcases List.mem_append.mp hrn with hrn | hrn
          · exact hgr range hrn
          · exact h.granted range hrn
  | close p =>
    simp only [RevisionSystem.step]
    split
    · split
      · refine ⟨fun q other task hq hts => h.insert (fun task hts => ?_) hq hts, h.granted⟩
        cases hts
      · exact h
    · exact h
  | take p adoptAt renewAt =>
    simp only [RevisionSystem.step]
    split
    · rename_i clock hp
      refine ⟨fun q other task hq hts => h.insert (fun task hts => ?_) hq hts, h.granted⟩
      rcases running_of_take (OperatorProcess.task_running.mp hts) with hold | rfl
      · exact h.tasks p _ task hp (OperatorProcess.task_running.mpr hold)
      · rintro _ _ _ hwr
        cases hwr
    · exact h

end Capped

/-! ### Whole runs -/

/-- A site before its first process. -/
def initial (siteName : String) (configMap : Option RevisionConfigMap) (now : Clock) :
    RevisionSystem where
  siteName := siteName
  configMap := configMap
  now := now

theorem safe_initial (siteName : String) (configMap : Option RevisionConfigMap) (now : Clock) :
    (initial siteName configMap now).Safe where
  clocks p clock hp := by simp [initial] at hp
  tasks p process task hp := by simp [initial] at hp
  disjoint p q a b revision hp := by simp [initial] at hp
  reached d hd := by cases hd
  given_up d hd := by cases hd
  below d hd := by cases hd
  increasing := List.Pairwise.nil
  distinct := List.nodup_nil

/-- **Transport revisions are never reused.**  Any number of processes start, reserve, renew and
draw in any interleaving over one `ConfigMap`, their calls conflicting, failing or losing their
answers, and the mark stays within the skew of the clock.  Every range that is handed out ends
under the cap of its clock; and as long as none of them ends at the largest word, no revision is
drawn twice and each process draws increasing ones. -/
theorem revisions_never_reused (siteName : String) (configMap : Option RevisionConfigMap)
    (now : Clock) (ops : List RevisionOp)
    (hskew : Throughout step (fun s => WithinSkew s.configMap s.now)
      (initial siteName configMap now) ops) :
    (∀ range ∈ (run step (initial siteName configMap now) ops).granted,
        range.last ≤ maxLeasedRevision (wallMs range.plannedAt)) ∧
      ((∀ range ∈ (run step (initial siteName configMap now) ops).granted,
          range.last.toNat < wordMax) →
        ((run step (initial siteName configMap now) ops).drawn.map Prod.snd).Nodup ∧
          (run step (initial siteName configMap now) ops).drawn.Pairwise
            fun later earlier => later.1 = earlier.1 → earlier.2 < later.2) := by
  constructor
  · have hcp : (initial siteName configMap now).Capped :=
      ⟨fun p process task hp => by simp [initial] at hp, nofun⟩
    exact (run_invariant (P := Capped) (fun s op h => h.step op) hcp).granted
  · intro hmax
    -- what was handed out stays, so the bound at the end holds at every step
    have hsf := run_invariant_throughout
      (P := fun s => (∀ range ∈ s.granted, range.last.toNat < wordMax) → s.Safe)
      (fun s op hskew _ h hmax =>
        (h fun range hrn => hmax range (granted_subset_step op range hrn)).step hskew op hmax)
      hskew (fun _ => safe_initial siteName configMap now) hmax
    exact ⟨hsf.distinct, hsf.increasing⟩

/-- Two processes read the missing `ConfigMap`.  The second creates it, so the first has to try
again, and both draw. -/
def overlapping : List RevisionOp :=
  [.start 0 true, .start 1 true, .call 0 none, .call 1 none, .call 0 none, .call 1 none,
    .call 1 none, .call 0 none, .take 1 0 0, .elapse 1000000, .call 0 none, .call 0 none,
    .call 0 none, .take 0 0 0, .take 1 0 0]

theorem revisions_never_reused_overlapping :
    Throughout step (fun s => WithinSkew s.configMap s.now)
        (initial "site" none 1000000) overlapping ∧
      (run step (initial "site" none 1000000) overlapping).drawn =
        [(1, 2), (0, 257), (1, 1)] ∧
      ((run step (initial "site" none 1000000) overlapping).drawn.map
        Prod.snd).Nodup := by
  have hsk : Throughout step (fun s => WithinSkew s.configMap s.now)
      (initial "site" none 1000000) overlapping := by decide +kernel
  obtain ⟨-, hdr⟩ := revisions_never_reused "site" none 1000000 overlapping hsk
  exact ⟨hsk, by decide +kernel, (hdr (by decide +kernel)).1⟩

/-- A process renews its range when the clock is 256 ms short of the largest word, and draws to
the end of it. -/
def toTheLastWord : List RevisionOp :=
  [.start 0 true, .call 0 none, .call 0 none, .call 0 none] ++ List.replicate 128 (.take 0 0 0) ++
    [.elapse ((2 ^ 64 - 257) * 1000000), .call 0 none, .call 0 none, .call 0 none] ++
    List.replicate 257 (.take 0 0 0)

/-- **The allocator stays at the largest word**: it returns that revision twice. -/
theorem largest_revision_drawn_twice :
    Throughout step (fun s => WithinSkew s.configMap s.now)
        (initial "site" none 1000000) toTheLastWord ∧
      ¬ ((run step (initial "site" none 1000000) toTheLastWord).drawn.map
        Prod.snd).Nodup := by
  have hsk : Throughout step (fun s => WithinSkew s.configMap s.now)
      (initial "site" none 1000000) toTheLastWord := by decide +kernel
  have hls : (run step (initial "site" none 1000000) toTheLastWord).drawn.take 2 =
      [(0, 18446744073709551615), (0, 18446744073709551615)] := by decide +kernel
  refine ⟨hsk, fun hnd => ?_⟩
  have hpr := List.Nodup.sublist ((List.take_sublist 2 _).map Prod.snd) hnd
  rw [hls] at hpr
  exact absurd hpr (by decide)

end RevisionSystem

end PraxisGrid
