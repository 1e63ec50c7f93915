/-
PraxisGrid/Operator/GatewayEvidence.lean

The rows of gateway evidence in the status of a network: `crates/operator/src/gateway_ages.rs`.

A report is judged against the receipt of its process, which is committed once a write was
confirmed, and against the stored row where there is none.  A write that lands with its reply lost
leaves the row ahead of the receipt, and a delayed report between the two takes the row back
(`delayed_report_takes_row_back`).  While no report is newer than the receipt and older than the row,
no row goes backwards.

A write is a compare-and-swap on the version that was read: it lands at once, or later if nothing
else was written.
-/
import PraxisGrid.Lib.OrdMap
import PraxisGrid.Lib.Run

namespace PraxisGrid.Operator.Evidence

open Std OrdMap Run

structure IngestReport where
  replica : String
  epoch : String
  sequence : Int
  skew : Int
  rejected : Bool

/-- The stored row of a process. -/
structure GatewayAgeReport where
  replica : String
  sequence : Int
  skew : Int
  rejected : Bool
  reportedRejected : Bool
  receivedAt : String
deriving DecidableEq

/-- What was last accepted of a process. -/
structure Receipt where
  sequence : Int
  skew : Int
  rejected : Bool
  instant : Nat
  persisted : Nat

abbrev Rows := ExtTreeMap String GatewayAgeReport

def freshness : Nat := 300 * 10 ^ 9

def maxReporters : Nat := 128

def row (report : IngestReport) (rejected : Bool) (now : String) : GatewayAgeReport :=
  ⟨report.replica, report.sequence, report.skew, rejected, report.rejected, now⟩

/-- Reject a replay or a changed duplicate; a rising count overrides a clean claim. -/
def replace (held : GatewayAgeReport) (report : IngestReport) (now : String)
    (receipt : Option Receipt) (instant : Nat) : Option (GatewayAgeReport × Option Receipt) :=
  let sequence := receipt.elim held.sequence Receipt.sequence
  let skew := receipt.elim held.skew Receipt.skew
  let rejected := receipt.elim held.reportedRejected Receipt.rejected
  if held.replica ≠ report.replica ∨ report.sequence < sequence ∨ report.skew < skew then none
  else if report.sequence = sequence then
    if report.skew = skew ∧ report.rejected = rejected then some (held, none) else none
  else
    let effectiveRejected := report.rejected || skew < report.skew
    let refreshDue := receipt.all fun current => freshness ≤ instant - current.persisted
    let decisionChanged := report.skew ≠ held.skew || report.rejected != held.reportedRejected
      || effectiveRejected != held.rejected
    let persist := refreshDue || decisionChanged
    some (if persist then row report effectiveRejected now else held,
      some ⟨report.sequence, report.skew, report.rejected, instant,
        if persist then instant else receipt.elim instant Receipt.persisted⟩)

structure Observation where
  rows : Rows
  overflow : Bool := false
  receipt : Option Receipt := none

/-- The clean row that is received first. -/
def reclaimed (rows : Rows) : Option String :=
  let sorted := rows.toList.mergeSort fun left right =>
    left.2.receivedAt < right.2.receivedAt
      || (left.2.receivedAt = right.2.receivedAt && left.1 ≤ right.1)
  (sorted.find? fun held => !held.2.rejected).map Prod.fst

/-- Admit a new process only by reclaiming a clean row. -/
def observe (rows : Rows) (report : IngestReport) (now : String)
    (receipts : ExtTreeMap String Receipt) (instant : Nat) : Option Observation :=
  match rows[report.epoch]? with
  | some held =>
    (replace held report now receipts[report.epoch]? instant).map fun (held, receipt) =>
      { rows := rows.insert report.epoch held, receipt := receipt }
  | none =>
    let admitted (rows : Rows) : Observation :=
      { rows := rows.insert report.epoch (row report (report.rejected || 0 < report.skew) now)
        receipt := some ⟨report.sequence, report.skew, report.rejected, instant, instant⟩ }
    if maxReporters ≤ rows.size then
      match reclaimed rows with
      | none => some { rows := rows, overflow := true }
      | some epoch => some (admitted (rows.erase epoch))
    else some (admitted rows)

/-! ### The operator and the stored status -/

structure World where
  rows : Rows := ∅
  uncertain : Bool := false
  version : Nat := 0
  receipts : ExtTreeMap String Receipt := ∅
  /-- writes that were cut off, with the version they are conditioned on -/
  inFlight : List (Nat × Observation) := []

/-- What becomes of a write. -/
inductive Landing
  | confirmed
  | failed
  /-- it lands and its reply is lost -/
  | lost
  /-- the budget cuts it off, and it may land -/
  | cutOff

inductive Op
  /-- one attempt to publish a report; the condition may read as wanted already -/
  | publish (report : IngestReport) (now : String) (instant : Nat) (conditionHeld : Bool)
      (landing : Landing)
  | land (index : Nat)
  /-- another writer of the object -/
  | touch
  | restart

def World.store (world : World) (observed : Observation) : World :=
  { world with
    rows := observed.rows
    uncertain := observed.overflow || world.uncertain
    version := world.version + 1 }

def World.commit (world : World) (report : IngestReport) (observed : Observation) : World :=
  let receipts := observed.receipt.elim world.receipts (world.receipts.insert report.epoch)
  { world with receipts := retain receipts fun epoch _ => observed.rows.contains epoch }

def World.step (world : World) : Op → World
  | .publish report now instant conditionHeld landing =>
    match observe world.rows report now world.receipts instant with
    | none => world
    | some observed =>
      let write := observed.rows.toList ≠ world.rows.toList
        || (observed.overflow && !world.uncertain) || !conditionHeld
      match write, landing with
      | false, _ => world.commit report observed
      | true, .confirmed => (world.store observed).commit report observed
      | true, .failed => world
      | true, .lost => world.store observed
      | true, .cutOff => { world with inFlight := (world.version, observed) :: world.inFlight }
  | .land index =>
    match world.inFlight[index]? with
    | some (version, observed) => if version = world.version then world.store observed else world
    | none => world
  | .touch => { world with version := world.version + 1 }
  | .restart => { world with receipts := ∅ }

/-- A report that is not newer than the receipt it is judged by, or not older than the row; with the
row's own sequence it takes no rejection back. -/
def Receipt.abreast (held : GatewayAgeReport) (report : IngestReport) (receipt : Receipt) : Bool :=
  report.sequence ≤ receipt.sequence || report.skew < receipt.skew
    || (held.sequence ≤ report.sequence && held.skew ≤ report.skew
      && (held.sequence < report.sequence || !held.rejected || report.rejected
        || receipt.skew < report.skew))

def World.abreast (world : World) : Op → Bool
  | .publish report .. => world.rows[report.epoch]?.all fun held =>
    world.receipts[report.epoch]?.all (Receipt.abreast held report)
  | _ => true

/-! ### Rows go forward -/

variable {rows rows' : Rows} {held stored : GatewayAgeReport} {report : IngestReport} {now : String}
  {instant : Nat} {observed : Observation} {world : World} {op : Op}

/-- No count decreases, and a rejection is taken back by a larger sequence only. -/
def GatewayAgeReport.Forward (held stored : GatewayAgeReport) : Prop :=
  held.sequence ≤ stored.sequence ∧ held.skew ≤ stored.skew
    ∧ (held.rejected = true → stored.rejected = false → held.sequence < stored.sequence)

/-- Every row that stays goes forward. -/
def Forward (rows rows' : Rows) : Prop :=
  ∀ (epoch : String) (held stored : GatewayAgeReport), rows[epoch]? = some held →
    rows'[epoch]? = some stored → held.Forward stored

theorem GatewayAgeReport.Forward.refl (held : GatewayAgeReport) : held.Forward held :=
  ⟨le_rfl, le_rfl, fun h h' => by cases h.symm.trans h'⟩

theorem Forward.refl (rows : Rows) : Forward rows rows := by
  intro epoch held stored hh hs
  cases hh.symm.trans hs
  exact .refl held

theorem Forward.insert (h : ∀ old, rows[report.epoch]? = some old → old.Forward held)
    (hrw : Forward rows rows') : Forward rows (rows'.insert report.epoch held) := by
  intro epoch old stored ho hs
  rw [getElem?_insert] at hs
  split_ifs at hs with heq
  · cases hs
    exact h old (heq ▸ ho)
  · exact hrw epoch old stored ho hs

theorem replace_forward {receipt : Option Receipt} {next : Option Receipt}
    (h : replace held report now receipt instant = some (stored, next))
    (ha : receipt.all (Receipt.abreast held report) = true) :
    held.Forward stored := by
  unfold replace at h
  dsimp only at h
  split_ifs at h with hold hseq _ hp
  · cases h
    exact .refl held
  · -- the report is above what it was judged by
    cases h
    cases receipt with
    | none =>
      simp only [Option.elim_none] at hold hseq
      refine ⟨?_, ?_, fun _ _ => ?_⟩
      all_goals
        simp only [row]
        omega
    | some receipt =>
      simp only [Option.elim_some] at hold hseq
      simp only [Option.all_some, Receipt.abreast, Bool.or_eq_true, Bool.and_eq_true,
        decide_eq_true_eq, Bool.not_eq_true'] at ha
      obtain ⟨⟨hs, hk⟩, hrej⟩ := ha.resolve_left (by omega)
      refine ⟨hs, hk, fun hr hclean => ?_⟩
      simp only [row, Option.elim_some, Bool.or_eq_false_iff] at hclean
      rcases hrej with ((hlt | hnot) | hrep) | hrise
      · exact hlt
      · cases hr.symm.trans hnot
      · cases hclean.1.symm.trans hrep
      · exact absurd hrise (of_decide_eq_false hclean.2)
  · cases h
    exact .refl held

theorem observe_forward {receipts : ExtTreeMap String Receipt}
    (h : observe rows report now receipts instant = some observed)
    (ha : (rows[report.epoch]?.all fun held =>
      receipts[report.epoch]?.all (Receipt.abreast held report)) = true) :
    Forward rows observed.rows := by
  unfold observe at h
  split at h
  · rename_i held hh
    obtain ⟨⟨stored, next⟩, hr, rfl⟩ := Option.map_eq_some_iff.mp h
    rw [hh] at ha
    refine Forward.insert (fun old ho => ?_) (.refl rows)
    cases hh.symm.trans ho
    exact replace_forward hr ha
  · rename_i hn
    have hnew {rows'} (hrw : Forward rows rows') (stored) :
        Forward rows (rows'.insert report.epoch stored) :=
      hrw.insert fun old ho => by cases hn.symm.trans ho
    dsimp only at h
    split_ifs at h
    · split at h
      · cases h
        exact .refl rows
      · cases h
        refine hnew (fun epoch old stored ho hs => ?_) _
        rw [getElem?_erase] at hs
        split_ifs at hs
        exact Forward.refl rows epoch old stored ho hs
    · cases h
      exact hnew (.refl rows) _

/-! ### Runs -/

def World.Sound (world : World) : Prop :=
  ∀ write ∈ world.inFlight, write.1 ≤ world.version
    ∧ (write.1 = world.version → Forward world.rows write.2.rows)

/-- A write makes every other one in flight void. -/
theorem World.Sound.later {world' : World} (h : world.Sound)
    (hv : world'.version = world.version + 1) (hi : world'.inFlight = world.inFlight) :
    world'.Sound := by
  intro write hw
  rw [hi] at hw
  rw [hv]
  have hle := (h write hw).1
  exact ⟨Nat.le_succ_of_le hle, fun heq => absurd heq (Nat.ne_of_lt (Nat.lt_succ_of_le hle))⟩

theorem step_forward (h : world.Sound) (ha : world.abreast op = true) :
    (world.step op).Sound ∧ Forward world.rows (world.step op).rows := by
  cases op with
  | publish report now instant conditionHeld landing =>
    unfold World.step
    dsimp only
    split
    · exact ⟨h, .refl _⟩
    · rename_i observed ho
      have hf : Forward world.rows observed.rows := observe_forward ho ha
      split
      · exact ⟨h, .refl _⟩
      · exact ⟨h.later rfl rfl, hf⟩
      · exact ⟨h, .refl _⟩
      · exact ⟨h.later rfl rfl, hf⟩
      · exact ⟨List.forall_mem_cons.mpr ⟨⟨le_rfl, fun _ => hf⟩, h⟩, .refl _⟩
  | land index =>
    unfold World.step
    dsimp only
    split
    · rename_i version observed hw
      split_ifs with heq
      · exact ⟨h.later rfl rfl, (h _ (List.mem_of_getElem? hw)).2 heq⟩
      · exact ⟨h, .refl _⟩
    · exact ⟨h, .refl _⟩
  | touch => exact ⟨h.later rfl rfl, .refl _⟩
  | restart => exact ⟨h, .refl _⟩

/-- **Stored gateway evidence never goes backwards** in a run without a report between the receipt it
is judged by and the stored row. -/
theorem evidence_never_goes_back (ops : List Op) (op : Op)
    (h : Along World.step (fun world op => world.abreast op = true) {} (ops ++ [op])) :
    Forward (run World.step {} ops).rows (run World.step {} (ops ++ [op])).rows := by
  rw [along_append] at h
  have hs : (run World.step {} ops).Sound :=
    run_invariant_along (fun world op ha hs => (step_forward hs ha).1) h.1 (fun _ hw => by cases hw)
  rw [run_append]
  exact (step_forward hs h.2.1).2

def reportOf (sequence skew : Int) (rejected : Bool) (landing : Landing) : Op :=
  .publish ⟨"r", "e", sequence, skew, rejected⟩ "t" 0 false landing

/-- The reply to the third report is lost, and the fourth is taken. -/
theorem evidence_never_goes_back_risen :
    Forward (run World.step {} [reportOf 1 0 false .confirmed, reportOf 3 1 true .lost]).rows
      (run World.step {} ([reportOf 1 0 false .confirmed, reportOf 3 1 true .lost]
        ++ [reportOf 4 1 false .confirmed])).rows :=
  evidence_never_goes_back [reportOf 1 0 false .confirmed, reportOf 3 1 true .lost]
    (reportOf 4 1 false .confirmed) (by decide +kernel)

/-- A clean report is confirmed, the reply to the write of the third is lost, and the second
arrives last. -/
theorem delayed_report_takes_row_back :
    (run World.step {} [reportOf 1 0 false .confirmed, reportOf 3 1 true .lost]).rows["e"]?
        = some ⟨"r", 3, 1, true, true, "t"⟩
      ∧ (run World.step {} [reportOf 1 0 false .confirmed, reportOf 3 1 true .lost,
          reportOf 2 0 false .confirmed]).rows["e"]? = some ⟨"r", 2, 0, false, false, "t"⟩ := by
  decide +kernel

end PraxisGrid.Operator.Evidence
