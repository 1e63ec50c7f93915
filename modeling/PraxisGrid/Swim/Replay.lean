/-
PraxisGrid/Swim/Replay.lean

How long a completed revision refuses the frames up to it.

Completing a revision sets the floor of its scope, with a deadline one replay window later.
The floor is kept for that deadline, and longer while the completed inventory is held.  So after
a withdrawal it covers the window that started with the completion, and not the one that starts
with the withdrawal, and once it is released a smaller revision can complete and set a lower one.
Along a run the floor is that of the last completion, or gone (`Records`), so a frame is refused by
the last completion alone (`replay_refused_iff`).
-/
import PraxisGrid.Swim.Assembly

namespace PraxisGrid

open Std OrdMap Bincode Saturate Run Scenario Option

/-- What happens to an assembler, and when. -/
inductive InventoryOp
  | push (frame : ModelInventoryBroadcast) (nowMs : UInt64)
  | withdrawProvider (scope : InventoryScope) (nowMs : UInt64)

def InventoryOp.timeMs : InventoryOp → UInt64
  | push _ nowMs | withdrawProvider _ nowMs => nowMs

namespace ModelInventoryAssembler

variable {c : Crypto} {a : ModelInventoryAssembler} {scope : InventoryScope}
  {p : Push} {ops : List InventoryOp} {nowMs : UInt64}

/-- One operation. -/
def step (c : Crypto) (a : ModelInventoryAssembler) : InventoryOp → ModelInventoryAssembler
  | .push frame nowMs => a.deliver c (frame, nowMs)
  | .withdrawProvider scope _ => a.withdrawProvider scope

/-- The operation does not make the assembler block the origin of a scope. -/
def Unblocking (c : Crypto) (scope : InventoryScope) (a : ModelInventoryAssembler) :
    InventoryOp → Prop
  | .push frame nowMs => a.LeavesRoom c scope.originSite (frame, nowMs)
  | .withdrawProvider _ _ => True

/-- The last completion of a scope: its revision, its time, the expiry of the inventory, and
whether that was withdrawn since. -/
structure Completion where
  revision : UInt64
  atMs : UInt64
  expiresAtMs : UInt64
  withdrawn : Bool

def lastAfter (c : Crypto) (scope : InventoryScope) (a : ModelInventoryAssembler)
    (last : Completion) : InventoryOp → Completion
  | .push frame nowMs =>
    match a.answer c (frame, nowMs) with
    | .ok (.complete inventory) =>
      if scopeOf frame = scope then
        ⟨frame.frame.inventoryRevision, nowMs, inventory.expiresAtMs, false⟩
      else last
    | _ => last
  | .withdrawProvider withdrawn _ =>
    if withdrawn = scope then { last with withdrawn := true } else last

/-- The last completion of a scope at the end of a run. -/
def lastCompletion (c : Crypto) (scope : InventoryScope) :
    ModelInventoryAssembler → Completion → List InventoryOp → Completion
  | _, last, [] => last
  | a, last, op :: ops => lastCompletion c scope (a.step c op) (lastAfter c scope a last op) ops

/-- The inventory of the completion is neither expired nor withdrawn. -/
def Completion.Holds (last : Completion) (nowMs : UInt64) : Prop :=
  nowMs < last.expiresAtMs ∧ last.withdrawn = false

/-- The floor of the completion covers a time: its deadline is not over, or the inventory is
held. -/
def Completion.Covers (last : Completion) (nowMs : UInt64) : Prop :=
  nowMs ≤ replayDeadline last.atMs ∨ last.Holds nowMs

def Completion.floor (last : Completion) : RevisionFloor :=
  ⟨last.revision, replayDeadline last.atMs⟩

/-! ### One operation -/

theorem deliver_keeps (hrm : a.LeavesRoom c scope.originSite p)
    (hls : scopeOf p.1 = scope → ∀ inventory, a.answer c p ≠ .ok (.complete inventory)) :
    (a.deliver c p).revisionFloor[scope]? = (a.prune p.2).revisionFloor[scope]? ∧
      (a.deliver c p).complete[scope]? = (a.prune p.2).complete[scope]? := by
  have hout := push_outcome c a p.1 p.2
  by_cases hsc : scope = scopeOf p.1
  · subst hsc
    have hcap := hrm rfl
    have hin := hls rfl
    unfold deliver
    unfold answer at hin
    generalize a.push c p.1 p.2 = result at hout hin ⊢
    cases hout with
    | refused _ => exact ⟨rfl, rfl⟩
    | full hch hhl hfl => exact absurd (hcap.frames hch hhl) (Nat.not_lt_of_le hfl)
    | conflicting _ _ | retained _ _ | invalid _ _ _ => exact ⟨rfl, rfl⟩
    | excess hret hwh hvl hex =>
      rw [hcap.inventory _ hret hwh hvl] at hex
      cases hex
    | complete _ _ _ _ => exact absurd rfl (hin _)
  · have hun := hout.untouched hsc fun heq => hrm heq.symm
    exact ⟨hun.floor, hun.complete⟩

theorem complete_withdrawProvider (scope' : InventoryScope) :
    (a.withdrawProvider scope').complete[scope]? =
      if scope' = scope then none else a.complete[scope]? := by
  unfold withdrawProvider
  rw [getElem?_erase]

theorem deliver_completes {inventory : ModelInventory}
    (h : a.answer c p = .ok (.complete inventory)) :
    (a.deliver c p).revisionFloor[scopeOf p.1]? =
        some ⟨p.1.frame.inventoryRevision, replayDeadline p.2⟩ ∧
      (a.deliver c p).complete[scopeOf p.1]? = some inventory ∧
      (a.deliver c p).blockedOrigins.contains p.1.originSite = false ∧
      (scopeOf p.1).validate = .ok () := by
  have hout := push_outcome c a p.1 p.2
  unfold answer at h
  unfold deliver
  generalize a.push c p.1 p.2 = result at hout h ⊢
  cases hout with
  | retained _ _ =>
    simp only [Except.ok.injEq] at h
    split_ifs at h
  | complete hret _ _ _ =>
    obtain ⟨-, hun, hsc, -⟩ := valid_of_checkFrame hret.checked
    obtain rfl := InventoryAssemblyResult.complete.inj (Except.ok.inj h)
    refine ⟨?_, ?_, hun, hsc⟩
    · rw [revisionFloor_published, if_pos rfl]
    · rw [complete_published, if_pos rfl]
  | refused _ => cases h
  | full _ _ _ => cases h
  | conflicting _ _ => cases h
  | invalid _ _ _ => cases h
  | excess _ _ _ _ => cases h

/-! ### Runs after a completion -/

variable {last : Completion} {laterMs : UInt64}

theorem Completion.Holds.anti (h : last.Holds laterMs) (hle : nowMs ≤ laterMs) :
    last.Holds nowMs :=
  ⟨UInt64.lt_of_le_of_lt hle h.1, h.2⟩

theorem Completion.Covers.anti (h : last.Covers laterMs) (hle : nowMs ≤ laterMs) :
    last.Covers nowMs :=
  h.imp (UInt64.le_trans hle) fun hh => hh.anti hle

/-- **The invariant of a run after a completion**: the floor of the scope is that of its last
completion, or that covers the time no more, and the inventory is held, or expired or
withdrawn. -/
structure Records (scope : InventoryScope) (last : Completion) (nowMs : UInt64)
    (a : ModelInventoryAssembler) : Prop where
  unblocked : a.blockedOrigins.contains scope.originSite = false
  floor : a.revisionFloor[scope]? = some last.floor ∨
    a.revisionFloor[scope]? = none ∧ ¬ last.Covers nowMs
  complete : (∃ inventory, a.complete[scope]? = some inventory ∧
      inventory.expiresAtMs = last.expiresAtMs ∧ last.withdrawn = false) ∨
    a.complete[scope]? = none ∧ ¬ last.Holds nowMs

theorem records_completed {inventory : ModelInventory}
    (h : a.answer c p = .ok (.complete inventory)) :
    Records (scopeOf p.1) ⟨p.1.frame.inventoryRevision, p.2, inventory.expiresAtMs, false⟩ p.2
      (a.deliver c p) := by
  obtain ⟨hfl, hcm, hun, -⟩ := deliver_completes h
  exact ⟨hun, .inl hfl, .inl ⟨inventory, hcm, rfl, rfl⟩⟩

section

variable (h : Records scope last nowMs a)
include h

theorem Records.mono (hle : nowMs ≤ laterMs) : Records scope last laterMs a where
  unblocked := h.unblocked
  floor := h.floor.imp_right (And.imp_right fun hn hc => hn (hc.anti hle))
  complete := h.complete.imp_right (And.imp_right fun hn hh => hn (hh.anti hle))

theorem Records.fresh_iff :
    a.complete[scope]?.any (ModelInventory.fresh nowMs) = true ↔ last.Holds nowMs := by
  rcases h.complete with ⟨inventory, hcm, hex, hwd⟩ | ⟨hcm, hn⟩
  · rw [hcm, any_some, ModelInventory.fresh, decide_eq_true_eq, hex, Completion.Holds,
      and_iff_left hwd]
  · rw [hcm, any_none]
    exact iff_of_false Bool.false_ne_true hn

/-- Pruning keeps the floor exactly while the last completion covers the time. -/
theorem Records.floor_prune :
    (a.prune nowMs).revisionFloor[scope]? = some last.floor ∧ last.Covers nowMs ∨
      (a.prune nowMs).revisionFloor[scope]? = none ∧ ¬ last.Covers nowMs := by
  rw [revisionFloor_prune]
  rcases h.floor with hfl | ⟨hfl, hn⟩
  · have hkp : (decide (nowMs ≤ last.floor.retainUntilMs) ||
        a.complete[scope]?.any (ModelInventory.fresh nowMs)) = true ↔ last.Covers nowMs := by
      rw [Bool.or_eq_true, decide_eq_true_eq, h.fresh_iff]
      exact Iff.rfl
    rw [hfl, filter_some]
    split_ifs with hcv
    · exact .inl ⟨rfl, hkp.mp hcv⟩
    · exact .inr ⟨rfl, fun hc => hcv (hkp.mpr hc)⟩
  · rw [hfl]
    exact .inr ⟨rfl, hn⟩

theorem Records.prune : Records scope last nowMs (a.prune nowMs) where
  unblocked := blockedOrigins_prune h.unblocked
  floor := h.floor_prune.imp And.left id
  complete := by
    rw [complete_prune]
    rcases h.complete with ⟨inventory, hcm, hex, hwd⟩ | ⟨hcm, hn⟩
    · rw [hcm, filter_some]
      split_ifs with hfr
      · exact .inl ⟨inventory, rfl, hex, hwd⟩
      · exact .inr ⟨rfl, fun hh => hfr (decide_eq_true (hex ▸ hh.1))⟩
    · rw [hcm]
      exact .inr ⟨rfl, hn⟩

theorem Records.deliver (hle : nowMs ≤ p.2) (hrm : a.LeavesRoom c scope.originSite p)
    (hls : scopeOf p.1 = scope → ∀ inventory, a.answer c p ≠ .ok (.complete inventory)) :
    Records scope last p.2 (a.deliver c p) := by
  obtain ⟨hfl, hcm⟩ := deliver_keeps hrm hls
  have hpr := (h.mono hle).prune
  refine ⟨blockedOrigins_deliver h.unblocked hrm, ?_, ?_⟩
  · rw [hfl]
    exact hpr.floor
  · rw [hcm]
    exact hpr.complete

theorem Records.withdraw :
    Records scope { last with withdrawn := true } nowMs (a.withdrawProvider scope) where
  unblocked := h.unblocked
  floor := by
    refine h.floor.imp_right (And.imp_right fun hn hc => hn (.inl ?_))
    rcases hc with hd | ⟨-, hw⟩
    · exact hd
    · cases hw
  complete := by
    rw [complete_withdrawProvider, if_pos rfl]
    exact .inr ⟨rfl, fun hh => Bool.false_ne_true hh.2.symm⟩

/-- **One operation** keeps the record, with the completion it may be. -/
theorem Records.step {op : InventoryOp} (hle : nowMs ≤ op.timeMs) (hop : Unblocking c scope a op) :
    Records scope (lastAfter c scope a last op) op.timeMs (a.step c op) := by
  cases op with
  | push frame t =>
    rw [lastAfter]
    split
    · next inventory han =>
      split_ifs with hsc
      · subst hsc
        exact records_completed han
      · exact h.deliver hle hop fun heq => absurd heq hsc
    · next hnc => exact h.deliver hle hop fun _ inventory han => hnc inventory han
  | withdrawProvider withdrawn t =>
    rw [lastAfter, ModelInventoryAssembler.step]
    split_ifs with hsc
    · subst hsc
      exact (h.mono hle).withdraw
    · refine ⟨h.unblocked, (h.mono hle).floor, ?_⟩
      rw [complete_withdrawProvider, if_neg hsc]
      exact (h.mono hle).complete

/-- **A run** keeps it, up to any time that is not before its operations. -/
theorem Records.run (hops : Along (ModelInventoryAssembler.step c) (Unblocking c scope) a ops)
    (htimes : ((nowMs :: ops.map InventoryOp.timeMs) ++ [laterMs]).Pairwise (· ≤ ·)) :
    Records scope (lastCompletion c scope a last ops) laterMs
      (Run.run (ModelInventoryAssembler.step c) a ops) := by
  induction ops generalizing a last nowMs with
  | nil => exact h.mono (List.rel_of_pairwise_cons htimes (by simp))
  | cons op ops ih =>
    have hle : nowMs ≤ op.timeMs := List.rel_of_pairwise_cons htimes (by simp)
    exact ih (h.step hle hops.1) hops.2 htimes.of_cons

end

/-! ### Replays -/

/-- **When the completed revisions of a scope refuse a frame.**  A valid frame is stale exactly if
its revision is at most that of the last completion, and this is less than a replay window ago or
its inventory is neither withdrawn nor expired.  A frame signed no later than the last completion,
up to the tolerated skew, is only fresh within that window. -/
theorem replay_refused_iff {inventory : ModelInventory}
    (hcompletes : a.answer c p = .ok (.complete inventory))
    (hops : Along (step c) (Unblocking c (scopeOf p.1)) (a.deliver c p) ops)
    {now : Clock} (htimes : ((p.2 :: ops.map InventoryOp.timeMs) ++ [wallMs now]).Pairwise (· ≤ ·))
    {frame : ModelInventoryBroadcast} (hscope : scopeOf frame = scopeOf p.1)
    (hvalid : validateFrame frame.frame (wallMs now) = .ok ()) :
    let last := lastCompletion c (scopeOf p.1) (a.deliver c p)
      ⟨p.1.frame.inventoryRevision, p.2, inventory.expiresAtMs, false⟩ ops
    ((run (step c) (a.deliver c p) ops).answer c (frame, wallMs now) = .error .staleRevision ↔
      frame.frame.inventoryRevision ≤ last.revision ∧
        (wallMs now ≤ replayDeadline last.atMs ∨
          (wallMs now < last.expiresAtMs ∧ last.withdrawn = false))) ∧
    ∀ signedAtMs, withinFreshnessWindow now signedAtMs = true →
      signedAtMs ≤ satAdd last.atMs maxClockSkewAheadMs → wallMs now ≤ replayDeadline last.atMs := by
  intro last
  have hrec : Records (scopeOf p.1) last (wallMs now) (run (step c) (a.deliver c p) ops) :=
    (records_completed hcompletes).run hops htimes
  have hun : ((run (step c) (a.deliver c p) ops).prune (wallMs now)).blockedOrigins.contains
      frame.originSite = false := by
    have horigin : frame.originSite = (scopeOf p.1).originSite :=
      congrArg InventoryScope.originSite hscope
    rw [horigin]
    exact hrec.prune.unblocked
  have hch := checkFrame_of_valid hvalid hun (hscope ▸ (deliver_completes hcompletes).2.2.2)
  rw [hscope] at hch
  refine ⟨?_, fun signedAtMs hfr hsg => ?_⟩
  · rcases hrec.floor_prune with ⟨hfl, hcv⟩ | ⟨hfl, hcv⟩
    · rw [hfl, any_some] at hch
      constructor
      · intro hst
        refine ⟨?_, hcv⟩
        by_contra hlt
        rw [checkFrame_of_stale hst, if_neg (by rwa [decide_eq_true_eq])] at hch
        cases hch
      · rintro ⟨hle, -⟩
        unfold answer
        rw [push_of_refused (hch.trans (if_pos (decide_eq_true hle)))]
    · rw [hfl, any_none, if_neg Bool.false_ne_true] at hch
      refine iff_of_false (fun hst => ?_) fun h => hcv h.2
      rw [checkFrame_of_stale hst] at hch
      cases hch
  · rw [withinFreshnessWindow, Bool.and_eq_true, decide_eq_true_eq] at hfr
    have hage := hfr.1
    have hlt := (wallMs now).toNat_lt
    simp only [UInt64.le_iff_toNat_le, toNat_satSub, toNat_satAdd, replayDeadline] at hage hsg ⊢
    simp only [maxBroadcastAgeMs, maxClockSkewAheadMs, wordMax, UInt64.reduceToNat] at hage hsg ⊢
    omega

/-- An empty inventory that is valid for a long time. -/
def emptyInventory : ModelInventory := ⟨"east", "grid", "net", "p1", "uid", 1, 10000000, []⟩

def emptyFrame (signedAtMs : UInt64) : ModelInventoryBroadcast where
  originSite := "east"
  gridId := "grid"
  frame := { emptyInventory.frameAt crypto 0 [] with signedAtMs := some signedAtMs }

/-- The inventory is withdrawn and replayed five minutes after it was completed. -/
theorem replay_refused_iff_five_minutes :
    let ops : List InventoryOp := [.withdrawProvider (.fromInventory emptyInventory) 1200000]
    (run (step crypto) (deliver crypto {} (emptyFrame 1000000, 1000000))
      ops).answer crypto (emptyFrame 1200000, wallMs 1300000000000) =
        .error .staleRevision := by
  intro ops
  have hcm : ({} : ModelInventoryAssembler).answer crypto
      (emptyFrame 1000000, 1000000) = .ok (.complete emptyInventory) := by
    decide +kernel
  have hops : Along (step crypto)
      (Unblocking crypto (scopeOf (emptyFrame 1000000)))
      (deliver crypto {} (emptyFrame 1000000, 1000000)) ops := ⟨trivial, trivial⟩
  have htm : (((1000000 : UInt64) :: ops.map InventoryOp.timeMs) ++
      [wallMs 1300000000000]).Pairwise (· ≤ ·) := by
    decide
  have hsc : scopeOf (emptyFrame 1200000) = scopeOf (emptyFrame 1000000) := rfl
  exact (replay_refused_iff hcm hops htm hsc (by decide)).1.mpr ⟨by decide, .inl (by decide)⟩

/-- The inventory is completed, withdrawn later than one replay window after that, and its
frame, signed again at the withdrawal, completes it anew. -/
theorem withdrawn_inventory_replayed :
    let a := deliver crypto {} (emptyFrame 1000000, 1000000)
    let ops : List InventoryOp := [.withdrawProvider (.fromInventory emptyInventory) 1400000]
    ({} : ModelInventoryAssembler).answer crypto (emptyFrame 1000000, 1000000) =
        .ok (.complete emptyInventory) ∧
      Along (step crypto)
        (Unblocking crypto (.fromInventory emptyInventory)) a ops ∧
      withinFreshnessWindow 1400001000000 1400000 = true ∧
      (1400000 : UInt64) ≤ satAdd 1400000 maxClockSkewAheadMs ∧
      (run (step crypto) a ops).answer crypto
        (emptyFrame 1400000, wallMs 1400001000000) = .ok (.complete emptyInventory) := by
  exact ⟨by decide +kernel, ⟨trivial, trivial⟩, by decide, by decide, by decide +kernel⟩

end ModelInventoryAssembler

end PraxisGrid
