/-
PraxisGrid/Swim/Assembly.lean

The frames of an inventory reassemble, in whatever order they arrive.

Along a run of pushes the assembly of an inventory holds exactly the positions seen so far
(`Assembling`), whatever is pushed of other provider instances, until the last missing piece
completes it and the inventory is held (`Assembled`).  One step keeps or completes it
(`Assembling.deliver_piece`, `Assembling.deliver_other`), so a run does (`assembling_run`).
-/
import Mathlib.Data.List.Induction
import PraxisGrid.Lib.Run
import PraxisGrid.Swim.Pieces

namespace PraxisGrid

open Std OrdMap Bincode Saturate Run Scenario InventoryScope

/-! ### One push -/

namespace ModelInventoryAssembler

/-- A frame and when it is pushed. -/
abbrev Push := ModelInventoryBroadcast × UInt64

/-- One push of a frame, at a time. -/
def deliver (c : Crypto) (a : ModelInventoryAssembler) (p : Push) : ModelInventoryAssembler :=
  (a.push c p.1 p.2).2

def answer (c : Crypto) (a : ModelInventoryAssembler) (p : Push) :
    Except InventoryFrameError InventoryAssemblyResult :=
  (a.push c p.1 p.2).1

/-- If a push is of this origin, its limits leave room for it. -/
def LeavesRoom (c : Crypto) (o : String) (a : ModelInventoryAssembler) (p : Push) : Prop :=
  p.1.originSite = o → (a.prune p.2).HasRoom c p.1 p.2

variable {c : Crypto} {a a₀ : ModelInventoryAssembler} {o : String} {nowMs untilMs : UInt64}
  {p : Push} {inventory : ModelInventory} {l l' : List Push} {b : ModelInventoryBroadcast}
  {index : UInt16} {old : Option ModelInventory}

theorem blockedOrigins_prune (h : a.blockedOrigins.contains o = false) :
    (a.prune nowMs).blockedOrigins.contains o = false := by
  rw [ExtTreeMap.contains_eq_isSome_getElem?] at h ⊢
  simp only [prune, getElem?_retain]
  rcases hbl : a.blockedOrigins[o]? with - | untilMs
  · rfl
  · rw [hbl] at h
    cases h

/-- An origin stays unblocked while its limits leave room. -/
theorem blockedOrigins_deliver (h : a.blockedOrigins.contains o = false)
    (hrm : a.LeavesRoom c o p) : (a.deliver c p).blockedOrigins.contains o = false := by
  have hpr : (a.prune p.2).blockedOrigins.contains o = false := blockedOrigins_prune h
  have hbl : ∀ (a : ModelInventoryAssembler), a.blockedOrigins.contains o = false →
      p.1.originSite ≠ o →
      (a.blockOrigin p.1.originSite p.2).blockedOrigins.contains o = false := by
    intro a ha hne
    rw [ExtTreeMap.contains_eq_isSome_getElem?] at ha ⊢
    simp only [blockOrigin, removeOrigin, getElem?_insert, getElem?_erase, if_neg hne]
    exact ha
  have hout := push_outcome c a p.1 p.2
  unfold deliver
  generalize a.push c p.1 p.2 = result at hout ⊢
  cases hout with
  | refused _ => exact hpr
  | full hch hhl hfl =>
    exact hbl _ hpr fun heq => Nat.not_le_of_lt ((hrm heq).frames hch hhl) hfl
  | conflicting _ _ => exact hpr
  | retained _ _ => exact hpr
  | invalid _ _ _ => exact hpr
  | excess hret hwh hvl hex =>
    exact hbl _ hpr fun heq =>
      Bool.false_ne_true (hex.symm.trans ((hrm heq).inventory _ hret hwh hvl))
  | complete _ _ _ _ => exact hpr

/-- There was room for a frame that was retained. -/
theorem leavesRoom_of_ok {result : InventoryAssemblyResult} (h : a.answer c p = .ok result) :
    a.LeavesRoom c o p := by
  intro _
  have hout := push_outcome c a p.1 p.2
  unfold answer at h
  generalize a.push c p.1 p.2 = pushed at hout h
  cases hout with
  | retained hret hms =>
    refine ⟨fun _ hhl => hret.room hhl, fun other hot hwh _ => ?_⟩
    obtain rfl := Except.ok.inj (hret.inserted.symm.trans hot.inserted)
    exact absurd hwh hms
  | complete hret _ _ hrm =>
    refine ⟨fun _ hhl => hret.room hhl, fun other hot _ _ => ?_⟩
    obtain rfl := Except.ok.inj (hret.inserted.symm.trans hot.inserted)
    exact hrm
  | refused _ => cases h
  | full _ _ _ => cases h
  | conflicting _ _ => cases h
  | invalid _ _ _ => cases h
  | excess _ _ _ _ => cases h

theorem checkFrame_pieceOf (hfr : inventory.Framed c) (hpc : PieceOf c inventory b)
    (hfh : nowMs < inventory.expiresAtMs)
    (hun : a.blockedOrigins.contains inventory.originSite = false) :
    a.checkFrame b nowMs =
      if a.revisionFloor[fromInventory inventory]?.any
          fun held => inventory.revision ≤ held.revision then .error .staleRevision
      else .ok () := by
  have horig : b.originSite = inventory.originSite :=
    congrArg originSite hpc.scope
  rw [checkFrame_of_valid (hpc.validateFrame_eq_ok hfr hfh), hpc.scope,
    hpc.revision]
  · rw [horig]
    exact hun
  · rw [hpc.scope]
    exact hfr.scope

/-! ### Runs of pushes -/

/-- Some push carries the piece at this position. -/
def Seen (inventory : ModelInventory) (l : List Push) (index : UInt16) : Prop :=
  ∃ p ∈ l, scopeOf p.1 = fromInventory inventory ∧ p.1.frame.frameIndex = index

/-- Every piece was pushed. -/
def AllSeen (inventory : ModelInventory) (l : List Push) : Prop :=
  ∀ index : UInt16, index.toNat < inventory.frameNames.length → Seen inventory l index

theorem seen_append :
    Seen inventory (l ++ l') index ↔ Seen inventory l index ∨ Seen inventory l' index := by
  simp only [Seen, List.mem_append, or_and_right, exists_or]

theorem seen_singleton :
    Seen inventory [p] index ↔
      scopeOf p.1 = fromInventory inventory ∧ p.1.frame.frameIndex = index := by
  simp [Seen]

/-- The pushes of the scope are pieces of the inventory, and neither the inventory nor its
assembly expires by a time that no push is later than. -/
structure Timely (c : Crypto) (inventory : ModelInventory) (l : List Push)
    (untilMs : UInt64) : Prop where
  piece : ∀ p ∈ l, scopeOf p.1 = fromInventory inventory → PieceOf c inventory p.1
  before : ∀ p ∈ l, p.2 ≤ untilMs
  lifetime : ∀ p ∈ l, scopeOf p.1 = fromInventory inventory →
    satSub untilMs p.2 ≤ maxBroadcastAgeMs
  fresh : untilMs < inventory.expiresAtMs

/-- **The invariant of a partial assembly**: it is part of the inventory and holds exactly the
positions seen.  The inventory the scope had before is `old`. -/
structure Assembling (c : Crypto) (inventory : ModelInventory) (l : List Push)
    (old : Option ModelInventory) (a : ModelInventoryAssembler) : Prop where
  unblocked : a.blockedOrigins.contains inventory.originSite = false
  floor : ∀ held : RevisionFloor,
    a.revisionFloor[fromInventory inventory]? = some held →
      held.revision < inventory.revision
  pending : (a.pending[(⟨.fromInventory inventory, inventory.revision⟩ : InventoryKey)]? = none ∧
      ∀ index, ¬ Seen inventory l index) ∨
    ∃ pending,
      a.pending[(⟨.fromInventory inventory, inventory.revision⟩ : InventoryKey)]? = some pending ∧
      PartOf c inventory pending ∧
      (∃ p ∈ l, scopeOf p.1 = .fromInventory inventory ∧ pending.startedAtMs = p.2) ∧
      ∀ index, index ∈ pending.frames ↔ Seen inventory l index
  complete : a.complete[fromInventory inventory]? = old

/-- The inventory is held, and its revision refuses the ones up to it. -/
structure Assembled (inventory : ModelInventory) (a : ModelInventoryAssembler) : Prop where
  unblocked : a.blockedOrigins.contains inventory.originSite = false
  floor : ∃ held : RevisionFloor,
    a.revisionFloor[fromInventory inventory]? = some held ∧
      held.revision = inventory.revision
  complete : a.complete[fromInventory inventory]? = some inventory.canonical

theorem Assembling.prune (h : Assembling c inventory l old a)
    (htm : Timely c inventory l untilMs) (hle : nowMs ≤ untilMs) :
    Assembling c inventory l (old.filter (ModelInventory.fresh nowMs)) (a.prune nowMs) where
  unblocked := blockedOrigins_prune h.unblocked
  floor held hhl := by
    rw [revisionFloor_prune] at hhl
    exact h.floor held (Option.filter_eq_some_iff.mp hhl).1
  pending := by
    rw [pending_prune]
    rcases h.pending with ⟨hnn, hsn⟩ | ⟨pending, hpn, hpr, ⟨p, hp, hsc, hst⟩, hsn⟩
    · left
      rw [hnn]
      exact ⟨rfl, hsn⟩
    · right
      refine ⟨pending, ?_, hpr, ⟨p, hp, hsc, hst⟩, hsn⟩
      have hfr := htm.fresh
      have hlf := htm.lifetime p hp hsc
      rw [hpn, Option.filter_eq_some_iff, PendingInventory.fresh, Bool.and_eq_true,
        decide_eq_true_eq, decide_eq_true_eq, hpr.expires, hst]
      simp only [UInt64.lt_iff_toNat_lt, UInt64.le_iff_toNat_le, toNat_satSub] at hfr hlf hle ⊢
      exact ⟨trivial, by omega, by omega⟩
  complete := by rw [complete_prune, h.complete]

theorem Assembled.prune (h : Assembled inventory a) (hfr : nowMs < inventory.expiresAtMs) :
    Assembled inventory (a.prune nowMs) := by
  have hkp : inventory.canonical.fresh nowMs = true := decide_eq_true hfr
  obtain ⟨held, hhl, hrev⟩ := h.floor
  refine ⟨blockedOrigins_prune h.unblocked, ⟨held, ?_, hrev⟩, ?_⟩
  · rw [revisionFloor_prune, h.complete, Option.any_some, hkp, hhl]
    simp
  · rw [complete_prune, h.complete, Option.filter_some_pos hkp]

/-- A frame of another provider instance leaves what pruning left. -/
theorem untouched_deliver (hne : scopeOf p.1 ≠ .fromInventory inventory)
    (hrm : a.LeavesRoom c inventory.originSite p) :
    (a.prune p.2).Untouched (a.deliver c p) (.fromInventory inventory) :=
  (push_outcome c a p.1 p.2).untouched (Ne.symm hne) fun heq => hrm heq.symm

theorem Assembling.deliver_other (h : Assembling c inventory l old a)
    (htm : Timely c inventory l untilMs) (hle : p.2 ≤ untilMs)
    (hne : scopeOf p.1 ≠ .fromInventory inventory) (hrm : a.LeavesRoom c inventory.originSite p) :
    Assembling c inventory (l ++ [p]) (old.filter (ModelInventory.fresh p.2)) (a.deliver c p) := by
  have hpr := h.prune htm hle
  have hun := untouched_deliver hne hrm
  have hsn : ∀ index, Seen inventory (l ++ [p]) index ↔ Seen inventory l index := by
    intro index
    rw [seen_append, seen_singleton]
    simp [hne]
  refine ⟨blockedOrigins_deliver h.unblocked hrm, ?_, ?_, ?_⟩
  · rw [hun.floor]
    exact hpr.floor
  · simp only [hun.pending, hsn]
    rcases hpr.pending with hnn | ⟨pending, hpn, hpt, ⟨q, hq, hsc⟩, hin⟩
    · exact .inl hnn
    · exact .inr ⟨pending, hpn, hpt, ⟨q, List.mem_append_left _ hq, hsc⟩, hin⟩
  · rw [hun.complete, hpr.complete]

theorem Assembled.deliver_other (h : Assembled inventory a) (hfr : p.2 < inventory.expiresAtMs)
    (hne : scopeOf p.1 ≠ .fromInventory inventory)
    (hrm : a.LeavesRoom c inventory.originSite p) : Assembled inventory (a.deliver c p) := by
  have hpr := h.prune hfr
  have hun := untouched_deliver hne hrm
  refine ⟨blockedOrigins_deliver h.unblocked hrm, ?_, ?_⟩
  · rw [hun.floor]
    exact hpr.floor
  · rw [hun.complete, hpr.complete]

/-- **Once the inventory is held, its frames are stale.** -/
theorem Assembled.push_piece (h : Assembled inventory a) (hfd : inventory.Framed c)
    (hpc : PieceOf c inventory b) (hfr : nowMs < inventory.expiresAtMs) :
    a.push c b nowMs = (.error .staleRevision, a.prune nowMs) := by
  have hpr := h.prune hfr
  obtain ⟨held, hhl, hrev⟩ := hpr.floor
  apply push_of_refused
  rw [checkFrame_pieceOf hfd hpc hfr hpr.unblocked, hhl, Option.any_some, hrev,
    decide_eq_true (UInt64.le_refl _)]
  rfl

theorem Assembling.insert (h : Assembling c inventory l old a) (hpc : PieceOf c inventory p.1) :
    ∃ pending, (a.assemblyOf p.1 p.2).insert p.1.frame = .ok pending ∧
      PartOf c inventory pending ∧
      (∃ q ∈ l ++ [p], scopeOf q.1 = .fromInventory inventory ∧ pending.startedAtMs = q.2) ∧
      ∀ index, index ∈ pending.frames ↔ Seen inventory (l ++ [p]) index := by
  have hsn : ∀ index, Seen inventory (l ++ [p]) index ↔
      p.1.frame.frameIndex = index ∨ Seen inventory l index := by
    intro index
    rw [seen_append, seen_singleton, or_comm]
    simp [hpc.scope]
  unfold assemblyOf
  rw [hpc.keyOf_eq]
  rcases h.pending with ⟨hnn, hnt⟩ | ⟨held, hhl, hpr, ⟨q, hq, hsc, hsd⟩, hin⟩
  · -- the first piece starts the assembly
    obtain ⟨pending, hins, hpr, hst, hin⟩ :=
      (PartOf.started hpc p.2).insert hpc
    rw [hnn]
    refine ⟨pending, hins, hpr, ⟨p, by simp, hpc.scope, hst⟩, fun index => ?_⟩
    have hem : index ∉ (started p.1 p.2).frames := ExtTreeMap.not_mem_empty
    rw [hin, hsn]
    simp [hem, hnt index]
  · obtain ⟨pending, hins, hpr, hst, hin'⟩ := hpr.insert hpc
    rw [hhl]
    refine ⟨pending, hins, hpr, ⟨q, List.mem_append_left _ hq, hsc, hst.trans hsd⟩,
      fun index => ?_⟩
    rw [hin', hsn, hin]

/-- **A piece of an assembly.**  It completes the inventory if it is the last one missing, and
is retained otherwise. -/
theorem Assembling.deliver_piece (h : Assembling c inventory l old a) (hfr : inventory.Framed c)
    (htm : Timely c inventory l untilMs) (hle : p.2 ≤ untilMs)
    (hpc : PieceOf c inventory p.1) (hrm : a.LeavesRoom c inventory.originSite p) :
    (AllSeen inventory (l ++ [p]) ∧ a.answer c p = .ok (.complete inventory.canonical) ∧
      Assembled inventory (a.deliver c p)) ∨
    (¬ AllSeen inventory (l ++ [p]) ∧
      (a.answer c p = .ok .duplicate ∨ a.answer c p = .ok .incomplete) ∧
      Assembling c inventory (l ++ [p]) (old.filter (ModelInventory.fresh p.2))
        (a.deliver c p)) := by
  have hun := blockedOrigins_deliver h.unblocked hrm
  have hpr := h.prune htm hle
  have hfh : p.2 < inventory.expiresAtMs := UInt64.lt_of_le_of_lt hle htm.fresh
  have hch : (a.prune p.2).checkFrame p.1 p.2 = .ok () := by
    rw [checkFrame_pieceOf hfr hpc hfh hpr.unblocked, if_neg]
    rw [Option.any_eq_true]
    rintro ⟨held, hhl, hle⟩
    exact UInt64.not_le.mpr (hpr.floor held hhl) (decide_eq_true_eq.mp hle)
  obtain ⟨pending, hins, hpt, hst, hin⟩ := hpr.insert hpc
  have hwh : pending.frames.size = pending.frameCount.toNat ↔ AllSeen inventory (l ++ [p]) := by
    rw [hpt.size_eq_iff hfr]
    simp only [hin, AllSeen]
  have hdn : pending.frames.size = pending.frameCount.toNat →
      completed (keyOf p.1) pending = inventory.canonical :=
    fun hsz => hpt.completed_eq hsz hpc.scope hpc.revision
  have horig : p.1.originSite = inventory.originSite :=
    congrArg originSite hpc.scope
  have hcap := hrm horig
  have hout := push_outcome c a p.1 p.2
  unfold answer deliver at *
  generalize a.push c p.1 p.2 = result at hout hun ⊢
  cases hout with
  | refused href =>
    rw [hch] at href
    cases href
  | full hch hhl hfl => exact absurd (hcap.frames hch hhl) (Nat.not_lt_of_le hfl)
  | conflicting _ hcn =>
    rw [hins] at hcn
    cases hcn
  | retained hret hms =>
    obtain rfl := Except.ok.inj (hins.symm.trans hret.inserted)
    right
    refine ⟨fun hall => hms (hwh.mpr hall), ?_, hun, hpr.floor, ?_,
      hpr.complete⟩
    · split_ifs
      · exact .inl rfl
      · exact .inr rfl
    · right
      refine ⟨pending, ?_, hpt, hst, hin⟩
      rw [← hpc.keyOf_eq, getElem?_insert, if_pos rfl]
  | invalid hret hsz hinv =>
    obtain rfl := Except.ok.inj (hins.symm.trans hret.inserted)
    rw [hdn hsz, hpt.digest, hfr.valid] at hinv
    cases hinv
  | excess hret hwh hvl hex =>
    rw [hcap.inventory _ hret hwh hvl] at hex
    cases hex
  | complete hret hsz _ _ =>
    obtain rfl := Except.ok.inj (hins.symm.trans hret.inserted)
    left
    refine ⟨hwh.mp hsz, ?_, hun,
      ⟨⟨_, replayDeadline p.2⟩, ?_, hpc.revision⟩, ?_⟩
    · rw [hdn hsz]
    · rw [revisionFloor_published, if_pos hpc.scope]
    · rw [complete_published, if_pos hpc.scope, hdn hsz]

theorem Timely.left (h : Timely c inventory (l ++ l') untilMs) : Timely c inventory l untilMs where
  piece q hq := h.piece q (List.mem_append_left _ hq)
  before q hq := h.before q (List.mem_append_left _ hq)
  lifetime q hq := h.lifetime q (List.mem_append_left _ hq)
  fresh := h.fresh

theorem AllSeen.append (h : AllSeen inventory l) :
    AllSeen inventory (l ++ l') :=
  fun index hin => seen_append.mpr (.inl (h index hin))

theorem not_allSeen_nil : ¬ AllSeen inventory [] := by
  intro h
  have hpos : 0 < inventory.frameNames.length := by
    rw [ModelInventory.length_frameNames]
    omega
  obtain ⟨p, hp, -⟩ := h 0 hpos
  cases hp

/-- **Along a run**, the inventory is being assembled until all its pieces were seen, and held
from then on. -/
theorem assembling_run (hfr : inventory.Framed c) (hst : Assembling c inventory [] old a)
    (htm : Timely c inventory l untilMs)
    (hrm : Along (deliver c) (LeavesRoom c inventory.originSite) a l) :
    (¬ AllSeen inventory l →
      Assembling c inventory l (old.filter fun i => l.all fun p => i.fresh p.2)
        (run (deliver c) a l)) ∧
    (AllSeen inventory l → Assembled inventory (run (deliver c) a l)) := by
  induction l using List.reverseRecOn with
  | nil =>
    refine ⟨fun _ => ?_, fun h => absurd h not_allSeen_nil⟩
    have hold : (old.filter fun i : ModelInventory => ([] : List Push).all
        fun p => i.fresh p.2) = old := by
      cases old <;> rfl
    rw [hold]
    exact hst
  | append_singleton l p ih =>
    rw [along_append] at hrm
    obtain ⟨hpre, haf⟩ := ih htm.left hrm.1
    have hrm' : (run (deliver c) a l).LeavesRoom c inventory.originSite p := hrm.2.1
    have hle : p.2 ≤ untilMs := htm.before p (by simp)
    have hfh : p.2 < inventory.expiresAtMs := UInt64.lt_of_le_of_lt hle htm.fresh
    have hold : (old.filter fun i => (l ++ [p]).all fun q => i.fresh q.2) =
        (old.filter fun i => l.all fun q => i.fresh q.2).filter (ModelInventory.fresh p.2) := by
      rw [Option.filter_filter]
      apply congrArg (fun keep => Option.filter keep old)
      funext i
      simp
    rw [run_append, run_cons, run_nil, hold]
    by_cases hall : AllSeen inventory l
    · -- the inventory is held: its pieces are stale, and other frames leave it
      refine ⟨fun hnot => absurd hall.append hnot, fun _ => ?_⟩
      by_cases hsc : scopeOf p.1 = .fromInventory inventory
      · show Assembled inventory ((run (deliver c) a l).push c p.1 p.2).2
        rw [(haf hall).push_piece hfr (htm.piece p (by simp) hsc) hfh]
        exact (haf hall).prune hfh
      · exact (haf hall).deliver_other hfh hsc hrm'
    · by_cases hsc : scopeOf p.1 = .fromInventory inventory
      · rcases (hpre hall).deliver_piece hfr htm.left hle
          (htm.piece p (by simp) hsc) hrm' with ⟨hdn, -, h⟩ | ⟨hms, -, h⟩
        · exact ⟨fun hnot => absurd hdn hnot, fun _ => h⟩
        · exact ⟨fun _ => h, fun hdn => absurd hdn hms⟩
      · refine ⟨fun _ => (hpre hall).deliver_other htm.left hle hsc hrm', fun h => ?_⟩
        -- a frame of another instance carries no piece
        refine absurd (fun index hin => ?_) hall
        rcases seen_append.mp (h index hin) with hsn | hsn
        · exact hsn
        · exact absurd (seen_singleton.mp hsn).1 hsc

/-! ### Deliveries in any order -/

/-- The scope of an inventory has no pending and no completed revision at or above it, and its
origin is not blocked. -/
structure Ready (inventory : ModelInventory) (a : ModelInventoryAssembler) : Prop where
  pending : ∀ revision : UInt64, inventory.revision ≤ revision →
    a.pending[(⟨.fromInventory inventory, revision⟩ : InventoryKey)]? = none
  completed : ∀ held : RevisionFloor,
    a.revisionFloor[fromInventory inventory]? = some held →
      held.revision < inventory.revision
  unblocked : a.blockedOrigins.contains inventory.originSite = false

/-- The frames of an inventory, delivered in any order and any number of times among frames of
other scopes: in time, and with room for the frames of the origin. -/
structure Delivery (c : Crypto) (inventory : ModelInventory) (frames : List ModelInventoryFrame)
    (a : ModelInventoryAssembler) (l : List Push) : Prop where
  carries : ∀ p ∈ l, scopeOf p.1 = .fromInventory inventory →
    ∃ frame ∈ frames, p.1.Carries inventory frame
  delivered : ∀ frame ∈ frames, ∃ p ∈ l, p.1.Carries inventory frame
  ordered : l.Pairwise fun p q => p.2 ≤ q.2
  fresh : ∀ p ∈ l, scopeOf p.1 = .fromInventory inventory → p.2 < inventory.expiresAtMs
  lifetime : ∀ p ∈ l, ∀ q ∈ l, scopeOf p.1 = .fromInventory inventory →
    scopeOf q.1 = .fromInventory inventory → satSub q.2 p.2 ≤ maxBroadcastAgeMs
  room : Along (deliver c) (LeavesRoom c inventory.originSite) a l

/-- The push carries the one frame that no push before it carries. -/
def LastMissing (inventory : ModelInventory) (frames : List ModelInventoryFrame)
    (l : List Push) (p : Push) : Prop :=
  ∃ frame ∈ frames, p.1.Carries inventory frame ∧ (∀ q ∈ l, ¬ q.1.Carries inventory frame) ∧
    ∀ other ∈ frames, other ≠ frame → ∃ q ∈ l, q.1.Carries inventory other

variable {frames : List ModelInventoryFrame} {l₁ l₂ : List Push}
  {frame : ModelInventoryFrame}

theorem Ready.assembling (h : Ready inventory a) :
    Assembling c inventory [] a.complete[fromInventory inventory]? a where
  unblocked := h.unblocked
  floor := h.completed
  pending := .inl ⟨h.pending _ (UInt64.le_refl _), fun _ ⟨_, hp, _⟩ => nomatch hp⟩
  complete := rfl

section

variable (hframes : inventory.frames c = .ok frames)
include hframes

theorem Delivery.timely (h : Delivery c inventory frames a (l₁ ++ p :: l₂))
    (hsc : scopeOf p.1 = .fromInventory inventory) : Timely c inventory l₁ p.2 where
  piece q hq hown := by
    obtain ⟨frame, hmem, hcar⟩ := h.carries q (List.mem_append_left _ hq) hown
    exact hcar.pieceOf hframes hmem
  before q hq := (List.pairwise_append.mp h.ordered).2.2 q hq p List.mem_cons_self
  lifetime q hq hown := h.lifetime q (List.mem_append_left _ hq) p (by simp) hown hsc
  fresh := h.fresh p (by simp) hsc

/-- **The answer to a push of the inventory**, by the pieces seen before it. -/
theorem Delivery.answer_eq (hrd : Ready inventory a)
    (h : Delivery c inventory frames a (l₁ ++ p :: l₂))
    (hsc : scopeOf p.1 = .fromInventory inventory) :
    (AllSeen inventory l₁ ∧ (run (deliver c) a l₁).answer c p = .error .staleRevision) ∨
    (¬ AllSeen inventory l₁ ∧ AllSeen inventory (l₁ ++ [p]) ∧
      (run (deliver c) a l₁).answer c p = .ok (.complete inventory.canonical)) ∨
    (¬ AllSeen inventory (l₁ ++ [p]) ∧ ((run (deliver c) a l₁).answer c p = .ok .duplicate ∨
      (run (deliver c) a l₁).answer c p = .ok .incomplete)) := by
  have hfr := (ModelInventory.frames_eq_ok.mp hframes).1
  have htm := h.timely hframes hsc
  obtain ⟨frame, hmem, hcar⟩ := h.carries p (by simp) hsc
  have hpc := hcar.pieceOf hframes hmem
  obtain ⟨hrm, hrm', -⟩ := along_append.mp h.room
  obtain ⟨hpre, haf⟩ := assembling_run hfr hrd.assembling htm hrm
  by_cases hall : AllSeen inventory l₁
  · left
    refine ⟨hall, ?_⟩
    unfold answer
    rw [(haf hall).push_piece hfr hpc htm.fresh]
  · right
    rcases (hpre hall).deliver_piece hfr htm (UInt64.le_refl _) hpc hrm' with
      ⟨hdn, han, -⟩ | ⟨hms, han, -⟩
    · exact .inl ⟨hall, hdn, han⟩
    · exact .inr ⟨hms, han⟩

theorem mem_frames_of_lt (hin : index.toNat < inventory.frameNames.length) :
    ∃ frame ∈ frames, frame.frameIndex = index := by
  obtain ⟨-, rfl⟩ := ModelInventory.frames_eq_ok.mp hframes
  refine ⟨_, List.mem_mapIdx.mpr ⟨index.toNat, hin, rfl⟩, ?_⟩
  show UInt16.ofNat index.toNat = index
  exact UInt16.ofNat_toNat

theorem eq_of_frameIndex {frame' : ModelInventoryFrame} (hmem : frame ∈ frames)
    (hmem' : frame' ∈ frames) (h : frame.frameIndex = frame'.frameIndex) :
    frame = frame' := by
  obtain ⟨hfr, rfl⟩ := ModelInventory.frames_eq_ok.mp hframes
  obtain ⟨i, hi, rfl⟩ := List.mem_mapIdx.mp hmem
  obtain ⟨j, hj, rfl⟩ := List.mem_mapIdx.mp hmem'
  have heq : UInt16.ofNat i = UInt16.ofNat j := h
  rw [← UInt16.toNat_inj, hfr.toNat_ofNat (Nat.le_of_lt hi),
    hfr.toNat_ofNat (Nat.le_of_lt hj)] at heq
  subst heq
  rfl

theorem seen_iff_carries (hl : ∀ p ∈ l, scopeOf p.1 = .fromInventory inventory →
      ∃ frame ∈ frames, p.1.Carries inventory frame) (hmem : frame ∈ frames) :
    Seen inventory l frame.frameIndex ↔ ∃ p ∈ l, p.1.Carries inventory frame := by
  constructor
  · rintro ⟨p, hp, hsc, hin⟩
    obtain ⟨frame', hmem', hcar⟩ := hl p hp hsc
    rw [eq_of_frameIndex hframes hmem hmem' (hin.symm.trans hcar.frameIndex_eq)]
    exact ⟨p, hp, hcar⟩
  · rintro ⟨p, hp, hcar⟩
    exact ⟨p, hp, (hcar.pieceOf hframes hmem).scope, hcar.frameIndex_eq⟩

theorem allSeen_iff_carries (hl : ∀ p ∈ l, scopeOf p.1 = .fromInventory inventory →
      ∃ frame ∈ frames, p.1.Carries inventory frame) :
    AllSeen inventory l ↔ ∀ frame ∈ frames, ∃ p ∈ l, p.1.Carries inventory frame := by
  constructor
  · intro h frame hmem
    rw [← seen_iff_carries hframes hl hmem]
    apply h
    obtain ⟨-, rfl⟩ := ModelInventory.frames_eq_ok.mp hframes
    obtain ⟨i, hi, rfl⟩ := List.mem_mapIdx.mp hmem
    show (UInt16.ofNat i).toNat < _
    rw [(ModelInventory.frames_eq_ok.mp hframes).1.toNat_ofNat (Nat.le_of_lt hi)]
    exact hi
  · intro h index hin
    obtain ⟨frame, hmem, rfl⟩ := mem_frames_of_lt hframes hin
    exact (seen_iff_carries hframes hl hmem).mpr (h frame hmem)

omit hframes in
/-- Some push is the first after which every piece was seen. -/
theorem AllSeen.exists_last (h : AllSeen inventory l) :
    ∃ l₁ p l₂, l = l₁ ++ p :: l₂ ∧ ¬ AllSeen inventory l₁ ∧ AllSeen inventory (l₁ ++ [p]) := by
  induction l using List.reverseRecOn with
  | nil => exact absurd h not_allSeen_nil
  | append_singleton l p ih =>
    by_cases hall : AllSeen inventory l
    · obtain ⟨l₁, q, l₂, rfl, hpre, haf⟩ := ih hall
      exact ⟨l₁, q, l₂ ++ [p], by simp, hpre, haf⟩
    · exact ⟨l, p, [], rfl, hall, h⟩

omit hframes in
theorem AllSeen.last_unique {p' : Push} {l₁' l₂' : List Push}
    (heq : l₁ ++ p :: l₂ = l₁' ++ p' :: l₂')
    (hpre : ¬ AllSeen inventory l₁) (haf : AllSeen inventory (l₁ ++ [p]))
    (hpre' : ¬ AllSeen inventory l₁') (haf' : AllSeen inventory (l₁' ++ [p'])) :
    l₁' = l₁ := by
  rcases List.append_eq_append_iff.mp heq with ⟨rest, rfl, hrs⟩ | ⟨rest, rfl, hrs⟩
  · cases rest with
    | nil => exact List.append_nil l₁
    | cons q rest =>
      -- the second push would come after all pieces were seen
      obtain ⟨rfl, -⟩ := List.cons.inj hrs
      refine absurd ?_ hpre'
      rw [List.append_cons]
      exact haf.append
  · cases rest with
    | nil => exact (List.append_nil l₁').symm
    | cons q rest =>
      obtain ⟨rfl, -⟩ := List.cons.inj hrs
      refine absurd ?_ hpre
      rw [List.append_cons]
      exact haf'.append

theorem lastMissing_of_allSeen (hl : ∀ q ∈ l ++ [p], scopeOf q.1 = .fromInventory inventory →
      ∃ frame ∈ frames, q.1.Carries inventory frame) (hpre : ¬ AllSeen inventory l)
    (haf : AllSeen inventory (l ++ [p])) :
    LastMissing inventory frames l p := by
  rw [allSeen_iff_carries hframes fun q hq => hl q (List.mem_append_left _ hq)] at hpre
  rw [allSeen_iff_carries hframes hl] at haf
  push Not at hpre
  obtain ⟨frame, hmem, hms⟩ := hpre
  have hcs : ∀ other ∈ frames, p.1.Carries inventory other ∨
      ∃ q ∈ l, q.1.Carries inventory other := by
    intro other hot
    obtain ⟨q, hq, hcar⟩ := haf other hot
    rcases List.mem_append.mp hq with hq | hq
    · exact .inr ⟨q, hq, hcar⟩
    · exact .inl (List.mem_singleton.mp hq ▸ hcar)
  have hp : p.1.Carries inventory frame := by
    rcases hcs frame hmem with hp | ⟨q, hq, hcar⟩
    · exact hp
    · exact absurd hcar (hms q hq)
  refine ⟨frame, hmem, hp, hms, fun other hot hne => ?_⟩
  rcases hcs other hot with hp' | hq
  · exact absurd (hp'.2.2.symm.trans hp.2.2) hne
  · exact hq

end

/-- **Inventory frames reassemble in any order.**  Exactly one push of the inventory is
answered `Complete`: the one that carries the last missing frame, and with the sorted names.
Until then the inventory the scope had before stays, and is dropped only once it expired. -/
theorem frames_reassemble (hframes : inventory.frames c = .ok frames) (hready : Ready inventory a)
    (hdelivery : Delivery c inventory frames a l) :
    ∃ l₁ p l₂, l = l₁ ++ p :: l₂ ∧ LastMissing inventory frames l₁ p ∧
      (run (deliver c) a l₁).answer c p = .ok (.complete inventory.canonical) ∧
      (∀ l₁' p' l₂' result, l = l₁' ++ p' :: l₂' → scopeOf p'.1 = .fromInventory inventory →
        (run (deliver c) a l₁').answer c p' = .ok (.complete result) → l₁' = l₁) ∧
      ∀ l₁' l₂', l₁ = l₁' ++ l₂' →
        (run (deliver c) a l₁').complete[fromInventory inventory]? =
          a.complete[fromInventory inventory]?.filter
            fun old => l₁'.all fun p => old.fresh p.2 := by
  have hfd := (ModelInventory.frames_eq_ok.mp hframes).1
  have hall : AllSeen inventory l :=
    (allSeen_iff_carries hframes hdelivery.carries).mpr hdelivery.delivered
  obtain ⟨l₁, p, l₂, rfl, hbf, haf⟩ := hall.exists_last
  have hcr : ∀ q ∈ l₁ ++ [p], scopeOf q.1 = .fromInventory inventory →
      ∃ frame ∈ frames, q.1.Carries inventory frame := by
    intro q hq
    apply hdelivery.carries q
    rcases List.mem_append.mp hq with hq | hq
    · exact List.mem_append_left _ hq
    · simp [List.mem_singleton.mp hq]
  have hls := lastMissing_of_allSeen hframes hcr hbf haf
  have hsc : scopeOf p.1 = .fromInventory inventory := by
    obtain ⟨frame, hmem, hp, -⟩ := hls
    exact (hp.pieceOf hframes hmem).scope
  refine ⟨l₁, p, l₂, rfl, hls, ?_, ?_, ?_⟩
  · rcases hdelivery.answer_eq hframes hready hsc with ⟨hdn, -⟩ | ⟨-, -, h⟩ | ⟨hms, -⟩
    · exact absurd hdn hbf
    · exact h
    · exact absurd haf hms
  · intro l₁' p' l₂' result heq hsc' han
    rw [heq] at hdelivery
    -- only a push after which all pieces were seen, and before which not, is answered so
    have hfr : ¬ AllSeen inventory l₁' ∧ AllSeen inventory (l₁' ++ [p']) := by
      rcases hdelivery.answer_eq hframes hready hsc' with ⟨-, h⟩ | ⟨hnot, hdn, -⟩ | ⟨-, h | h⟩
      · rw [han] at h
        cases h
      · exact ⟨hnot, hdn⟩
      · rw [han] at h
        cases h
      · rw [han] at h
        cases h
    exact AllSeen.last_unique heq hbf haf hfr.1 hfr.2
  · rintro l₁' l₂' rfl
    obtain ⟨hrm, -⟩ := along_append.mp hdelivery.room
    have htm := hdelivery.timely hframes hsc
    have hnot : ¬ AllSeen inventory l₁' := fun h => hbf h.append
    exact ((assembling_run hfd hready.assembling (htm.left) (along_append.mp hrm).1).1
      hnot).complete

def twoModels : ModelInventory := ⟨"east", "grid", "net", "p1", "uid", 2, 1000, ["b", "a"]⟩

def twoModelsFrame (index : Nat) (name : String) : ModelInventoryBroadcast where
  originSite := "east"
  gridId := "grid"
  frame := twoModels.frameAt crypto index [name]

/-- The two frames, the second one first and twice. -/
def twoModelsRun : List Push :=
  [(twoModelsFrame 1 "b", 10), (twoModelsFrame 1 "b", 11), (twoModelsFrame 0 "a", 12)]

theorem twoModels_frames : twoModels.frames crypto =
    .ok [(twoModelsFrame 0 "a").frame, (twoModelsFrame 1 "b").frame] := rfl

theorem delivery_twoModelsRun {a : ModelInventoryAssembler}
    (h₁ : a.answer crypto (twoModelsFrame 1 "b", 10) = .ok .incomplete)
    (h₂ : (run (deliver crypto) a [(twoModelsFrame 1 "b", 10)]).answer crypto
      (twoModelsFrame 1 "b", 11) = .ok .duplicate)
    (h₃ : ∃ result, (run (deliver crypto) a [(twoModelsFrame 1 "b", 10),
      (twoModelsFrame 1 "b", 11)]).answer crypto (twoModelsFrame 0 "a", 12) =
        .ok result) :
    Delivery crypto twoModels
      [(twoModelsFrame 0 "a").frame, (twoModelsFrame 1 "b").frame] a twoModelsRun where
  carries p hp _ := by
    simp only [twoModelsRun, List.mem_cons, List.not_mem_nil, or_false] at hp
    rcases hp with rfl | rfl | rfl
    · exact ⟨(twoModelsFrame 1 "b").frame, by simp, rfl, rfl, rfl⟩
    · exact ⟨(twoModelsFrame 1 "b").frame, by simp, rfl, rfl, rfl⟩
    · exact ⟨(twoModelsFrame 0 "a").frame, by simp, rfl, rfl, rfl⟩
  delivered frame hfr := by
    simp only [List.mem_cons, List.not_mem_nil, or_false] at hfr
    rcases hfr with rfl | rfl
    · exact ⟨(twoModelsFrame 0 "a", 12), by simp [twoModelsRun], rfl, rfl, rfl⟩
    · exact ⟨(twoModelsFrame 1 "b", 10), by simp [twoModelsRun], rfl, rfl, rfl⟩
  ordered := by decide
  fresh := by decide
  lifetime := by decide
  room := by
    obtain ⟨result, h₃⟩ := h₃
    exact ⟨leavesRoom_of_ok h₁, leavesRoom_of_ok h₂, leavesRoom_of_ok h₃, trivial⟩

theorem frames_reassemble_reversed :
    ∃ l₁ p l₂, twoModelsRun = l₁ ++ p :: l₂ ∧
      (run (deliver crypto) {} l₁).answer crypto p =
        .ok (.complete { twoModels with models := ["a", "b"] }) := by
  have hrd : Ready twoModels {} := by
    refine ⟨fun _ _ => ExtTreeMap.getElem?_empty, fun held hhl => ?_, rfl⟩
    rw [ExtTreeMap.getElem?_empty] at hhl
    cases hhl
  obtain ⟨l₁, p, l₂, hrun, -, han, -⟩ := frames_reassemble twoModels_frames hrd
    (delivery_twoModelsRun (by decide +kernel) (by decide +kernel)
      ⟨.complete { twoModels with models := ["a", "b"] }, by decide +kernel⟩)
  exact ⟨l₁, p, l₂, hrun, han⟩

/-- The inventory of the scope expires between two frames of its next revision, and is gone
before the next one is complete. -/
theorem old_inventory_expires_meanwhile :
    let old : ModelInventory := { twoModels with revision := 1, expiresAtMs := 5, models := [] }
    let a : ModelInventoryAssembler := deliver crypto {}
      (⟨1, "east", "grid", old.frameAt crypto 0 []⟩, 1)
    let l₁ : List Push := [(twoModelsFrame 1 "b", 10)]
    let frames := [(twoModelsFrame 0 "a").frame, (twoModelsFrame 1 "b").frame]
    twoModels.frames crypto = .ok frames ∧ Ready twoModels a ∧
      Delivery crypto twoModels frames a twoModelsRun ∧ l₁ <+: twoModelsRun ∧
      ¬ AllSeen twoModels l₁ ∧
      a.complete[fromInventory twoModels]? = some old ∧
      (run (deliver crypto) a l₁).complete[fromInventory twoModels]? =
        none := by
  intro old a l₁ frames
  have hpn : a.pending = ∅ := ExtTreeMap.isEmpty_iff.mp (by decide +kernel)
  have hfl : a.revisionFloor[fromInventory twoModels]? = some ⟨1, 330001⟩ := by
    decide +kernel
  have hrd : Ready twoModels a := by
    refine ⟨fun revision _ => ?_, fun held hhl => ?_, by decide +kernel⟩
    · rw [hpn, ExtTreeMap.getElem?_empty]
    · rw [← Option.some.inj (hfl.symm.trans hhl)]
      decide
  have hdl : Delivery crypto twoModels frames a twoModelsRun :=
    delivery_twoModelsRun (by decide +kernel) (by decide +kernel)
      ⟨.complete { twoModels with models := ["a", "b"] }, by decide +kernel⟩
  refine ⟨twoModels_frames, hrd, hdl, ⟨_, rfl⟩, ?_, by decide +kernel, by decide +kernel⟩
  intro hall
  obtain ⟨p, hp, -, hin⟩ := hall 0 (by decide)
  obtain rfl := List.mem_singleton.mp hp
  exact absurd hin (by decide)

end ModelInventoryAssembler

end PraxisGrid
