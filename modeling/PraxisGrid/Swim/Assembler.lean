/-
PraxisGrid/Swim/Assembler.lean

What one push does to the inventory assembler.

Every push prunes first.  After that it has one of seven outcomes (`Outcome`,
`push_outcome`): the frame is refused, the origin is blocked for too many frames, the partial
inventory is dropped for a conflict, the frame is retained, or the inventory is whole and is
invalid, too large or published.  Facts about pushes are case analyses over these.

Other origins notice of a push only that what expired is gone (`untouched_push`), and other
provider instances of its origin only when the origin is blocked (`Outcome.untouched`).
-/
import PraxisGrid.Swim.Inventory

namespace PraxisGrid

open Std OrdMap Bincode Saturate

def ModelInventory.fresh (nowMs : UInt64) (inventory : ModelInventory) : Bool :=
  nowMs < inventory.expiresAtMs

def PendingInventory.fresh (nowMs : UInt64) (pending : PendingInventory) : Bool :=
  nowMs < pending.expiresAtMs && satSub nowMs pending.startedAtMs ≤ maxBroadcastAgeMs

/-- The error of a frame that exceeds a limit, or whose origin did. -/
def InventoryFrameError.isCapacity : InventoryFrameError → Bool
  | inProgressCapacity | inventoryCapacity => true
  | _ => false

namespace ModelInventoryAssembler

variable {c : Crypto} {a a' a'' : ModelInventoryAssembler} {o : String} {nowMs : UInt64}
  {f : ModelInventoryBroadcast}

/-! ### Outcomes of a push -/

def keyOf (f : ModelInventoryBroadcast) : InventoryKey := ⟨scopeOf f, f.frame.inventoryRevision⟩

/-- Whether a frame of this position is held. -/
def holds (a : ModelInventoryAssembler) (f : ModelInventoryBroadcast) : Bool :=
  a.pending[keyOf f]?.any fun pending => pending.frames.contains f.frame.frameIndex

def outdated (a : ModelInventoryAssembler) (f : ModelInventoryBroadcast) :
    ModelInventoryAssembler :=
  { a with
    pending := retain a.pending fun held _ =>
      held.scope != scopeOf f || f.frame.inventoryRevision ≤ held.revision }

def started (f : ModelInventoryBroadcast) (nowMs : UInt64) : PendingInventory :=
  ⟨f.frame.expiresAtMs, f.frame.frameCount, f.frame.inventoryDigest, ∅, nowMs⟩

/-- The partial inventory a frame is added to. -/
def assemblyOf (a : ModelInventoryAssembler) (f : ModelInventoryBroadcast) (nowMs : UInt64) :
    PendingInventory :=
  a.pending[keyOf f]?.getD (started f nowMs)

def dropped (a : ModelInventoryAssembler) (f : ModelInventoryBroadcast) :
    ModelInventoryAssembler :=
  { a.outdated f with pending := (a.outdated f).pending.erase (keyOf f) }

def published (a : ModelInventoryAssembler) (f : ModelInventoryBroadcast)
    (pending : PendingInventory) (nowMs : UInt64) : ModelInventoryAssembler :=
  { a.dropped f with
    pending := retain (a.dropped f).pending fun held _ =>
      held.scope != scopeOf f || f.frame.inventoryRevision < held.revision
    revisionFloor := a.revisionFloor.insert (scopeOf f)
      ⟨f.frame.inventoryRevision, replayDeadline nowMs⟩
    complete := a.complete.insert (scopeOf f) (completed (keyOf f) pending) }

structure Retains (a : ModelInventoryAssembler) (f : ModelInventoryBroadcast) (nowMs : UInt64)
    (pending : PendingInventory) : Prop where
  checked : a.checkFrame f nowMs = .ok ()
  room : a.holds f = false →
    (a.outdated f).pendingFramesForOrigin f.originSite < maxInProgressFramesPerOrigin
  inserted : (a.assemblyOf f nowMs).insert f.frame = .ok pending

/-- The outcomes of pushing a frame into a pruned assembler. -/
inductive Outcome (c : Crypto) (a : ModelInventoryAssembler) (f : ModelInventoryBroadcast)
    (nowMs : UInt64) :
    Except InventoryFrameError InventoryAssemblyResult × ModelInventoryAssembler → Prop
  | refused {e : InventoryFrameError} (hcheck : a.checkFrame f nowMs = .error e) :
      Outcome c a f nowMs (.error e, a)
  | full (hcheck : a.checkFrame f nowMs = .ok ()) (hheld : a.holds f = false)
      (hfull : maxInProgressFramesPerOrigin ≤
        (a.outdated f).pendingFramesForOrigin f.originSite) :
      Outcome c a f nowMs
        (.error .inProgressCapacity, (a.outdated f).blockOrigin f.originSite nowMs)
  | conflicting {e : InventoryFrameError} (hcheck : a.checkFrame f nowMs = .ok ())
      (hinsert : (a.assemblyOf f nowMs).insert f.frame = .error e) :
      Outcome c a f nowMs (.error e, a.dropped f)
  | retained {pending : PendingInventory} (hretains : a.Retains f nowMs pending)
      (hmissing : pending.frames.size ≠ pending.frameCount.toNat) :
      Outcome c a f nowMs
        (.ok (if a.holds f then .duplicate else .incomplete),
          { a.outdated f with pending := (a.outdated f).pending.insert (keyOf f) pending })
  | invalid {pending : PendingInventory} {e : InventoryFrameError}
      (hretains : a.Retains f nowMs pending)
      (hwhole : pending.frames.size = pending.frameCount.toNat)
      (hvalid : validateComplete c (completed (keyOf f) pending) pending.digest = .error e) :
      Outcome c a f nowMs (.error e, a.dropped f)
  | excess {pending : PendingInventory} (hretains : a.Retains f nowMs pending)
      (hwhole : pending.frames.size = pending.frameCount.toNat)
      (hvalid : validateComplete c (completed (keyOf f) pending) pending.digest = .ok ())
      (hexcess : (a.dropped f).canRetainInventory (scopeOf f) (completed (keyOf f) pending) =
        false) :
      Outcome c a f nowMs
        (.error .inventoryCapacity, (a.dropped f).blockOrigin f.originSite nowMs)
  | complete {pending : PendingInventory} (hretains : a.Retains f nowMs pending)
      (hwhole : pending.frames.size = pending.frameCount.toNat)
      (hvalid : validateComplete c (completed (keyOf f) pending) pending.digest = .ok ())
      (hroom : (a.dropped f).canRetainInventory (scopeOf f) (completed (keyOf f) pending) =
        true) :
      Outcome c a f nowMs
        (.ok (.complete (completed (keyOf f) pending)), a.published f pending nowMs)

/-- The limits of its origin leave room for a frame: for one more frame in progress, and for the
inventory it may complete. -/
structure HasRoom (c : Crypto) (a : ModelInventoryAssembler) (f : ModelInventoryBroadcast)
    (nowMs : UInt64) : Prop where
  frames : a.checkFrame f nowMs = .ok () → a.holds f = false →
    (a.outdated f).pendingFramesForOrigin f.originSite < maxInProgressFramesPerOrigin
  inventory : ∀ pending, a.Retains f nowMs pending →
    pending.frames.size = pending.frameCount.toNat →
    validateComplete c (completed (keyOf f) pending) pending.digest = .ok () →
    (a.dropped f).canRetainInventory (scopeOf f) (completed (keyOf f) pending) = true

/-- Older revisions of the instance give way, and nothing else. -/
theorem pending_outdated (key : InventoryKey) :
    (a.outdated f).pending[key]? =
      if key.scope = scopeOf f ∧ key.revision < f.frame.inventoryRevision then none
      else a.pending[key]? := by
  unfold outdated
  rw [getElem?_retain_key]
  by_cases hsc : key.scope = scopeOf f
  · by_cases hlt : key.revision < f.frame.inventoryRevision
    · simp [hsc, hlt]
    · simp [hsc, hlt, UInt64.not_lt.mp hlt]
  · simp [hsc]

/-- A frame's own revision is never outdated. -/
theorem pending_outdated_keyOf :
    (a.outdated f).pending[keyOf f]? = a.pending[keyOf f]? := by
  rw [pending_outdated, if_neg]
  rintro ⟨-, hlt⟩
  exact UInt64.lt_irrefl _ hlt

theorem pending_dropped (key : InventoryKey) :
    (a.dropped f).pending[key]? =
      if key.scope = scopeOf f ∧ key.revision ≤ f.frame.inventoryRevision then none
      else a.pending[key]? := by
  unfold dropped
  rw [getElem?_erase, pending_outdated]
  by_cases hkey : keyOf f = key
  · subst hkey
    rw [if_pos rfl, if_pos ⟨rfl, UInt64.le_refl _⟩]
  · rw [if_neg hkey]
    by_cases hlt : key.scope = scopeOf f ∧ key.revision < f.frame.inventoryRevision
    · rw [if_pos hlt, if_pos ⟨hlt.1, UInt64.le_of_lt hlt.2⟩]
    · rw [if_neg hlt, if_neg]
      rintro ⟨hsc, hle⟩
      rcases UInt64.lt_or_eq_of_le hle with h | h
      · exact hlt ⟨hsc, h⟩
      · exact hkey (by rw [keyOf, ← hsc, ← h])

theorem pending_published (pending : PendingInventory) (key : InventoryKey) :
    (a.published f pending nowMs).pending[key]? = (a.dropped f).pending[key]? := by
  unfold published
  rw [getElem?_retain_key, pending_dropped]
  by_cases hsc : key.scope = scopeOf f
  · by_cases hle : key.revision ≤ f.frame.inventoryRevision
    · simp [hsc, hle]
    · simp [hsc, UInt64.not_le.mp hle]
  · simp [hsc]

theorem complete_published (pending : PendingInventory) (scope : InventoryScope) :
    (a.published f pending nowMs).complete[scope]? =
      if scopeOf f = scope then some (completed (keyOf f) pending) else a.complete[scope]? := by
  unfold published
  rw [getElem?_insert]

theorem revisionFloor_published (pending : PendingInventory) :
    (a.published f pending nowMs).revisionFloor[scope]? =
      if scopeOf f = scope then some ⟨f.frame.inventoryRevision, replayDeadline nowMs⟩
      else a.revisionFloor[scope]? := by
  unfold published
  rw [getElem?_insert]

theorem insertFrame_eq :
    a.insertFrame c f nowMs =
      if !a.holds f && maxInProgressFramesPerOrigin ≤
          (a.outdated f).pendingFramesForOrigin f.originSite then
        (.error .inProgressCapacity, (a.outdated f).blockOrigin f.originSite nowMs)
      else match (a.assemblyOf f nowMs).insert f.frame with
        | .error e => (.error e, a.dropped f)
        | .ok pending =>
          if pending.frames.size ≠ pending.frameCount.toNat then
            (.ok (if a.holds f then .duplicate else .incomplete),
              { a.outdated f with pending := (a.outdated f).pending.insert (keyOf f) pending })
          else (a.outdated f).finish c (keyOf f) pending nowMs := by
  have hhl : (a.outdated f).holds f = a.holds f := by
    unfold holds
    rw [pending_outdated_keyOf]
  have hay : (a.outdated f).pending.getD (keyOf f) (started f nowMs) =
      a.assemblyOf f nowMs := by
    rw [ExtTreeMap.getD_eq_getD_getElem?, pending_outdated_keyOf]
    rfl
  rw [← hhl, ← hay]
  rfl

theorem finish_eq (pending : PendingInventory) :
    (a.outdated f).finish c (keyOf f) pending nowMs =
      match validateComplete c (completed (keyOf f) pending) pending.digest with
      | .error e => (.error e, a.dropped f)
      | .ok () =>
        if (a.dropped f).canRetainInventory (scopeOf f) (completed (keyOf f) pending) then
          (.ok (.complete (completed (keyOf f) pending)), a.published f pending nowMs)
        else (.error .inventoryCapacity, (a.dropped f).blockOrigin f.originSite nowMs) :=
  rfl

theorem insertFrame_outcome (hch : a.checkFrame f nowMs = .ok ()) :
    Outcome c a f nowMs (a.insertFrame c f nowMs) := by
  rw [insertFrame_eq]
  by_cases hfl : (!a.holds f && decide (maxInProgressFramesPerOrigin ≤
      (a.outdated f).pendingFramesForOrigin f.originSite)) = true
  · rw [if_pos hfl]
    rw [Bool.and_eq_true, Bool.not_eq_true', decide_eq_true_eq] at hfl
    exact .full hch hfl.1 hfl.2
  rw [if_neg hfl]
  rcases hins : (a.assemblyOf f nowMs).insert f.frame with e | pending
  · exact .conflicting hch hins
  have hret : a.Retains f nowMs pending := by
    refine ⟨hch, fun hhl => ?_, hins⟩
    rw [hhl] at hfl
    simpa using hfl
  by_cases hms : pending.frames.size ≠ pending.frameCount.toNat
  · simp only [if_pos hms]
    exact .retained hret hms
  · have hwh : pending.frames.size = pending.frameCount.toNat := not_not.mp hms
    simp only [if_neg hms]
    rw [finish_eq]
    rcases hvl : validateComplete c (completed (keyOf f) pending) pending.digest with e | ⟨⟩
    · exact .invalid hret hwh hvl
    · dsimp only
      split_ifs with hrm
      · exact .complete hret hwh hvl hrm
      · exact .excess hret hwh hvl (Bool.eq_false_iff.mpr hrm)

/-- **Every push prunes and then has one of the outcomes.** -/
theorem push_outcome (c : Crypto) (a : ModelInventoryAssembler) (f : ModelInventoryBroadcast)
    (nowMs : UInt64) : Outcome c (a.prune nowMs) f nowMs (a.push c f nowMs) := by
  simp only [push]
  rcases hch : (a.prune nowMs).checkFrame f nowMs with e | ⟨⟩
  · exact .refused hch
  · exact insertFrame_outcome hch

theorem push_of_refused {e : InventoryFrameError}
    (h : (a.prune nowMs).checkFrame f nowMs = .error e) :
    a.push c f nowMs = (.error e, a.prune nowMs) := by
  simp only [push, h]

theorem checkFrame_of_valid (hfr : validateFrame f.frame nowMs = .ok ())
    (hun : a.blockedOrigins.contains f.originSite = false)
    (hsc : (scopeOf f).validate = .ok ()) :
    a.checkFrame f nowMs =
      if a.revisionFloor[scopeOf f]?.any fun held => f.frame.inventoryRevision ≤ held.revision then
        .error .staleRevision
      else .ok () := by
  unfold checkFrame
  rw [hfr, hun, hsc]
  rfl

theorem valid_of_checkFrame (h : a.checkFrame f nowMs = .ok ()) :
    validateFrame f.frame nowMs = .ok () ∧ a.blockedOrigins.contains f.originSite = false ∧
      (scopeOf f).validate = .ok () ∧
      ∀ held : RevisionFloor, a.revisionFloor[scopeOf f]? = some held →
        held.revision < f.frame.inventoryRevision := by
  have hch := h
  unfold checkFrame at h
  rcases hfr : validateFrame f.frame nowMs with e | ⟨⟩
  · rw [hfr] at h
    cases h
  rw [hfr] at h
  rcases hbl : a.blockedOrigins.contains f.originSite with - | -
  · rw [hbl] at h
    rcases hsc : (scopeOf f).validate with e | ⟨⟩
    · rw [hsc] at h
      cases h
    · refine ⟨rfl, rfl, rfl, fun held hhl => ?_⟩
      rw [checkFrame_of_valid hfr hbl hsc, hhl, Option.any_some] at hch
      split_ifs at hch with hle
      exact UInt64.not_le.mp fun h => hle (decide_eq_true h)
  · rw [hbl] at h
    cases h

/-- The check of a frame finds no limit exceeded, unless the origin is blocked. -/
theorem isCapacity_of_checkFrame {e : InventoryFrameError}
    (hun : a.blockedOrigins.contains f.originSite = false)
    (h : a.checkFrame f nowMs = .error e) : e.isCapacity = false := by
  have hnm : ∀ models e, validateNames models = .error e → e.isCapacity = false := by
    intro models e h
    induction models with
    | nil => cases h
    | cons model models ih =>
      unfold validateNames at h
      split_ifs at h
      · exact Except.error.inj h ▸ rfl
      · exact Except.error.inj h ▸ rfl
      · exact ih h
  have hfr : ∀ e, validateFrame f.frame nowMs = .error e → e.isCapacity = false := by
    intro e h
    unfold validateFrame at h
    split_ifs at h
    · exact Except.error.inj h ▸ rfl
    · exact Except.error.inj h ▸ rfl
    · exact Except.error.inj h ▸ rfl
    · exact Except.error.inj h ▸ rfl
    · exact hnm _ e h
  unfold checkFrame at h
  rw [hun] at h
  rcases hvl : validateFrame f.frame nowMs with e' | ⟨⟩
  · rw [hvl] at h
    exact Except.error.inj h ▸ hfr e' hvl
  rw [hvl] at h
  rcases hsc : (scopeOf f).validate with e' | ⟨⟩
  · rw [hsc] at h
    unfold InventoryScope.validate at hsc
    split_ifs at hsc
    rw [← Except.error.inj h, ← Except.error.inj hsc]
    rfl
  · rw [hsc] at h
    have hst : (if a.revisionFloor[scopeOf f]?.any
        (fun held => decide (f.frame.inventoryRevision ≤ held.revision)) = true then
          Except.error InventoryFrameError.staleRevision else Except.ok ()) = .error e := h
    split_ifs at hst
    exact Except.error.inj hst ▸ rfl

theorem checkFrame_of_stale (h : (a.push c f nowMs).1 = .error .staleRevision) :
    (a.prune nowMs).checkFrame f nowMs = .error .staleRevision := by
  have hnm : ∀ models, validateNames models ≠ .error .staleRevision := by
    intro models
    induction models with
    | nil => simp [validateNames]
    | cons model models ih =>
      unfold validateNames
      split_ifs
      · simp
      · simp
      · exact ih
  have hins : ∀ pending : PendingInventory, pending.insert f.frame ≠ .error .staleRevision := by
    intro pending
    unfold PendingInventory.insert
    split_ifs
    · simp
    · split
      · split_ifs <;> simp
      · simp
  have hvl : ∀ inventory digest,
      validateComplete c inventory digest ≠ .error .staleRevision := by
    intro inventory digest
    have hmd := hnm inventory.models
    unfold validateComplete
    generalize validateNames inventory.models = checked at hmd ⊢
    cases checked with
    | error e =>
      dsimp only
      split_ifs
      · simp
      · simp
      · exact hmd
    | ok _ => split_ifs <;> simp
  have hout := push_outcome c a f nowMs
  generalize a.push c f nowMs = result at hout h
  cases hout with
  | refused hch =>
    cases h
    exact hch
  | full _ _ _ => cases h
  | conflicting _ hcn =>
    cases h
    exact absurd hcn (hins _)
  | retained _ _ => cases h
  | invalid _ _ hinv =>
    cases h
    exact absurd hinv (hvl _ _)
  | excess _ _ _ _ => cases h
  | complete _ _ _ _ => cases h

/-! ### Pruning and blocking -/

theorem pending_prune (key : InventoryKey) :
    (a.prune nowMs).pending[key]? = a.pending[key]?.filter (PendingInventory.fresh nowMs) := by
  unfold prune
  rw [getElem?_retain]
  rfl

theorem complete_prune (scope : InventoryScope) :
    (a.prune nowMs).complete[scope]? = a.complete[scope]?.filter (ModelInventory.fresh nowMs) := by
  unfold prune
  rw [getElem?_retain]
  rfl

/-- A floor is kept for its deadline, and as long as the inventory is. -/
theorem revisionFloor_prune (scope : InventoryScope) :
    (a.prune nowMs).revisionFloor[scope]? = a.revisionFloor[scope]?.filter fun held =>
      nowMs ≤ held.retainUntilMs || a.complete[scope]?.any (ModelInventory.fresh nowMs) := by
  have hcn : (a.prune nowMs).complete.contains scope =
      a.complete[scope]?.any (ModelInventory.fresh nowMs) := by
    rw [ExtTreeMap.contains_eq_isSome_getElem?, complete_prune]
    rcases a.complete[scope]? with - | inventory
    · rfl
    · rw [Option.any_some, Option.filter_some]
      split_ifs with hfr
      · rw [hfr, Option.isSome_some]
      · rw [Bool.eq_false_iff.mpr hfr, Option.isSome_none]
  rw [← hcn]
  unfold prune
  rw [getElem?_retain]

theorem pending_blockOrigin (key : InventoryKey) :
    (a.blockOrigin o nowMs).pending[key]? =
      if key.scope.originSite = o then none else a.pending[key]? := by
  simp only [blockOrigin, removeOrigin, getElem?_retain_key, bne_iff_ne, ne_eq, ite_not]

theorem complete_blockOrigin (scope : InventoryScope) :
    (a.blockOrigin o nowMs).complete[scope]? =
      if scope.originSite = o then none else a.complete[scope]? := by
  simp only [blockOrigin, removeOrigin, getElem?_retain_key, bne_iff_ne, ne_eq, ite_not]

theorem revisionFloor_blockOrigin (scope : InventoryScope) :
    (a.blockOrigin o nowMs).revisionFloor[scope]? =
      if scope.originSite = o then none else a.revisionFloor[scope]? := by
  simp only [blockOrigin, removeOrigin, getElem?_retain_key, bne_iff_ne, ne_eq, ite_not]

/-! ### What a push leaves alone -/

/-- What is held of one provider instance is the same. -/
structure Untouched (a a' : ModelInventoryAssembler) (scope : InventoryScope) : Prop where
  pending : ∀ revision : UInt64,
    a'.pending[(⟨scope, revision⟩ : InventoryKey)]? = a.pending[(⟨scope, revision⟩ : InventoryKey)]?
  complete : a'.complete[scope]? = a.complete[scope]?
  floor : a'.revisionFloor[scope]? = a.revisionFloor[scope]?

variable {scope : InventoryScope}

theorem Untouched.refl (a : ModelInventoryAssembler) (scope : InventoryScope) :
    a.Untouched a scope :=
  ⟨fun _ => rfl, rfl, rfl⟩

theorem Untouched.trans (h₁ : a.Untouched a' scope) (h₂ : a'.Untouched a'' scope) :
    a.Untouched a'' scope :=
  ⟨fun revision => (h₂.pending revision).trans (h₁.pending revision),
    h₂.complete.trans h₁.complete, h₂.floor.trans h₁.floor⟩

theorem Untouched.symm (h : a.Untouched a' scope) : a'.Untouched a scope :=
  ⟨fun revision => (h.pending revision).symm, h.complete.symm, h.floor.symm⟩

theorem Untouched.blockOrigin (hne : scope.originSite ≠ o) :
    a.Untouched (a.blockOrigin o nowMs) scope where
  pending revision := by rw [pending_blockOrigin, if_neg hne]
  complete := by rw [complete_blockOrigin, if_neg hne]
  floor := by rw [revisionFloor_blockOrigin, if_neg hne]

theorem keyOf_ne (hne : scope ≠ scopeOf f) (revision : UInt64) : keyOf f ≠ ⟨scope, revision⟩ :=
  fun heq => hne (congrArg InventoryKey.scope heq).symm

theorem Untouched.outdated (hne : scope ≠ scopeOf f) : a.Untouched (a.outdated f) scope where
  pending revision := by rw [pending_outdated, if_neg fun h => hne h.1]
  complete := rfl
  floor := rfl

theorem Untouched.dropped (hne : scope ≠ scopeOf f) : a.Untouched (a.dropped f) scope where
  pending revision := by rw [pending_dropped, if_neg fun h => hne h.1]
  complete := rfl
  floor := rfl

/-- **A frame leaves the other provider instances**, unless it makes the assembler block the
origin. -/
theorem Outcome.untouched
    {r : Except InventoryFrameError InventoryAssemblyResult × ModelInventoryAssembler}
    (h : Outcome c a f nowMs r) (hne : scope ≠ scopeOf f)
    (hrm : scope.originSite = f.originSite → a.HasRoom c f nowMs) :
    a.Untouched r.2 scope := by
  cases h with
  | refused _ => exact .refl a scope
  | full hch hhl hfl =>
    have horig : scope.originSite ≠ f.originSite :=
      fun heq => Nat.not_le_of_lt ((hrm heq).frames hch hhl) hfl
    exact (Untouched.outdated hne).trans (.blockOrigin horig)
  | conflicting _ _ => exact .dropped hne
  | @retained pending _ _ =>
    refine (Untouched.outdated hne).trans ⟨fun revision => ?_, rfl, rfl⟩
    rw [getElem?_insert, if_neg (keyOf_ne hne revision)]
  | invalid _ _ _ => exact .dropped hne
  | excess hret hwh hvl hex =>
    have horig : scope.originSite ≠ f.originSite := fun heq =>
      Bool.false_ne_true (hex.symm.trans ((hrm heq).inventory _ hret hwh hvl))
    exact (Untouched.dropped hne).trans (.blockOrigin horig)
  | complete _ _ _ _ =>
    refine ⟨fun revision => ?_, ?_, ?_⟩
    · rw [pending_published, (Untouched.dropped hne).pending]
    · rw [complete_published, if_neg (Ne.symm hne)]
    · rw [revisionFloor_published, if_neg (Ne.symm hne)]

/-- **A frame leaves what pruning left of the other origins.** -/
theorem untouched_push (hne : scope.originSite ≠ f.originSite) :
    (a.prune nowMs).Untouched (a.push c f nowMs).2 scope := by
  apply (push_outcome c a f nowMs).untouched
  · rintro rfl
    exact hne rfl
  · exact fun heq => absurd heq hne

/-! ### Inventories are filed under their origin -/

def Filed (a : ModelInventoryAssembler) : Prop :=
  ∀ ⦃scope : InventoryScope⦄ ⦃inventory : ModelInventory⦄,
    a.complete[scope]? = some inventory → inventory.originSite = scope.originSite

theorem Filed.mono (hi : a.Filed)
    (hsub : ∀ {scope : InventoryScope} {inventory : ModelInventory},
      a'.complete[scope]? = some inventory → a.complete[scope]? = some inventory) : a'.Filed :=
  fun _ _ hhl => hi (hsub hhl)

theorem Filed.withdrawProvider (hi : a.Filed) (scope : InventoryScope) :
    (a.withdrawProvider scope).Filed := by
  refine hi.mono fun {s inventory} hhl => ?_
  have hes : (a.complete.erase scope)[s]? = some inventory := hhl
  rw [getElem?_erase] at hes
  split_ifs at hes
  exact hes

theorem Filed.removeOrigin (hi : a.Filed) (o : String) : (a.removeOrigin o).Filed := by
  refine hi.mono fun {scope inventory} hhl => ?_
  simp only [ModelInventoryAssembler.removeOrigin, getElem?_retain_eq_some] at hhl
  exact hhl.1

theorem Filed.removeGrid (hi : a.Filed) (gridId : String) (origin : Option String) :
    (a.removeGrid gridId origin).Filed := by
  refine hi.mono fun {scope inventory} hhl => ?_
  simp only [ModelInventoryAssembler.removeGrid, getElem?_retain_eq_some] at hhl
  exact hhl.1

theorem Filed.push (hi : a.Filed) : (a.push c f nowMs).2.Filed := by
  have hpr : (a.prune nowMs).Filed := by
    refine hi.mono fun {scope inventory} hhl => ?_
    rw [complete_prune] at hhl
    exact (Option.filter_eq_some_iff.mp hhl).1
  have hout := push_outcome c a f nowMs
  generalize a.push c f nowMs = result at hout ⊢
  cases hout with
  | refused _ => exact hpr
  | full _ _ _ => exact hpr.removeOrigin f.originSite
  | conflicting _ _ => exact hpr
  | retained _ _ => exact hpr
  | invalid _ _ _ => exact hpr
  | excess _ _ _ _ => exact hpr.removeOrigin f.originSite
  | complete _ _ _ _ =>
    intro scope inventory hhl
    rw [complete_published] at hhl
    split_ifs at hhl with hsc
    · rw [← Option.some.inj hhl, ← hsc]
      rfl
    · exact hpr hhl

end ModelInventoryAssembler

end PraxisGrid
