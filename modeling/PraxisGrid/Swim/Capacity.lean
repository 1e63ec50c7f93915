/-
PraxisGrid/Swim/Capacity.lean

When the frames of an honest origin stay within its limits.

All that the limits of an origin count comes from inventories it published (`HeldFrom`), each held
once and no longer than it is fresh or its revision has to be remembered, so every limit is a sum
that can be charged to them.  If at each push the inventories sent so far that have not expired
fit together, no push exceeds a limit (`honest_origin_never_blocked`).

What the origin publishes at each instant need not be all that is held: an old inventory of
one provider stays until its next revision is complete, and counts against the frames of the
others (`reallocation_blocks_origin`).
-/
import Mathlib.Data.List.Dedup
import Mathlib.Data.List.Pairwise
import PraxisGrid.Swim.Assembly

namespace PraxisGrid

open Std OrdMap Bincode Saturate Run Charge Scenario InventoryScope UInt64 Option

def ModelInventory.key (inventory : ModelInventory) : InventoryKey :=
  ⟨.fromInventory inventory, inventory.revision⟩

/-- The inventories an origin published over time: each can be cut into frames, and a revision
of a scope is given to one inventory. -/
structure PublishedBy (c : Crypto) (o : String) (published : List ModelInventory) : Prop where
  origin : ∀ inventory ∈ published, inventory.originSite = o
  framed : ∀ inventory ∈ published, inventory.Framed c
  revisions : ∀ inventory ∈ published, ∀ other ∈ published, inventory.key = other.key →
    inventory = other

/-- Inventories are within the limits of one origin: the names of those that may be held, and
the scopes of those that may have a floor. -/
structure FitTogether (unexpired recent : List ModelInventory) : Prop where
  models : (unexpired.map fun i => i.models.length).sum ≤ maxOriginModelPairs
  scopes : (recent.map fromInventory).dedup.length ≤ maxOriginProviderInventories
  bytes : (unexpired.map fun i => nameBytes i.models).sum ≤ maxOriginInventoryNameBytes

instance (unexpired recent : List ModelInventory) : Decidable (FitTogether unexpired recent) :=
  decidable_of_iff _
    ⟨fun h => ⟨h.1, h.2.1, h.2.2⟩, fun h => And.intro h.models (And.intro h.scopes h.bytes)⟩

theorem PublishedBy.mono {c : Crypto} {o : String} {published sent : List ModelInventory}
    (h : PublishedBy c o published) (hsub : sent ⊆ published) : PublishedBy c o sent where
  origin inventory hmem := h.origin inventory (hsub hmem)
  framed inventory hmem := h.framed inventory (hsub hmem)
  revisions inventory hmem other hot := h.revisions inventory (hsub hmem) other (hsub hot)

namespace ModelInventoryAssembler

/-- The push is not refused for a limit of the origin. -/
def Spared (c : Crypto) (o : String) (a : ModelInventoryAssembler) (p : Push) : Prop :=
  p.1.originSite = o → ∀ e, a.answer c p = .error e → e.isCapacity = false

/-- The published inventories of which some frame was pushed. -/
def sentIn (pushes : List Push) (published : List ModelInventory) : List ModelInventory :=
  published.filter fun inventory => pushes.any fun p => keyOf p.1 = inventory.key

def unexpiredAt (nowMs : UInt64) (published : List ModelInventory) : List ModelInventory :=
  published.filter (ModelInventory.fresh nowMs)

/-- The inventories whose revision may still have to be remembered. -/
def recentAt (nowMs : UInt64) (published : List ModelInventory) : List ModelInventory :=
  published.filter fun inventory => nowMs ≤ replayDeadline inventory.expiresAtMs

theorem replayDeadline_mono {earlier later : UInt64} (h : earlier ≤ later) :
    replayDeadline earlier ≤ replayDeadline later := by
  simp only [le_iff_toNat_le, replayDeadline, toNat_satAdd] at h ⊢
  omega

theorem mem_recentAt {nowMs : UInt64} {published : List ModelInventory}
    {inventory : ModelInventory} (hmem : inventory ∈ published)
    (hlt : nowMs < inventory.expiresAtMs) : inventory ∈ recentAt nowMs published := by
  have hle : nowMs ≤ replayDeadline inventory.expiresAtMs := by
    have hbn := nowMs.toNat_lt
    simp only [lt_iff_toNat_lt, le_iff_toNat_le, replayDeadline, toNat_satAdd,
      wordMax] at hlt ⊢
    omega
  exact List.mem_filter.mpr ⟨hmem, decide_eq_true hle⟩

variable {c : Crypto} {o : String} {published unexpired recent : List ModelInventory}
  {a a' : ModelInventoryAssembler} {p : Push} {nowMs : UInt64}
  {inventory : ModelInventory} {pending : PendingInventory}

/-- **All that is held of an origin was published by it**: partial inventories are parts of
their revision and above the floor, and complete ones have their floor. -/
structure HeldFrom (c : Crypto) (o : String) (unexpired recent : List ModelInventory)
    (a : ModelInventoryAssembler) : Prop where
  unblocked : a.blockedOrigins.contains o = false
  pending : ∀ (key : InventoryKey) (pending : PendingInventory), key.scope.originSite = o →
    a.pending[key]? = some pending →
      (∃ inventory ∈ unexpired, inventory.key = key ∧ PartOf c inventory pending ∧
        pending.frames.size ≠ pending.frameCount.toNat) ∧
      ∀ held : RevisionFloor, a.revisionFloor[key.scope]? = some held →
        held.revision < key.revision
  complete : ∀ (scope : InventoryScope) (held : ModelInventory), scope.originSite = o →
    a.complete[scope]? = some held →
      ∃ inventory ∈ unexpired, fromInventory inventory = scope ∧
        held = inventory.canonical ∧
        ∃ floor : RevisionFloor, a.revisionFloor[scope]? = some floor ∧
          floor.revision = inventory.revision ∧
          floor.retainUntilMs ≤ replayDeadline inventory.expiresAtMs
  floor : ∀ (scope : InventoryScope) (held : RevisionFloor), scope.originSite = o →
    a.revisionFloor[scope]? = some held →
      ∃ inventory ∈ recent, fromInventory inventory = scope ∧
        held.retainUntilMs ≤ replayDeadline inventory.expiresAtMs

section

variable (h : HeldFrom c o unexpired recent a)
include h

theorem HeldFrom.mono {unexpired' recent' : List ModelInventory}
    (hun : unexpired ⊆ unexpired') (hrc : recent ⊆ recent') :
    HeldFrom c o unexpired' recent' a where
  unblocked := h.unblocked
  pending key pending hkey hpn := by
    obtain ⟨⟨inventory, hmem, hpr⟩, hfl⟩ := h.pending key pending hkey hpn
    exact ⟨⟨inventory, hun hmem, hpr⟩, hfl⟩
  complete scope held hsc hhl := by
    obtain ⟨inventory, hmem, hcm⟩ := h.complete scope held hsc hhl
    exact ⟨inventory, hun hmem, hcm⟩
  floor scope held hsc hhl := by
    obtain ⟨inventory, hmem, hfl⟩ := h.floor scope held hsc hhl
    exact ⟨inventory, hrc hmem, hfl⟩

omit h in
/-- What is left of an inventory that expired is released. -/
theorem HeldFrom.prune (h : HeldFrom c o published published a) :
    HeldFrom c o (unexpiredAt nowMs published) (recentAt nowMs published) (a.prune nowMs) where
  unblocked := blockedOrigins_prune h.unblocked
  pending key pending hkey hpn := by
    rw [pending_prune] at hpn
    obtain ⟨hpn, hfr⟩ := filter_eq_some_iff.mp hpn
    obtain ⟨⟨inventory, hmem, hsm, hpr, hms⟩, hfl⟩ := h.pending key pending hkey hpn
    have hun : inventory ∈ unexpiredAt nowMs published := by
      rw [unexpiredAt, List.mem_filter, ModelInventory.fresh, ← hpr.expires]
      exact ⟨hmem, (Bool.and_eq_true_iff.mp hfr).1⟩
    refine ⟨⟨inventory, hun, hsm, hpr, hms⟩, fun held hhl => ?_⟩
    rw [revisionFloor_prune] at hhl
    exact hfl held (filter_eq_some_iff.mp hhl).1
  complete scope held hsc hhl := by
    rw [complete_prune] at hhl
    obtain ⟨hcm, hfr⟩ := filter_eq_some_iff.mp hhl
    obtain ⟨inventory, hmem, hfm, heq, floor, hfl, hrev⟩ :=
      h.complete scope held hsc hcm
    have hun : inventory ∈ unexpiredAt nowMs published := by
      rw [heq] at hfr
      exact List.mem_filter.mpr ⟨hmem, hfr⟩
    refine ⟨inventory, hun, hfm, heq, floor, ?_, hrev⟩
    -- the floor stays with its inventory
    rw [revisionFloor_prune, hfl, hcm, any_some, hfr]
    simp
  floor scope held hsc hhl := by
    rw [revisionFloor_prune] at hhl
    obtain ⟨hfl, hkp⟩ := filter_eq_some_iff.mp hhl
    rcases Bool.or_eq_true_iff.mp hkp with hrd | hcm
    · obtain ⟨inventory, hmem, hfm, hrt⟩ := h.floor scope held hsc hfl
      have hrc : nowMs ≤ replayDeadline inventory.expiresAtMs :=
        le_trans (of_decide_eq_true hrd) hrt
      exact ⟨inventory, List.mem_filter.mpr ⟨hmem, decide_eq_true hrc⟩, hfm, hrt⟩
    · rcases hhl : a.complete[scope]? with - | complete
      · rw [hhl] at hcm
        cases hcm
      have hfr : complete.fresh nowMs = true := by
        rw [hhl] at hcm
        exact hcm
      obtain ⟨inventory, hmem, hfm, heq, floor, hfl', -, hrt⟩ :=
        h.complete scope complete hsc hhl
      cases hfl'.symm.trans hfl
      rw [heq] at hfr
      have hlt : nowMs < inventory.expiresAtMs := of_decide_eq_true hfr
      exact ⟨inventory, mem_recentAt hmem hlt, hfm, hrt⟩

omit h in
theorem HeldFrom.prune_published (h : HeldFrom c o published published a) :
    HeldFrom c o published published (a.prune nowMs) :=
  h.prune.mono (List.filter_subset_self _) (List.filter_subset_self _)

theorem HeldFrom.of_untouched (hul : a'.blockedOrigins.contains o = false)
    (hun : ∀ scope : InventoryScope, scope.originSite = o → a.Untouched a' scope) :
    HeldFrom c o unexpired recent a' where
  unblocked := hul
  pending key pending hkey hpn := by
    have hsm := hun key.scope hkey
    rw [hsm.floor]
    exact h.pending key pending hkey ((hsm.pending key.revision).symm.trans hpn)
  complete scope held hsc hhl := by
    have hsm := hun scope hsc
    rw [hsm.floor]
    exact h.complete scope held hsc (hsm.complete.symm.trans hhl)
  floor scope held hsc hhl :=
    h.floor scope held hsc ((hun scope hsc).floor.symm.trans hhl)

omit h in
theorem HeldFrom.deliver_other (h : HeldFrom c o published published a) (hne : p.1.originSite ≠ o) :
    HeldFrom c o published published (a.deliver c p) := by
  have hrm : a.LeavesRoom c o p := fun heq => absurd heq hne
  apply h.prune_published.of_untouched (blockedOrigins_deliver h.unblocked hrm)
  intro scope hsc
  apply (push_outcome c a p.1 p.2).untouched
  · rintro rfl
    exact hne hsc
  · exact fun heq => absurd (heq.symm.trans hsc) hne

theorem HeldFrom.of_pending {pending : ExtTreeMap InventoryKey PendingInventory}
    (hsub : ∀ (key : InventoryKey) (held : PendingInventory), pending[key]? = some held →
      a.pending[key]? = some held) :
    HeldFrom c o unexpired recent { a with pending := pending } where
  unblocked := h.unblocked
  pending key held hkey hhl := h.pending key held hkey (hsub key held hhl)
  complete := h.complete
  floor := h.floor

theorem HeldFrom.outdated (f : ModelInventoryBroadcast) :
    HeldFrom c o unexpired recent (a.outdated f) := by
  apply h.of_pending
  intro key held hhl
  have hpn : (a.outdated f).pending[key]? = some held := hhl
  rw [pending_outdated] at hpn
  split_ifs at hpn
  exact hpn

theorem HeldFrom.dropped (f : ModelInventoryBroadcast) :
    HeldFrom c o unexpired recent (a.dropped f) := by
  apply h.of_pending
  intro key held hhl
  have hpn : (a.dropped f).pending[key]? = some held := hhl
  rw [pending_dropped] at hpn
  split_ifs at hpn
  exact hpn

/-! ### What is held is charged to what was published -/

omit h in
/-- The names and name bytes of an inventory do not depend on their order. -/
theorem length_canonical (inventory : ModelInventory) :
    inventory.canonical.models.length = inventory.models.length :=
  inventory.perm_sorted.length_eq

omit h in
theorem nameBytes_canonical (inventory : ModelInventory) :
    nameBytes inventory.canonical.models = nameBytes inventory.models :=
  (inventory.perm_sorted.map _).sum_eq

omit h in
theorem PartOf.size_le_pred (h : PartOf c inventory pending)
    (hms : pending.frames.size ≠ pending.frameCount.toNat) :
    pending.frames.size ≤ inventory.models.length - 1 := by
  have hsz := h.size_le
  rw [h.count] at hms
  have hlen : inventory.frameNames.length = max inventory.models.length 1 := by
    rw [ModelInventory.length_frameNames, inventory.perm_sorted.length_eq]
  omega

/-- **There is always room for another frame**, if the published inventories fit together. -/
theorem HeldFrom.pendingFrames_lt (hfit : FitTogether unexpired recent) :
    a.pendingFramesForOrigin o < maxInProgressFramesPerOrigin := by
  have hnm : ((a.pending.toList.filter fun e => e.1.scope.originSite == o).map
      Prod.fst).Nodup :=
    (List.filter_sublist.map _).nodup (nodup_map_fst_toList _)
  have hch : a.pendingFramesForOrigin o ≤
      (unexpired.map fun i => i.models.length - 1).sum := by
    apply sum_le_of_charge ModelInventory.key hnm
    rintro ⟨key, pending⟩ hmem
    rw [List.mem_filter, ExtTreeMap.mem_toList_iff_getElem?_eq_some, beq_iff_eq] at hmem
    obtain ⟨⟨inventory, hpub, hkey, hpr, hms⟩, -⟩ :=
      h.pending key pending hmem.2 hmem.1
    exact ⟨inventory, hpub, hkey, PartOf.size_le_pred hpr hms⟩
  have hpd := sum_pred_le unexpired fun i => i.models.length
  have hmd := hfit.models
  simp only [maxOriginModelPairs, maxInProgressFramesPerOrigin] at hmd ⊢
  omega

end

def others (a : ModelInventoryAssembler) (scope : InventoryScope) :
    List (InventoryScope × ModelInventory) :=
  a.complete.toList.filter fun e => e.1.originSite == scope.originSite && e.1 != scope

def partials (a : ModelInventoryAssembler) (origin : String) :
    List (InventoryKey × PendingInventory) :=
  a.pending.toList.filter fun e => e.1.scope.originSite == origin

theorem mem_others {scope : InventoryScope} {e : InventoryScope × ModelInventory} :
    e ∈ a.others scope ↔
      a.complete[e.1]? = some e.2 ∧ e.1.originSite = scope.originSite ∧ e.1 ≠ scope := by
  rw [others, List.mem_filter, ExtTreeMap.mem_toList_iff_getElem?_eq_some, Bool.and_eq_true,
    beq_iff_eq, bne_iff_ne]

theorem mem_partials {origin : String} {e : InventoryKey × PendingInventory} :
    e ∈ a.partials origin ↔ a.pending[e.1]? = some e.2 ∧ e.1.scope.originSite = origin := by
  rw [partials, List.mem_filter, ExtTreeMap.mem_toList_iff_getElem?_eq_some, beq_iff_eq]

theorem nodup_others (scope : InventoryScope) : ((a.others scope).map Prod.fst).Nodup :=
  (List.filter_sublist.map _).nodup (nodup_map_fst_toList _)

theorem nodup_partials (origin : String) : ((a.partials origin).map Prod.fst).Nodup :=
  (List.filter_sublist.map _).nodup (nodup_map_fst_toList _)

section Limits

variable (h : HeldFrom c o unexpired recent a) (hfit : FitTogether unexpired recent)
  (horigin : (fromInventory inventory).originSite = o)
include h hfit horigin

theorem HeldFrom.heldScopes_lt (hmem : inventory ∈ recent) :
    (a.revisionFloor.keys.countP fun held =>
      held.originSite == (fromInventory inventory).originSite &&
        held != .fromInventory inventory) < maxOriginProviderInventories := by
  rw [List.countP_eq_length_filter]
  generalize hss : (a.revisionFloor.keys.filter fun held =>
    held.originSite == (fromInventory inventory).originSite &&
      held != .fromInventory inventory) = scopes
  have hsc : ∀ scope ∈ scopes, scope.originSite = o ∧ scope ≠ .fromInventory inventory ∧
      ∃ held, a.revisionFloor[scope]? = some held := by
    intro scope hsc
    rw [← hss, List.mem_filter, mem_keys_iff, Bool.and_eq_true, beq_iff_eq, bne_iff_ne,
      horigin] at hsc
    exact ⟨hsc.2.1, hsc.2.2, hsc.1⟩
  have hnd : (fromInventory inventory :: scopes).Nodup := by
    rw [List.nodup_cons]
    refine ⟨fun hsl => (hsc _ hsl).2.1 rfl, ?_⟩
    rw [← hss]
    exact ExtTreeMap.nodup_keys.filter _
  have hsub : (fromInventory inventory :: scopes) ⊆
      (recent.map fromInventory).dedup := by
    intro scope hcn
    rw [List.mem_dedup, List.mem_map]
    rcases List.mem_cons.mp hcn with rfl | hhl
    · exact ⟨inventory, hmem, rfl⟩
    · obtain ⟨hst, -, held, hfl⟩ := hsc scope hhl
      obtain ⟨other, hot, hfr, -⟩ := h.floor scope held hst hfl
      exact ⟨other, hot, hfr⟩
  have hlen := (hnd.subperm hsub).length_le
  have hlm := hfit.scopes
  rw [List.length_cons] at hlen
  omega

/-- The models of the origin: those of the other complete inventories, and the new ones. -/
theorem HeldFrom.heldNames_le (hmem : inventory ∈ unexpired) :
    ((a.others (.fromInventory inventory)).map fun e => e.2.models.length).sum +
      inventory.canonical.models.length ≤ maxOriginModelPairs := by
  have hnm : (((fromInventory inventory, inventory.canonical) ::
      a.others (.fromInventory inventory)).map Prod.fst).Nodup := by
    rw [List.map_cons, List.nodup_cons]
    refine ⟨fun hsl => ?_, nodup_others _⟩
    obtain ⟨e, he, heq⟩ := List.mem_map.mp hsl
    exact (mem_others.mp he).2.2 heq
  have hch : (((fromInventory inventory, inventory.canonical) ::
      a.others (.fromInventory inventory)).map fun e => e.2.models.length).sum ≤
      (unexpired.map fun i => i.models.length).sum := by
    apply sum_le_of_charge fromInventory hnm
    intro e he
    rcases List.mem_cons.mp he with rfl | he
    · exact ⟨inventory, hmem, rfl, Nat.le_of_eq (length_canonical inventory)⟩
    · obtain ⟨hcm, hst, -⟩ := mem_others.mp he
      obtain ⟨other, hot, hfr, heq, -⟩ :=
        h.complete e.1 e.2 (hst.trans horigin) hcm
      exact ⟨other, hot, hfr, heq ▸ Nat.le_of_eq (length_canonical other)⟩
  have hlm := hfit.models
  simp only [List.map_cons, List.sum_cons] at hch
  omega

/-- The name bytes of the origin: those of the other complete inventories, of the new one and
of the partial ones.  No revision is counted twice. -/
theorem HeldFrom.heldBytes_le (hmem : inventory ∈ unexpired)
    (hnn : a.pending[inventory.key]? = none) :
    ((a.others (.fromInventory inventory)).map fun e => nameBytes e.2.models).sum +
      nameBytes inventory.canonical.models +
      ((a.partials (fromInventory inventory).originSite).map
        fun e => ((values e.2.frames).map nameBytes).sum).sum ≤ maxOriginInventoryNameBytes := by
  rw [horigin]
  let complete : InventoryScope × ModelInventory → InventoryKey × Nat :=
    fun e => (⟨e.1, e.2.revision⟩, nameBytes e.2.models)
  let pending : InventoryKey × PendingInventory → InventoryKey × Nat :=
    fun e => (e.1, ((values e.2.frames).map nameBytes).sum)
  -- every revision that is held, with its name bytes
  generalize hes : (inventory.key, nameBytes inventory.canonical.models) ::
    ((a.others (.fromInventory inventory)).map complete ++ (a.partials o).map pending) = entries
  have hnm : (entries.map Prod.fst).Nodup := by
    have hcm : (((a.others (.fromInventory inventory)).map complete).map Prod.fst).Nodup := by
      apply List.Nodup.of_map InventoryKey.scope
      rw [List.map_map, List.map_map]
      exact nodup_others _
    have hpn : (((a.partials o).map pending).map Prod.fst).Nodup := by
      rw [List.map_map]
      exact nodup_partials o
    rw [← hes, List.map_cons, List.nodup_cons, List.map_append, List.nodup_append]
    refine ⟨fun hsl => ?_, hcm, hpn, ?_⟩
    · rcases List.mem_append.mp hsl with hsl | hsl
      · simp only [List.map_map, List.mem_map] at hsl
        obtain ⟨e, he, heq⟩ := hsl
        exact (mem_others.mp he).2.2 (congrArg InventoryKey.scope heq)
      · simp only [List.map_map, List.mem_map] at hsl
        obtain ⟨e, he, heq⟩ := hsl
        obtain ⟨hhl, -⟩ := mem_partials.mp he
        have hkey : e.1 = inventory.key := heq
        rw [hkey, hnn] at hhl
        cases hhl
    · -- a partial inventory is above the floor, and a complete one at it
      simp only [List.map_map, List.mem_map]
      rintro _ ⟨e, he, rfl⟩ _ ⟨e', he', rfl⟩ heq
      have hkey : e'.1 = ⟨e.1, e.2.revision⟩ := heq.symm
      obtain ⟨hcm, hst, -⟩ := mem_others.mp he
      obtain ⟨hpn, hst'⟩ := mem_partials.mp he'
      obtain ⟨other, -, -, hcan, floor, hfl, hrev, -⟩ :=
        h.complete e.1 e.2 (hst.trans horigin) hcm
      have hlt := (h.pending e'.1 e'.2 hst' hpn).2 floor (by rw [hkey]; exact hfl)
      have heq : e'.1.revision = floor.revision := by
        rw [hkey, hrev, hcan]
        rfl
      rw [heq] at hlt
      exact UInt64.lt_irrefl _ hlt
  have hch : (entries.map Prod.snd).sum ≤ (unexpired.map fun i => nameBytes i.models).sum := by
    apply sum_le_of_charge ModelInventory.key hnm
    intro entry hen
    rw [← hes] at hen
    rcases List.mem_cons.mp hen with rfl | hen
    · exact ⟨inventory, hmem, rfl, Nat.le_of_eq (nameBytes_canonical inventory)⟩
    rcases List.mem_append.mp hen with hen | hen
    · obtain ⟨e, he, rfl⟩ := List.mem_map.mp hen
      obtain ⟨hcm, hst, -⟩ := mem_others.mp he
      obtain ⟨other, hot, hfr, hcan, -⟩ :=
        h.complete e.1 e.2 (hst.trans horigin) hcm
      refine ⟨other, hot, ?_, ?_⟩
      · show other.key = ⟨e.1, e.2.revision⟩
        rw [ModelInventory.key, hfr, hcan]
        rfl
      · show nameBytes e.2.models ≤ _
        rw [hcan, nameBytes_canonical]
    · obtain ⟨e, he, rfl⟩ := List.mem_map.mp hen
      obtain ⟨hpn, hst⟩ := mem_partials.mp he
      obtain ⟨⟨other, hot, hkey, hpr, -⟩, -⟩ := h.pending e.1 e.2 hst hpn
      exact ⟨other, hot, hkey, hpr.nameBytes_le⟩
  have hlm := hfit.bytes
  have hsum : (entries.map Prod.snd).sum = nameBytes inventory.canonical.models +
      (((a.others (.fromInventory inventory)).map fun e => nameBytes e.2.models).sum +
        ((a.partials o).map fun e => ((values e.2.frames).map nameBytes).sum).sum) := by
    rw [← hes, List.map_cons, List.map_append, List.sum_cons, List.sum_append, List.map_map,
      List.map_map]
    rfl
  omega

/-- **A complete inventory can always be retained**, if the published ones fit together. -/
theorem HeldFrom.canRetain (hmem : inventory ∈ unexpired) (hrc : inventory ∈ recent)
    (hnn : a.pending[inventory.key]? = none) :
    a.canRetainInventory (.fromInventory inventory) inventory.canonical = true := by
  have hsc := h.heldScopes_lt hfit horigin hrc
  have hnm := h.heldNames_le hfit horigin hmem
  have hby := h.heldBytes_le hfit horigin hmem hnn
  simp only [canRetainInventory, Bool.and_eq_true, decide_eq_true_eq]
  exact ⟨⟨hsc, hnm⟩, hby⟩

end Limits

/-! ### Deliveries -/

theorem unexpired_of_checkFrame (hpc : PieceOf c inventory p.1)
    (hch : a.checkFrame p.1 p.2 = .ok ()) : p.2 < inventory.expiresAtMs := by
  obtain ⟨hfr, -⟩ := valid_of_checkFrame hch
  unfold validateFrame at hfr
  split_ifs at hfr with _ _ _ hexpired
  rw [← hpc.expires]
  exact not_le.mp hexpired

section Pieces

variable (h : HeldFrom c o published published a) (hmem : inventory ∈ published)
  (hpc : PieceOf c inventory p.1)
include h hmem hpc

theorem HeldFrom.assembly (hpub : PublishedBy c o published) :
    PartOf c inventory (a.assemblyOf p.1 p.2) := by
  unfold assemblyOf
  rcases hpn : a.pending[keyOf p.1]? with - | pending
  · exact .started hpc p.2
  · have horigin : (keyOf p.1).scope.originSite = o := by
      rw [hpc.keyOf_eq]
      exact hpub.origin inventory hmem
    obtain ⟨⟨other, hot, hkey, hpr, -⟩, -⟩ := h.pending _ pending horigin hpn
    have hsm : other.key = inventory.key := hkey.trans hpc.keyOf_eq
    rw [hpub.revisions other hot inventory hmem hsm] at hpr
    exact hpr

/-- The assembler once a piece is retained. -/
theorem HeldFrom.insert (hch : a.checkFrame p.1 p.2 = .ok ()) (hpr : PartOf c inventory pending)
    (hms : pending.frames.size ≠ pending.frameCount.toNat) :
    HeldFrom c o published published
      { a.outdated p.1 with
        pending := (a.outdated p.1).pending.insert (keyOf p.1) pending } where
  unblocked := h.unblocked
  pending key held hkey hhl := by
    simp only [getElem?_insert] at hhl
    split_ifs at hhl with hsm
    · cases hhl
      refine ⟨⟨inventory, hmem, hpc.keyOf_eq.symm.trans hsm, hpr, hms⟩, ?_⟩
      rw [← hsm]
      exact (valid_of_checkFrame hch).2.2.2
    · exact (h.outdated p.1).pending key held hkey hhl
  complete := h.complete
  floor := h.floor

theorem HeldFrom.publish (hch : a.checkFrame p.1 p.2 = .ok ())
    (hdn : completed (keyOf p.1) pending = inventory.canonical) :
    HeldFrom c o published published (a.published p.1 pending p.2) where
  unblocked := h.unblocked
  pending key held hkey hhl := by
    rw [pending_published] at hhl
    obtain ⟨hpr, hfl⟩ := (h.dropped p.1).pending key held hkey hhl
    refine ⟨hpr, fun floor hfl' => ?_⟩
    rw [revisionFloor_published] at hfl'
    split_ifs at hfl' with hsc
    · -- only later revisions of the completed scope are left
      rw [pending_dropped] at hhl
      split_ifs at hhl with hle
      rw [← some.inj hfl']
      exact not_le.mp fun h => hle ⟨hsc.symm, h⟩
    · exact hfl floor hfl'
  complete scope held hsc hhl := by
    have hrt := replayDeadline_mono (le_of_lt (unexpired_of_checkFrame hpc hch))
    rw [complete_published] at hhl
    rw [revisionFloor_published]
    split_ifs at hhl ⊢ with hsm
    · exact ⟨inventory, hmem, hpc.scope.symm.trans hsm,
        (some.inj hhl).symm.trans hdn, _, rfl, hpc.revision, hrt⟩
    · exact h.complete scope held hsc hhl
  floor scope held hsc hhl := by
    have hrt := replayDeadline_mono (le_of_lt (unexpired_of_checkFrame hpc hch))
    rw [revisionFloor_published] at hhl
    split_ifs at hhl with hsm
    · exact ⟨inventory, hmem, hpc.scope.symm.trans hsm, some.inj hhl ▸ hrt⟩
    · exact h.floor scope held hsc hhl

variable (hpub : PublishedBy c o published)
  (hfit : FitTogether (unexpiredAt p.2 published) (recentAt p.2 published))
include hpub hfit

/-- **There is room for a frame of a published inventory**, if those published fit together. -/
theorem HeldFrom.hasRoom : (a.prune p.2).HasRoom c p.1 p.2 where
  frames _ _ := by
    have horigin : p.1.originSite = o :=
      (congrArg originSite hpc.scope).trans (hpub.origin inventory hmem)
    rw [horigin]
    exact (h.prune.outdated p.1).pendingFrames_lt hfit
  inventory pending hret hwh _ := by
    obtain ⟨_, hins, hpt, -, -⟩ := (h.prune_published.assembly hmem hpc hpub).insert hpc
    obtain rfl := Except.ok.inj (hins.symm.trans hret.inserted)
    have hlt := unexpired_of_checkFrame hpc hret.checked
    have hnn : ((a.prune p.2).dropped p.1).pending[inventory.key]? = none := by
      rw [pending_dropped, if_pos]
      exact ⟨hpc.scope.symm, le_of_eq hpc.revision.symm⟩
    rw [hpc.scope, hpt.completed_eq hwh hpc.scope hpc.revision]
    exact (h.prune.dropped p.1).canRetain hfit (hpub.origin inventory hmem)
      (List.mem_filter.mpr ⟨hmem, decide_eq_true hlt⟩) (mem_recentAt hmem hlt) hnn

/-- **A frame of a published inventory exceeds no limit.** -/
theorem HeldFrom.deliver_piece :
    a.Spared c o p ∧ HeldFrom c o published published (a.deliver c p) := by
  have hpr : HeldFrom c o published published (a.prune p.2) := h.prune_published
  have hrm := h.hasRoom hmem hpc hpub hfit
  have horigin : p.1.originSite = o :=
    (congrArg originSite hpc.scope).trans (hpub.origin inventory hmem)
  obtain ⟨pending, hins, hpt, -, -⟩ :=
    (hpr.assembly hmem hpc hpub).insert hpc
  have hdn : pending.frames.size = pending.frameCount.toNat →
      completed (keyOf p.1) pending = inventory.canonical :=
    fun hwh => hpt.completed_eq hwh hpc.scope hpc.revision
  have hout := push_outcome c a p.1 p.2
  unfold Spared answer deliver
  generalize a.push c p.1 p.2 = result at hout ⊢
  cases hout with
  | refused href =>
    refine ⟨fun _ e he => ?_, hpr⟩
    cases he
    exact isCapacity_of_checkFrame (horigin ▸ hpr.unblocked) href
  | full hch hhl hfl => exact absurd (hrm.frames hch hhl) (Nat.not_lt_of_le hfl)
  | conflicting _ hcn =>
    rw [hins] at hcn
    cases hcn
  | retained hret hms =>
    obtain rfl := Except.ok.inj (hins.symm.trans hret.inserted)
    exact ⟨(fun _ e he => nomatch he), hpr.insert hmem hpc hret.checked hpt hms⟩
  | invalid hret hwh hinv =>
    obtain rfl := Except.ok.inj (hins.symm.trans hret.inserted)
    rw [hdn hwh, hpt.digest, (hpub.framed inventory hmem).valid] at hinv
    cases hinv
  | excess hret hwh hvl hexcess =>
    rw [hrm.inventory _ hret hwh hvl] at hexcess
    cases hexcess
  | complete hret hwh _ _ =>
    obtain rfl := Except.ok.inj (hins.symm.trans hret.inserted)
    exact ⟨(fun _ e he => nomatch he), hpr.publish hmem hpc hret.checked (hdn hwh)⟩

end Pieces

/-- The pushes of an origin carry frames cut from what it published, in any order and any number
of times, among frames of other origins. -/
def DeliveryOf (c : Crypto) (o : String) (published : List ModelInventory) (l : List Push) :
    Prop :=
  ∀ p ∈ l, p.1.originSite = o → ∃ inventory ∈ published, ∃ frames frame,
    inventory.frames c = .ok frames ∧ frame ∈ frames ∧ p.1.Carries inventory frame

/-- At each push of the origin, what was sent until then and can still be held fits together. -/
def FitsAlong (o : String) (published : List ModelInventory) (pushes l : List Push) : Prop :=
  Along (fun pushes p => pushes ++ [p])
    (fun pushes p => p.1.originSite = o →
      FitTogether (unexpiredAt p.2 (sentIn (pushes ++ [p]) published))
        (recentAt p.2 (sentIn (pushes ++ [p]) published)))
    pushes l

instance (o : String) (published : List ModelInventory) (pushes l : List Push) :
    Decidable (FitsAlong o published pushes l) := by
  unfold FitsAlong
  infer_instance

variable {pushes l : List Push}

theorem sentIn_subset (pushes : List Push) (published : List ModelInventory) :
    sentIn pushes published ⊆ published :=
  List.filter_subset_self published

theorem sentIn_subset_append (pushes l : List Push) (published : List ModelInventory) :
    sentIn pushes published ⊆ sentIn (pushes ++ l) published := by
  intro inventory hmem
  rw [sentIn, List.mem_filter, List.any_append, Bool.or_eq_true] at *
  exact ⟨hmem.1, .inl hmem.2⟩

theorem mem_sentIn_append (pushes : List Push) (hmem : inventory ∈ published)
    (hpc : PieceOf c inventory p.1) :
    inventory ∈ sentIn (pushes ++ [p]) published := by
  rw [sentIn, List.mem_filter, List.any_append, Bool.or_eq_true]
  refine ⟨hmem, .inr ?_⟩
  rw [List.any_cons, List.any_nil, Bool.or_false]
  exact decide_eq_true hpc.keyOf_eq

/-- **Along a run** every push has room and is spared, and what is held was sent. -/
theorem HeldFrom.run
    (h : HeldFrom c o (sentIn pushes published) (sentIn pushes published) a)
    (hpub : PublishedBy c o published) (hdel : DeliveryOf c o published l)
    (hft : FitsAlong o published pushes l) :
    Along (deliver c) (fun a p => a.LeavesRoom c o p ∧ a.Spared c o p) a l ∧
      HeldFrom c o (sentIn (pushes ++ l) published) (sentIn (pushes ++ l) published)
        (Run.run (deliver c) a l) := by
  induction l generalizing a pushes with
  | nil =>
    rw [List.append_nil]
    exact ⟨trivial, h⟩
  | cons p l ih =>
    have hsub := sentIn_subset_append pushes [p] published
    have hmn := h.mono hsub hsub
    have hst : (a.LeavesRoom c o p ∧ a.Spared c o p) ∧
        HeldFrom c o (sentIn (pushes ++ [p]) published) (sentIn (pushes ++ [p]) published)
          (a.deliver c p) := by
      by_cases horigin : p.1.originSite = o
      · obtain ⟨inventory, hmem, frames, frame, hfr, hfm, hcar⟩ :=
          hdel p List.mem_cons_self horigin
        have hpc := hcar.pieceOf hfr hfm
        have hsn := mem_sentIn_append pushes hmem hpc
        have hps := hpub.mono (sentIn_subset (pushes ++ [p]) published)
        obtain ⟨hsp, hhl⟩ := hmn.deliver_piece hsn hpc hps (hft.1 horigin)
        exact ⟨⟨fun _ => hmn.hasRoom hsn hpc hps (hft.1 horigin), hsp⟩, hhl⟩
      · exact ⟨⟨fun heq => absurd heq horigin, fun heq => absurd heq horigin⟩,
          hmn.deliver_other horigin⟩
    obtain ⟨hrm, hhl⟩ := ih hst.2 (List.forall_mem_cons.mp hdel).2 hft.2
    rw [List.append_cons]
    exact ⟨⟨hst.1, hrm⟩, hhl⟩

theorem heldFrom_empty : HeldFrom c o published published {} where
  unblocked := rfl
  pending key pending _ hpn := by
    cases hpn
  complete scope held _ hhl := by
    cases hhl
  floor scope held _ hhl := by
    cases hhl

/-! ### Honest origins -/

/-- What an origin publishes from instant to instant: at each one within its limits, one
inventory for each scope, and an inventory that replaces another has a larger revision. -/
structure Honest (c : Crypto) (o : String) (publications : List (List ModelInventory)) :
    Prop where
  origin : ∀ published ∈ publications, ∀ inventory ∈ published, inventory.originSite = o
  framed : ∀ published ∈ publications, ∀ inventory ∈ published, inventory.Framed c
  within : ∀ published ∈ publications, FitTogether published published
  scopes : ∀ published ∈ publications, (published.map fromInventory).Nodup
  increasing : publications.Pairwise fun earlier later => ∀ old ∈ earlier, ∀ new ∈ later,
    fromInventory old = .fromInventory new → old = new ∨ old.revision < new.revision

def history (publications : List (List ModelInventory)) : List ModelInventory :=
  publications.flatten.dedup

variable {publications : List (List ModelInventory)}

theorem mem_history : inventory ∈ history publications ↔
    ∃ published ∈ publications, inventory ∈ published := by
  rw [history, List.mem_dedup, List.mem_flatten]

/-- A revision is given to one inventory of two instants. -/
def AgreeOnRevisions (earlier later : List ModelInventory) : Prop :=
  ∀ old ∈ earlier, ∀ new ∈ later, old.key = new.key → old = new

instance : Std.Symm AgreeOnRevisions where
  symm _ _ h old hold new hnew hkey := (h new hnew old hold hkey.symm).symm

/-- An honest origin gives a revision to one inventory. -/
theorem Honest.agreeOnRevisions (h : Honest c o publications) :
    ∀ ⦃earlier⦄, earlier ∈ publications → ∀ ⦃later⦄, later ∈ publications →
      AgreeOnRevisions earlier later := by
  apply List.Pairwise.forall_of_forall
  · intro published hpub old hold new hnew hkey
    exact List.inj_on_of_nodup_map (h.scopes published hpub) hold hnew
      (congrArg InventoryKey.scope hkey)
  · refine h.increasing.imp fun hlr old hold new hnew hkey => ?_
    rcases hlr old hold new hnew (congrArg InventoryKey.scope hkey) with heq | hlt
    · exact heq
    · have hrev : old.revision = new.revision := congrArg InventoryKey.revision hkey
      rw [hrev] at hlt
      exact absurd hlt (UInt64.lt_irrefl _)

theorem Honest.publishedBy (h : Honest c o publications) :
    PublishedBy c o (history publications) where
  origin inventory hmem := by
    obtain ⟨published, hpub, hmem⟩ := mem_history.mp hmem
    exact h.origin published hpub inventory hmem
  framed inventory hmem := by
    obtain ⟨published, hpub, hmem⟩ := mem_history.mp hmem
    exact h.framed published hpub inventory hmem
  revisions old hold new hnew hkey := by
    obtain ⟨earlier, hea, hold⟩ := mem_history.mp hold
    obtain ⟨later, hlt, hnew⟩ := mem_history.mp hnew
    exact h.agreeOnRevisions hea hlt old hold new hnew hkey

/-- **An honest origin is never blocked while its revisions fit together.**  If at each push the
inventories of which a frame was sent and that have not expired, old and new counted separately,
are within the limits, no push of its frames exceeds one. -/
theorem honest_origin_never_blocked (hhonest : Honest c o publications)
    (hdelivery : DeliveryOf c o (history publications) l)
    (hfits : FitsAlong o (history publications) [] l) :
    Along (deliver c) (Spared c o) {} l ∧
      ∀ l₁ l₂, l = l₁ ++ l₂ →
        (Run.run (deliver c) {} l₁).blockedOrigins.contains o = false := by
  constructor
  · have hrn := (heldFrom_empty.run hhonest.publishedBy hdelivery hfits).1
    rw [along_iff_forall] at hrn ⊢
    exact fun l₁ p l₂ heq => (hrn l₁ p l₂ heq).2
  · rintro l₁ l₂ rfl
    have hbf : ∀ p ∈ l₁, p ∈ l₁ ++ l₂ := fun p hp => List.mem_append_left _ hp
    exact (heldFrom_empty.run hhonest.publishedBy (fun p hp => hdelivery p (hbf p hp))
      (along_append.mp hfits).1).2.unblocked

def oneModel : ModelInventory := { twoModels with revision := 3, models := ["c"] }

/-- The new revision arrives before the frames of the old one. -/
theorem honest_origin_never_blocked_overtaken :
    Along (deliver crypto) (Spared crypto "east") {}
      ((⟨1, "east", "grid", oneModel.frameAt crypto 0 ["c"]⟩, 1) :: twoModelsRun) := by
  have hfr : oneModel.frames crypto =
      .ok [oneModel.frameAt crypto 0 ["c"]] := by decide +kernel
  have hhn : Honest crypto "east" [[twoModels], [oneModel]] :=
    ⟨by decide, by decide +kernel, by decide +kernel, by decide, by decide⟩
  refine (honest_origin_never_blocked hhn ?_ (by decide +kernel)).1
  intro p hp _
  simp only [twoModelsRun, List.mem_cons, List.not_mem_nil, or_false] at hp
  rcases hp with rfl | rfl | rfl | rfl
  · exact ⟨oneModel, by decide, _, _, hfr, List.mem_singleton_self _, rfl, rfl, rfl⟩
  · exact ⟨twoModels, by decide, _, (twoModelsFrame 1 "b").frame, twoModels_frames, by simp, rfl,
      rfl, rfl⟩
  · exact ⟨twoModels, by decide, _, (twoModelsFrame 1 "b").frame, twoModels_frames, by simp, rfl,
      rfl, rfl⟩
  · exact ⟨twoModels, by decide, _, (twoModelsFrame 0 "a").frame, twoModels_frames, by simp, rfl,
      rfl, rfl⟩

/-! ### A reallocation -/

/-- The models of a complete inventory leave no room for those of another scope: its frame blocks
the origin. -/
theorem blocked_of_no_room {old new : ModelInventory} (h : HeldFrom c o published published a)
    (hfit : FitTogether (unexpiredAt p.2 published) (recentAt p.2 published))
    (hcm : a.complete[fromInventory old]? = some old.canonical)
    (hold : old.originSite = o) (hfh : p.2 < old.expiresAtMs)
    (hpc : PieceOf c new p.1) (hfr : new.Framed c) (hlen : new.models.length = 1)
    (hnew : new.originSite = o) (hfh' : p.2 < new.expiresAtMs)
    (hot : ∀ inventory ∈ published,
      fromInventory inventory ≠ .fromInventory new)
    (hexcess : maxOriginModelPairs < old.models.length + new.models.length) :
    a.answer c p = .error .inventoryCapacity ∧ (a.deliver c p).blockedOrigins.contains o = true ∧
      ∀ scope : InventoryScope, scope.originSite = o → (a.deliver c p).complete[scope]? = none := by
  have horigin : p.1.originSite = o :=
    (congrArg originSite hpc.scope).trans hnew
  have hpr : HeldFrom c o published published (a.prune p.2) := h.prune_published
  have hfl : (a.prune p.2).revisionFloor[fromInventory new]? = none := by
    rcases hhl : (a.prune p.2).revisionFloor[fromInventory new]? with - | held
    · rfl
    · obtain ⟨inventory, hmem, hsc, -⟩ := hpr.floor _ held hnew hhl
      exact absurd hsc (hot inventory hmem)
  have hpn : (a.prune p.2).pending[keyOf p.1]? = none := by
    rcases hhl : (a.prune p.2).pending[keyOf p.1]? with - | held
    · rfl
    · obtain ⟨⟨inventory, hmem, hkey, -⟩, -⟩ :=
        hpr.pending _ held (by rw [hpc.keyOf_eq]; exact hnew) hhl
      exact absurd (congrArg InventoryKey.scope (hkey.trans hpc.keyOf_eq)) (hot inventory hmem)
  have hst : (a.prune p.2).assemblyOf p.1 p.2 = started p.1 p.2 := by
    unfold assemblyOf
    rw [hpn, getD_none]
  obtain ⟨pending, hins, hpt, -, hfs⟩ := (PartOf.started hpc p.2).insert hpc
  rw [← hst] at hins
  -- the inventory has one piece
  have hwh : pending.frames.size = pending.frameCount.toNat := by
    rw [hpt.size_eq_iff hfr]
    intro index hin
    have hlt := hpc.index_lt
    rw [ModelInventory.length_frameNames, new.perm_sorted.length_eq, hlen] at hin hlt
    rw [hfs, ← UInt16.toNat_inj]
    exact .inl (by omega)
  have hdn := hpt.completed_eq hwh hpc.scope hpc.revision
  have hnr : ((a.prune p.2).dropped p.1).canRetainInventory (scopeOf p.1) new.canonical =
      false := by
    have hhl : (fromInventory old, old.canonical) ∈
        ((a.prune p.2).dropped p.1).others (.fromInventory new) := by
      have hpd : (a.prune p.2).complete[fromInventory old]? =
          some old.canonical := by
        rw [complete_prune, hcm]
        exact filter_eq_some_iff.mpr ⟨rfl, decide_eq_true hfh⟩
      obtain ⟨inventory, hmem, hsc, -⟩ := hpr.complete _ _ hold hpd
      exact mem_others.mpr ⟨hpd, hold.trans hnew.symm, hsc ▸ hot inventory hmem⟩
    have hsum := List.le_sum_of_mem (List.mem_map_of_mem (f := fun e => e.2.models.length) hhl)
    have hnm : ¬ ((((a.prune p.2).dropped p.1).others (.fromInventory new)).map
        fun e => e.2.models.length).sum + new.canonical.models.length ≤ maxOriginModelPairs := by
      rw [length_canonical] at hsum ⊢
      omega
    unfold others at hnm
    rw [hpc.scope, canRetainInventory, decide_eq_false hnm, Bool.and_false, Bool.false_and]
  have hout := push_outcome c a p.1 p.2
  unfold answer deliver
  generalize a.push c p.1 p.2 = result at hout ⊢
  cases hout with
  | refused href =>
    rw [checkFrame_pieceOf hfr hpc hfh' (hnew ▸ hpr.unblocked), hfl] at href
    cases href
  | full _ _ hfu =>
    have hlt := (h.prune.outdated p.1).pendingFrames_lt hfit
    rw [horigin] at hfu
    omega
  | conflicting _ hcn =>
    rw [hins] at hcn
    cases hcn
  | retained hret hms =>
    obtain rfl := Except.ok.inj (hins.symm.trans hret.inserted)
    exact absurd hwh hms
  | invalid hret _ hinv =>
    obtain rfl := Except.ok.inj (hins.symm.trans hret.inserted)
    rw [hdn, hpt.digest, hfr.valid] at hinv
    cases hinv
  | excess =>
    rw [horigin]
    refine ⟨rfl, ExtTreeMap.contains_insert_self, fun scope hsc => ?_⟩
    rw [complete_blockOrigin, if_pos hsc]
  | complete hret _ _ hrm =>
    obtain rfl := Except.ok.inj (hins.symm.trans hret.inserted)
    rw [hdn, hnr] at hrm
    cases hrm

/-- Names of one character each, in order. -/
def oneCharNames (start count : Nat) : List String :=
  (List.range' start count).map fun n => String.singleton (Char.ofNat n)

/-- A provider with all the models an origin may have, -/
def allModels : ModelInventory :=
  ⟨"east", "grid", "net", "p1", "uid", 1, 1000, oneCharNames 0x4E00 256⟩

/-- the same provider with one model fewer, -/
def fewerModels : ModelInventory :=
  { allModels with revision := 2, models := oneCharNames 0x4E00 255 }

/-- and a provider to which that model has moved. -/
def movedModel : ModelInventory :=
  ⟨"east", "grid", "net", "p2", "uid", 1, 1000, oneCharNames 0x4EFF 1⟩

def reallocation : List (List ModelInventory) :=
  [[allModels], [fewerModels, movedModel]]

theorem honest_reallocation : Honest crypto "east" reallocation :=
  ⟨by decide, by decide +kernel, by decide +kernel, by decide, by decide⟩

def framesAt (nowMs : UInt64) (inventory : ModelInventory) : List Push :=
  (inventory.frameNames.mapIdx (inventory.frameAt crypto)).map fun frame =>
    (⟨1, inventory.originSite, inventory.gridId, frame⟩, nowMs)

theorem carries_framesAt {p : Push} (hp : p ∈ framesAt nowMs inventory) :
    p.2 = nowMs ∧ ∃ frame ∈ inventory.frameNames.mapIdx (inventory.frameAt crypto),
      p.1.Carries inventory frame := by
  obtain ⟨frame, hfr, rfl⟩ := List.mem_map.mp hp
  refine ⟨rfl, frame, hfr, rfl, rfl, ?_⟩
  obtain ⟨index, _, rfl⟩ := List.mem_mapIdx.mp hfr
  rfl

theorem deliveryOf_framesAt (hfr : inventory.Framed crypto)
    (hmem : inventory ∈ published) :
    DeliveryOf crypto o published (framesAt nowMs inventory) := by
  intro p hp _
  obtain ⟨-, frame, hfm, hcar⟩ := carries_framesAt hp
  exact ⟨inventory, hmem, _, frame, ModelInventory.frames_eq_ok.mpr ⟨hfr, rfl⟩, hfm, hcar⟩

theorem assembled_framesAt (hfr : inventory.Framed crypto)
    (hfh : nowMs < inventory.expiresAtMs)
    (hfit : FitTogether (unexpiredAt nowMs [inventory]) (recentAt nowMs [inventory])) :
    HeldFrom crypto inventory.originSite [inventory] [inventory]
        (Run.run (deliver crypto) {} (framesAt nowMs inventory)) ∧
      Assembled inventory (Run.run (deliver crypto) {} (framesAt nowMs inventory)) := by
  have hfs := ModelInventory.frames_eq_ok.mpr ⟨hfr, rfl⟩
  have hpub : PublishedBy crypto inventory.originSite [inventory] := by
    refine ⟨fun i hi => ?_, fun i hi => ?_, fun i hi j hj _ => ?_⟩
    · rw [List.mem_singleton.mp hi]
    · rwa [List.mem_singleton.mp hi]
    · rw [List.mem_singleton.mp hi, List.mem_singleton.mp hj]
  have hdel : DeliveryOf crypto inventory.originSite [inventory]
      (framesAt nowMs inventory) := deliveryOf_framesAt hfr (List.mem_singleton_self _)
  have hft : FitsAlong inventory.originSite [inventory] [] (framesAt nowMs inventory) := by
    refine along_iff_forall.mpr fun l₁ p l₂ heq _ => ?_
    have hp : p ∈ framesAt nowMs inventory := by simp [heq]
    obtain ⟨htm, frame, hfm, hcar⟩ := carries_framesAt hp
    -- the push itself carries a frame of the one inventory
    have hsn : ∀ pushes, sentIn (pushes ++ [p]) [inventory] = [inventory] := by
      intro pushes
      rw [sentIn, List.filter_eq_self]
      rintro _ hi
      exact (List.mem_filter.mp (mem_sentIn_append pushes hi
        (List.mem_singleton.mp hi ▸ hcar.pieceOf hfs hfm))).2
    rw [hsn, htm]
    exact hfit
  obtain ⟨hrn, hhl⟩ := heldFrom_empty.run hpub hdel hft
  have hrm : Along (deliver crypto) (LeavesRoom crypto inventory.originSite) {}
      (framesAt nowMs inventory) :=
    along_iff_forall.mpr fun l₁ p l₂ heq => (along_iff_forall.mp hrn l₁ p l₂ heq).1
  have hsub := sentIn_subset ([] ++ framesAt nowMs inventory) [inventory]
  have hrd : Ready inventory {} := by
    refine ⟨fun _ _ => ExtTreeMap.getElem?_empty, fun held hhl => ?_, rfl⟩
    cases hhl
  have htm : Timely crypto inventory (framesAt nowMs inventory) nowMs := by
    refine ⟨fun p hp _ => ?_, fun p hp => ?_, fun p hp _ => ?_, hfh⟩
    · obtain ⟨-, frame, hfm, hcar⟩ := carries_framesAt hp
      exact hcar.pieceOf hfs hfm
    · rw [(carries_framesAt hp).1]
      exact le_refl _
    · rw [(carries_framesAt hp).1, le_iff_toNat_le, toNat_satSub, Nat.sub_self]
      exact Nat.zero_le _
  refine ⟨hhl.mono hsub hsub, (assembling_run hfr hrd.assembling htm hrm).2 ?_⟩
  rw [allSeen_iff_carries hfs fun p hp _ => (carries_framesAt hp).2]
  intro frame hfm
  have hp := List.mem_map_of_mem (f := fun frame : ModelInventoryFrame =>
    ((⟨1, inventory.originSite, inventory.gridId, frame⟩, nowMs) : Push)) hfm
  refine ⟨_, hp, rfl, rfl, ?_⟩
  obtain ⟨index, _, rfl⟩ := List.mem_mapIdx.mp hfm
  rfl

theorem allModels_fit : ∀ nowMs ∈ ([1, 2] : List UInt64),
    FitTogether (unexpiredAt nowMs [allModels]) (recentAt nowMs [allModels]) := by
  intro nowMs hnow
  rw [List.mem_pair] at hnow
  rcases hnow with rfl | rfl
  · decide +kernel
  · decide +kernel

/-- A model moves between two providers of an honest origin.  The frame of the second provider
arrives before those that take the model from the first, and the origin is blocked. -/
theorem reallocation_blocks_origin :
    ∃ l p, Honest crypto "east" reallocation ∧
      DeliveryOf crypto "east" (history reallocation) (l ++ [p]) ∧
      (Run.run (deliver crypto) {} l).complete[
        fromInventory allModels]? = some allModels.canonical ∧
      (Run.run (deliver crypto) {} l).answer crypto p =
        .error .inventoryCapacity ∧
      (Run.run (deliver crypto) {} (l ++ [p])).blockedOrigins.contains "east" = true ∧
      (Run.run (deliver crypto) {} (l ++ [p])).complete[
        fromInventory allModels]? = none := by
  have hall : allModels.Framed crypto :=
    honest_reallocation.framed [allModels] (by simp [reallocation]) allModels (by simp)
  have hmv : movedModel.Framed crypto :=
    honest_reallocation.framed [fewerModels, movedModel] (by simp [reallocation]) movedModel
      (by simp)
  obtain ⟨hhl, hass⟩ := assembled_framesAt hall (by decide) (allModels_fit 1 (by simp))
  generalize hp : ((⟨1, "east", "grid",
    movedModel.frameAt crypto 0 (oneCharNames 0x4EFF 1)⟩, 2) : Push) = p
  have hls : p ∈ framesAt 2 movedModel := by
    rw [← hp]
    decide +kernel
  refine ⟨framesAt 1 allModels, p, honest_reallocation, ?_, ?_⟩
  · intro q hq hst
    rcases List.mem_append.mp hq with hq | hq
    · exact deliveryOf_framesAt hall (mem_history.mpr ⟨_, List.mem_cons_self, by simp⟩) q hq hst
    · rw [List.mem_singleton.mp hq] at hst ⊢
      exact deliveryOf_framesAt hmv
        (mem_history.mpr ⟨_, List.mem_cons_of_mem _ List.mem_cons_self, by simp⟩) p hls hst
  · obtain ⟨htm, frame, hfr, hcr⟩ := carries_framesAt hls
    have hpc := hcr.pieceOf (ModelInventory.frames_eq_ok.mpr ⟨hmv, rfl⟩) hfr
    rw [run_append, run_cons, run_nil]
    -- only what was assembled matters, not how
    generalize Run.run (deliver crypto) {} (framesAt 1 allModels) = a at hhl hass ⊢
    obtain ⟨han, hbl, hwp⟩ := blocked_of_no_room hhl
      (htm ▸ allModels_fit 2 (by simp)) hass.complete rfl (htm ▸ by decide) hpc hmv
      rfl rfl (htm ▸ by decide) (by decide) (by decide +kernel)
    exact ⟨hass.complete, han, hbl, hwp _ rfl⟩

end ModelInventoryAssembler

end PraxisGrid
