/-
PraxisGrid/Swim/Pieces.lean

The frames of an inventory, and what a partial assembly holds of them.

An inventory on which `frames` succeeds is cut into at most 256 pieces, one name each.  A
partial assembly is part of the inventory when each position it holds has the names of the
inventory at that position (`PartOf`).  Inserting a piece keeps that (`PartOf.insert`), and an
assembly with as many positions as the inventory is the inventory (`PartOf.completed_eq`).
-/
import PraxisGrid.Swim.Assembler

namespace PraxisGrid

open Std OrdMap Bincode Saturate UInt16 ModelInventory

/-! ### Frames of an inventory -/

theorem validateNames_eq_ok {models : List String} :
    validateNames models = .ok () ↔ ∀ model ∈ models, validateNames [model] = .ok () := by
  induction models with
  | nil => simp [validateNames]
  | cons model models ih =>
    rw [List.forall_mem_cons, ← ih]
    simp only [validateNames]
    split_ifs <;> simp

theorem validateComplete_eq_ok {c : Crypto} {inventory : ModelInventory}
    {expected : Vector UInt8 32} :
    validateComplete c inventory expected = .ok () ↔
      inventory.models.length ≤ maxInventoryModels ∧ strictlySorted inventory.models = true ∧
      validateNames inventory.models = .ok () ∧
      nameBytes inventory.models ≤ maxOriginInventoryNameBytes ∧
      digestModels c inventory.models = expected := by
  unfold validateComplete
  by_cases hlen : maxInventoryModels < inventory.models.length
  · simp [hlen]
  by_cases hsr : strictlySorted inventory.models = true
  · rcases hnm : validateNames inventory.models with e | ⟨⟩
    · simp [hlen, hsr]
    · by_cases hby : maxOriginInventoryNameBytes < nameBytes inventory.models
      · simp [hlen, hsr, hby, Nat.not_le.mpr hby]
      · by_cases hdg : digestModels c inventory.models = expected
        · simp [hlen, hsr, hby, hdg, Nat.not_lt.mp hlen, Nat.not_lt.mp hby]
        · simp [hlen, hsr, hby, hdg]
  · simp [hlen, hsr]

namespace ModelInventory

variable {c : Crypto} {inventory : ModelInventory} {frames : List ModelInventoryFrame}

theorem length_frameNames : inventory.frameNames.length = max inventory.sorted.length 1 := by
  unfold frameNames
  split_ifs with hem
  · simp [hem]
  · have hpos : 0 < inventory.sorted.length := List.length_pos_of_ne_nil hem
    rw [List.length_map]
    omega

theorem flatten_frameNames : inventory.frameNames.flatten = inventory.sorted := by
  unfold frameNames
  split_ifs with hem
  · simp [hem]
  · induction inventory.sorted with
    | nil => rfl
    | cons name names ih => simp [ih]

/-- The inventory can be cut into frames. -/
structure Framed (c : Crypto) (inventory : ModelInventory) : Prop where
  valid : validateComplete c inventory.canonical (digestModels c inventory.sorted) = .ok ()
  scope : (InventoryScope.fromInventory inventory).validate = .ok ()

instance (c : Crypto) (inventory : ModelInventory) : Decidable (Framed c inventory) :=
  decidable_of_iff _ ⟨fun h => ⟨h.1, h.2⟩, fun h => And.intro h.valid h.scope⟩

theorem Framed.length_le (h : Framed c inventory) :
    inventory.frameNames.length ≤ maxInventoryFrames := by
  have hlen := (validateComplete_eq_ok.mp h.valid).1
  rw [length_frameNames]
  exact Nat.max_le.mpr ⟨hlen, by decide⟩

/-- Cutting succeeds on the valid inventories, one frame for each piece. -/
theorem frames_eq_ok :
    inventory.frames c = .ok frames ↔
      Framed c inventory ∧ frames = inventory.frameNames.mapIdx (inventory.frameAt c) := by
  have hft : Framed c inventory → ¬ 2 ^ 16 ≤ max inventory.sorted.length 1 := by
    intro h
    have hle := h.length_le
    rw [length_frameNames] at hle
    exact fun h16 => absurd (Nat.le_trans h16 hle) (by decide)
  unfold ModelInventory.frames
  rcases hvl : validateComplete c inventory.canonical (digestModels c inventory.sorted) with e | ⟨⟩
  · constructor
    · nofun
    · rintro ⟨h, -⟩
      rw [h.valid] at hvl
      cases hvl
  rcases hsc : (InventoryScope.fromInventory inventory).validate with e | ⟨⟩
  · constructor
    · nofun
    · rintro ⟨h, -⟩
      rw [h.scope] at hsc
      cases hsc
  · have hfr : Framed c inventory := ⟨hvl, hsc⟩
    show (if _ then _ else _) = _ ↔ _
    rw [if_neg (hft hfr)]
    constructor
    · intro h
      exact ⟨hfr, (Except.ok.inj h).symm⟩
    · rintro ⟨-, rfl⟩
      rfl

end ModelInventory

/-! ### Pieces and partial assemblies -/

def ModelInventoryBroadcast.Carries (b : ModelInventoryBroadcast) (inventory : ModelInventory)
    (frame : ModelInventoryFrame) : Prop :=
  b.originSite = inventory.originSite ∧ b.gridId = inventory.gridId ∧
    { b.frame with signedAtMs := none, signature := none } = frame

open ModelInventoryAssembler

structure PieceOf (c : Crypto) (inventory : ModelInventory) (b : ModelInventoryBroadcast) :
    Prop where
  scope : scopeOf b = InventoryScope.fromInventory inventory
  version : b.frame.version = modelInventoryFrameVersion
  revision : b.frame.inventoryRevision = inventory.revision
  expires : b.frame.expiresAtMs = inventory.expiresAtMs
  count : b.frame.frameCount.toNat = inventory.frameNames.length
  digest : b.frame.inventoryDigest = digestModels c inventory.sorted
  names : inventory.frameNames[b.frame.frameIndex.toNat]? = some b.frame.models

/-- The positions of an assembly that have the names of the inventory there. -/
structure PartOf (c : Crypto) (inventory : ModelInventory) (pending : PendingInventory) :
    Prop where
  expires : pending.expiresAtMs = inventory.expiresAtMs
  count : pending.frameCount.toNat = inventory.frameNames.length
  digest : pending.digest = digestModels c inventory.sorted
  names : ∀ (index : UInt16) (names : List String), pending.frames[index]? = some names →
    inventory.frameNames[index.toNat]? = some names

section Pieces

variable {c : Crypto} {inventory : ModelInventory} {frames : List ModelInventoryFrame}
  {b b' : ModelInventoryBroadcast} {pending pending' : PendingInventory} {nowMs : UInt64}

theorem ModelInventory.Framed.toNat_ofNat (h : inventory.Framed c) {n : Nat}
    (hn : n ≤ inventory.frameNames.length) : (ofNat n).toNat = n := by
  have hlt : n < size := Nat.lt_of_le_of_lt (Nat.le_trans hn h.length_le) (by decide)
  exact toNat_ofNat_of_lt' hlt

theorem ModelInventoryBroadcast.Carries.pieceOf {frame : ModelInventoryFrame}
    (hfs : inventory.frames c = .ok frames) (hmem : frame ∈ frames)
    (h : b.Carries inventory frame) : PieceOf c inventory b := by
  obtain ⟨hfr, rfl⟩ := frames_eq_ok.mp hfs
  obtain ⟨index, hin, rfl⟩ := List.mem_mapIdx.mp hmem
  obtain ⟨horig, hgr, hfm⟩ := h
  have hfl : ∀ {β : Type} (field : ModelInventoryFrame → β),
      field { b.frame with signedAtMs := none, signature := none } =
        field (inventory.frameAt c index inventory.frameNames[index]) :=
    fun field => congrArg field hfm
  refine ⟨?_, hfl (·.version), hfl (·.inventoryRevision), hfl (·.expiresAtMs), ?_,
    hfl (·.inventoryDigest), ?_⟩
  · have hnet := hfl (·.networkId)
    have hpr := hfl (·.providerId)
    have huid := hfl (·.providerUid)
    exact InventoryScope.mk.injEq .. ▸ ⟨horig, hgr, hnet, hpr, huid⟩
  · have hcn : b.frame.frameCount = ofNat (max inventory.sorted.length 1) :=
      hfl (·.frameCount)
    rw [hcn, ← length_frameNames, hfr.toNat_ofNat (Nat.le_refl _)]
  · have hps : b.frame.frameIndex = ofNat index := hfl (·.frameIndex)
    have hmd : b.frame.models = inventory.frameNames[index] := hfl (·.models)
    rw [hps, hfr.toNat_ofNat (Nat.le_of_lt hin), hmd,
      List.getElem?_eq_getElem hin]

theorem ModelInventoryBroadcast.Carries.frameIndex_eq {frame : ModelInventoryFrame}
    (h : b.Carries inventory frame) : b.frame.frameIndex = frame.frameIndex := by
  rw [← h.2.2]

theorem PieceOf.keyOf_eq (h : PieceOf c inventory b) :
    keyOf b = ⟨.fromInventory inventory, inventory.revision⟩ := by
  rw [keyOf, h.scope, h.revision]

theorem PieceOf.index_lt (h : PieceOf c inventory b) :
    b.frame.frameIndex.toNat < inventory.frameNames.length := by
  obtain ⟨hlt, -⟩ := List.getElem?_eq_some_iff.mp h.names
  exact hlt

/-- The names of one frame: at most one, and none only in a single empty frame. -/
theorem ModelInventory.mem_frameNames {names : List String} (h : names ∈ inventory.frameNames) :
    names.length ≤ 1 ∧ (names = [] → inventory.frameNames.length = 1) ∧
      ∀ model ∈ names, model ∈ inventory.sorted := by
  unfold frameNames at h ⊢
  split_ifs at h ⊢ with hem
  · obtain rfl := List.mem_singleton.mp h
    simp
  · obtain ⟨name, hnm, rfl⟩ := List.mem_map.mp h
    simpa using hnm

theorem PieceOf.validateFrame_eq_ok (hfr : inventory.Framed c) (h : PieceOf c inventory b)
    (hfh : nowMs < inventory.expiresAtMs) : validateFrame b.frame nowMs = .ok () := by
  obtain ⟨hone, hem, hsr⟩ :=
    mem_frameNames (List.mem_of_getElem? h.names)
  have hlen := hfr.length_le
  have hin := h.index_lt
  have hnm : validateNames b.frame.models = .ok () := by
    have hall := validateNames_eq_ok.mp (validateComplete_eq_ok.mp hfr.valid).2.2.1
    exact validateNames_eq_ok.mpr fun model hmd => hall model (hsr model hmd)
  have hps : ¬ (b.frame.frameCount = 0 ∨ maxInventoryFrames < b.frame.frameCount.toNat ∨
      b.frame.frameCount ≤ b.frame.frameIndex ∨
      (b.frame.models = [] ∧ b.frame.frameCount ≠ 1)) := by
    simp only [ne_eq, ← UInt16.toNat_inj, UInt16.le_iff_toNat_le, h.count, UInt16.toNat_zero,
      UInt16.toNat_one]
    rintro (hzr | hmn | hby | ⟨hnn, hcn⟩)
    · omega
    · omega
    · omega
    · exact hcn (hem hnn)
  have hexpired : ¬ b.frame.expiresAtMs ≤ nowMs := by
    rw [h.expires]
    exact UInt64.not_le.mpr hfh
  rw [validateFrame, if_neg (not_not.mpr h.version), if_neg hps, if_neg (Nat.not_lt.mpr hone),
    if_neg hexpired, hnm]

theorem PartOf.started (h : PieceOf c inventory b) (nowMs : UInt64) :
    PartOf c inventory (started b nowMs) where
  expires := h.expires
  count := h.count
  digest := h.digest
  names index names hhl := by
    have hnn : (∅ : ExtTreeMap UInt16 (List String))[index]? = some names := hhl
    rw [ExtTreeMap.getElem?_empty] at hnn
    cases hnn

/-- **A piece fits into a part of its inventory**: it fills its position and nothing else. -/
theorem PartOf.insert (h : PartOf c inventory pending) (hpc : PieceOf c inventory b) :
    ∃ pending', pending.insert b.frame = .ok pending' ∧ PartOf c inventory pending' ∧
      pending'.startedAtMs = pending.startedAtMs ∧
      ∀ index, index ∈ pending'.frames ↔ b.frame.frameIndex = index ∨ index ∈ pending.frames := by
  have hag : ¬ (pending.expiresAtMs ≠ b.frame.expiresAtMs ∨
      pending.frameCount ≠ b.frame.frameCount ∨ pending.digest ≠ b.frame.inventoryDigest) := by
    rw [h.expires, hpc.expires, h.digest, hpc.digest, ← UInt16.toNat_inj.ne, h.count,
      hpc.count]
    simp
  unfold PendingInventory.insert
  rw [if_neg hag]
  rcases hhl : pending.frames[b.frame.frameIndex]? with - | held
  · refine ⟨{ pending with frames := pending.frames.insert b.frame.frameIndex b.frame.models },
      rfl, ⟨h.expires, h.count, h.digest, ?_⟩, rfl, ?_⟩
    · intro index names hnm
      simp only [getElem?_insert] at hnm
      split_ifs at hnm with hin
      · rw [← hin, ← Option.some.inj hnm]
        exact hpc.names
      · exact h.names index names hnm
    · intro index
      rw [ExtTreeMap.mem_insert, LawfulEqCmp.compare_eq_iff_eq]
  · -- the position is held, with the names of the inventory
    have hsm : held = b.frame.models := by
      have hnm := h.names _ _ hhl
      rw [hpc.names] at hnm
      exact (Option.some.inj hnm).symm
    refine ⟨pending, ?_, h, rfl, ?_⟩
    · simp only [hsm, ne_eq, not_true_eq_false, if_false]
    · intro index
      constructor
      · exact .inr
      · rintro (rfl | hin)
        · exact ExtTreeMap.mem_iff_isSome_getElem?.mpr (by rw [hhl]; rfl)
        · exact hin

theorem PartOf.toNat_lt (h : PartOf c inventory pending) {index : UInt16}
    (hin : index ∈ pending.frames) : index.toNat < inventory.frameNames.length := by
  obtain ⟨names, hnm⟩ := Option.isSome_iff_exists.mp
    (ExtTreeMap.mem_iff_isSome_getElem?.mp hin)
  obtain ⟨hlt, -⟩ := List.getElem?_eq_some_iff.mp (h.names index names hnm)
  exact hlt

theorem PartOf.size_le (h : PartOf c inventory pending) :
    pending.frames.size ≤ inventory.frameNames.length := by
  have hnd : (pending.frames.keys.map UInt16.toNat).Nodup :=
    ExtTreeMap.nodup_keys.map fun _ _ => UInt16.toNat_inj.mp
  have hsub : pending.frames.keys.map UInt16.toNat ⊆
      List.range inventory.frameNames.length := by
    intro n hn
    obtain ⟨index, hin, rfl⟩ := List.mem_map.mp hn
    exact List.mem_range.mpr (h.toNat_lt (ExtTreeMap.mem_keys.mp hin))
  have hlen := (hnd.subperm hsub).length_le
  rwa [List.length_map, ExtTreeMap.length_keys, List.length_range] at hlen

theorem toNat_lt_of_compare {i j : UInt16} (h : compare i j = .lt) : i.toNat < j.toNat := by
  rw [← lt_iff_toNat_lt]
  exact Std.compare_eq_lt.mp h

/-- An assembly is whole exactly when it holds every position. -/
theorem PartOf.size_eq_iff (hfr : inventory.Framed c) (h : PartOf c inventory pending) :
    pending.frames.size = pending.frameCount.toNat ↔
      ∀ index : UInt16, index.toNat < inventory.frameNames.length → index ∈ pending.frames := by
  rw [h.count]
  constructor
  · intro hsz index hin
    have hrn := map_keys_eq_range (m := pending.frames) (f := UInt16.toNat)
      (fun _ _ => toNat_lt_of_compare) (fun k hk => hsz ▸ h.toNat_lt hk)
    have hmem : index.toNat ∈ pending.frames.keys.map UInt16.toNat := by
      rw [hrn, hsz]
      exact List.mem_range.mpr hin
    obtain ⟨k, hk, heq⟩ := List.mem_map.mp hmem
    rw [← UInt16.toNat_inj.mp heq]
    exact ExtTreeMap.mem_keys.mp hk
  · intro hall
    have hnd : (pending.frames.keys.map UInt16.toNat).Nodup :=
      ExtTreeMap.nodup_keys.map fun _ _ => UInt16.toNat_inj.mp
    have hpr : (pending.frames.keys.map UInt16.toNat).Perm
        (List.range inventory.frameNames.length) := by
      rw [List.perm_ext_iff_of_nodup hnd List.nodup_range]
      intro n
      simp only [List.mem_map, List.mem_range, ExtTreeMap.mem_keys]
      constructor
      · rintro ⟨index, hin, rfl⟩
        exact h.toNat_lt hin
      · intro hn
        have htn := hfr.toNat_ofNat (Nat.le_of_lt hn)
        refine ⟨UInt16.ofNat n, hall _ ?_, htn⟩
        rw [htn]
        exact hn
    have hlen := hpr.length_eq
    rwa [List.length_map, ExtTreeMap.length_keys, List.length_range] at hlen

theorem nameBytes_flatten (l : List (List String)) : nameBytes l.flatten = (l.map nameBytes).sum := by
  unfold nameBytes
  rw [List.map_flatten, List.sum_flatten, List.map_map]
  rfl

theorem ModelInventory.perm_sorted (inventory : ModelInventory) :
    inventory.sorted.Perm inventory.models :=
  List.perm_insertionSort _ _

theorem PartOf.nameBytes_le (h : PartOf c inventory pending) :
    ((values pending.frames).map nameBytes).sum ≤ nameBytes inventory.models := by
  have hbd : (inventory.frameNames.zipIdx.map (nameBytes ∘ Prod.fst)).sum =
      nameBytes inventory.models := by
    rw [← List.map_map, List.zipIdx_map_fst, ← nameBytes_flatten,
      flatten_frameNames]
    exact (inventory.perm_sorted.map _).sum_eq
  rw [← hbd, values, List.map_map]
  -- each position is charged to the names of the inventory there
  have hnm : (pending.frames.toList.map (UInt16.toNat ∘ Prod.fst)).Nodup := by
    rw [← List.map_map]
    exact (nodup_map_fst_toList _).map fun _ _ => UInt16.toNat_inj.mp
  apply Charge.sum_le_of_charge Prod.snd hnm
  rintro ⟨index, names⟩ hmem
  have hhl := h.names index names (ExtTreeMap.mem_toList_iff_getElem?_eq_some.mp hmem)
  exact ⟨(names, index.toNat), List.mem_zipIdx_iff_getElem?.mpr hhl, rfl, Nat.le_refl _⟩

/-- **A whole assembly is the inventory**, with its names in order. -/
theorem PartOf.completed_eq (h : PartOf c inventory pending)
    (hwh : pending.frames.size = pending.frameCount.toNat)
    (hsc : scopeOf b = InventoryScope.fromInventory inventory)
    (hrev : b.frame.inventoryRevision = inventory.revision) :
    completed (keyOf b) pending = inventory.canonical := by
  have hsz : pending.frames.size = inventory.frameNames.length := hwh.trans h.count
  have hrn := map_keys_eq_range (m := pending.frames) (f := toNat)
    (fun _ _ => toNat_lt_of_compare) (fun k hk => hsz ▸ h.toNat_lt hk)
  have hvl : (values pending.frames).map some = inventory.frameNames.map some := by
    calc (values pending.frames).map some
        = pending.frames.toList.map fun e => inventory.frameNames[e.1.toNat]? := by
          rw [values, List.map_map]
          apply List.map_congr_left
          intro e he
          exact (h.names e.1 e.2 (ExtTreeMap.mem_toList_iff_getElem?_eq_some.mp he)).symm
      _ = (pending.frames.keys.map toNat).map (inventory.frameNames[·]?) := by
          rw [← ExtTreeMap.map_fst_toList_eq_keys, List.map_map, List.map_map]
          rfl
      _ = (List.range inventory.frameNames.length).map (inventory.frameNames[·]?) := by
          rw [hrn, hsz]
      _ = inventory.frameNames.map some := by
          apply List.ext_getElem?
          intro i
          by_cases hi : i < inventory.frameNames.length
          · simp [hi]
          · simp [hi]
  have hnm : values pending.frames = inventory.frameNames :=
    List.map_injective_iff.mpr (Option.some_injective _) hvl
  unfold completed keyOf canonical
  rw [hsc, hnm, flatten_frameNames, hrev, h.expires]
  rfl

end Pieces

end PraxisGrid
