/-
PraxisGrid/Crdt/SnapshotMerge.lean

Merging whole snapshots is a join.

A snapshot is compared by its `contents`.  Each part is merged on its own: tags and tombstones by
union, records and slots by keeping the newer value of each key (`providers_merge`,
`tenantSlots_merge`).  So the laws of `merge` are those of unions and of `Newer.newer`, and the writer
contract is what makes two records of one key agree.

Merging a snapshot with itself also drops the tombstoned tags of its capabilities, so it is
idempotent on the snapshots that keep none (`contents_merge_self_iff`).  Totals never shrink, and
after any tree of merges they depend on the merged snapshots alone (`MergeTree.tenantSlots_eval`).
-/
import Mathlib.Data.Prod.Lex
import Mathlib.Data.String.Basic
import PraxisGrid.Crdt.GridState

namespace PraxisGrid

open Std OrdMap Newer OrSet ProviderState

/-! ### Provider records -/

namespace ProviderState

/-- What decides between two records of one key. -/
def stamp (p : ProviderState) : ℕ ×ₗ String := toLex (p.revision.toNat, p.writerId)

theorem supersedes_iff {p q : ProviderState} : p.supersedes q = true ↔ q.stamp < p.stamp := by
  simp only [supersedes, stamp, Prod.Lex.toLex_lt_toLex, Bool.or_eq_true, Bool.and_eq_true,
    decide_eq_true_eq, beq_iff_eq, UInt64.lt_iff_toNat_lt, ← UInt64.toNat_inj]
  rw [eq_comm]

theorem stamp_eq_iff {p q : ProviderState} :
    p.stamp = q.stamp ↔ p.revision = q.revision ∧ p.writerId = q.writerId := by
  rw [stamp, stamp, EmbeddingLike.apply_eq_iff_eq, Prod.mk.injEq, UInt64.toNat_inj]

end ProviderState

namespace GridStateSnapshot

variable {a b d : GridStateSnapshot} {tenant : String}

/-- Every record is filed under its own key. -/
def Canonical (snap : GridStateSnapshot) : Prop :=
  ∀ (k : String) (p : ProviderState), snap.providers[k]? = some p → p.key = k

/-- Across the snapshots, a writer gives one revision of a key to one record. -/
def WriterContract (snaps : Set GridStateSnapshot) : Prop :=
  ∀ a ∈ snaps, ∀ b ∈ snaps, ∀ (k k' : String) (p q : ProviderState),
    a.providers[k]? = some p → b.providers[k']? = some q →
    p.key = q.key → p.revision = q.revision → p.writerId = q.writerId → p = q

theorem providers_upsertProvider_newer (p : ProviderState) (k : String) :
    (a.upsertProvider p).providers[k]? =
      if p.key = k then newer stamp a.providers[k]? (some p)
      else a.providers[k]? := by
  rw [providers_upsertProvider]
  by_cases hk : p.key = k
  · rw [if_pos hk]
    rcases a.providers[k]? with - | held
    · simp [hk]
    · simp only [hk, Option.all_some, supersedes_iff, true_and, newer]
  · simp [hk]

theorem providers_foldl_entries {l : List (String × ProviderState)}
    (hky : (l.map Prod.fst).Nodup) (hcan : ∀ e ∈ l, e.2.key = e.1) (k : String) :
    (l.foldl (fun snap e => snap.upsertProvider e.2) a).providers[k]? =
      newer stamp a.providers[k]? (l.lookup k) := by
  induction l generalizing a with
  | nil => rw [List.foldl_nil, List.lookup_nil, newer_none]
  | cons e l ih =>
    obtain ⟨k', p⟩ := e
    rw [List.map_cons, List.nodup_cons] at hky
    have hp : p.key = k' := hcan (k', p) List.mem_cons_self
    rw [List.foldl_cons, ih hky.2 (List.forall_mem_cons.mp hcan).2,
      providers_upsertProvider_newer, List.lookup_cons, hp]
    by_cases hk : k = k'
    · subst hk
      -- no later entry has this key
      have hnn : l.lookup k = none := by
        rw [List.lookup_eq_none_iff]
        intro e he
        rw [bne_iff_ne]
        exact fun h => hky.1 (List.mem_map.mpr ⟨e, he, h.symm⟩)
      simp [hnn]
    · have hbeq : (k == k') = false := beq_eq_false_iff_ne.mpr hk
      simp only [hbeq, if_neg (Ne.symm hk)]

/-- **Records are merged key by key**, the newer one of each key. -/
theorem providers_merge (hb : b.Canonical) (k : String) :
    (a.merge b).providers[k]? =
      newer stamp a.providers[k]? b.providers[k]? := by
  have hen : ∀ e ∈ b.providers.toList, e.2.key = e.1 :=
    fun e he => hb e.1 e.2 (ExtTreeMap.mem_toList_iff_getElem?_eq_some.mp he)
  have hfl := providers_foldl_entries
    (a := { a with capabilities := a.capabilities.merge b.capabilities })
    (nodup_map_fst_toList b.providers) hen k
  rw [lookup_toList] at hfl
  rw [← hfl, merge, values, List.foldl_map]
  rfl

theorem canonical_merge (ha : a.Canonical) (hb : b.Canonical) : (a.merge b).Canonical := by
  intro k p hp
  rw [providers_merge hb] at hp
  have hone : newer stamp a.providers[k]? b.providers[k]? = a.providers[k]? ∨
      newer stamp a.providers[k]? b.providers[k]? = b.providers[k]? :=
    newer_eq_or _ _
  rcases hone with h | h
  · exact ha k p (h ▸ hp)
  · exact hb k p (h ▸ hp)

/-! ### Slots of the tenants' counters -/

/-- The slots of two counters, joined. -/
def joinSlots (x y : ExtTreeMap String UInt64) : ExtTreeMap String UInt64 :=
  ((⟨"", x⟩ : GCounter).merge ⟨"", y⟩).slots

theorem getElem?_joinSlots (x y : ExtTreeMap String UInt64) (site : String) :
    (joinSlots x y)[site]? = newer UInt64.toNat x[site]? y[site]? :=
  GCounter.slots_merge_newer _ _ site

theorem empty_joinSlots (y : ExtTreeMap String UInt64) : joinSlots ∅ y = y := by
  apply ExtTreeMap.ext_getElem?
  intro site
  rw [getElem?_joinSlots, ExtTreeMap.getElem?_empty, none_newer]

theorem joinSlots_self (x : ExtTreeMap String UInt64) : joinSlots x x = x := by
  apply ExtTreeMap.ext_getElem?
  intro site
  rw [getElem?_joinSlots, newer_self]

theorem joinSlots_comm (x y : ExtTreeMap String UInt64) : joinSlots x y = joinSlots y x := by
  apply ExtTreeMap.ext_getElem?
  intro site
  rw [getElem?_joinSlots, getElem?_joinSlots]
  exact newer_comm (agree_of_injective (fun _ _ => UInt64.toNat_inj.mp) _ _)

theorem joinSlots_assoc (x y z : ExtTreeMap String UInt64) :
    joinSlots (joinSlots x y) z = joinSlots x (joinSlots y z) := by
  apply ExtTreeMap.ext_getElem?
  intro site
  simp only [getElem?_joinSlots]
  exact newer_assoc _ _ _

/-- The slots of a tenant in two snapshots, joined; the tenant may be missing in either. -/
def joinTenant (x y : Option (ExtTreeMap String UInt64)) : Option (ExtTreeMap String UInt64) :=
  x.merge joinSlots y

theorem joinTenant_self (x : Option (ExtTreeMap String UInt64)) : joinTenant x x = x := by
  cases x with
  | none => rfl
  | some x => exact congrArg some (joinSlots_self x)

theorem joinTenant_comm (x y : Option (ExtTreeMap String UInt64)) :
    joinTenant x y = joinTenant y x := by
  rcases x with - | x <;> rcases y with - | y
  · rfl
  · rfl
  · rfl
  · exact congrArg some (joinSlots_comm x y)

theorem joinTenant_assoc (x y z : Option (ExtTreeMap String UInt64)) :
    joinTenant (joinTenant x y) z = joinTenant x (joinTenant y z) := by
  rcases x with - | x <;> rcases y with - | y <;> rcases z with - | z
  case some.some.some => exact congrArg some (joinSlots_assoc x y z)
  all_goals rfl

def tenantSlots (snap : GridStateSnapshot) (tenant : String) :
    Option (ExtTreeMap String UInt64) :=
  snap.tenantSpend[tenant]?.map GCounter.slots

theorem tenantSpend_merge :
    (a.merge b).tenantSpend[tenant]? =
      match b.tenantSpend[tenant]? with
      | some counter => some ((a.tenantSpend[tenant]?.getD (GCounter.new a.siteId)).merge counter)
      | none => a.tenantSpend[tenant]? := by
  rw [merge, foldl_upsertProvider_eq]
  simp only [mergeTenantSpend, ExtTreeMap.getD_eq_getD_getElem?]
  refine (getElem?_foldl_toList_insert
    (fun (old : Option GCounter) (counter : GCounter) =>
      (old.getD (GCounter.new a.siteId)).merge counter)
    a.tenantSpend b.tenantSpend tenant).trans ?_
  cases b.tenantSpend[tenant]? with
  | none => rfl
  | some counter => rfl

theorem capabilities_merge :
    (a.merge b).capabilities = a.capabilities.merge b.capabilities := by
  rw [merge, foldl_upsertProvider_eq]
  rfl

/-- **Slots are merged tenant by tenant.**  The site under which a missing counter is created
does not matter. -/
theorem tenantSlots_merge :
    (a.merge b).tenantSlots tenant =
      joinTenant (a.tenantSlots tenant) (b.tenantSlots tenant) := by
  unfold tenantSlots
  rw [tenantSpend_merge]
  rcases b.tenantSpend[tenant]? with - | counter
  · cases a.tenantSpend[tenant]? <;> rfl
  · rcases a.tenantSpend[tenant]? with - | held
    · exact congrArg some (empty_joinSlots counter.slots)
    · rfl

/-! ### The laws -/

/-- What snapshots are compared by. -/
structure Contents where
  entries : ExtTreeMap Capability (ExtTreeSet Tag)
  tombstones : ExtTreeSet Tag
  providers : ExtTreeMap String ProviderState
  slots : ExtTreeMap String (ExtTreeMap String UInt64)

def contents (snap : GridStateSnapshot) : Contents :=
  ⟨snap.capabilities.entries, snap.capabilities.tombstones, snap.providers,
    mapValues snap.tenantSpend GCounter.slots⟩

/-- Two snapshots have the same contents if they agree at every key. -/
theorem contents_eq (hen : a.capabilities.entries = b.capabilities.entries)
    (htm : ∀ tag, tag ∈ a.capabilities.tombstones ↔ tag ∈ b.capabilities.tombstones)
    (hpr : ∀ k : String, a.providers[k]? = b.providers[k]?)
    (hsl : ∀ tenant, a.tenantSlots tenant = b.tenantSlots tenant) :
    a.contents = b.contents := by
  rw [contents, contents, hen, ExtTreeSet.ext_mem htm,
    ExtTreeMap.ext_getElem? hpr, Contents.mk.injEq]
  refine ⟨rfl, rfl, rfl, ExtTreeMap.ext_getElem? ?_⟩
  intro tenant
  rw [getElem?_mapValues, getElem?_mapValues]
  exact hsl tenant

theorem entries_merge_eq {s s' t t' : OrSet Capability}
    (htg : ∀ item tag, tag ∈ (s.merge t).tags item ↔ tag ∈ (s'.merge t').tags item) :
    (s.merge t).entries = (s'.merge t').entries :=
  entries_eq (settled_merge s t) (settled_merge s' t') htg

/-- **Idempotence**, on the snapshots that keep no tombstoned tag and no item without a tag. -/
theorem contents_merge_self_iff (ha : a.Canonical) :
    (a.merge a).contents = a.contents ↔ a.capabilities.Settled := by
  have htg : ∀ item tag, tag ∈ (a.capabilities.merge a.capabilities).tags item ↔
      tag ∈ a.capabilities.tags item ∧ tag ∉ a.capabilities.tombstones := by
    intro item tag
    rw [mem_tags_merge, or_self, and_self]
  constructor
  · -- a merge is settled, and the entries and tombstones decide that
    intro h
    obtain ⟨hen, htm, -, -⟩ := Contents.mk.inj h
    have hmr := settled_merge a.capabilities a.capabilities
    rw [capabilities_merge] at hen htm
    refine ⟨?_, ?_⟩
    · intro item tag htag
      rw [tags_eq, ← hen, ← tags_eq] at htag
      rw [← htm]
      exact hmr.live htag
    · intro item tags htg
      rw [← hen] at htg
      exact hmr.nonempty htg
  · intro h
    apply contents_eq
    · rw [capabilities_merge]
      apply entries_eq (settled_merge _ _) h
      intro item tag
      rw [htg]
      exact ⟨fun htag => htag.1, fun htag => ⟨htag, h.live htag⟩⟩
    · intro tag
      rw [capabilities_merge, mem_tombstones_merge, or_self]
    · intro k
      rw [providers_merge ha, newer_self]
    · intro tenant
      rw [tenantSlots_merge]
      exact joinTenant_self _

/-- **Commutativity**: records of one key agree, by the writer contract. -/
theorem contents_merge_comm {snaps : Set GridStateSnapshot} (hcn : WriterContract snaps)
    (hmm : a ∈ snaps) (hmb : b ∈ snaps) (ha : a.Canonical) (hb : b.Canonical) :
    (a.merge b).contents = (b.merge a).contents := by
  apply contents_eq
  · rw [capabilities_merge, capabilities_merge]
    apply entries_merge_eq
    intro item tag
    rw [mem_tags_merge, mem_tags_merge]
    tauto
  · intro tag
    rw [capabilities_merge, capabilities_merge, mem_tombstones_merge,
      mem_tombstones_merge, or_comm]
  · intro k
    rw [providers_merge hb, providers_merge ha]
    apply newer_comm
    intro p q hp hq hst
    obtain ⟨hrev, hwr⟩ := stamp_eq_iff.mp hst
    exact hcn a hmm b hmb k k p q hp hq ((ha k p hp).trans (hb k q hq).symm)
      hrev hwr
  · intro tenant
    rw [tenantSlots_merge, tenantSlots_merge]
    exact joinTenant_comm _ _

/-- **Associativity.** -/
theorem contents_merge_assoc (hb : b.Canonical) (hd : d.Canonical) :
    ((a.merge b).merge d).contents = (a.merge (b.merge d)).contents := by
  apply contents_eq
  · simp only [capabilities_merge]
    apply entries_merge_eq
    intro item tag
    simp only [mem_tags_merge, mem_tombstones_merge]
    tauto
  · intro tag
    simp only [capabilities_merge, mem_tombstones_merge]
    exact or_assoc
  · intro k
    rw [providers_merge hd, providers_merge hb, providers_merge (canonical_merge hb hd),
      providers_merge hd, newer_assoc]
  · intro tenant
    simp only [tenantSlots_merge]
    exact joinTenant_assoc _ _ _

/-! ### Totals -/

def tenantTotal (snap : GridStateSnapshot) (tenant : String) : Option UInt64 :=
  snap.tenantSpend[tenant]?.map GCounter.total

theorem tenantTotal_eq (h : a.tenantSlots tenant = b.tenantSlots tenant) :
    a.tenantTotal tenant = b.tenantTotal tenant := by
  have hsl : ∀ snap : GridStateSnapshot, snap.tenantTotal tenant =
      (snap.tenantSlots tenant).map fun slots => (⟨"", slots⟩ : GCounter).total := by
    intro snap
    rw [tenantTotal, tenantSlots, Option.map_map]
    rfl
  rw [hsl, hsl, h]

theorem tenantTotal_le_merge {total : UInt64} (h : a.tenantTotal tenant = some total) :
    ∃ total', (a.merge b).tenantTotal tenant = some total' ∧ total ≤ total' := by
  obtain ⟨held, hhl, rfl⟩ := Option.map_eq_some_iff.mp h
  rw [tenantTotal, tenantSpend_merge, hhl]
  rcases b.tenantSpend[tenant]? with - | counter
  · exact ⟨held.total, rfl, UInt64.le_refl _⟩
  · exact ⟨(held.merge counter).total, rfl, (GCounter.below_merge held counter).total_le⟩

/-- Nor does recorded spend, of this tenant or of another. -/
theorem tenantTotal_le_incrementTenantSpend {total : UInt64} (h : a.tenantTotal tenant = some total)
    (tenant' : String) (amountCents : UInt64) :
    ∃ total', (a.incrementTenantSpend tenant' amountCents).tenantTotal tenant = some total' ∧
      total ≤ total' := by
  obtain ⟨held, hhl, rfl⟩ := Option.map_eq_some_iff.mp h
  rw [tenantTotal, incrementTenantSpend, getElem?_insert]
  split_ifs with htn
  · subst htn
    refine ⟨_, rfl, ?_⟩
    rw [ExtTreeMap.getD_eq_getD_getElem?, hhl]
    exact (GCounter.below_increment held amountCents).total_le
  · rw [hhl]
    exact ⟨held.total, rfl, UInt64.le_refl _⟩

/-- A way to merge snapshots, two at a time. -/
inductive MergeTree
  | snapshot (snap : GridStateSnapshot)
  | merge (into other : MergeTree)

namespace MergeTree

def eval : MergeTree → GridStateSnapshot
  | snapshot snap => snap
  | merge into other => into.eval.merge other.eval

def snapshots : MergeTree → List GridStateSnapshot
  | snapshot snap => [snap]
  | merge into other => into.snapshots ++ other.snapshots

variable {tree : MergeTree}

theorem eval_absorbed {slots : Option (ExtTreeMap String UInt64)}
    (h : ∀ snap ∈ tree.snapshots, joinTenant (snap.tenantSlots tenant) slots = slots) :
    joinTenant (tree.eval.tenantSlots tenant) slots = slots := by
  induction tree with
  | snapshot snap => exact h snap List.mem_cons_self
  | merge into other ihi iho =>
    have hot := iho fun snap hsn => h snap (List.mem_append_right _ hsn)
    have hin := ihi fun snap hsn => h snap (List.mem_append_left _ hsn)
    rw [eval, tenantSlots_merge, joinTenant_assoc, hot, hin]

theorem absorbed_eval {snap : GridStateSnapshot} (hmem : snap ∈ tree.snapshots) :
    joinTenant (snap.tenantSlots tenant) (tree.eval.tenantSlots tenant) =
      tree.eval.tenantSlots tenant := by
  induction tree with
  | snapshot held =>
    obtain rfl := List.mem_singleton.mp hmem
    exact joinTenant_self _
  | merge into other ihi iho =>
    rw [eval, tenantSlots_merge]
    rcases List.mem_append.mp hmem with hmem | hmem
    · rw [← joinTenant_assoc, ihi hmem]
    · rw [joinTenant_comm (into.eval.tenantSlots tenant), ← joinTenant_assoc, iho hmem]

/-- **Merges in any order**: the slots depend on which snapshots are merged, and not on how
they are put together or how often. -/
theorem tenantSlots_eval {tree' : MergeTree}
    (hsm : ∀ snap, snap ∈ tree.snapshots ↔ snap ∈ tree'.snapshots) (tenant : String) :
    tree.eval.tenantSlots tenant = tree'.eval.tenantSlots tenant := by
  have hab : joinTenant (tree.eval.tenantSlots tenant) (tree'.eval.tenantSlots tenant) =
      tree'.eval.tenantSlots tenant :=
    eval_absorbed fun snap hsn => absorbed_eval ((hsm snap).mp hsn)
  have hab' : joinTenant (tree'.eval.tenantSlots tenant) (tree.eval.tenantSlots tenant) =
      tree.eval.tenantSlots tenant :=
    eval_absorbed fun snap hsn => absorbed_eval ((hsm snap).mpr hsn)
  rw [← hab, joinTenant_comm, hab']

end MergeTree

/-! ### Merging snapshots is a join -/

/-- **Snapshot merge is a join.**  Among snapshots keyed canonically whose writers keep their
contract, `merge` is commutative and associative on the contents, and idempotent exactly on the
snapshots that keep no tombstoned add tag and no capability without a tag, as every merged one
does.  The total of a tenant's counter never shrinks under a merge or under recorded spend, and
after merges in any order it depends on the merged snapshots alone. -/
theorem merge_is_join {snaps : Set GridStateSnapshot} (hcanonical : ∀ a ∈ snaps, a.Canonical)
    (hcontract : WriterContract snaps) :
    (∀ a ∈ snaps, (a.merge a).contents = a.contents ↔ a.capabilities.Settled) ∧
    (∀ a ∈ snaps, ∀ b ∈ snaps, (a.merge b).capabilities.Settled) ∧
    (∀ a ∈ snaps, ∀ b ∈ snaps, (a.merge b).contents = (b.merge a).contents) ∧
    (∀ a ∈ snaps, ∀ b ∈ snaps, ∀ d ∈ snaps,
      ((a.merge b).merge d).contents = (a.merge (b.merge d)).contents) ∧
    (∀ a ∈ snaps, ∀ (tenant : String) (total : UInt64), a.tenantTotal tenant = some total →
      (∀ b ∈ snaps, ∃ total', (a.merge b).tenantTotal tenant = some total' ∧ total ≤ total') ∧
      ∀ (tenant' : String) (amountCents : UInt64), ∃ total',
        (a.incrementTenantSpend tenant' amountCents).tenantTotal tenant = some total' ∧
          total ≤ total') ∧
    ∀ tree tree' : MergeTree, (∀ snap ∈ tree.snapshots, snap ∈ snaps) →
      (∀ snap, snap ∈ tree.snapshots ↔ snap ∈ tree'.snapshots) →
      ∀ tenant, tree.eval.tenantTotal tenant = tree'.eval.tenantTotal tenant := by
  refine ⟨?_, ?_, ?_, ?_, ?_, ?_⟩
  · intro a ha
    exact contents_merge_self_iff (hcanonical a ha)
  · intro a ha b hb
    rw [capabilities_merge]
    exact OrSet.settled_merge a.capabilities b.capabilities
  · intro a ha b hb
    exact contents_merge_comm hcontract ha hb (hcanonical a ha) (hcanonical b hb)
  · intro a ha b hb d hd
    exact contents_merge_assoc (hcanonical b hb) (hcanonical d hd)
  · intro a ha tenant total htt
    exact ⟨fun b hb => tenantTotal_le_merge htt,
      tenantTotal_le_incrementTenantSpend htt⟩
  · intro tree tree' hmem hsm tenant
    exact tenantTotal_eq (MergeTree.tenantSlots_eval hsm tenant)

def ofRecord (site : String) (p : ProviderState) : GridStateSnapshot := (new site).upsertProvider p

theorem providers_ofRecord {site k : String} {p q : ProviderState} :
    (ofRecord site p).providers[k]? = some q ↔ p.key = k ∧ p = q := by
  rw [ofRecord, providers_upsertProvider, new]
  by_cases hk : p.key = k
  · simp [hk]
  · simp [hk]

theorem merge_is_join_two_revisions :
    let record : UInt64 → ProviderState := fun revision =>
      ⟨"net", "east", "p1", "cluster", ["m"], [], "vllm", 1, .available, {}, ⟨∅⟩, revision, "w"⟩
    let old := ofRecord "west" (record 1)
    let recent := ofRecord "east" (record 2)
    (old.merge recent).contents = (recent.merge old).contents ∧
      (old.merge old).contents = old.contents ∧
      (old.merge recent).providers["net/east/p1"]? = some (record 2) := by
  intro record old recent
  have hcn : ∀ a ∈ ({old, recent} : Set GridStateSnapshot), a.Canonical := by
    rintro a (rfl | rfl) k p hp
    · obtain ⟨hk, rfl⟩ := providers_ofRecord.mp hp
      exact hk
    · obtain ⟨hk, rfl⟩ := providers_ofRecord.mp hp
      exact hk
  have hct : WriterContract {old, recent} := by
    rintro a (rfl | rfl) b (rfl | rfl) k k' p q hp hq - hrv - <;>
      obtain ⟨-, rfl⟩ := providers_ofRecord.mp hp <;>
      obtain ⟨-, rfl⟩ := providers_ofRecord.mp hq
    · rfl
    · exact absurd hrv (by decide)
    · exact absurd hrv (by decide)
    · rfl
  obtain ⟨hid, -, hcm, -⟩ := merge_is_join hcn hct
  refine ⟨hcm old (.inl rfl) recent (.inr rfl), ?_, ?_⟩
  · exact (hid old (.inl rfl)).mpr (OrSet.settled_new "west")
  · rw [providers_merge (hcn recent (.inr rfl)), providers_ofRecord.mpr ⟨by decide, rfl⟩,
      providers_ofRecord.mpr ⟨by decide, rfl⟩]
    rfl

/-- Two replicas of one site give the same tag to two capabilities.  When one of them is
removed, the other keeps its tombstoned tag until the next merge drops it. -/
theorem merge_self_drops_tombstoned_tag :
    let added : String → OrSet Capability := fun name => ((OrSet.new "east").add (.model name)).2
    let snap : GridStateSnapshot :=
      { new "east" with capabilities := ((added "a").merge (added "b")).remove (.model "a") }
    snap.Canonical ∧ WriterContract {snap} ∧ (snap.merge snap).contents ≠ snap.contents := by
  intro added snap
  have hem : ∀ k : String, snap.providers[k]? = none := fun k => ExtTreeMap.getElem?_empty
  have hcn : snap.Canonical := by
    intro k p hp
    rw [hem] at hp
    cases hp
  refine ⟨hcn, ?_, ?_⟩
  · rintro a rfl b rfl k k' p q hp
    rw [hem] at hp
    cases hp
  · rw [Ne, contents_merge_self_iff hcn]
    intro hst
    -- both capabilities were added under the first tag of the site
    have hadd : ∀ name, (⟨1, "east"⟩ : Tag) ∈ (added name).tags (.model name) :=
      fun name => (OrSet.mem_tags_add (by decide)).mpr (.inl ⟨rfl, rfl⟩)
    have hlv : ∀ name, (⟨1, "east"⟩ : Tag) ∉ (added name).tombstones := by
      intro name
      rw [OrSet.tombstones_add]
      exact ExtTreeSet.not_mem_empty
    have hkp : (⟨1, "east"⟩ : Tag) ∈ snap.capabilities.tags (.model "b") :=
      OrSet.mem_tags_remove.mpr ⟨by decide,
        OrSet.mem_tags_merge.mpr ⟨.inr (hadd "b"), hlv "a", hlv "b"⟩⟩
    have htm : (⟨1, "east"⟩ : Tag) ∈ snap.capabilities.tombstones :=
      OrSet.mem_tombstones_remove.mpr
        (.inr (OrSet.mem_tags_merge.mpr ⟨.inl (hadd "a"), hlv "a", hlv "b"⟩))
    exact hst.live hkp htm

end GridStateSnapshot

end PraxisGrid
