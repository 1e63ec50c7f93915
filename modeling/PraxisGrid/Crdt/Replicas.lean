/-
PraxisGrid/Crdt/Replicas.lean

Replicas of an observed-remove set that add, remove and merge.

Each replica keeps every state it has been in, newest first, so that a merge may read a copy
of any age of any replica.  A state is traced by its causal history: the adds and removes
that led to it.  The history is a ghost; no operation of the set reads it.

The invariant has a local part (`Sound`): tags and tombstones are what the history says, and
the counter is past every tag of the replica's own site in the history.  The global part
(`Coherent`) is that a site has issued every tag of its own that anyone has seen, so the
next tag is new everywhere and a tag stands for one item.  Then the history decides what is
contained (`orSet_converges`).

Replicas are named by their site, so distinct replicas have distinct site identifiers.
-/
import PraxisGrid.Crdt.OrSet
import PraxisGrid.Lib.Run

namespace PraxisGrid

open Std OrdMap OrSet List UInt64

/-! ### Replicas and their histories -/

/-- What happened at some replica: an add under a tag, or a remove of the tags it observed. -/
inductive OrSetEvent (α : Type)
  | add (item : α) (tag : Tag)
  | remove (item : α) (observed : ExtTreeSet Tag)

/-- A state of a replica with its causal history. -/
structure OrSetReplica (α : Type) [Ord α] where
  set : OrSet α
  history : List (OrSetEvent α)

namespace OrSetReplica

variable {α : Type} [Ord α] [TransOrd α]

omit [TransOrd α] in
/-- The first state of a replica. -/
def new (siteId : String) : OrSetReplica α := ⟨OrSet.new siteId, []⟩

def add (r : OrSetReplica α) (item : α) : OrSetReplica α :=
  match r.set.add item with
  | (true, set) => ⟨set, .add item r.set.nextTag :: r.history⟩
  | (false, set) => ⟨set, r.history⟩

def remove (r : OrSetReplica α) (item : α) : OrSetReplica α :=
  ⟨r.set.remove item, .remove item (r.set.tags item) :: r.history⟩

/-- Merge a copy of some replica, and learn what led to it. -/
def merge (r copy : OrSetReplica α) : OrSetReplica α :=
  ⟨r.set.merge copy.set, r.history ++ copy.history⟩

/-- The same events led to both states. -/
def SameHistory (r r' : OrSetReplica α) : Prop := ∀ e, e ∈ r.history ↔ e ∈ r'.history

end OrSetReplica

/-- One operation on a group of replicas.  A merge names the replica whose state it reads and
how many states ago. -/
inductive OrSetOp (α : Type)
  | add (site : String) (item : α)
  | remove (site : String) (item : α)
  | merge (site source : String) (age : Nat)

/-- The states of every replica, newest first. -/
def OrSetReplicas (α : Type) [Ord α] : Type := String → List (OrSetReplica α)

namespace OrSetReplicas

variable {α : Type} [Ord α] [TransOrd α]

omit [TransOrd α] in
/-- Every replica in its first state. -/
def start : OrSetReplicas α := fun site => [OrSetReplica.new site]

omit [TransOrd α] in
/-- The present state of a replica. -/
def current (sys : OrSetReplicas α) (site : String) : OrSetReplica α :=
  (sys site).headD (OrSetReplica.new site)

omit [TransOrd α] in
/-- A replica moves to a new state. -/
def push (sys : OrSetReplicas α) (site : String) (r : OrSetReplica α) : OrSetReplicas α :=
  fun site' => if site' = site then r :: sys site else sys site'

/-- The group after one operation. -/
def step (sys : OrSetReplicas α) : OrSetOp α → OrSetReplicas α
  | .add site item => sys.push site ((sys.current site).add item)
  | .remove site item => sys.push site ((sys.current site).remove item)
  | .merge site source age =>
      match (sys source)[age]? with
      | some copy => sys.push site ((sys.current site).merge copy)
      | none => sys

/-- The group after a sequence of operations from the start. -/
def run (ops : List (OrSetOp α)) : OrSetReplicas α := Run.run step start ops

end OrSetReplicas

/-! ### One replica -/

namespace OrSetReplica

variable {α : Type} [Ord α] [TransOrd α] [LawfulEqOrd α]

/-- The state is what its history says. -/
structure Sound (r : OrSetReplica α) : Prop where
  settled : r.set.Settled
  tombstones : ∀ tag, tag ∈ r.set.tombstones ↔
    ∃ item observed, .remove item observed ∈ r.history ∧ tag ∈ observed
  tags : ∀ item tag, tag ∈ r.set.tags item ↔
    .add item tag ∈ r.history ∧ tag ∉ r.set.tombstones
  observed : ∀ {item observed tag}, .remove item observed ∈ r.history → tag ∈ observed →
    .add item tag ∈ r.history
  counter : ∀ {item tag}, .add item tag ∈ r.history → tag.siteId = r.set.siteId →
    tag.counter ≤ r.set.counter

variable {r r' copy : OrSetReplica α} {item : α}

omit [LawfulEqOrd α] in
theorem sound_new (siteId : String) : (new siteId : OrSetReplica α).Sound where
  settled := OrSet.settled_new siteId
  tombstones tag := by
    simp [new, OrSet.new]
  tags item tag := by
    simp [new]
  observed h := nomatch h
  counter h := nomatch h

omit [LawfulEqOrd α] in
theorem add_of_room (hrm : r.set.counter.toNat + 1 < 2 ^ 64) :
    r.add item = ⟨(r.set.add item).2, .add item r.set.nextTag :: r.history⟩ := by
  rw [add, OrSet.add, if_pos hrm]

omit [LawfulEqOrd α] in
theorem add_of_exhausted (hrm : ¬ r.set.counter.toNat + 1 < 2 ^ 64) : r.add item = r := by
  rw [add, OrSet.add, if_neg hrm]

/-- An add under a tag no event of the history carries. -/
theorem Sound.add (hr : r.Sound) (hrm : r.set.counter.toNat + 1 < 2 ^ 64) :
    (r.add item).Sound := by
  -- a tag of the own site is below the next one
  have hnx : ∀ item', .add item' r.set.nextTag ∉ r.history := by
    intro item' hmem
    have hle := hr.counter hmem rfl
    rw [le_iff_toNat_le, counter_nextTag hrm] at hle
    omega
  have hfr : r.set.nextTag ∉ r.set.tombstones := by
    intro hmem
    obtain ⟨item', observed, hrem, htag⟩ := (hr.tombstones _).mp hmem
    exact hnx item' (hr.observed hrem htag)
  rw [add_of_room hrm]
  constructor
  case settled => exact hr.settled.add hrm hfr item
  case tombstones =>
    intro tag
    rw [tombstones_add, hr.tombstones]
    simp
  case tags =>
    intro item' tag
    rw [mem_tags_add hrm, tombstones_add, hr.tags, mem_cons, OrSetEvent.add.injEq]
    constructor
    · rintro (⟨rfl, rfl⟩ | ⟨hadd, htag⟩)
      · exact ⟨.inl ⟨rfl, rfl⟩, hfr⟩
      · exact ⟨.inr hadd, htag⟩
    · rintro ⟨⟨rfl, rfl⟩ | hadd, htag⟩
      · exact .inl ⟨rfl, rfl⟩
      · exact .inr ⟨hadd, htag⟩
  case observed =>
    intro item' observed tag hrem htag
    rcases mem_cons.mp hrem with h | hrem
    · cases h
    · exact mem_cons_of_mem _ (hr.observed hrem htag)
  case counter =>
    intro item' tag hadd hst
    rw [siteId_add] at hst
    rw [counter_add hrm]
    rcases mem_cons.mp hadd with h | hadd
    · obtain ⟨rfl, rfl⟩ := OrSetEvent.add.inj h
      exact le_refl _
    · have hle := hr.counter hadd hst
      rw [le_iff_toNat_le] at hle ⊢
      rw [counter_nextTag hrm]
      omega

theorem Sound.remove (hr : r.Sound)
    (hun : ∀ {item item' tag}, .add item tag ∈ r.history → .add item' tag ∈ r.history →
      item = item') : (r.remove item).Sound := by
  constructor
  case settled =>
    apply hr.settled.remove
    intro item' tag htag' htag
    exact hun ((hr.tags item tag).mp htag).1 ((hr.tags item' tag).mp htag').1
  case tombstones =>
    intro tag
    show tag ∈ (r.set.remove item).tombstones ↔ _
    rw [mem_tombstones_remove, hr.tombstones]
    constructor
    · rintro (⟨item', observed, hrem, htag⟩ | htag)
      · exact ⟨item', observed, mem_cons_of_mem _ hrem, htag⟩
      · exact ⟨item, _, mem_cons_self, htag⟩
    · rintro ⟨item', observed, hrem, htag⟩
      rcases mem_cons.mp hrem with h | hrem
      · obtain ⟨rfl, rfl⟩ := OrSetEvent.remove.inj h
        exact .inr htag
      · exact .inl ⟨item', observed, hrem, htag⟩
  case tags =>
    intro item' tag
    show tag ∈ (r.set.remove item).tags item' ↔ _ ∧ tag ∉ (r.set.remove item).tombstones
    rw [mem_tags_remove, mem_tombstones_remove, hr.tags, hr.tags]
    constructor
    · rintro ⟨hne, hadd, htag⟩
      refine ⟨mem_cons_of_mem _ hadd, ?_⟩
      rintro (h | ⟨hadd', -⟩)
      · exact htag h
      · exact hne (hun hadd' hadd)
    · rintro ⟨hadd, htag⟩
      have hadd' : .add item' tag ∈ r.history := by
        rcases mem_cons.mp hadd with h | hadd
        · cases h
        · exact hadd
      refine ⟨?_, hadd', fun h => htag (.inl h)⟩
      rintro rfl
      exact htag (.inr ⟨hadd', fun h => htag (.inl h)⟩)
  case observed =>
    intro item' observed tag hrem htag
    apply mem_cons_of_mem
    rcases mem_cons.mp hrem with h | hrem
    · obtain ⟨rfl, rfl⟩ := OrSetEvent.remove.inj h
      exact ((hr.tags _ _).mp htag).1
    · exact hr.observed hrem htag
  case counter =>
    intro item' tag hadd hst
    rcases mem_cons.mp hadd with h | hadd
    · cases h
    · show tag.counter ≤ (r.set.remove item).counter
      rw [counter_remove]
      exact hr.counter hadd (hst.trans (siteId_remove))

theorem Sound.merge (hr : r.Sound) (hcp : copy.Sound) : (r.merge copy).Sound := by
  constructor
  case settled => exact settled_merge r.set copy.set
  case tombstones =>
    intro tag
    show tag ∈ (r.set.merge copy.set).tombstones ↔ _
    rw [mem_tombstones_merge, hr.tombstones, hcp.tombstones]
    simp only [OrSetReplica.merge, mem_append]
    constructor
    · rintro (⟨item, observed, hrem, htag⟩ | ⟨item, observed, hrem, htag⟩)
      · exact ⟨item, observed, .inl hrem, htag⟩
      · exact ⟨item, observed, .inr hrem, htag⟩
    · rintro ⟨item, observed, hrem | hrem, htag⟩
      · exact .inl ⟨item, observed, hrem, htag⟩
      · exact .inr ⟨item, observed, hrem, htag⟩
  case tags =>
    intro item tag
    show tag ∈ (r.set.merge copy.set).tags item ↔ _ ∧ tag ∉ (r.set.merge copy.set).tombstones
    rw [mem_tags_merge, mem_tombstones_merge, hr.tags, hcp.tags]
    simp only [OrSetReplica.merge, mem_append]
    tauto
  case observed =>
    intro item observed tag hrem htag
    rcases mem_append.mp hrem with hrem | hrem
    · exact mem_append_left _ (hr.observed hrem htag)
    · exact mem_append_right _ (hcp.observed hrem htag)
  case counter =>
    intro item tag hadd hst
    show tag.counter ≤ (r.set.merge copy.set).counter
    rcases mem_append.mp hadd with hadd | hadd
    · exact le_trans (hr.counter hadd hst) le_counter_merge
    · have hst' : tag.siteId = r.set.siteId := hst
      apply counter_le_merge hst'
      by_cases htag : tag ∈ copy.set.tombstones
      · exact .inr htag
      · exact .inl ⟨item, (hcp.tags item tag).mpr ⟨hadd, htag⟩⟩

end OrSetReplica

/-! ### What the history decides -/

namespace OrSetReplica

variable {α : Type} [Ord α] [TransOrd α] {r r' : OrSetReplica α}

/-- An item is contained exactly when an add of it was seen that no seen remove observed. -/
theorem Sound.contains_iff (hr : r.Sound) (item : α) :
    r.set.contains item = true ↔
      ∃ tag, .add item tag ∈ r.history ∧
        ∀ item' observed, .remove item' observed ∈ r.history → tag ∉ observed := by
  rw [OrSet.contains_iff]
  simp only [hr.tags, hr.tombstones, not_exists, not_and]

theorem Sound.tombstones_eq (hr : r.Sound) (hr' : r'.Sound) (hsm : r.SameHistory r') :
    r.set.tombstones = r'.set.tombstones := by
  apply ExtTreeSet.ext_mem
  intro tag
  rw [hr.tombstones, hr'.tombstones]
  simp only [hsm _]

theorem Sound.entries_eq [LawfulEqOrd α] (hr : r.Sound) (hr' : r'.Sound)
    (hsm : r.SameHistory r') : r.set.entries = r'.set.entries := by
  apply OrSet.entries_eq hr.settled hr'.settled
  intro item tag
  rw [hr.tags, hr'.tags, hr.tombstones_eq hr' hsm, hsm]

end OrSetReplica

/-! ### A group of replicas -/

namespace OrSetReplicas

variable {α : Type} [Ord α] [TransOrd α] [LawfulEqOrd α]
variable {sys : OrSetReplicas α} {r r' : OrSetReplica α} {site site' : String} {item item' : α}
  {tag : Tag}

omit [TransOrd α] [LawfulEqOrd α] in
theorem mem_push : r' ∈ sys.push site r site' ↔ (site' = site ∧ r' = r) ∨ r' ∈ sys site' := by
  unfold push
  split_ifs with hst
  · subst hst
    simp
  · simp [hst]

omit [TransOrd α] [LawfulEqOrd α] in
theorem current_push :
    (sys.push site r).current site' = if site' = site then r else sys.current site' := by
  unfold current push
  split_ifs <;> rfl

/-- Some state has seen an add of the item under the tag. -/
def Known (sys : OrSetReplicas α) (item : α) (tag : Tag) : Prop :=
  ∃ site r, r ∈ sys site ∧ .add item tag ∈ r.history

/-- Every state is what its history says, each site has issued all of its tags that anyone
has seen, and a tag stands for one item. -/
structure Coherent (sys : OrSetReplicas α) : Prop where
  current : ∀ site, sys.current site ∈ sys site
  site : ∀ {site r}, r ∈ sys site → r.set.siteId = site
  sound : ∀ {site r}, r ∈ sys site → r.Sound
  issued : ∀ {item tag}, sys.Known item tag → tag.counter ≤ (sys.current tag.siteId).set.counter
  unique : ∀ {item item' tag}, sys.Known item tag → sys.Known item' tag → item = item'

omit [LawfulEqOrd α] in
theorem coherent_start : (start : OrSetReplicas α).Coherent where
  current site := mem_cons_self
  site h := by
    obtain rfl := mem_singleton.mp h
    rfl
  sound h := by
    obtain rfl := mem_singleton.mp h
    exact OrSetReplica.sound_new _
  issued := by
    rintro item tag ⟨site, r, hr, hadd⟩
    obtain rfl := mem_singleton.mp hr
    cases hadd
  unique := by
    rintro item item' tag ⟨site, r, hr, hadd⟩
    obtain rfl := mem_singleton.mp hr
    cases hadd

omit [LawfulEqOrd α] in
/-- A replica moves to a state all of whose adds someone had seen, but for one that is new:
it is under a tag of the replica's own that nobody had seen. -/
theorem Coherent.push (hsys : sys.Coherent) (hr : r.Sound) (hst : r.set.siteId = site)
    (hcn : (sys.current site).set.counter ≤ r.set.counter) (new : Option (α × Tag))
    (hadds : ∀ {item tag}, .add item tag ∈ r.history →
      sys.Known item tag ∨ new = some (item, tag))
    (hnew : ∀ {item tag}, new = some (item, tag) →
      tag.siteId = site ∧ tag.counter ≤ r.set.counter ∧ ∀ item', ¬ sys.Known item' tag) :
    (sys.push site r).Coherent := by
  have hkn : ∀ {item tag}, (sys.push site r).Known item tag →
      sys.Known item tag ∨ new = some (item, tag) := by
    rintro item tag ⟨site', r', hr', hadd⟩
    rcases mem_push.mp hr' with ⟨-, rfl⟩ | hr'
    · exact hadds hadd
    · exact .inl ⟨site', r', hr', hadd⟩
  constructor
  case current =>
    intro site'
    rw [current_push, mem_push]
    split_ifs with h
    · exact .inl ⟨h, rfl⟩
    · exact .inr (hsys.current site')
  case site =>
    intro site' r' hr'
    rcases mem_push.mp hr' with ⟨rfl, rfl⟩ | hr'
    · exact hst
    · exact hsys.site hr'
  case sound =>
    intro site' r' hr'
    rcases mem_push.mp hr' with ⟨-, rfl⟩ | hr'
    · exact hr
    · exact hsys.sound hr'
  case issued =>
    intro item tag hmem
    rw [current_push]
    rcases hkn hmem with hmem | hmem
    · split_ifs with h
      · rw [← h] at hcn
        exact le_trans (hsys.issued hmem) hcn
      · exact hsys.issued hmem
    · obtain ⟨htag, hle, -⟩ := hnew hmem
      rw [if_pos htag]
      exact hle
  case unique =>
    intro item item' tag hmem hmem'
    rcases hkn hmem with hmem | hmem
    · rcases hkn hmem' with hmem' | hmem'
      · exact hsys.unique hmem hmem'
      · exact absurd hmem ((hnew hmem').2.2 item)
    · rcases hkn hmem' with hmem' | hmem'
      · exact absurd hmem' ((hnew hmem).2.2 item')
      · exact congrArg Prod.fst (Option.some.inj (hmem.symm.trans hmem'))

omit [LawfulEqOrd α] in
/-- **The next tag of a site is new**: no state of any replica has seen it. -/
theorem Coherent.nextTag_new (hsys : sys.Coherent)
    (hrm : (sys.current site).set.counter.toNat + 1 < 2 ^ 64) (item : α) :
    ¬ sys.Known item (sys.current site).set.nextTag := by
  intro hkn
  have hle := hsys.issued hkn
  have hst : (sys.current site).set.nextTag.siteId = site := hsys.site (hsys.current site)
  rw [hst, le_iff_toNat_le, counter_nextTag hrm] at hle
  omega

/-- An add issues a new tag, or repeats the state when the tags are exhausted. -/
theorem Coherent.add (hsys : sys.Coherent) (site : String) (item : α) :
    (sys.push site ((sys.current site).add item)).Coherent := by
  have hcur := hsys.current site
  have hst := hsys.site hcur
  by_cases hrm : (sys.current site).set.counter.toNat + 1 < 2 ^ 64
  · have hsn : ((sys.current site).add item).Sound := (hsys.sound hcur).add hrm
    rw [OrSetReplica.add_of_room hrm] at hsn ⊢
    have hcn := counter_add hrm item
    refine hsys.push hsn ((siteId_add item).trans hst) ?_
      (some (item, (sys.current site).set.nextTag)) ?_ ?_
    · rw [hcn, le_iff_toNat_le, counter_nextTag hrm]
      omega
    · intro item' tag hadd
      rcases mem_cons.mp hadd with h | hadd
      · obtain ⟨rfl, rfl⟩ := OrSetEvent.add.inj h
        exact .inr rfl
      · exact .inl ⟨site, _, hcur, hadd⟩
    · intro item' tag h
      cases h
      refine ⟨hst, ?_, hsys.nextTag_new hrm⟩
      rw [hcn]
      exact le_refl _
  · rw [OrSetReplica.add_of_exhausted hrm]
    exact hsys.push (hsys.sound hcur) hst (le_refl _) none
      (fun hadd => .inl ⟨site, _, hcur, hadd⟩) (fun h => nomatch h)

theorem Coherent.remove (hsys : sys.Coherent) (site : String) (item : α) :
    (sys.push site ((sys.current site).remove item)).Coherent := by
  have hcur := hsys.current site
  have hsn : ((sys.current site).remove item).Sound := by
    apply (hsys.sound hcur).remove
    intro item item' tag hadd hadd'
    exact hsys.unique ⟨site, _, hcur, hadd⟩ ⟨site, _, hcur, hadd'⟩
  refine hsys.push hsn ((siteId_remove).trans (hsys.site hcur)) ?_ none ?_
    (fun h => nomatch h)
  · show _ ≤ ((sys.current site).set.remove item).counter
    rw [counter_remove]
    exact le_refl _
  · intro item' tag hadd
    rcases mem_cons.mp hadd with h | hadd
    · cases h
    · exact .inl ⟨site, _, hcur, hadd⟩

theorem Coherent.merge (hsys : sys.Coherent) (site : String) {source : String}
    {copy : OrSetReplica α} (hcp : copy ∈ sys source) :
    (sys.push site ((sys.current site).merge copy)).Coherent := by
  have hcur := hsys.current site
  have hst : (sys.current site).set.siteId = site := hsys.site hcur
  refine hsys.push ((hsys.sound hcur).merge (hsys.sound hcp)) hst
    le_counter_merge none ?_ (fun h => nomatch h)
  intro item tag hadd
  left
  rcases mem_append.mp hadd with hadd | hadd
  · exact ⟨site, _, hcur, hadd⟩
  · exact ⟨source, copy, hcp, hadd⟩

theorem Coherent.step (hsys : sys.Coherent) (op : OrSetOp α) : (sys.step op).Coherent := by
  cases op with
  | add site item => exact hsys.add site item
  | remove site item => exact hsys.remove site item
  | merge site source age =>
    simp only [OrSetReplicas.step]
    rcases hcp : (sys source)[age]? with - | copy
    · exact hsys
    · exact hsys.merge site (mem_of_getElem? hcp)

theorem coherent_run (ops : List (OrSetOp α)) : (run ops).Coherent :=
  Run.run_invariant (fun _ op hsys => hsys.step op) coherent_start

/-- **Strong convergence.**  In every state a replica has been in: an item is contained exactly
when its history has an add of the item under a tag that no remove of the history observed;
no tag of an item is tombstoned, no item is kept without a tag, a tag stands for one item, and
the counter is past every tag of the replica's own site.  States with the same history have
the same entries and tombstones.  An add issues a tag nobody has seen, or is refused with
nothing changed when the counter is at its end. -/
theorem orSet_converges (ops : List (OrSetOp α)) :
    let sys := run ops
    (∀ site, ∀ r ∈ sys site,
      (∀ item, r.set.contains item = true ↔
        ∃ tag, .add item tag ∈ r.history ∧
          ∀ item' observed, .remove item' observed ∈ r.history → tag ∉ observed) ∧
      (∀ item tag, tag ∈ r.set.tags item → tag ∉ r.set.tombstones) ∧
      (∀ (item : α) (tags : ExtTreeSet Tag), r.set.entries[item]? = some tags →
        tags.isEmpty = false) ∧
      (∀ item item' tag, tag ∈ r.set.tags item → tag ∈ r.set.tags item' → item = item') ∧
      (∀ item tag, .add item tag ∈ r.history → tag.siteId = site →
        tag.counter ≤ r.set.counter)) ∧
    (∀ site site', ∀ r ∈ sys site, ∀ r' ∈ sys site', r.SameHistory r' →
      r.set.entries = r'.set.entries ∧ r.set.tombstones = r'.set.tombstones) ∧
    (∀ site item, let r := sys.current site
      if r.set.counter.toNat = 2 ^ 64 - 1 then r.set.add item = (false, r.set)
      else (r.set.add item).1 = true ∧ r.set.nextTag ∈ (r.set.add item).2.tags item ∧
        ∀ item', ¬ sys.Known item' r.set.nextTag) := by
  intro sys
  have hsys : sys.Coherent := coherent_run ops
  refine ⟨?_, ?_, ?_⟩
  · intro site r hr
    have hsn := hsys.sound hr
    refine ⟨hsn.contains_iff, fun item tag => hsn.settled.live, ?_, ?_, ?_⟩
    · intro item tags htg
      exact isEmpty_eq_false_iff.mpr (hsn.settled.nonempty htg)
    · intro item item' tag htag htag'
      exact hsys.unique ⟨site, r, hr, ((hsn.tags item tag).mp htag).1⟩
        ⟨site, r, hr, ((hsn.tags item' tag).mp htag').1⟩
    · intro item tag hadd hst
      exact hsn.counter hadd (hst.trans (hsys.site hr).symm)
  · intro site site' r hr r' hr' hsm
    have hsn := hsys.sound hr
    have hsn' := hsys.sound hr'
    exact ⟨hsn.entries_eq hsn' hsm, hsn.tombstones_eq hsn' hsm⟩
  · intro site item r
    split_ifs with hmax
    · rw [OrSet.add, if_neg]
      omega
    · have hrm : r.set.counter.toNat + 1 < 2 ^ 64 := by
        have hlt := r.set.counter.toNat_lt
        omega
      refine ⟨?_, (OrSet.mem_tags_add hrm).mpr (.inl ⟨rfl, rfl⟩), hsys.nextTag_new hrm⟩
      rw [OrSet.add, if_pos hrm]

/-- Delayed copies of an add arrive before and after its remove; the reader ends where the
writer did. -/
theorem orSet_converges_delayed_add :
    let sys := run [.add "a" "x", .remove "a" "x", .merge "b" "a" 1, .merge "b" "a" 0,
      .merge "b" "a" 1]
    (sys.current "b").SameHistory (sys.current "a") ∧
      (sys.current "b").set.entries = (sys.current "a").set.entries ∧
      (sys.current "b").set.tombstones = (sys.current "a").set.tombstones := by
  intro sys
  have hsm : (sys.current "b").SameHistory (sys.current "a") := by
    have hb : (sys.current "b").history = [.add "x" ⟨1, "a"⟩,
        .remove "x" (((sys "a")[1]?.map fun r => r.set.tags "x").getD ∅), .add "x" ⟨1, "a"⟩,
        .add "x" ⟨1, "a"⟩] := rfl
    have ha : (sys.current "a").history = [
        .remove "x" (((sys "a")[1]?.map fun r => r.set.tags "x").getD ∅), .add "x" ⟨1, "a"⟩] := rfl
    intro e
    rw [ha, hb]
    simp only [List.mem_cons, List.not_mem_nil, or_false]
    tauto
  have hsys : sys.Coherent := coherent_run _
  exact ⟨hsm, (orSet_converges _).2.1 "b" "a" _ (hsys.current "b") _ (hsys.current "a") hsm⟩

end OrSetReplicas

end PraxisGrid
