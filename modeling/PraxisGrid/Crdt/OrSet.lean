/-
PraxisGrid/Crdt/OrSet.lean

The observed-remove set of `crates/crdt/src/orset.rs`.  An item is present while
one of its add tags is not tombstoned; a merge joins tags and tombstones and drops
the tags that are tombstoned.

A set is read through the tags of each item (`tags`) and its tombstones.  What a merge does
to the two is a join (`mem_tags_merge`, `mem_tombstones_merge`), and where no item is left
without a tag (`Settled`) the two determine the entries (`entries_eq`).
-/
import PraxisGrid.Lib.OrdMap
import PraxisGrid.Lib.Cells

namespace PraxisGrid

open Std OrdMap Saturate Option UInt64

/-- A unique tag of one add operation. -/
structure Tag where
  counter : UInt64
  siteId : String

namespace Tag

instance : Ord Tag := ⟨compareLex (compareOn counter) (compareOn siteId)⟩

instance : TransOrd Tag :=
  inferInstanceAs (TransCmp (compareLex (compareOn counter) (compareOn siteId)))

instance : LawfulEqOrd Tag :=
  lawfulEqCmp_compareLex (f := counter) (g := siteId) (by
    rintro ⟨_, _⟩ ⟨_, _⟩ h₁ h₂
    exact Tag.mk.injEq .. ▸ ⟨h₁, h₂⟩)

end Tag

/-- An observed-remove set with add-wins semantics. -/
structure OrSet (α : Type) [Ord α] where
  counter : UInt64
  entries : ExtTreeMap α (ExtTreeSet Tag)
  siteId : String
  tombstones : ExtTreeSet Tag

namespace OrSet

variable {α : Type} [Ord α] [TransOrd α]

omit [TransOrd α] in
/-- The empty set of one replica. -/
def new (siteId : String) : OrSet α := ⟨0, ∅, siteId, ∅⟩

/-- Add an item under a fresh tag; refused, with nothing changed, when the tags are
exhausted. -/
def add (s : OrSet α) (item : α) : Bool × OrSet α :=
  if s.counter.toNat + 1 < 2 ^ 64 then
    let counter := s.counter + 1
    let tag : Tag := ⟨counter, s.siteId⟩
    (true, { s with
      counter := counter
      entries := s.entries.insert item ((s.entries.getD item ∅).insert tag) })
  else (false, s)

/-- Remove an item, under the tags observed here. -/
def remove (s : OrSet α) (item : α) : OrSet α :=
  match s.entries[item]? with
  | some tags =>
      { s with
        entries := s.entries.erase item
        tombstones := tags.toList.foldl (·.insert ·) s.tombstones }
  | none => s

def contains (s : OrSet α) (item : α) : Bool :=
  s.entries[item]?.any fun tags => !tags.isEmpty

/-- Number of items with an add tag. -/
def len (s : OrSet α) : Nat :=
  (values s.entries).countP fun tags => !tags.isEmpty

/-- Whether no item has an add tag. -/
def isEmpty (s : OrSet α) : Bool := s.len == 0

/-- Drop the tags that are tombstoned, and the items left without a tag. -/
def removeTombstonedTags (s : OrSet α) : OrSet α :=
  { s with
    entries := ExtTreeMap.ofList ((s.entries.toList.map fun e =>
      (e.1, retainSet e.2 fun tag => !s.tombstones.contains tag)).filter
        fun e => !e.2.isEmpty) }

/-- Join the tags of `other` that are not tombstoned here. -/
def joinEntries (s other : OrSet α) : ExtTreeMap α (ExtTreeSet Tag) :=
  other.entries.toList.foldl (fun entries e =>
    entries.insert e.1 (e.2.toList.foldl
      (fun tags tag => if s.tombstones.contains tag then tags else tags.insert tag)
      (entries.getD e.1 ∅))) s.entries

def merge (s other : OrSet α) : OrSet α :=
  let counter := if s.siteId = other.siteId then max s.counter other.counter else s.counter
  let tags := (values other.entries).flatMap (·.toList) ++ other.tombstones.toList
  let counter := tags.foldl
    (fun counter tag => if tag.siteId = s.siteId then max counter tag.counter else counter) counter
  removeTombstonedTags
    { s with
      counter := counter
      entries := joinEntries s other
      tombstones := other.tombstones.toList.foldl (·.insert ·) s.tombstones }

/-! ### Tags and tombstones -/

def tags (s : OrSet α) (item : α) : ExtTreeSet Tag := s.entries.getD item ∅

/-- No tag of an item is tombstoned, and no item is kept without a tag. -/
structure Settled (s : OrSet α) : Prop where
  live : ∀ {item : α} {tag : Tag}, tag ∈ s.tags item → tag ∉ s.tombstones
  nonempty : ∀ {item : α} {tags : ExtTreeSet Tag}, s.entries[item]? = some tags → ∃ tag, tag ∈ tags

variable {s other : OrSet α} {item : α} {tag : Tag}

theorem tags_eq (s : OrSet α) (item : α) : s.tags item = s.entries[item]?.getD ∅ :=
  ExtTreeMap.getD_eq_getD_getElem?

theorem contains_iff : s.contains item = true ↔ ∃ tag, tag ∈ s.tags item := by
  rw [contains, tags_eq]
  rcases h : s.entries[item]? with - | tags
  · simp
  · rw [any_some, Bool.not_eq_true', isEmpty_eq_false_iff, getD_some]

section Lawful

variable [LawfulEqOrd α]

theorem entries_eq (hs : s.Settled) (hot : other.Settled)
    (htg : ∀ item tag, tag ∈ s.tags item ↔ tag ∈ other.tags item) :
    s.entries = other.entries := by
  apply ExtTreeMap.ext_getElem?
  intro item
  have hitem := htg item
  rw [tags_eq, tags_eq] at hitem
  rcases h : s.entries[item]? with - | tags
  · rcases h' : other.entries[item]? with - | tags'
    · rfl
    · obtain ⟨tag, htag⟩ := hot.nonempty h'
      rw [h, h'] at hitem
      exact absurd ((hitem tag).mpr htag) ExtTreeSet.not_mem_empty
  · rcases h' : other.entries[item]? with - | tags'
    · obtain ⟨tag, htag⟩ := hs.nonempty h
      rw [h, h'] at hitem
      exact absurd ((hitem tag).mp htag) ExtTreeSet.not_mem_empty
    · rw [h, h'] at hitem
      exact congrArg some (ExtTreeSet.ext_mem hitem)

/-! ### What the operations do to them -/

omit [LawfulEqOrd α] in
@[simp] theorem tags_new (siteId : String) : (new siteId).tags item = ∅ := by
  rw [tags_eq, new, ExtTreeMap.getElem?_empty, getD_none]

omit [LawfulEqOrd α] in
theorem settled_new (siteId : String) : (new siteId : OrSet α).Settled where
  live {item tag} h := by
    rw [tags_new] at h
    exact absurd h ExtTreeSet.not_mem_empty
  nonempty h := by
    rw [new, ExtTreeMap.getElem?_empty] at h
    cases h

def nextTag (s : OrSet α) : Tag := ⟨s.counter + 1, s.siteId⟩

omit [LawfulEqOrd α] in
@[simp] theorem siteId_add (item : α) : (s.add item).2.siteId = s.siteId := by
  unfold OrSet.add
  split_ifs <;> rfl

omit [LawfulEqOrd α] in
@[simp] theorem tombstones_add : (s.add item).2.tombstones = s.tombstones := by
  unfold OrSet.add
  split_ifs <;> rfl

omit [LawfulEqOrd α] in
theorem counter_add (hrm : s.counter.toNat + 1 < 2 ^ 64) (item : α) :
    (s.add item).2.counter = s.nextTag.counter := by
  rw [OrSet.add, if_pos hrm]
  rfl

omit [TransOrd α] [LawfulEqOrd α] in
theorem counter_nextTag (hrm : s.counter.toNat + 1 < 2 ^ 64) :
    s.nextTag.counter.toNat = s.counter.toNat + 1 := by
  show (s.counter + 1).toNat = _
  rw [UInt64.toNat_add, UInt64.toNat_one, Nat.mod_eq_of_lt hrm]

omit [LawfulEqOrd α] in
@[simp] theorem siteId_remove : (s.remove item).siteId = s.siteId := by
  unfold OrSet.remove
  cases s.entries[item]? <;> rfl

omit [LawfulEqOrd α] in
@[simp] theorem counter_remove : (s.remove item).counter = s.counter := by
  unfold OrSet.remove
  cases s.entries[item]? <;> rfl

theorem mem_tags_add (hrm : s.counter.toNat + 1 < 2 ^ 64) {item' : α} :
    tag ∈ (s.add item').2.tags item ↔
      (item' = item ∧ tag = s.nextTag) ∨ tag ∈ s.tags item := by
  classical
  have hadd : (s.add item').2.entries =
      s.entries.insert item' ((s.tags item').insert s.nextTag) := by
    rw [add, if_pos hrm]
    rfl
  rw [tags_eq, hadd, getElem?_insert]
  by_cases hitem : item' = item
  · subst hitem
    rw [if_pos rfl, getD_some, mem_insert, eq_comm]
    simp
  · rw [if_neg hitem, ← tags_eq]
    simp [hitem]

/-- An add under a tag that was never removed. -/
theorem Settled.add (hs : s.Settled) (hrm : s.counter.toNat + 1 < 2 ^ 64)
    (hfr : s.nextTag ∉ s.tombstones) (item' : α) : (s.add item').2.Settled where
  live {item tag} h := by
    rw [tombstones_add]
    rcases (mem_tags_add hrm).mp h with ⟨-, rfl⟩ | h
    · exact hfr
    · exact hs.live h
  nonempty {item tags} h := by
    classical
    rw [OrSet.add, if_pos hrm] at h
    simp only [getElem?_insert] at h
    split_ifs at h with hitem
    · cases h
      exact ⟨_, mem_insert.mpr (.inl rfl)⟩
    · exact hs.nonempty h

theorem mem_tags_remove {item' : α} :
    tag ∈ (s.remove item').tags item ↔ item' ≠ item ∧ tag ∈ s.tags item := by
  classical
  unfold remove
  rcases h : s.entries[item']? with - | tags
  · -- nothing to remove: the item has no tag
    constructor
    · intro htag
      refine ⟨?_, htag⟩
      rintro rfl
      rw [tags_eq, h] at htag
      exact ExtTreeSet.not_mem_empty htag
    · exact fun htag => htag.2
  · show tag ∈ OrSet.tags ({ s with entries := s.entries.erase item', tombstones := _ } : OrSet α)
      item ↔ _
    rw [tags_eq, tags_eq, getElem?_erase]
    split_ifs with hitem <;> simp [hitem]

omit [LawfulEqOrd α] in
theorem mem_tombstones_remove {item' : α} :
    tag ∈ (s.remove item').tombstones ↔ tag ∈ s.tombstones ∨ tag ∈ s.tags item' := by
  unfold remove
  rw [tags_eq]
  rcases h : s.entries[item']? with - | tags
  · simp
  · exact mem_foldl_insert_toList

theorem Settled.remove (hs : s.Settled) {item' : α}
    (hun : ∀ {item tag}, tag ∈ s.tags item → tag ∈ s.tags item' → item' = item) :
    (s.remove item').Settled where
  live {item tag} h := by
    rw [mem_tags_remove] at h
    rw [mem_tombstones_remove]
    rintro (htm | htag)
    · exact hs.live h.2 htm
    · exact h.1 (hun h.2 htag)
  nonempty {item tags} h := by
    classical
    unfold OrSet.remove at h
    rcases hhl : s.entries[item']? with - | held
    · rw [hhl] at h
      exact hs.nonempty h
    · rw [hhl] at h
      simp only [getElem?_erase] at h
      split_ifs at h
      exact hs.nonempty h

omit [LawfulEqOrd α] in
theorem mem_tombstones_merge :
    tag ∈ (s.merge other).tombstones ↔ tag ∈ s.tombstones ∨ tag ∈ other.tombstones :=
  mem_foldl_insert_toList

/-- The tags of an item after the two entry maps are joined, before any is dropped. -/
theorem mem_joinEntries :
    tag ∈ (joinEntries s other)[item]?.getD ∅ ↔
      tag ∈ s.tags item ∨ (tag ∈ other.tags item ∧ tag ∉ s.tombstones) := by
  have hjn : (joinEntries s other)[item]? =
      match other.entries[item]? with
      | some tags => some (tags.toList.foldl (fun tags tag =>
          if s.tombstones.contains tag then tags else tags.insert tag) (s.tags item))
      | none => s.entries[item]? := by
    simp only [joinEntries, tags_eq, ExtTreeMap.getD_eq_getD_getElem?]
    refine (getElem?_foldl_toList_insert
      (fun (old : Option (ExtTreeSet Tag)) (tags : ExtTreeSet Tag) => tags.toList.foldl (fun tags tag =>
        if s.tombstones.contains tag then tags else tags.insert tag) (old.getD ∅))
      s.entries other.entries item).trans ?_
    cases other.entries[item]? with
    | none => rfl
    | some tags => rfl
  rw [hjn, tags_eq other]
  rcases h : other.entries[item]? with - | tags
  · simp [tags_eq]
  · simp only [getD_some]
    rw [mem_foldl_insert, ExtTreeSet.mem_toList, ← Bool.not_eq_true, ExtTreeSet.contains_iff_mem]

theorem entries_removeTombstonedTags :
    s.removeTombstonedTags.entries[item]? =
      (s.entries[item]?.map fun tags => retainSet tags fun tag => !s.tombstones.contains tag).filter
        fun tags => !tags.isEmpty :=
  getElem?_ofList_filter_map s.entries (fun tags => retainSet tags fun tag =>
    !s.tombstones.contains tag) (fun e => !e.2.isEmpty) item

theorem mem_tags_removeTombstonedTags :
    tag ∈ s.removeTombstonedTags.tags item ↔ tag ∈ s.tags item ∧ tag ∉ s.tombstones := by
  rw [tags_eq, tags_eq, entries_removeTombstonedTags]
  rcases h : s.entries[item]? with - | tags
  · simp
  · have hkp : tag ∈ retainSet tags (fun tag => !s.tombstones.contains tag) ↔
        tag ∈ tags ∧ tag ∉ s.tombstones := by
      rw [mem_retainSet, Bool.not_eq_true', ← Bool.not_eq_true, ExtTreeSet.contains_iff_mem]
    rw [map_some, getD_some, ← hkp]
    by_cases hem : (retainSet tags fun tag => !s.tombstones.contains tag).isEmpty = true
    · -- the item is dropped, and had no tag left
      rw [filter_some_neg (by simp [hem]), getD_none,
        ExtTreeSet.isEmpty_iff.mp hem]
    · rw [filter_some_pos (by simp [hem]), getD_some]

theorem settled_removeTombstonedTags : s.removeTombstonedTags.Settled where
  live h := (mem_tags_removeTombstonedTags.mp h).2
  nonempty h := by
    rw [entries_removeTombstonedTags, filter_eq_some_iff, Bool.not_eq_true'] at h
    exact isEmpty_eq_false_iff.mp h.2

/-- **A merge joins the tags of every item**, but for those that either side tombstoned. -/
theorem mem_tags_merge :
    tag ∈ (s.merge other).tags item ↔
      (tag ∈ s.tags item ∨ tag ∈ other.tags item) ∧
        tag ∉ s.tombstones ∧ tag ∉ other.tombstones := by
  have htm : tag ∈ other.tombstones.toList.foldl (·.insert ·) s.tombstones ↔
      tag ∈ s.tombstones ∨ tag ∈ other.tombstones := mem_foldl_insert_toList
  rw [merge, mem_tags_removeTombstonedTags, tags_eq, mem_joinEntries, htm]
  tauto

theorem settled_merge (s other : OrSet α) : (s.merge other).Settled := settled_removeTombstonedTags

/-! ### The counter -/

omit [LawfulEqOrd α] in

theorem le_foldl_counter {l : List Tag} {siteId : String} {counter : UInt64} :
    let result := l.foldl
      (fun counter tag => if tag.siteId = siteId then max counter tag.counter else counter) counter
    counter ≤ result ∧ ∀ tag ∈ l, tag.siteId = siteId → tag.counter ≤ result := by
  induction l generalizing counter with
  | nil =>
    refine ⟨le_refl _, ?_⟩
    nofun
  | cons tag l ih =>
    obtain ⟨hst, hl⟩ := @ih (if tag.siteId = siteId then max counter tag.counter else counter)
    simp only [le_iff_toNat_le] at hst hl ⊢
    refine ⟨?_, ?_⟩
    · refine Nat.le_trans ?_ hst
      split_ifs
      · rw [toNat_max]
        omega
      · exact Nat.le_refl _
    · intro t ht hsi
      rcases List.mem_cons.mp ht with rfl | ht
      · refine Nat.le_trans ?_ hst
        rw [if_pos hsi, toNat_max]
        omega
      · exact hl t ht hsi

omit [LawfulEqOrd α] in
theorem le_counter_merge : s.counter ≤ (s.merge other).counter := by
  refine le_trans ?_ le_foldl_counter.1
  split_ifs
  · rw [le_iff_toNat_le, toNat_max]
    omega
  · exact le_refl _

theorem counter_le_merge (hst : tag.siteId = s.siteId)
    (htag : (∃ item, tag ∈ other.tags item) ∨ tag ∈ other.tombstones) :
    tag.counter ≤ (s.merge other).counter := by
  refine le_foldl_counter.2 tag ?_ hst
  rw [List.mem_append, List.mem_flatMap]
  rcases htag with ⟨item, htag⟩ | htag
  · left
    rw [tags_eq] at htag
    rcases h : other.entries[item]? with - | tags
    · rw [h] at htag
      exact absurd htag ExtTreeSet.not_mem_empty
    · rw [h] at htag
      exact ⟨tags, mem_values.mpr ⟨item, h⟩, ExtTreeSet.mem_toList.mpr htag⟩
  · right
    exact ExtTreeSet.mem_toList.mpr htag

end Lawful

end OrSet

end PraxisGrid
