/-
PraxisGrid/Lib/OrdMap.lean

Ordered maps and sets, on top of `Std.ExtTreeMap` and `Std.ExtTreeSet`: what a program over ordered
maps needs besides the containers, their extensionality and their lookup lemmas.

* orders on record keys, obtained by comparing an injective key
  (`lawfulEqCmp_compareOn`, `lawfulEqCmp_compareLex`);
* `retain`, the in-place filter.  It is `filter` (`retain_eq_filter`), written
  through the entry list so that it computes by structural recursion;
* joins of one container into another, entry by entry (`getElem?_foldl_toList_insert`,
  `mem_foldl_insert_toList`);
* `ofList_toList` and cardinality bounds by inclusion.
-/
import Mathlib.Data.List.Sort
import PraxisGrid.Lib.Sums

namespace OrdMap

open Std List

/-! ### Orders on record keys -/

section Keys

variable {α β γ : Type*} [Ord β] [Ord γ]

/-- Comparing through an injective key identifies only equal values. -/
theorem lawfulEqCmp_compareOn [LawfulEqOrd β] {f : α → β} (hf : Function.Injective f) :
    LawfulEqCmp (compareOn f) where
  compare_self := ReflOrd.compare_self (α := β)
  eq_of_compare h := hf (LawfulEqOrd.eq_of_compare (α := β) h)

/-- Comparing two keys in turn identifies only equal values, when the two keys
together determine the value. -/
theorem lawfulEqCmp_compareLex [LawfulEqOrd β] [LawfulEqOrd γ] {f : α → β} {g : α → γ}
    (hfg : ∀ a b, f a = f b → g a = g b → a = b) :
    LawfulEqCmp (compareLex (compareOn f) (compareOn g)) where
  compare_self := by
    intro a
    have hf : compareOn f a a = .eq := ReflOrd.compare_self (α := β)
    have hg : compareOn g a a = .eq := ReflOrd.compare_self (α := γ)
    rw [compareLex_eq_eq]
    exact ⟨hf, hg⟩
  eq_of_compare := by
    intro a b h
    rw [compareLex_eq_eq] at h
    exact hfg a b (LawfulEqOrd.eq_of_compare (α := β) h.1)
      (LawfulEqOrd.eq_of_compare (α := γ) h.2)

end Keys

/-! ### Maps -/

section Maps

variable {α β : Type*} {cmp : α → α → Ordering} [TransCmp cmp]

/-- Keep the entries that satisfy `p`. -/
def retain (m : ExtTreeMap α β cmp) (p : α → β → Bool) : ExtTreeMap α β cmp :=
  ExtTreeMap.ofList (m.toList.filter fun e => p e.1 e.2) cmp

/-- Change every value, keeping the keys. -/
def mapValues {γ : Type*} (m : ExtTreeMap α β cmp) (f : β → γ) : ExtTreeMap α γ cmp :=
  ExtTreeMap.ofList (m.toList.map fun e => (e.1, f e.2)) cmp

/-- The values, in key order. -/
def values (m : ExtTreeMap α β cmp) : List β :=
  m.toList.map Prod.snd

variable [LawfulEqCmp cmp] {m : ExtTreeMap α β cmp} {p : α → β → Bool} {k : α} {v : β}

@[simp] theorem getElem?_insert (m : ExtTreeMap α β cmp) (a k : α) (v : β) [DecidableEq α] :
    (m.insert a v)[k]? = if a = k then some v else m[k]? := by
  rw [ExtTreeMap.getElem?_insert]
  simp only [LawfulEqCmp.compare_eq_iff_eq]

@[simp] theorem getElem?_erase (m : ExtTreeMap α β cmp) (a k : α) [DecidableEq α] :
    (m.erase a)[k]? = if a = k then none else m[k]? := by
  rw [ExtTreeMap.getElem?_erase]
  simp only [LawfulEqCmp.compare_eq_iff_eq]

theorem ofList_toList (m : ExtTreeMap α β cmp) : ExtTreeMap.ofList m.toList cmp = m := by
  classical
  let _ : BEq α := instBEqOfDecidableEq
  refine ExtTreeMap.ext_getElem? fun k => ?_
  rcases hk : m[k]? with - | v
  · refine ExtTreeMap.getElem?_ofList_of_contains_eq_false ?_
    rw [ExtTreeMap.map_fst_toList_eq_keys, ExtTreeMap.contains_keys,
      ExtTreeMap.contains_eq_isSome_getElem?, hk]
    rfl
  · exact ExtTreeMap.getElem?_ofList_of_mem ReflCmp.compare_self ExtTreeMap.distinct_keys_toList
      (ExtTreeMap.mem_toList_iff_getElem?_eq_some.mpr hk)

theorem retain_eq_filter (m : ExtTreeMap α β cmp) (p : α → β → Bool) :
    retain m p = m.filter p := by
  rw [retain, ← ExtTreeMap.toList_filter, ofList_toList]

@[simp] theorem getElem?_retain (m : ExtTreeMap α β cmp) (p : α → β → Bool) (k : α) :
    (retain m p)[k]? = m[k]?.filter (p k) := by
  rw [retain_eq_filter, ExtTreeMap.getElem?_filter']

/-- An entry survives `retain` exactly when it was there and satisfies the test. -/
theorem getElem?_retain_eq_some :
    (retain m p)[k]? = some v ↔ m[k]? = some v ∧ p k v = true := by
  rw [getElem?_retain, Option.filter_eq_some_iff]

/-- An entry is left as it is exactly when it satisfies the test, if it is there. -/
theorem filter_eq_self_iff {γ : Type*} {x : Option γ} {keep : γ → Bool} :
    x.filter keep = x ↔ ∀ v, x = some v → keep v = true := by
  cases x with
  | none => simp
  | some v => simp

/-- Retaining by key alone keeps the entries of the accepted keys. -/
@[simp] theorem getElem?_retain_key (m : ExtTreeMap α β cmp) (p : α → Bool) (k : α) :
    (retain m fun k _ => p k)[k]? = if p k then m[k]? else none := by
  rw [getElem?_retain]
  cases m[k]? with
  | none => simp
  | some v => cases p k <;> rfl

theorem size_retain_le (m : ExtTreeMap α β cmp) (p : α → β → Bool) :
    (retain m p).size ≤ m.size := by
  rw [retain_eq_filter]
  exact ExtTreeMap.size_filter_le_size

theorem retain_eq_self (h : ∀ k v, m[k]? = some v → p k v = true) : retain m p = m := by
  refine ExtTreeMap.ext_getElem? fun k => ?_
  rw [getElem?_retain]
  rcases hk : m[k]? with - | v
  · rfl
  · simp [h k v hk]

/-- Collecting entries with distinct keys binds each key to its entry. -/
theorem getElem?_ofList_eq_some {l : List (α × β)} (hl : (l.map Prod.fst).Nodup) :
    (ExtTreeMap.ofList l cmp)[k]? = some v ↔ (k, v) ∈ l := by
  classical
  let _ : BEq α := instBEqOfDecidableEq
  have hds : l.Pairwise fun a b => ¬ cmp a.1 b.1 = .eq := by
    refine (pairwise_map.mp hl).imp fun h hab => h ?_
    rwa [LawfulEqCmp.compare_eq_iff_eq] at hab
  constructor
  · intro h
    by_cases hk : k ∈ l.map Prod.fst
    · obtain ⟨⟨k', v'⟩, hmem, rfl⟩ := mem_map.mp hk
      have h' : (ExtTreeMap.ofList l cmp)[k']? = some v' :=
        ExtTreeMap.getElem?_ofList_of_mem ReflCmp.compare_self hds hmem
      rw [h'] at h
      rwa [← Option.some.inj h]
    · have h' : (ExtTreeMap.ofList l cmp)[k]? = none :=
        ExtTreeMap.getElem?_ofList_of_contains_eq_false (by simpa using hk)
      rw [h'] at h
      cases h
  · exact fun h => ExtTreeMap.getElem?_ofList_of_mem ReflCmp.compare_self hds h

theorem mem_of_getElem?_ofList {l : List (α × β)} (h : (ExtTreeMap.ofList l cmp)[k]? = some v) :
    (k, v) ∈ l := by
  classical
  have hins : ∀ (l : List (α × β)) (m : ExtTreeMap α β cmp),
      (m.insertMany l)[k]? = some v → m[k]? = some v ∨ (k, v) ∈ l := by
    intro l
    induction l with
    | nil => exact fun m hm => Or.inl (by simpa using hm)
    | cons head rest ih =>
      intro m hm
      rw [ExtTreeMap.insertMany_cons] at hm
      rcases ih _ hm with hfn | hmem
      · rw [getElem?_insert] at hfn
        split_ifs at hfn with hsm
        · cases hfn
          exact Or.inr (hsm ▸ mem_cons_self)
        · exact Or.inl hfn
      · exact Or.inr (mem_cons_of_mem _ hmem)
  rw [ExtTreeMap.ofList_eq_insertMany_empty] at h
  exact (hins l ∅ h).resolve_left (by simp)

omit [LawfulEqCmp cmp] in
theorem nodup_map_fst_toList (m : ExtTreeMap α β cmp) : (m.toList.map Prod.fst).Nodup := by
  rw [ExtTreeMap.map_fst_toList_eq_keys]
  exact ExtTreeMap.nodup_keys

theorem getElem?_ofList_map {γ : Type*} (m : ExtTreeMap α β cmp) (f : α → β → γ) (k : α) :
    (ExtTreeMap.ofList (m.toList.map fun e => (e.1, f e.1 e.2)) cmp)[k]? = m[k]?.map (f k) := by
  have hky : ((m.toList.map fun e => (e.1, f e.1 e.2)).map Prod.fst).Nodup := by
    rw [map_map]
    exact nodup_map_fst_toList m
  refine Option.ext fun w => ?_
  rw [getElem?_ofList_eq_some hky, mem_map, Option.map_eq_some_iff]
  constructor
  · rintro ⟨⟨k', v⟩, hmem, heq⟩
    cases heq
    exact ⟨v, ExtTreeMap.mem_toList_iff_getElem?_eq_some.mp hmem, rfl⟩
  · rintro ⟨v, hv, rfl⟩
    exact ⟨(k, v), ExtTreeMap.mem_toList_iff_getElem?_eq_some.mpr hv, rfl⟩

@[simp] theorem getElem?_mapValues {γ : Type*} (m : ExtTreeMap α β cmp) (f : β → γ) (k : α) :
    (mapValues m f)[k]? = m[k]?.map f :=
  getElem?_ofList_map m (fun _ => f) k

theorem mem_values :
    v ∈ values m ↔ ∃ k : α, m[k]? = some v := by
  rw [values, mem_map]
  constructor
  · rintro ⟨⟨k, v'⟩, hmem, rfl⟩
    exact ⟨k, ExtTreeMap.mem_toList_iff_getElem?_eq_some.mp hmem⟩
  · rintro ⟨k, hk⟩
    exact ⟨(k, v), ExtTreeMap.mem_toList_iff_getElem?_eq_some.mpr hk, rfl⟩

/-- Deriving entries from the values of a map by a function that recovers their keys. -/
theorem getElem?_ofList_filterMap_values {γ : Type*} {key : β → α}
    (hkey : ∀ k v, m[k]? = some v → key v = k) (f : β → Option γ) (k : α) :
    (ExtTreeMap.ofList ((values m).filterMap fun v => (f v).map fun x => (key v, x)) cmp)[k]? =
      m[k]?.bind f := by
  -- each entry keeps its key, so no key comes twice
  have hky : ((values m).filterMap fun v => (f v).map fun x => (key v, x)) =
      m.toList.filterMap fun e => (f e.2).map fun x => (e.1, x) := by
    rw [values, filterMap_map]
    refine filterMap_congr fun e he => ?_
    obtain ⟨k, v⟩ := e
    have hk := hkey k v (ExtTreeMap.mem_toList_iff_getElem?_eq_some.mp he)
    simp only [Function.comp_apply, hk]
  have hsub : ∀ l : List (α × β),
      ((l.filterMap fun e => (f e.2).map fun x => (e.1, x)).map Prod.fst).Sublist
        (l.map Prod.fst) := by
    intro l
    induction l with
    | nil => exact Sublist.refl _
    | cons e l ih =>
      rcases hf : f e.2 with - | x
      · simpa [filterMap_cons, hf] using ih.cons e.1
      · simpa [filterMap_cons, hf] using ih
  rw [hky]
  apply Option.ext
  intro x
  rw [getElem?_ofList_eq_some ((hsub m.toList).nodup (nodup_map_fst_toList m)), mem_filterMap,
    Option.bind_eq_some_iff]
  constructor
  · rintro ⟨⟨k', v⟩, hmem, hx⟩
    obtain ⟨y, hy, heq⟩ := Option.map_eq_some_iff.mp hx
    cases heq
    exact ⟨v, ExtTreeMap.mem_toList_iff_getElem?_eq_some.mp hmem, hy⟩
  · rintro ⟨v, hv, hx⟩
    exact ⟨(k, v), ExtTreeMap.mem_toList_iff_getElem?_eq_some.mpr hv, by rw [hx]; rfl⟩

/-- The same for entries of the values that pass a test. -/
theorem getElem?_ofList_map_filter_values {γ : Type*} {key : β → α}
    (hkey : ∀ k v, m[k]? = some v → key v = k) (p : β → Bool) (f : β → γ) (k : α) :
    (ExtTreeMap.ofList (((values m).filter p).map fun v => (key v, f v)) cmp)[k]? =
      m[k]?.bind fun v => if p v then some (f v) else none := by
  rw [← getElem?_ofList_filterMap_values hkey, ← filterMap_eq_map, filterMap_filter]
  congr 2
  refine filterMap_congr fun v _ => ?_
  cases p v <;> rfl

omit [LawfulEqCmp cmp] in
@[simp] theorem values_empty : values (∅ : ExtTreeMap α β cmp) = [] := rfl

@[simp] theorem values_singleton (k : α) (v : β) :
    values ((∅ : ExtTreeMap α β cmp).insert k v) = [v] := by
  classical
  have hlen : (values ((∅ : ExtTreeMap α β cmp).insert k v)).length = 1 := by
    rw [values, length_map, ExtTreeMap.length_toList, ExtTreeMap.size_insert]
    simp
  obtain ⟨w, hw⟩ := length_eq_one_iff.mp hlen
  obtain ⟨j, hj⟩ := mem_values.mp (hw ▸ mem_singleton_self w)
  rw [getElem?_insert, ExtTreeMap.getElem?_empty] at hj
  split at hj
  · rw [hw, Option.some.inj hj]
  · cases hj

theorem mem_keys_iff :
    k ∈ m.keys ↔ ∃ v, m[k]? = some v := by
  rw [ExtTreeMap.mem_keys, ExtTreeMap.mem_iff_isSome_getElem?, Option.isSome_iff_exists]

theorem lookup_toList [BEq α] [LawfulBEq α] (m : ExtTreeMap α β cmp) (k : α) :
    m.toList.lookup k = m[k]? := by
  rcases h : m[k]? with - | v
  · rw [lookup_eq_none_iff]
    rintro ⟨k', v⟩ hp
    rw [bne_iff_ne]
    rintro rfl
    rw [ExtTreeMap.mem_toList_iff_getElem?_eq_some, h] at hp
    cases hp
  · have hmem := ExtTreeMap.mem_toList_iff_getElem?_eq_some.mpr h
    rcases hl : m.toList.lookup k with - | v'
    · rw [lookup_eq_none_iff] at hl
      exact absurd (hl _ hmem) (by simp)
    · obtain ⟨l₁, l₂, heq, -⟩ := lookup_eq_some_iff.mp hl
      have hmem' : (k, v') ∈ m.toList := by
        rw [heq]
        simp
      rw [ExtTreeMap.mem_toList_iff_getElem?_eq_some, h] at hmem'
      exact congrArg some (Option.some.inj hmem').symm

/-- Changing the values and keeping the entries that then pass a test. -/
theorem getElem?_ofList_filter_map {γ : Type*} (m : ExtTreeMap α β cmp) (f : β → γ)
    (p : α × γ → Bool) (k : α) :
    (ExtTreeMap.ofList ((m.toList.map fun e => (e.1, f e.2)).filter p) cmp)[k]? =
      (m[k]?.map f).filter fun v => p (k, v) := by
  have hky : (((m.toList.map fun e => (e.1, f e.2)).filter p).map Prod.fst).Nodup := by
    apply (filter_sublist.map Prod.fst).nodup
    rw [map_map]
    exact nodup_map_fst_toList m
  apply Option.ext
  intro w
  rw [getElem?_ofList_eq_some hky, mem_filter, mem_map, Option.filter_eq_some_iff,
    Option.map_eq_some_iff]
  constructor
  · rintro ⟨⟨⟨k', v⟩, hmem, heq⟩, hp⟩
    cases heq
    exact ⟨⟨v, ExtTreeMap.mem_toList_iff_getElem?_eq_some.mp hmem, rfl⟩, hp⟩
  · rintro ⟨⟨v, hv, rfl⟩, hp⟩
    exact ⟨⟨(k, v), ExtTreeMap.mem_toList_iff_getElem?_eq_some.mpr hv, rfl⟩, hp⟩

/-- Updating one entry after the other, each key at most once. -/
theorem getElem?_foldl_insert [DecidableEq α] {γ : Type*} (g : Option β → γ → β)
    {l : List (α × γ)} (hl : (l.map Prod.fst).Nodup) (m : ExtTreeMap α β cmp) (k : α) :
    (l.foldl (fun m e => m.insert e.1 (g m[e.1]? e.2)) m)[k]? =
      match l.lookup k with
      | some v => some (g m[k]? v)
      | none => m[k]? := by
  induction l generalizing m with
  | nil => rfl
  | cons e l ih =>
    obtain ⟨k', v⟩ := e
    rw [map_cons, nodup_cons] at hl
    rw [foldl_cons, ih hl.2, lookup_cons]
    by_cases hk : k = k'
    · subst hk
      -- the key is not updated again, by `hl`
      have hnn : l.lookup k = none := by
        rw [lookup_eq_none_iff]
        intro p hp
        rw [bne_iff_ne]
        exact fun h => hl.1 (mem_map.mpr ⟨p, hp, h.symm⟩)
      simp [hnn]
    · have hbeq : (k == k') = false := beq_eq_false_iff_ne.mpr hk
      simp only [hbeq, getElem?_insert, if_neg (Ne.symm hk)]

theorem getElem?_foldl_toList_insert {γ : Type*} (g : Option β → γ → β)
    (m : ExtTreeMap α β cmp) (other : ExtTreeMap α γ cmp) (k : α) :
    (other.toList.foldl (fun m e => m.insert e.1 (g m[e.1]? e.2)) m)[k]? =
      match other[k]? with
      | some v => some (g m[k]? v)
      | none => m[k]? := by
  classical
  rw [getElem?_foldl_insert g (nodup_map_fst_toList other), lookup_toList]

/-- A map with as many keys as there are positions below its size, each at such a position,
has a key at every position. -/
theorem map_keys_eq_range {f : α → Nat} (hmn : ∀ a b, cmp a b = .lt → f a < f b)
    (hlt : ∀ k ∈ m, f k < m.size) :
    m.keys.map f = range m.size := by
  have hsr : (m.keys.map f).SortedLT := by
    rw [sortedLT_iff_pairwise, pairwise_map]
    exact ExtTreeMap.ordered_keys.imp fun h => hmn _ _ h
  have hsub : m.keys.map f ⊆ range m.size := by
    intro n hn
    obtain ⟨k, hk, rfl⟩ := mem_map.mp hn
    exact mem_range.mpr (hlt k (ExtTreeMap.mem_keys.mp hk))
  have hpr : (m.keys.map f).Perm (range m.size) := by
    apply (hsr.nodup.subperm hsub).perm_of_length_le
    rw [length_range, length_map, ExtTreeMap.length_keys]
  exact hsr.eq_of_mem_iff (sortedLT_range _) fun n => hpr.mem_iff

/-- A map that is larger entry by entry has the larger sum. -/
theorem sum_values_le {γ : Type*} {m' : ExtTreeMap α γ cmp} {f : β → Nat} {g : γ → Nat}
    (h : ∀ (k : α) (v : β), m[k]? = some v → ∃ v', m'[k]? = some v' ∧ f v ≤ g v') :
    ((values m).map f).sum ≤ ((values m').map g).sum := by
  rw [values, values, map_map, map_map]
  apply Charge.sum_le_of_charge Prod.fst (nodup_map_fst_toList m)
  rintro ⟨k, v⟩ hmem
  obtain ⟨v', hv', hle⟩ := h k v (ExtTreeMap.mem_toList_iff_getElem?_eq_some.mp hmem)
  exact ⟨(k, v'), ExtTreeMap.mem_toList_iff_getElem?_eq_some.mpr hv', rfl, hle⟩

end Maps

/-! ### Sets -/

section Sets

variable {α : Type*} {cmp : α → α → Ordering} [TransCmp cmp]

/-- Keep the elements that satisfy `p`. -/
def retainSet (s : ExtTreeSet α cmp) (p : α → Bool) : ExtTreeSet α cmp :=
  ExtTreeSet.ofList (s.toList.filter p) cmp

variable [LawfulEqCmp cmp] {a : α} {s : ExtTreeSet α cmp}

@[simp] theorem mem_ofList {l : List α} : a ∈ ExtTreeSet.ofList l cmp ↔ a ∈ l := by
  classical
  let _ : BEq α := instBEqOfDecidableEq
  rw [ExtTreeSet.mem_ofList, contains_iff_mem]

@[simp] theorem mem_retainSet {p : α → Bool} :
    a ∈ retainSet s p ↔ a ∈ s ∧ p a = true := by
  rw [retainSet, mem_ofList, mem_filter, ExtTreeSet.mem_toList]

@[simp] theorem mem_insert {b : α} :
    b ∈ s.insert a ↔ a = b ∨ b ∈ s := by
  rw [ExtTreeSet.mem_insert, LawfulEqCmp.compare_eq_iff_eq]

@[simp] theorem mem_erase {b : α} :
    b ∈ s.erase a ↔ a ≠ b ∧ b ∈ s := by
  rw [ExtTreeSet.mem_erase, ne_eq, LawfulEqCmp.compare_eq_iff_eq]

omit [LawfulEqCmp cmp] in
theorem isEmpty_eq_false_iff : s.isEmpty = false ↔ ∃ a, a ∈ s := by
  rw [← Bool.not_eq_true, ExtTreeSet.isEmpty_iff, ExtTreeSet.eq_empty_iff_forall_not_mem,
    not_forall_not]

theorem ofSetList_toList (s : ExtTreeSet α cmp) : ExtTreeSet.ofList s.toList cmp = s := by
  refine ExtTreeSet.ext_mem fun a => ?_
  rw [mem_ofList, ExtTreeSet.mem_toList]

theorem nodup_toList (s : ExtTreeSet α cmp) : s.toList.Nodup := by
  refine ExtTreeSet.distinct_toList.imp fun h hab => h ?_
  rw [hab]
  exact ReflCmp.compare_self

theorem mem_foldl_insert {l : List α} {p : α → Bool} :
    a ∈ l.foldl (fun s a => if p a then s else s.insert a) s ↔ a ∈ s ∨ (a ∈ l ∧ p a = false) := by
  induction l generalizing s with
  | nil => simp
  | cons b l ih =>
    rw [foldl_cons, ih, mem_cons]
    by_cases hb : p b = true
    · rw [if_pos hb]
      constructor
      · rintro (hs | ⟨hl, hp⟩)
        · exact .inl hs
        · exact .inr ⟨.inr hl, hp⟩
      · rintro (hs | ⟨rfl | hl, hp⟩)
        · exact .inl hs
        · rw [hb] at hp
          cases hp
        · exact .inr ⟨hl, hp⟩
    · rw [if_neg hb, mem_insert]
      constructor
      · rintro ((rfl | hs) | ⟨hl, hp⟩)
        · exact .inr ⟨.inl rfl, Bool.eq_false_iff.mpr hb⟩
        · exact .inl hs
        · exact .inr ⟨.inr hl, hp⟩
      · rintro (hs | ⟨rfl | hl, hp⟩)
        · exact .inl (.inr hs)
        · exact .inl (.inl rfl)
        · exact .inr ⟨hl, hp⟩

theorem mem_foldl_insert_toList {t : ExtTreeSet α cmp} :
    a ∈ t.toList.foldl (·.insert ·) s ↔ a ∈ s ∨ a ∈ t := by
  have h := mem_foldl_insert (l := t.toList) (p := fun _ => false) (s := s) (a := a)
  simpa [ExtTreeSet.mem_toList] using h

theorem size_le_of_subset {t : ExtTreeSet α cmp} (h : ∀ a ∈ s, a ∈ t) : s.size ≤ t.size := by
  rw [← ExtTreeSet.length_toList, ← ExtTreeSet.length_toList]
  refine ((nodup_toList s).subperm fun a ha => ?_).length_le
  rw [ExtTreeSet.mem_toList] at ha ⊢
  exact h a ha

end Sets

end OrdMap
