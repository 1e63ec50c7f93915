/-
PraxisGrid/Lib/Names.lean

Names joined by a separator character.

A joined name determines its parts as long as every part but the last is free of the
separator (`join3_inj`), or as long as the parts of one side all are (`join3_inj_of_free`);
splitting a joined name at the separator gives the parts back when all of them are free of it
(`split_join3`).
-/
import Mathlib.Data.List.Basic

namespace Names

open List

/-! ### Character lists -/

section Lists

variable {α : Type*} {x : α} {l₁ l₂ r₁ r₂ : List α}

/-- The first occurrence of a separator determines both sides of it. -/
theorem append_cons_inj (h₁ : x ∉ l₁) (h₂ : x ∉ l₂) :
    l₁ ++ x :: r₁ = l₂ ++ x :: r₂ ↔ l₁ = l₂ ∧ r₁ = r₂ := by
  refine ⟨fun h => ?_, by rintro ⟨rfl, rfl⟩; rfl⟩
  induction l₁ generalizing l₂ with
  | nil =>
    cases l₂ with
    | nil => exact ⟨rfl, (cons.inj h).2⟩
    | cons b l₂ =>
      have hb : x = b := (cons.inj h).1
      exact absurd (hb ▸ mem_cons_self) h₂
  | cons a l₁ ih =>
    cases l₂ with
    | nil =>
      have ha : a = x := (cons.inj h).1
      exact absurd (ha ▸ mem_cons_self) h₁
    | cons b l₂ =>
      obtain ⟨hab, h⟩ := cons.inj h
      obtain ⟨hl, hr⟩ := ih (fun hx => h₁ (mem_cons_of_mem _ hx))
        (fun hx => h₂ (mem_cons_of_mem _ hx)) h
      exact ⟨congrArg₂ cons hab hl, hr⟩

/-- The pieces between separators have none. -/
theorem notMem_of_mem_splitOn [DecidableEq α] {l piece : List α} (h : piece ∈ l.splitOn x) :
    x ∉ piece := by
  rw [splitOn_eq_splitOnP] at h
  induction l generalizing piece with
  | nil =>
    rw [splitOnP_nil, mem_singleton] at h
    rw [h]
    exact not_mem_nil
  | cons a l ih =>
    rw [splitOnP_cons_eq_if_modifyHead] at h
    split_ifs at h with ha
    · rcases mem_cons.mp h with rfl | h
      · exact not_mem_nil
      · exact ih h
    · rcases hpc : l.splitOnP (· == x) with - | ⟨first, pieces⟩
      · rw [hpc] at h
        cases h
      · rw [hpc, modifyHead_cons, mem_cons] at h
        rcases h with rfl | h
        · -- the first piece grows by a character that is not the separator
          rw [mem_cons, not_or]
          refine ⟨fun hx => ha (beq_iff_eq.mpr hx.symm), ih ?_⟩
          rw [hpc]
          exact mem_cons_self
        · apply ih
          rw [hpc]
          exact mem_cons_of_mem _ h

end Lists

/-! ### Strings -/

/-- The name does not contain the separator. -/
def Free (sep : Char) (name : String) : Prop := sep ∉ name.toList

instance (sep : Char) (name : String) : Decidable (Free sep name) :=
  inferInstanceAs (Decidable (¬ _))

/-- Three names joined by a separator. -/
def join3 (sep : Char) (a b c : String) : String :=
  a ++ String.singleton sep ++ b ++ String.singleton sep ++ c

/-- The pieces of a name between its separators. -/
def split (sep : Char) (name : String) : List String :=
  (name.toList.splitOn sep).map String.ofList

theorem toList_join3 (sep : Char) (a b c : String) :
    (join3 sep a b c).toList = a.toList ++ sep :: (b.toList ++ sep :: c.toList) := by
  simp [join3]

variable {sep : Char} {a b c : String}

/-- A joined name determines its parts when the first two are free of the separator. -/
theorem join3_inj {a' b' c' : String} (ha : Free sep a) (hb : Free sep b) (ha' : Free sep a')
    (hb' : Free sep b') :
    join3 sep a b c = join3 sep a' b' c' ↔ a = a' ∧ b = b' ∧ c = c' := by
  rw [← String.toList_inj, toList_join3, toList_join3, append_cons_inj ha ha',
    append_cons_inj hb hb', String.toList_inj, String.toList_inj, String.toList_inj]

/-- The separators of a joined name are the two that join it and those of its parts. -/
theorem count_join3 (sep : Char) (a b c : String) :
    (join3 sep a b c).toList.count sep =
      a.toList.count sep + b.toList.count sep + c.toList.count sep + 2 := by
  rw [toList_join3, count_append, count_cons_self, count_append,
    count_cons_self]
  omega

/-- A name joined of parts without separators is joined in no other way. -/
theorem join3_inj_of_free {a' b' c' : String} (ha : Free sep a) (hb : Free sep b) (hc : Free sep c)
    (h : join3 sep a' b' c' = join3 sep a b c) :
    a' = a ∧ b' = b ∧ c' = c := by
  have hcn := congrArg (fun name : String => name.toList.count sep) h
  simp only [count_join3, count_eq_zero.mpr ha, count_eq_zero.mpr hb,
    count_eq_zero.mpr hc] at hcn
  have ha' : Free sep a' := count_eq_zero.mp (by omega)
  have hb' : Free sep b' := count_eq_zero.mp (by omega)
  exact (join3_inj ha' hb' ha hb).mp h

theorem free_of_mem_split {name piece : String} (h : piece ∈ split sep name) :
    Free sep piece := by
  obtain ⟨l, hl, rfl⟩ := mem_map.mp h
  rw [Free, String.toList_ofList]
  exact notMem_of_mem_splitOn hl

theorem split_join3 (ha : Free sep a) (hb : Free sep b) (hc : Free sep c) :
    split sep (join3 sep a b c) = [a, b, c] := by
  have hjn : (join3 sep a b c).toList = [sep].intercalate [a.toList, b.toList, c.toList] := by
    rw [toList_join3]
    simp [intercalate]
  have hfr : ∀ l ∈ [a.toList, b.toList, c.toList], sep ∉ l := by
    intro l hl
    simp only [mem_cons, not_mem_nil, or_false] at hl
    rcases hl with rfl | rfl | rfl
    · exact ha
    · exact hb
    · exact hc
  rw [split, hjn, splitOn_intercalate sep hfr (by simp)]
  simp

theorem join3_of_split {name : String} (h : split sep name = [a, b, c]) :
    join3 sep a b c = name := by
  -- the pieces, as lists of characters
  rw [split, map_eq_cons_iff] at h
  obtain ⟨la, l, hl, rfl, h⟩ := h
  rw [map_eq_cons_iff] at h
  obtain ⟨lb, l, rfl, rfl, h⟩ := h
  rw [map_eq_cons_iff] at h
  obtain ⟨lc, l, rfl, rfl, h⟩ := h
  rw [map_eq_nil_iff] at h
  subst h
  have hnm : [sep].intercalate (name.toList.splitOn sep) = name.toList :=
    intercalate_splitOn sep
  rw [hl] at hnm
  rw [← String.toList_inj, toList_join3, ← hnm]
  simp [intercalate]

end Names
