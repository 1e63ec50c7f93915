/-
PraxisGrid/Enrollment/Keys.lean

A key is enrolled once: `MemoryStore::redeem_and_issue`, `renew_and_issue` and `seed_reserved`.

A redemption and a rotation consult the history of enrolled keys before they make a key current.  A
seed does not: `seedDecision` compares the seeded key with the two keys the record holds and with
nothing older, so a record that rotated twice since can be put back.

`enrolled_once_iff` says exactly which histories keep every key to one enrollment: those in which a
seed begins an incarnation only with a key that was never enrolled.
-/
import Mathlib.Data.List.Induction
import PraxisGrid.Enrollment.Store

namespace PraxisGrid.Enrollment

open Std PraxisGrid.Enrollment.Inner

/-! ### Enrolled once -/

/-- No key of a history is the current key of two records, and none is current again once its
record lost it. -/
structure EnrolledOnce (ops : List Op) : Prop where
  /-- two records never share a current key -/
  distinct : ∀ ops₁ ops₂, ops = ops₁ ++ ops₂ → ∀ name other key,
    (Inner.after {} ops₁).currentKey? name = some key →
    (Inner.after {} ops₁).currentKey? other = some key → name = other
  /-- a key that was replaced or deleted stays so, under every name -/
  retired : ∀ ops₁ ops₂ ops₃ ops₄, ops = ops₁ ++ ops₂ ++ ops₃ ++ ops₄ → ∀ name other key,
    (Inner.after {} ops₁).currentKey? name = some key →
    (Inner.after {} (ops₁ ++ ops₂)).currentKey? name ≠ some key →
    (Inner.after {} (ops₁ ++ ops₂ ++ ops₃)).currentKey? other ≠ some key

/-- A seed that begins an incarnation names a key that was never enrolled. -/
def FreshSeed (inner : Inner) : Op → Prop
  | .seed seed _ _ => inner.Begins seed → seed.keySha256 ∉ inner.enrolledKeys
  | _ => True

instance (inner : Inner) (op : Op) : Decidable (FreshSeed inner op) := by
  unfold FreshSeed
  split <;> infer_instance

/-! ### How a key becomes current -/

section Steps

variable {inner inner' : Inner} {op : Op} {name key : String}

theorem currentKey?_eq (h : inner'.record? name = inner.record? name) :
    inner'.currentKey? name = inner.currentKey? name := by
  unfold currentKey?
  rw [h]

theorem currentKey?_insert {record : Held × Bool} {other : String}
    (h : inner'.issuedNames = inner.issuedNames.insert other record) :
    inner'.currentKey? name
      = if other = name then some record.1.currentKey else inner.currentKey? name := by
  unfold currentKey?
  rw [record?_insert h]
  split <;> rfl

theorem currentKey?_erase {other : String}
    (h : inner'.issuedNames = inner.issuedNames.erase other) :
    inner'.currentKey? name = if other = name then none else inner.currentKey? name := by
  unfold currentKey?
  rw [record?_erase h]
  split <;> rfl

/-- A record keeps its key, or takes one that is enrolled with it and was not before, unless the
operation is a seed that begins an incarnation. -/
theorem Effect.currentKey?_cases (h : Effect inner op inner')
    (hkey : inner'.currentKey? name = some key) :
    inner.currentKey? name = some key
      ∨ (key ∈ inner'.enrolledKeys ∧ (FreshSeed inner op → key ∉ inner.enrolledKeys)) := by
  cases h with
  | kept hnm _ =>
    rw [currentKey?_eq (record?_eq_of_issuedNames hnm name)] at hkey
    exact Or.inl hkey
  | enrolled _ hnew _ hnm hky | rotated _ _ hnew _ hnm hky =>
    rw [currentKey?_insert hnm] at hkey
    split_ifs at hkey with hna
    · cases hkey
      exact Or.inr ⟨by rw [hky, OrdMap.mem_insert]; exact Or.inl rfl, fun _ => hnew⟩
    · exact Or.inl hkey
  | froze hhl _ hnm _ =>
    -- the frozen record has the keys it had
    rw [currentKey?_insert hnm] at hkey
    split_ifs at hkey with hna
    · subst hna
      exact Or.inl (by rw [currentKey?, record?_of_getElem? hhl]; exact hkey)
    · exact Or.inl hkey
  | acknowledged hhl hnm _ =>
    rw [currentKey?_insert hnm] at hkey
    split_ifs at hkey with hna
    · subst hna
      exact Or.inl (by rw [currentKey?, record?_of_getElem? hhl]; exact hkey)
    · exact Or.inl hkey
  | begun hbg hnm hky =>
    rw [currentKey?_insert hnm] at hkey
    split_ifs at hkey with hna
    · cases hkey
      refine Or.inr ⟨by rw [hky, OrdMap.mem_insert]; exact Or.inl rfl, ?_⟩
      intro hfr
      exact hfr hbg
    · exact Or.inl hkey
  | deleted hnm _ =>
    rw [currentKey?_erase hnm] at hkey
    split_ifs at hkey
    exact Or.inl hkey

theorem Effect.enrolledKeys_cases (h : Effect inner op inner') (hkey : key ∈ inner'.enrolledKeys) :
    key ∈ inner.enrolledKeys ∨ ∃ name, inner'.currentKey? name = some key := by
  cases h with
  | kept _ hky | froze _ _ _ hky | acknowledged _ _ hky | deleted _ hky =>
    rw [hky] at hkey
    exact Or.inl hkey
  | enrolled _ _ _ hnm hky | rotated _ _ _ _ hnm hky | begun _ hnm hky =>
    rw [hky, OrdMap.mem_insert] at hkey
    rcases hkey with rfl | hkey
    · exact Or.inr ⟨_, (currentKey?_insert hnm).trans (if_pos rfl)⟩
    · exact Or.inl hkey

end Steps

/-! ### Histories with fresh seeds -/

structure KeysApart (inner : Inner) : Prop where
  enrolled : ∀ name key, inner.currentKey? name = some key → key ∈ inner.enrolledKeys
  distinct : ∀ name other key, inner.currentKey? name = some key →
    inner.currentKey? other = some key → name = other

section Histories

variable {inner : Inner} {ops : List Op} {name key : String}

theorem keysApart_empty : KeysApart {} := by
  have hnn (name key : String) : (({} : Inner).currentKey? name = some key) → False := by
    simp [currentKey?, record?]
  exact ⟨fun name key h => (hnn name key h).elim, fun name _ key h => (hnn name key h).elim⟩

theorem currentKey?_enrolled_step (op : Op)
    (h : ∀ name key, inner.currentKey? name = some key → key ∈ inner.enrolledKeys) :
    ∀ name key, (inner.step op).currentKey? name = some key →
      key ∈ (inner.step op).enrolledKeys := by
  intro name key hkey
  rcases (inner.effect_step op).currentKey?_cases hkey with hpre | ⟨hnew, -⟩
  · exact (inner.effect_step op).enrolledKeys_subset (h name key hpre)
  · exact hnew

theorem keysApart_step (op : Op) (hfr : FreshSeed inner op) (h : KeysApart inner) :
    KeysApart (inner.step op) := by
  refine ⟨currentKey?_enrolled_step op h.enrolled, ?_⟩
  intro name other key hnm hot
  have heff := inner.effect_step op
  by_cases hkey : key ∈ inner.enrolledKeys
  · -- an enrolled key becomes nobody's, so both had it before
    have hpre (m : String) (hm : (inner.step op).currentKey? m = some key) :
        inner.currentKey? m = some key :=
      (heff.currentKey?_cases hm).resolve_right fun hnew => hnew.2 hfr hkey
    exact h.distinct name other key (hpre name hnm) (hpre other hot)
  · -- a key that was nobody's is taken by the one record that changed
    obtain ⟨changed, hfm⟩ := heff.frame
    have hch (m : String) (hm : (inner.step op).currentKey? m = some key) : changed = m := by
      by_contra hne
      rw [currentKey?_eq (hfm m hne)] at hm
      exact hkey (h.enrolled m key hm)
    rw [← hch name hnm, ← hch other hot]

/-- Along a history with fresh seeds an enrolled key becomes nobody's current key. -/
theorem currentKey?_of_after (hfr : Run.Along step FreshSeed inner ops)
    (henr : key ∈ inner.enrolledKeys)
    (hkey : (inner.after ops).currentKey? name = some key) : inner.currentKey? name = some key := by
  induction ops generalizing inner with
  | nil => exact hkey
  | cons op ops ih =>
    have heff := inner.effect_step op
    have hnx := ih hfr.2 (heff.enrolledKeys_subset henr) hkey
    exact (heff.currentKey?_cases hnx).resolve_right fun hnew => hnew.2 hfr.1 henr

theorem enrolledKeys_after (h : key ∈ inner.enrolledKeys) :
    key ∈ (inner.after ops).enrolledKeys := by
  have hst (inner : Inner) (op : Op) (hkey : key ∈ inner.enrolledKeys) :
      key ∈ (inner.step op).enrolledKeys :=
    (inner.effect_step op).enrolledKeys_subset hkey
  exact Run.run_invariant hst h

theorem after_append (ops ops' : List Op) :
    inner.after (ops ++ ops') = (inner.after ops).after ops' :=
  Run.run_append ops'

theorem enrolledOnce_of_freshSeeds (hfr : Run.Along step FreshSeed {} ops) :
    EnrolledOnce ops := by
  have hap {ops₁ ops₂ : List Op} (hops : ops = ops₁ ++ ops₂) :
      KeysApart (after {} ops₁) := by
    rw [hops, Run.along_append] at hfr
    exact Run.run_invariant_along (fun _ op hop h => keysApart_step op hop h) hfr.1
      keysApart_empty
  constructor
  · intro ops₁ ops₂ hops
    exact (hap hops).distinct
  · intro ops₁ ops₂ ops₃ ops₄ hops name other key hnm hls hot
    have hft : KeysApart (after {} ops₁) :=
      @hap ops₁ (ops₂ ++ ops₃ ++ ops₄) (by simpa using hops)
    rw [hops, Run.along_append, Run.along_append, Run.along_append] at hfr
    obtain ⟨⟨⟨-, hfr₂⟩, hfr₃⟩, -⟩ := hfr
    -- read the key's holder backwards: before the third part, then before the second
    have henr := hft.enrolled name key hnm
    rw [after_append] at hls hot
    have hsec := currentKey?_of_after hfr₃
      (by rw [← after, after_append]; exact enrolledKeys_after henr) hot
    rw [← after, after_append] at hsec
    have hth := currentKey?_of_after hfr₂ henr hsec
    obtain rfl := hft.distinct name other key hnm hth
    exact hls hsec

/-! ### Every other history -/

theorem exists_current_of_enrolled (h : key ∈ (after {} ops).enrolledKeys) :
    ∃ ops₁ ops₂ name, ops = ops₁ ++ ops₂ ∧ (after {} ops₁).currentKey? name = some key := by
  induction ops using List.reverseRecOn with
  | nil => simp [after] at h
  | append_singleton ops op ih =>
    have hst : after {} (ops ++ [op]) = (after {} ops).step op := after_append ops [op]
    rw [hst] at h
    rcases ((after {} ops).effect_step op).enrolledKeys_cases h with hpre | ⟨name, hnm⟩
    · obtain ⟨ops₁, ops₂, name, rfl, hnm⟩ := ih hpre
      exact ⟨ops₁, ops₂ ++ [op], name, by simp, hnm⟩
    · exact ⟨ops ++ [op], [], name, by simp, by rw [hst]; exact hnm⟩

theorem currentKey?_ne_of_begins {seed : SeedRecord} (h : inner.Begins seed) :
    inner.currentKey? seed.siteName ≠ some seed.keySha256 := by
  intro hcur
  obtain ⟨held, hhl, hkey⟩ := Option.map_eq_some_iff.mp hcur
  obtain ⟨reserved, hen⟩ := exists_getElem?_of_record? hhl
  unfold Begins at h
  rw [hen] at h
  split at h
  · rename_i hrg
    unfold seedDecision at hrg
    grind
  · rename_i hrs
    exact (seedDecision_eq_reset_iff.mp hrs).2.2.1 hkey
  · exact h

theorem currentKey?_seed {seed : SeedRecord} (fresh : Uuid) (now : Instant)
    (h : inner.Begins seed) (name : String) :
    (inner.step (.seed seed fresh now)).currentKey? name
      = if seed.siteName = name then some seed.keySha256 else inner.currentKey? name := by
  obtain ⟨id, hnm⟩ := issuedNames_of_begins fresh h
  exact currentKey?_insert hnm

theorem freshSeeds_of_enrolledOnce (h : EnrolledOnce ops) :
    Run.Along step FreshSeed {} ops := by
  rw [Run.along_iff_forall]
  intro ops₁ op ops₂ hops
  cases op with
  | mint | revoke | redeem | renew | delete => trivial
  | seed seed fresh now =>
    intro hbg henr
    rw [← after] at hbg henr
    -- somebody held the seeded key earlier in the history
    obtain ⟨ops₀, ops₀', name, rfl, hnm⟩ := exists_current_of_enrolled henr
    have hsd := currentKey?_seed fresh now hbg
    have haf : after {} (ops₀ ++ ops₀' ++ [.seed seed fresh now])
        = (after {} (ops₀ ++ ops₀')).step (.seed seed fresh now) := after_append _ _
    have hsl : (after {} (ops₀ ++ ops₀' ++ [.seed seed fresh now])).currentKey?
        seed.siteName = some seed.keySha256 := by
      rw [haf]
      exact (hsd seed.siteName).trans (if_pos rfl)
    by_cases hst : (after {} (ops₀ ++ ops₀')).currentKey? name = some seed.keySha256
    · -- and still does: then two records share it
      have hne : seed.siteName ≠ name := by
        rintro rfl
        exact currentKey?_ne_of_begins hbg hst
      have hot : (after {} (ops₀ ++ ops₀' ++ [.seed seed fresh now])).currentKey? name
          = some seed.keySha256 := by
        rw [haf, hsd name, if_neg hne]
        exact hst
      have hsp : ops = (ops₀ ++ ops₀' ++ [.seed seed fresh now]) ++ ops₂ := by simpa using hops
      exact hne (h.distinct _ ops₂ hsp seed.siteName name seed.keySha256 hsl hot)
    · -- and lost it: then it is current again
      have hsp : ops = ops₀ ++ ops₀' ++ [.seed seed fresh now] ++ ops₂ := by simpa using hops
      exact h.retired ops₀ ops₀' _ ops₂ hsp name seed.siteName seed.keySha256 hnm hst hsl

end Histories

/-- **A key is enrolled once, exactly as long as the seeds are fresh.**  A history of the store
keeps every key to one enrollment if and only if every seed that begins an incarnation names
a key that was never enrolled. -/
theorem enrolled_once_iff (ops : List Op) :
    EnrolledOnce ops ↔ Run.Along Inner.step FreshSeed {} ops :=
  ⟨freshSeeds_of_enrolledOnce, enrolledOnce_of_freshSeeds⟩

/-- The reserved record rotates twice, and a newer seed for its first key puts it back. -/
theorem seed_rolls_back :
    ¬EnrolledOnce [seeding "hub" "k0" 1 0, renewing "hub" "k0" "k1", renewing "hub" "k1" "k2",
      seeding "hub" "k0" 2 0] := by
  intro h
  refine h.retired [seeding "hub" "k0" 1 0] [renewing "hub" "k0" "k1", renewing "hub" "k1" "k2"]
    [seeding "hub" "k0" 2 0] [] rfl "hub" "hub" "k0" ?_ ?_ ?_ <;> decide +kernel

end PraxisGrid.Enrollment
