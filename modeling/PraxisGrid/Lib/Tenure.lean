/-
PraxisGrid/Lib/Tenure.lean

Tenures over a cell written by compare-and-swap.

The history of the cell lists its writes, the newest first; the version of a write is how many
writes there are up to it.  A write takes the cell for its owner or gives it up.  Under the rule
that nobody writes over another's tenure before it has lasted a given time (`Fair`), a write of an
owner is good until that time is over (`Secured`), whatever is written in between.  Two owners
cannot both have a tenure that is not over (`Secured.exclusive`).
-/
import Mathlib.Tactic.Common

namespace Tenure

variable {ι ρ : Type*}

/-- A write that landed. -/
structure Entry (ι ρ : Type*) where
  owner : ι
  /-- whether it takes the cell or gives it up -/
  takes : Bool
  landed : Nat
  value : ρ

variable {duration n v : Nat} {r r' : ι} {h h' past : List (Entry ι ρ)} {e e' : Entry ι ρ}

/-! ### Versions -/

/-- The write of a version. -/
def At (h : List (Entry ι ρ)) (v : Nat) (e : Entry ι ρ) : Prop :=
  ∃ later earlier, h = later ++ e :: earlier ∧ earlier.length + 1 = v

theorem At.head (h : List (Entry ι ρ)) : At (e :: h) (h.length + 1) e := ⟨[], h, rfl, rfl⟩

open List

theorem At.mem (hat : At h v e) : e ∈ h := by
  obtain ⟨later, earlier, rfl, -⟩ := hat
  exact mem_append_right _ mem_cons_self

theorem At.le (hat : At h v e) : v ≤ h.length := by
  obtain ⟨later, earlier, rfl, rfl⟩ := hat
  rw [length_append, length_cons]
  omega

/-- A later history has the write at the same version. -/
theorem At.of_suffix (hat : At h v e) (hsf : h <:+ h') : At h' v e := by
  obtain ⟨newer, rfl⟩ := hsf
  obtain ⟨later, earlier, rfl, hv⟩ := hat
  exact ⟨newer ++ later, earlier, by rw [append_assoc], hv⟩

theorem At.unique (hat : At h v e) (hat' : At h v e') : e = e' := by
  obtain ⟨later, earlier, rfl, hv⟩ := hat
  obtain ⟨later', earlier', heq, hv'⟩ := hat'
  have hlen : (e :: earlier).length = (e' :: earlier').length := by
    rw [length_cons, length_cons, hv, hv']
  exact (cons.inj (append_inj_right' heq hlen)).1

/-- A write above every version there was is newer than they are. -/
theorem At.mem_newer (hat : At (h' ++ h) v e) (hv : h.length < v) : e ∈ h' := by
  obtain ⟨later, earlier, heq, rfl⟩ := hat
  rcases append_eq_append_iff.mp heq with ⟨between, -, hold⟩ | ⟨between, hnew, hold⟩
  · have hlen := congrArg length hold
    rw [length_append, length_cons] at hlen
    omega
  · cases between with
    | nil =>
      have hlen := congrArg length hold
      rw [length_cons, nil_append] at hlen
      omega
    | cons x between =>
      obtain ⟨rfl, -⟩ := cons.inj hold
      rw [hnew]
      exact mem_append_right _ mem_cons_self

/-! ### Tenures -/

/-- A write keeps off a tenure that is not over. -/
structure Fair (duration : Nat) (h : List (Entry ι ρ)) (e : Entry ι ρ) : Prop where
  landed : ∀ x ∈ h, x.landed ≤ e.landed
  taken : e.takes = true → ∀ x ∈ h.head?, x.takes = true → x.owner ≠ e.owner →
    x.landed + duration ≤ e.landed
  given : e.takes = false → ∀ x ∈ h.head?, x.takes = true ∧ x.owner = e.owner

/-- A write of an owner, decided at a time, after which others wrote only once its tenure was
over. -/
def Secured (duration : Nat) (r : ι) (n v : Nat) (h : List (Entry ι ρ)) : Prop :=
  ∃ later e earlier, h = later ++ e :: earlier ∧ earlier.length + 1 = v ∧
    e.owner = r ∧ e.takes = true ∧ n ≤ e.landed ∧
    ∀ x ∈ later, n ≤ x.landed ∧ (x.owner = r ∧ x.takes = true ∨ n + duration ≤ x.landed)

theorem Secured.start (how : e.owner = r) (htk : e.takes = true) (hn : n ≤ e.landed) :
    Secured duration r n (h.length + 1) (e :: h) :=
  ⟨[], e, h, rfl, rfl, how, htk, hn, fun _ hx => absurd hx not_mem_nil⟩

theorem Secured.at (hs : Secured duration r n v h) :
    ∃ e, At h v e ∧ e.owner = r ∧ e.takes = true := by
  obtain ⟨later, e, earlier, hh, hv, how, htk, -, -⟩ := hs
  exact ⟨e, ⟨later, earlier, hh, hv⟩, how, htk⟩

/-- The last write of a history with a tenure in it. -/
theorem Secured.head (hs : Secured duration r n v h) :
    ∃ x ∈ h.head?, n ≤ x.landed ∧ (x.owner = r ∧ x.takes = true ∨ n + duration ≤ x.landed) := by
  obtain ⟨later, e, earlier, rfl, -, how, htk, hn, hlt⟩ := hs
  cases later with
  | nil => exact ⟨e, rfl, hn, .inl ⟨how, htk⟩⟩
  | cons x later => exact ⟨x, rfl, hlt x mem_cons_self⟩

/-- **A tenure outlives every fair write**, unless its owner gives it up. -/
theorem Secured.cons (hs : Secured duration r n v h) (hfr : Fair duration h e)
    (hkp : e.owner = r → e.takes = true) : Secured duration r n v (e :: h) := by
  obtain ⟨x, hx, hnx, hcs⟩ := hs.head
  obtain ⟨later, e₀, earlier, rfl, hv, how, htk, hn, hlt⟩ := hs
  have hxe : x.landed ≤ e.landed := hfr.landed x (mem_of_mem_head? hx)
  refine ⟨e :: later, e₀, earlier, rfl, hv, how, htk, hn, ?_⟩
  intro y hy
  rcases mem_cons.mp hy with rfl | hy
  · refine ⟨Nat.le_trans hnx hxe, ?_⟩
    by_cases hr : y.owner = r
    · exact .inl ⟨hr, hkp hr⟩
    right
    -- the last write is the owner's, or came after its tenure
    rcases hcs with ⟨hxr, hxt⟩ | hov
    · have hne : x.owner ≠ y.owner := fun heq => hr (heq.symm.trans hxr)
      cases hy : y.takes with
      | true =>
        have hls := hfr.taken hy x hx hxt hne
        omega
      | false => exact absurd (hfr.given hy x hx).2 hne
    · omega
  · exact hlt y hy

/-- **Tenures exclude each other**: of two owners' tenures, one is over at a write that landed. -/
theorem Secured.exclusive {n' v' : Nat} (hs : Secured duration r n v h)
    (hs' : Secured duration r' n' v' h) (hne : r ≠ r') :
    ∃ x ∈ h, n + duration ≤ x.landed ∨ n' + duration ≤ x.landed := by
  obtain ⟨later, e, earlier, rfl, -, how, -, -, hlt⟩ := hs
  obtain ⟨later', e', earlier', heq, -, how', -, -, hlt'⟩ := hs'
  rcases append_eq_append_iff.mp heq with ⟨between, hbt, htl⟩ | ⟨between, hbt, htl⟩
  · cases between with
    | nil =>
      -- one write of two owners
      rw [nil_append] at htl
      obtain ⟨rfl, -⟩ := cons.inj htl
      exact absurd (how.symm.trans how') hne
    | cons x between =>
      obtain ⟨rfl, -⟩ := cons.inj htl
      have hmem : e ∈ later' := by
        rw [hbt]
        exact mem_append_right _ mem_cons_self
      refine ⟨e, mem_append_right _ mem_cons_self, .inr ?_⟩
      rcases (hlt' e hmem).2 with ⟨hr', -⟩ | hov
      · exact absurd (how.symm.trans hr') hne
      · exact hov
  · cases between with
    | nil =>
      rw [nil_append] at htl
      obtain ⟨rfl, -⟩ := cons.inj htl
      exact absurd (how.symm.trans how') hne
    | cons x between =>
      obtain ⟨rfl, -⟩ := cons.inj htl
      have hmem : e' ∈ later := by
        rw [hbt]
        exact mem_append_right _ mem_cons_self
      refine ⟨e', mem_append_left _ hmem, .inl ?_⟩
      rcases (hlt e' hmem).2 with ⟨hr, -⟩ | hov
      · exact absurd (hr.symm.trans how') hne
      · exact hov

end Tenure
