/-
PraxisGrid/Lib/Run.lean

Runs of a deterministic system: a state, a list of operations, and a step function.

A property that every step preserves holds at the end of every run (`run_invariant`), and so does
one that the steps meeting a condition preserve where all steps meet it (`run_invariant_along`); if
they preserve it exactly, it holds throughout a run if and only if they do (`forall_run_iff_along`).
A map that commutes with the steps commutes with runs (`run_map`, `run_map_along`), and a run with an
operation that absorbs the others ends where that operation leads (`run_of_absorbs`).  Where every
operation concerns one key of the state, a run is read at one key (`run_frame`, `run_at`).

A validator is a run of checks that stops at the first refusal: `ensure` for one condition, `each`
for the entries of a list in order, `given` for a value that may be absent.  What it accepts is the
conjunction of its conditions.
-/
import Mathlib.Tactic.Common

namespace Run

variable {σ ω : Type*} {step : σ → ω → σ} {s : σ} {ops : List ω} {C : σ → ω → Prop} {P : σ → Prop}

/-- The state after a list of operations. -/
def run (step : σ → ω → σ) (s : σ) (ops : List ω) : σ := ops.foldl step s

/-- Every operation of a run meets a condition in the state it is applied to. -/
def Along (step : σ → ω → σ) (C : σ → ω → Prop) : σ → List ω → Prop
  | _, [] => True
  | s, op :: ops => C s op ∧ Along step C (step s op) ops

open List

@[simp] theorem run_nil : run step s [] = s := rfl

@[simp] theorem run_cons (op : ω) : run step s (op :: ops) = run step (step s op) ops := rfl

theorem run_append (ops' : List ω) : run step s (ops ++ ops') = run step (run step s ops) ops' :=
  foldl_append

theorem along_append {ops' : List ω} :
    Along step C s (ops ++ ops') ↔ Along step C s ops ∧ Along step C (run step s ops) ops' := by
  induction ops generalizing s with
  | nil => simp [Along]
  | cons op ops ih =>
    rw [cons_append, Along, Along, ih, run_cons, and_assoc]

/-- A run meets a condition throughout exactly when each operation meets it after those before
it. -/
theorem along_iff_forall :
    Along step C s ops ↔ ∀ ops₁ op ops₂, ops = ops₁ ++ op :: ops₂ → C (run step s ops₁) op := by
  induction ops generalizing s with
  | nil => simp [Along]
  | cons op ops ih =>
    rw [Along, ih]
    constructor
    · rintro ⟨hop, hops⟩ ops₁ op' ops₂ heq
      cases ops₁ with
      | nil =>
        obtain ⟨rfl, -⟩ := cons.inj heq
        exact hop
      | cons op₁ ops₁ =>
        obtain ⟨rfl, htl⟩ := cons.inj heq
        exact hops ops₁ op' ops₂ htl
    · intro h
      refine ⟨h [] op ops rfl, ?_⟩
      rintro ops₁ op' ops₂ rfl
      exact h (op :: ops₁) op' ops₂ rfl

theorem along_of_forall {D : ω → Prop} (h : ∀ op ∈ ops, D op) :
    Along step (fun _ op => D op) s ops := by
  induction ops generalizing s with
  | nil => trivial
  | cons op ops ih =>
    exact ⟨h op mem_cons_self, ih (forall_mem_cons.mp h).2⟩

/-- **Induction over a run whose steps meet a condition.** -/
theorem run_invariant_along (hst : ∀ s op, C s op → P s → P (step s op))
    (hops : Along step C s ops) (hs : P s) :
    P (run step s ops) := by
  induction ops generalizing s with
  | nil => exact hs
  | cons op ops ih => exact ih hops.2 (hst s op hops.1 hs)

/-- **Induction over a run.** -/
theorem run_invariant {P : σ → Prop} (hst : ∀ s op, P s → P (step s op)) (hs : P s) :
    P (run step s ops) := by
  induction ops generalizing s with
  | nil => exact hs
  | cons op ops ih => exact ih (hst s op hs)

/-- **A property that each step keeps exactly under a condition**: it holds throughout a run if
and only if every step meets the condition. -/
theorem forall_run_iff_along (hst : ∀ s op, P s → (P (step s op) ↔ C s op)) (hs : P s) :
    (∀ ops₁ ops₂, ops = ops₁ ++ ops₂ → P (run step s ops₁)) ↔ Along step C s ops := by
  induction ops generalizing s with
  | nil =>
    refine ⟨fun _ => trivial, fun _ ops₁ ops₂ hops => ?_⟩
    obtain ⟨rfl, -⟩ := append_eq_nil_iff.mp hops.symm
    exact hs
  | cons op ops ih =>
    constructor
    · intro h
      have hnx : P (step s op) := h [op] ops rfl
      refine ⟨(hst s op hs).mp hnx, (ih hnx).mp ?_⟩
      rintro ops₁ ops₂ rfl
      exact h (op :: ops₁) ops₂ rfl
    · rintro ⟨hop, hops⟩ ops₁ ops₂ heq
      cases ops₁ with
      | nil => exact hs
      | cons op₁ ops₁ =>
        obtain ⟨rfl, htl⟩ := cons.inj heq
        exact (ih ((hst s op hs).mpr hop)).mpr hops ops₁ ops₂ htl

instance {C : σ → ω → Prop} [∀ s op, Decidable (C s op)] (s : σ) (ops : List ω) :
    Decidable (Along step C s ops) :=
  match ops with
  | [] => inferInstanceAs (Decidable True)
  | op :: ops =>
    have : Decidable (Along step C (step s op) ops) := instDecidableAlong (step s op) ops
    inferInstanceAs (Decidable (C s op ∧ Along step C (step s op) ops))

/-- Every state of a run has a property. -/
def Throughout (step : σ → ω → σ) (C : σ → Prop) (s : σ) (ops : List ω) : Prop :=
  C s ∧ Along step (fun s op => C (step s op)) s ops

instance {C : σ → Prop} [∀ s, Decidable (C s)] (s : σ) (ops : List ω) :
    Decidable (Throughout step C s ops) :=
  inferInstanceAs (Decidable (C s ∧ Along step (fun s op => C (step s op)) s ops))

/-- **Induction over a run whose states have a property.** -/
theorem run_invariant_throughout {C : σ → Prop}
    (hst : ∀ s op, C s → C (step s op) → P s → P (step s op)) (hops : Throughout step C s ops)
    (hs : P s) : P (run step s ops) := by
  induction ops generalizing s with
  | nil => exact hs
  | cons op ops ih =>
    obtain ⟨hC, hC', hops⟩ := hops
    exact ih ⟨hC', hops⟩ (hst s op hC hC' hs)

theorem run_map {τ : Type*} {step' : τ → ω → τ} (f : σ → τ)
    (hst : ∀ s op, f (step s op) = step' (f s) op) :
    f (run step s ops) = run step' (f s) ops := by
  induction ops generalizing s with
  | nil => rfl
  | cons op ops ih => rw [run_cons, run_cons, ih, hst]

/-- The same along a run whose steps meet a condition and keep an invariant. -/
theorem run_map_along {τ : Type*} {step' : τ → ω → τ} (f : σ → τ)
    (hin : ∀ s op, C s op → P s → P (step s op))
    (hst : ∀ s op, C s op → P s → f (step s op) = step' (f s) op) (hops : Along step C s ops)
    (hs : P s) : f (run step s ops) = run step' (f s) ops := by
  induction ops generalizing s with
  | nil => rfl
  | cons op ops ih =>
    rw [run_cons, run_cons, ih hops.2 (hin s op hops.1 hs), hst s op hops.1 hs]

/-- What the condition says of an operation alone holds of every operation of the run. -/
theorem Along.of_mem {D : ω → Prop} (hops : Along step C s ops) (hCD : ∀ s op, C s op → D op)
    {op : ω} (hop : op ∈ ops) : D op := by
  induction ops generalizing s with
  | nil => cases hop
  | cons op' ops ih =>
    rcases mem_cons.mp hop with rfl | hop
    · exact hCD s op hops.1
    · exact ih hops.2 hop

/-! ### Operations on keyed parts of a state -/

section Keyed

variable {κ β γ : Type*} {step : σ → κ × β → σ} {view : σ → κ → γ} {ops : List (κ × β)} {k : κ}

/-- If every operation changes the view only at its own key, a run changes it only at the keys
of its operations. -/
theorem run_frame (hfr : ∀ s op k, k ≠ op.1 → view (step s op) k = view s k)
    (hk : k ∉ ops.map Prod.fst) : view (run step s ops) k = view s k := by
  induction ops generalizing s with
  | nil => rfl
  | cons op ops ih =>
    rw [map_cons, mem_cons, not_or] at hk
    rw [run_cons, ih hk.2, hfr s op k hk.1]

/-- **A run at one of its keys.**  What a run with distinct keys does at a key, the operation of
that key does, from a state with the same view there. -/
theorem run_at {b : β} {R : σ → σ → Prop} (hrf : ∀ s, R s s)
    (htr : ∀ s₁ s₂ s₃, R s₁ s₂ → R s₂ s₃ → R s₁ s₃) (hst : ∀ s op, R s (step s op))
    (hfr : ∀ s op k, k ≠ op.1 → view (step s op) k = view s k)
    (hops : (ops.map Prod.fst).Nodup) (hmem : (k, b) ∈ ops) :
    ∃ s₀, R s s₀ ∧ view s₀ k = view s k ∧ R (step s₀ (k, b)) (run step s ops) ∧
      view (run step s ops) k = view (step s₀ (k, b)) k := by
  have hrun : ∀ (ops : List (κ × β)) (s : σ), R s (run step s ops) := by
    intro ops
    induction ops with
    | nil => exact hrf
    | cons op ops ih => exact fun s => htr _ _ _ (hst s op) (ih (step s op))
  obtain ⟨before, after, rfl⟩ := append_of_mem hmem
  rw [map_append, map_cons, nodup_append] at hops
  obtain ⟨-, haf, hds⟩ := hops
  have hpre : k ∉ before.map Prod.fst :=
    fun hk => hds k hk k mem_cons_self rfl
  refine ⟨run step s before, hrun before s, run_frame hfr hpre, ?_, ?_⟩
  · rw [run_append, run_cons]
    exact hrun after _
  · rw [run_append, run_cons]
    exact run_frame hfr (nodup_cons.mp haf).1

end Keyed

theorem run_of_noop (hnp : ∀ u ∈ ops, step s u = s) : run step s ops = s := by
  induction ops with
  | nil => rfl
  | cons u ops ih =>
    rw [run_cons, hnp u mem_cons_self]
    exact ih (forall_mem_cons.mp hnp).2

/-- **An absorbing operation decides the run.**  If `m` undoes whatever came before it and
nothing has an effect after it, every run through `m` ends where `m` alone leads. -/
theorem run_of_absorbs {m : ω} (hm : m ∈ ops)
    (hbf : ∀ s, ∀ u ∈ ops, step (step s u) m = step s m)
    (haf : ∀ s, ∀ u ∈ ops, step (step s m) u = step s m) : run step s ops = step s m := by
  obtain ⟨before, after, rfl⟩ := append_of_mem hm
  -- `m` absorbs the part of the run before it
  have hpre : ∀ (l : List ω) (s : σ), (∀ u ∈ l, u ∈ before ++ m :: after) →
      step (run step s l) m = step s m := by
    intro l
    induction l with
    | nil => exact fun _ _ => rfl
    | cons u l ih =>
      intro s hl
      rw [run_cons, ih _ (forall_mem_cons.mp hl).2,
        hbf s u (hl u mem_cons_self)]
  rw [run_append, run_cons, hpre before s fun u hu => mem_append_left _ hu]
  apply run_of_noop
  intro u hu
  exact haf s u (mem_append_right _ (mem_cons_of_mem _ hu))

end Run

/-! ### Checks that refuse with an error -/

namespace Checks

variable {ε α β : Type}

/-- Refuse unless a condition holds. -/
def ensure (condition : Bool) (error : ε) : Except ε Unit :=
  if condition then .ok () else .error error

def each (check : α → Except ε Unit) : List α → Except ε Unit
  | [] => .ok ()
  | entry :: rest => do
    check entry
    each check rest

def given (value : Option α) (check : α → Except ε Unit) : Except ε Unit :=
  match value with
  | none => .ok ()
  | some value => check value

theorem bind_eq_ok_iff {first : Except ε α} {next : α → Except ε β} {result : β} :
    (first >>= next) = .ok result ↔ ∃ value, first = .ok value ∧ next value = .ok result := by
  cases first with
  | error error | ok value => simp [bind, Except.bind]

theorem andThen_eq_ok_iff {first : Except ε Unit} {next : Unit → Except ε β} {result : β} :
    (first >>= next) = .ok result ↔ first = .ok () ∧ next () = .ok result := by
  rw [bind_eq_ok_iff]
  constructor
  · rintro ⟨_, hfr, hnx⟩
    exact ⟨hfr, hnx⟩
  · intro h
    exact ⟨(), h⟩

theorem ensure_eq_ok_iff {condition : Bool} {error : ε} :
    ensure condition error = .ok () ↔ condition = true := by
  rw [ensure]
  split_ifs with h <;> simp [h]

theorem each_eq_ok_iff {check : α → Except ε Unit} {entries : List α} :
    each check entries = .ok () ↔ ∀ entry ∈ entries, check entry = .ok () := by
  induction entries with
  | nil => simp [each]
  | cons entry rest ih =>
    rw [each, andThen_eq_ok_iff, ih, List.forall_mem_cons]

theorem given_eq_ok_iff {value : Option α} {check : α → Except ε Unit} :
    given value check = .ok () ↔ ∀ v ∈ value, check v = .ok () := by
  cases value with
  | none => simp [given]
  | some value => simp [given]

end Checks
