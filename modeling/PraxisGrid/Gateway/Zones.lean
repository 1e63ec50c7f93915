/-
PraxisGrid/Gateway/Zones.lean

The sovereignty zones that a request names:
`crates/gateway/crates/ai-grid-filters/src/geo.rs` and `crates/signals/src/zone.rs`.

A fence is held as its canonical header value: the zones lowercased, sorted, without repetition
and joined by commas.  `Canonical` is what that makes of a list of zones, and a canonical list is
what its own header value is parsed to again (`parseZones_join`).
-/
import Mathlib.Data.Char
import Mathlib.Data.List.Lex
import Mathlib.Data.List.Sort
import PraxisGrid.Gateway.Candidates
import PraxisGrid.Lib.Text

namespace PraxisGrid.Gateway

/-! ### Zones -/

def maxZoneLen : Nat := 63

def isZoneChar (ch : Char) : Bool :=
  Text.isAlphanumeric ch || ch = '-' || ch = '_' || ch = '.'

/-- An ASCII letter in lower case. -/
def lowerChar (ch : Char) : Char :=
  if 'A' ≤ ch ∧ ch ≤ 'Z' then Char.ofNat (ch.toNat + 32) else ch

/-- A zone: trimmed and lowercased, a bounded run of its characters. -/
def sovereigntyZone (raw : List Char) : Option (List Char) :=
  let zone := Text.trim raw
  if 1 ≤ zone.length ∧ zone.length ≤ maxZoneLen ∧ zone.all isZoneChar = true then
    some (zone.map lowerChar)
  else none

/-- Most zones one request may name. -/
def maxZones : Nat := 16

/-- A list without the entries that repeat the one before. -/
def dedup : List (List Char) → List (List Char)
  | [] => []
  | [zone] => [zone]
  | zone :: next :: rest => if zone = next then dedup (next :: rest) else zone :: dedup (next :: rest)

/-- The zones of a header value; an item with no zone is skipped, an invalid zone is not. -/
def parseZones (value : List Char) : Option (List (List Char)) := do
  let raw := (value.splitOn ',').filter fun raw => !(Text.trim raw).isEmpty
  let zones ← raw.mapM sovereigntyZone
  if zones.length > maxZones * 4 then none
  else
    let zones := dedup (zones.insertionSort (· ≤ ·))
    if !zones.isEmpty && zones.length ≤ maxZones then some zones else none

/-! ### Fences -/

/-- A header value as text: visible characters, spaces and tabs. -/
def toStr (value : List Char) : Option (List Char) :=
  if value.all fun ch => (32 ≤ ch.toNat && ch.toNat < 127) || ch = '\t' then some value else none

/-- The zones a request may be served in, held as the canonical header value. -/
structure Fence where
  value : List Char

def joinZones (zones : List (List Char)) : List Char := [','].intercalate zones

/-- What a request's zone header says. -/
inductive Zones
  | absent
  | invalid
  | named (fence : Fence)

/-- The values under one header name, in the order of their lines. -/
def headerLines (headers : List (String × List Char)) (name : String) : List (List Char) :=
  (headers.filter fun line => line.1 == name).map Prod.snd

/-- Read the zone header; more than one line is invalid. -/
def Fence.fromHeaders (headers : List (String × List Char)) (header : String) : Zones :=
  match headerLines headers header with
  | [] => .absent
  | [line] =>
    match (toStr line).bind parseZones with
    | some zones => .named ⟨joinZones zones⟩
    | none => .invalid
  | _ => .invalid

def Fence.admits (fence : Fence) (candidate : RouteCandidate) : Bool :=
  candidate.sovereigntyZone.any fun zone =>
    (fence.value.splitOn ',').any fun allowed => allowed = zone.toList

/-- A configured fence: its header, and whether it refuses or only logs. -/
structure FenceConfig where
  header : String
  enforce : Bool

/-- One request's fence and its settings. -/
structure Fencing where
  fence : Fence
  config : FenceConfig

def Fencing.enforced (fencing : Fencing) : Option Fence :=
  if fencing.config.enforce then some fencing.fence else none

/-- A candidate may be chosen: always when the fence only logs. -/
def Fencing.allows (fencing : Fencing) (candidate : RouteCandidate) : Bool :=
  !fencing.config.enforce || fencing.fence.admits candidate

/-- A request may go to a candidate: a refusal counts only when the fence refuses. -/
def Fencing.passes (fencing : Fencing) (candidate : RouteCandidate) : Bool :=
  fencing.fence.admits candidate || !fencing.config.enforce

/-! ### Canonical lists of zones -/

/-- What parsing leaves: up to `maxZones` distinct zones in their normal form, in order. -/
structure Canonical (zones : List (List Char)) : Prop where
  nonempty : zones ≠ []
  length_le : zones.length ≤ maxZones
  sorted : zones.Pairwise (· < ·)
  normal : ∀ zone ∈ zones, sovereigntyZone zone = some zone

/-- A zone character is one of the first 128, and keeps being one in lower case. -/
theorem isZoneChar_lower {ch : Char} (h : isZoneChar ch = true) :
    isZoneChar (lowerChar ch) = true ∧ lowerChar (lowerChar ch) = lowerChar ch
      ∧ Text.isSpace (lowerChar ch) = false ∧ lowerChar ch ≠ ',' := by
  have hall : ∀ n < 128, isZoneChar (Char.ofNat n) = true →
      isZoneChar (lowerChar (Char.ofNat n)) = true
        ∧ lowerChar (lowerChar (Char.ofNat n)) = lowerChar (Char.ofNat n)
        ∧ Text.isSpace (lowerChar (Char.ofNat n)) = false ∧ lowerChar (Char.ofNat n) ≠ ',' := by
    decide +kernel
  have hbn : ch.toNat < 128 := by
    simp only [isZoneChar, Text.isAlphanumeric, Text.isDigit, Bool.or_eq_true, Bool.and_eq_true,
      decide_eq_true_eq] at h
    have hle {a b : Char} (hab : a ≤ b) : a.toNat ≤ b.toNat := hab
    rcases h with (((((⟨_, h⟩ | ⟨_, h⟩) | ⟨_, h⟩) | rfl) | rfl) | rfl)
    · exact (hle h).trans_lt (by decide)
    · exact (hle h).trans_lt (by decide)
    · exact (hle h).trans_lt (by decide)
    · decide
    · decide
    · decide
  have hch := hall ch.toNat hbn
  rw [Char.ofNat_toNat] at hch
  exact hch h

open List Text

theorem trim_eq_self {text : List Char} (h : ∀ ch ∈ text, isSpace ch = false) :
    trim text = text := by
  have hst : trimStart text = text := by
    cases text with
    | nil => rfl
    | cons ch rest => exact dropWhile_cons_of_neg (by simp [h ch mem_cons_self])
  rw [trim, hst, trimEnd]
  rcases eq_nil_or_concat text with rfl | ⟨init, last, rfl⟩
  · rfl
  · rw [concat_eq_append] at h ⊢
    exact rdropWhile_concat_neg _ _ _ (by simp [h last (by simp)])

/-- What a zone is normalized to: its own normal form, a token without a comma. -/
theorem normal_of_sovereigntyZone {raw zone : List Char} (h : sovereigntyZone raw = some zone) :
    sovereigntyZone zone = some zone ∧ zone ≠ [] ∧ ',' ∉ zone
      ∧ ∀ ch ∈ zone, isSpace ch = false := by
  unfold sovereigntyZone at h
  dsimp only at h
  split_ifs at h with hvl
  obtain ⟨hpos, hlen, hall⟩ := hvl
  rw [all_eq_true] at hall
  cases h
  have hcs : ∀ ch ∈ (trim raw).map lowerChar, isZoneChar ch = true ∧ lowerChar ch = ch
      ∧ isSpace ch = false ∧ ch ≠ ',' := by
    intro ch hch
    obtain ⟨origin, horig, rfl⟩ := mem_map.mp hch
    exact isZoneChar_lower (hall origin horig)
  have hlen' : ((trim raw).map lowerChar).length = (trim raw).length :=
    length_map _
  refine ⟨?_, ?_, fun hcm => (hcs ',' hcm).2.2.2 rfl, fun ch hch => (hcs ch hch).2.2.1⟩
  · rw [sovereigntyZone, trim_eq_self fun ch hch => (hcs ch hch).2.2.1, if_pos]
    · congr 1
      exact (map_congr_left fun ch hch => (hcs ch hch).2.1).trans (map_id' _)
    · rw [hlen', all_eq_true]
      exact ⟨hpos, hlen, fun ch hch => (hcs ch hch).1⟩
  · apply ne_nil_of_length_pos
    omega

theorem dedup_sublist (zones : List (List Char)) : (dedup zones).Sublist zones := by
  fun_induction dedup zones with
  | case1 | case2 zone => exact Sublist.refl _
  | case3 next rest ih => exact ih.trans (sublist_cons_self _ _)
  | case4 zone next rest hne ih => exact ih.cons_cons _

/-- A list in order has its repetitions next to one another. -/
theorem dedup_sorted {zones : List (List Char)} (h : zones.Pairwise (· ≤ ·)) :
    (dedup zones).Pairwise (· < ·) := by
  fun_induction dedup zones with
  | case1 => exact Pairwise.nil
  | case2 zone => exact pairwise_singleton _ _
  | case3 next rest ih => exact ih (pairwise_cons.mp h).2
  | case4 zone next rest hne ih =>
    obtain ⟨hzn, hrs⟩ := pairwise_cons.mp h
    refine pairwise_cons.mpr ⟨?_, ih hrs⟩
    intro other hot
    have hmem := (dedup_sublist (next :: rest)).subset hot
    have hnx : zone < next := lt_of_le_of_ne (hzn next mem_cons_self) hne
    rcases mem_cons.mp hmem with rfl | hlt
    · exact hnx
    · exact hnx.trans_le ((pairwise_cons.mp hrs).1 other hlt)

theorem dedup_eq_self {zones : List (List Char)} (h : zones.Pairwise (· < ·)) :
    dedup zones = zones := by
  fun_induction dedup zones with
  | case1 => rfl
  | case2 zone => rfl
  | case3 next rest ih =>
    exact absurd ((pairwise_cons.mp h).1 next mem_cons_self) (lt_irrefl next)
  | case4 zone next rest hne ih => rw [ih (pairwise_cons.mp h).2]

theorem mem_of_mapM {raw zones : List (List Char)} (h : raw.mapM sovereigntyZone = some zones) :
    ∀ zone ∈ zones, ∃ origin ∈ raw, sovereigntyZone origin = some zone := by
  induction raw generalizing zones with
  | nil =>
    cases h
    simp
  | cons first rest ih =>
    rw [mapM_cons] at h
    obtain ⟨head, hhd, h⟩ := Option.bind_eq_some_iff.mp h
    obtain ⟨tail, htl, h⟩ := Option.bind_eq_some_iff.mp h
    cases h
    intro zone hzn
    rcases mem_cons.mp hzn with rfl | hzn
    · exact ⟨first, mem_cons_self, hhd⟩
    · obtain ⟨origin, horig, heq⟩ := ih htl zone hzn
      exact ⟨origin, mem_cons_of_mem _ horig, heq⟩

/-- **What a header value is parsed to is canonical.** -/
theorem canonical_of_parseZones {value : List Char} {zones : List (List Char)}
    (h : parseZones value = some zones) : Canonical zones := by
  obtain ⟨found, hfn, h⟩ := Option.bind_eq_some_iff.mp h
  dsimp only at h
  split_ifs at h with hmn hkp
  cases h
  rw [Bool.and_eq_true, Bool.not_eq_true', isEmpty_eq_false_iff, decide_eq_true_eq] at hkp
  refine ⟨hkp.1, hkp.2, dedup_sorted (pairwise_insertionSort _ _), ?_⟩
  intro zone hzn
  have hmem := (mem_insertionSort _).mp ((dedup_sublist _).subset hzn)
  obtain ⟨origin, _, horig⟩ := mem_of_mapM hfn zone hmem
  exact (normal_of_sovereigntyZone horig).1

section Join

variable {zones : List (List Char)}

theorem Canonical.splitOn_join (h : Canonical zones) : (joinZones zones).splitOn ',' = zones := by
  apply splitOn_intercalate ','
  · intro zone hzn
    exact (normal_of_sovereigntyZone (h.normal zone hzn)).2.2.1
  · exact h.nonempty

/-- **A canonical header value is parsed to the zones it was made of.** -/
theorem Canonical.parseZones_join (h : Canonical zones) :
    parseZones (joinZones zones) = some zones := by
  have hraw : (zones.filter fun raw => !(trim raw).isEmpty) = zones := by
    refine filter_eq_self.mpr fun zone hzn => ?_
    obtain ⟨_, hne, _, hsp⟩ := normal_of_sovereigntyZone (h.normal zone hzn)
    rw [trim_eq_self hsp, Bool.not_eq_true', isEmpty_eq_false_iff]
    exact hne
  have hmap : zones.mapM sovereigntyZone = some zones := by
    have hnr := h.normal
    clear hraw h
    induction zones with
    | nil => rfl
    | cons zone rest ih =>
      rw [mapM_cons, hnr zone mem_cons_self,
        ih (forall_mem_cons.mp hnr).2]
      rfl
  have hsr : dedup (zones.insertionSort (· ≤ ·)) = zones := by
    rw [(h.sorted.imp le_of_lt).insertionSort_eq, dedup_eq_self h.sorted]
  have hlen := h.length_le
  rw [parseZones, h.splitOn_join, hraw, hmap]
  show (if zones.length > maxZones * 4 then none else _) = _
  rw [if_neg (by simp only [maxZones] at hlen ⊢; omega), hsr, if_pos]
  rw [Bool.and_eq_true, Bool.not_eq_true', isEmpty_eq_false_iff, decide_eq_true_eq]
  exact ⟨h.nonempty, hlen⟩

theorem Canonical.admits_iff (h : Canonical zones) (candidate : RouteCandidate) :
    (Fence.mk (joinZones zones)).admits candidate = true
      ↔ ∃ zone ∈ candidate.sovereigntyZone, zone.toList ∈ zones := by
  unfold Fence.admits
  rw [h.splitOn_join]
  cases candidate.sovereigntyZone with
  | none => simp
  | some zone => simp

end Join

/-- **A fence is named by exactly one line**, which parses to its zones. -/
theorem Fence.fromHeaders_named {headers : List (String × List Char)} {header : String}
    {fence : Fence} (h : Fence.fromHeaders headers header = .named fence) :
    ∃ line zones, headerLines headers header = [line] ∧ parseZones line = some zones
      ∧ Canonical zones ∧ fence = ⟨joinZones zones⟩ := by
  unfold Fence.fromHeaders at h
  split at h
  · cases h
  · rename_i line hln
    split at h
    · rename_i zones hzn
      cases h
      obtain ⟨text, htx, hpr⟩ := Option.bind_eq_some_iff.mp hzn
      have hsm : text = line := by
        unfold toStr at htx
        split_ifs at htx
        exact (Option.some.inj htx).symm
      rw [hsm] at hpr
      exact ⟨line, zones, hln, hpr, canonical_of_parseZones hpr, rfl⟩
    · cases h
  · cases h

end PraxisGrid.Gateway
