/-
PraxisGrid/Gateway/Selection.lean

The choice of a site for one request:
`select_spread` and what it calls in `crates/gateway/crates/ai-grid-filters/src/route.rs`.

The sites that match are narrowed by five fallbacks in a row, each dropped when it leaves
nothing: the sites that are not demoted, those that are not silent, the pressure tier, what the
narrowing stage keeps, the least queue.  A draw then takes one site of what is left.  The lists
of the source hold at most `maxSites` sites; with no more matches than that, nothing is cut off
and the choice is that of `Tiers.first` over `pressureTiers`.
-/
import Mathlib.Algebra.BigOperators.Group.List.Basic
import Mathlib.Algebra.Order.Field.Rat
import PraxisGrid.Gateway.Candidates
import PraxisGrid.Lib.Tiers

namespace PraxisGrid.Gateway

/-! ### Sites -/

/-- A candidate with its place in the snapshot, which tells two equal candidates apart. -/
structure Site where
  index : Nat
  candidate : RouteCandidate
  score : Score
deriving DecidableEq

/-- One site as a narrowing stage sees it. -/
structure SiteView where
  candidate : RouteCandidate
  queue : Score

def Site.view (site : Site) : SiteView := ⟨site.candidate, site.score⟩

/-- A stage that clears entries of a list of flags that start all true. -/
structure Narrow where
  keep : List SiteView → List Bool
  length_keep : ∀ views, (keep views).length = views.length

def Narrow.keepAll : Narrow where
  keep views := views.map fun _ => true
  length_keep _ := List.length_map _

def maxSites : Nat := 64

/-- The first `maxSites` of the sites offered. -/
def gather (sites : List Site) : List Site := sites.take maxSites

def matching (snapshot : RouteSnapshot) (kind : CapabilityKind) (name : String) (nowMs : Int)
    (routable : RouteCandidate → Bool) : List Site :=
  (snapshot.candidates.zipIdx.map fun ((candidate, score), index) => Site.mk index candidate score)
    |>.filter fun site =>
      site.candidate.kind = kind && site.candidate.name == name
        && isAdmittedForNewRequest site.candidate.admissionState
        && !site.candidate.expiredAt nowMs && routable site.candidate

/-- Observed pressure permits room; an entirely missing reading does not. -/
def hasRoom (candidate : RouteCandidate) : Bool :=
  candidate.full ≠ some true && candidate.rho.all (fun rho => decide (rho < 1))
    && (candidate.rho.isSome || candidate.backlog.isSome)

/-- Queued sites with room first, then those not full, then those that publish load. -/
def overflow (healthy : List Site) : List Site :=
  let available := gather (healthy.filter fun site => hasRoom site.candidate)
  if available.length > 0 then available else
  let unfilled := gather (healthy.filter fun site =>
    site.candidate.full ≠ some true && site.candidate.publishesLoad)
  if unfilled.length > 0 then unfilled else
  let publishing := gather (healthy.filter fun site => site.candidate.publishesLoad)
  if publishing.length > 0 then publishing else gather healthy

/-- The sites a stage keeps, or all of them when it keeps none. -/
def narrowed (room : List Site) (narrow : Narrow) : List Site :=
  if room.length = 0 then gather room else
  let kept := narrow.keep (room.map Site.view)
  if !kept.any id then gather room else
  gather (((room.zip kept).filter fun (_, kept) => kept).map Prod.fst)

/-! ### Draws -/

/-- The mean of the known capacities, or one. -/
def meanCapacity (sites : List Site) : ℚ :=
  let known := sites.filterMap fun site => site.candidate.capacity
  if known.length > 0 then known.sum / known.length else 1

def salts : UInt64 × UInt64 := (0x9E3779B97F4A7C15, 0xC2B2AE3D27D4EB4F)

/-- A value in `[0, 1)` from a turn and a salt: the top 53 bits of their mix. -/
def unit (turn salt : UInt64) : ℚ :=
  let mixed := turn ^^^ salt
  let mixed := (mixed ^^^ (mixed >>> 30)) * 0xBF58476D1CE4E5B9
  let mixed := (mixed ^^^ (mixed >>> 27)) * 0x94D049BB133111EB
  let mixed := mixed ^^^ (mixed >>> 31)
  let bits := mixed >>> 11
  let high := (bits >>> 21).toNat
  let low := (bits &&& 0x1FFFFF).toNat
  ((high : ℚ) * 2 ^ 21 + low) / 2 ^ 53

/-- Walks the sites until the weights passed exceed the target; the last one is the default. -/
def weightedLoop (weight : RouteCandidate → ℚ) : ℚ → Option Site → List Site → Option Site
  | _, last, [] => last
  | target, _, site :: rest =>
    let target := target - weight site.candidate
    if target < 0 then some site else weightedLoop weight target (some site) rest

/-- The site a point of `[0, 1)` lands on, with one candidate left out. -/
def weighted (sites : List Site) (point : ℚ) (skip : Option Nat) (weight : RouteCandidate → ℚ) :
    Option Site :=
  let eligible := sites.filter fun site => skip.all fun index => site.index != index
  weightedLoop weight (point * (eligible.map fun site => weight site.candidate).sum) none eligible

def scaledCapacity (unpublished : ℚ) (candidate : RouteCandidate) : ℚ :=
  candidate.capacity.getD unpublished * candidate.weight

def twoSiteShare : ℚ × ℚ := (1 / 10, 9 / 10)

/-- A pick between two sites by capacity over `1 + rho`. -/
def betweenTwo (first second : Site) (turn : UInt64) (unpublished : ℚ) : Site :=
  let rate (candidate : RouteCandidate) :=
    scaledCapacity unpublished candidate / (1 + candidate.rho.getD 0)
  let total := rate first.candidate + rate second.candidate
  -- Zero over zero is not a number, below which nothing lies.
  if total = 0 then second else
  let share := max twoSiteShare.1 (min (rate first.candidate / total) twoSiteShare.2)
  if unit turn salts.1 < share then first else second

/-- An absent saturation is below every known one. -/
def rhoBelow : Option ℚ → Option ℚ → Bool
  | none, none => false
  | none, some _ => true
  | some _, none => false
  | some a, some b => decide (a < b)

/-- Two distinct picks by capacity, the one with less pressure. -/
def twoChoices (sites : List Site) (turn : UInt64) (unpublished : ℚ) : Option Site := do
  let first ← weighted sites (unit turn salts.1) none (scaledCapacity unpublished)
  let second :=
    (weighted sites (unit turn salts.2) (some first.index) (scaledCapacity unpublished)).getD first
  if rhoBelow second.candidate.rho first.candidate.rho then some second else some first

/-- Spread by pressure where it is known, and draw by capacity otherwise. -/
def select (sites : List Site) (spread : Bool) (turn : UInt64) : Option Site :=
  let arm := if spread then min sites.length 3 else 0
  let unpublished := meanCapacity sites
  match arm with
  | 0 => weighted sites (unit turn salts.1) none (scaledCapacity unpublished)
  | 1 => sites[0]?
  | 2 => do
    let first ← sites[0]?
    let second ← sites[1]?
    some (betweenTwo first second turn unpublished)
  | _ => twoChoices sites turn unpublished

/-! ### The choice -/

/-- The chosen site, and whether it was taken because no better one was left. -/
structure Pick where
  site : Site
  fallback : Bool

/-- The score as a queue depth, unmeasured when it is absent. -/
def Site.queue (site : Site) : WithTop ℚ := site.score.getD ⊤

def selectSpread (snapshot : RouteSnapshot) (kind : CapabilityKind) (name : String) (nowMs : Int)
    (turn : UInt64) (routable : RouteCandidate → Bool) (narrow : Narrow) : Option Pick :=
  match matching snapshot kind name nowMs routable with
  | [] => none
  | front :: rest =>
    let healthy := gather ((front :: rest).filter fun site => site.score.isSome)
    if healthy.length = 0 then some ⟨front, true⟩ else
    let live := gather (healthy.filter fun site => !site.candidate.silent)
    let allSilent := live.length = 0
      || (live.length < healthy.length
        && live.all fun site =>
          !site.candidate.publishesLoad && site.candidate.site != snapshot.localSite)
    let healthy := if live.length > 0 then live else healthy
    let room := gather (healthy.filter fun site =>
      hasRoom site.candidate && site.candidate.backlog ≠ some true)
    let eligible := if room.length > 0 then room else overflow healthy
    let spread := eligible.all fun site => hasRoom site.candidate
    let kept := narrowed eligible narrow
    let pressureKnown := kept.all fun site => site.candidate.rho.isSome
    let pool :=
      if !spread || kept.all (fun site => site.candidate.rho.isNone) then
        let best := (kept.map Site.queue).foldl min ⊤
        gather (kept.filter fun site => site.score = some best)
      else kept
    (select pool (spread && pressureKnown) turn).map fun chosen => ⟨chosen, allSilent⟩

open List Tiers

/-! ### A draw takes one of the sites -/

theorem gather_eq {sites : List Site} (h : sites.length ≤ maxSites) : gather sites = sites :=
  take_of_length_le h

variable {weight : RouteCandidate → ℚ} {site : Site}

theorem weightedLoop_mem {sites : List Site} {target : ℚ} {last : Option Site}
    (h : weightedLoop weight target last sites = some site) :
    last = some site ∨ site ∈ sites := by
  induction sites generalizing target last with
  | nil => exact .inl h
  | cons head rest ih =>
    rw [weightedLoop] at h
    split_ifs at h
    · cases h
      exact .inr mem_cons_self
    · right
      rcases ih h with hls | hrs
      · cases hls
        exact mem_cons_self
      · exact mem_cons_of_mem _ hrs

theorem weightedLoop_isSome {sites : List Site} {last : Option Site} (target : ℚ)
    (h : last.isSome ∨ sites ≠ []) :
    (weightedLoop weight target last sites).isSome := by
  induction sites generalizing target last with
  | nil => exact h.resolve_right fun hne => hne rfl
  | cons head rest ih =>
    rw [weightedLoop]
    split_ifs
    · rfl
    · exact ih _ (.inl rfl)

theorem weighted_mem {sites : List Site} {point : ℚ} {skip : Option Nat}
    (h : weighted sites point skip weight = some site) :
    site ∈ sites := by
  rcases weightedLoop_mem h with hls | hmem
  · cases hls
  · exact mem_of_mem_filter hmem

theorem weighted_isSome {sites : List Site} (point : ℚ) (h : sites ≠ []) :
    (weighted sites point none weight).isSome := by
  refine weightedLoop_isSome _ (.inr ?_)
  simpa using h

theorem betweenTwo_cases (first second : Site) (turn : UInt64) (unpublished : ℚ) :
    betweenTwo first second turn unpublished = first
      ∨ betweenTwo first second turn unpublished = second := by
  unfold betweenTwo
  dsimp only
  split_ifs
  · exact .inr rfl
  · exact .inl rfl
  · exact .inr rfl

theorem twoChoices_mem {sites : List Site} (turn : UInt64) (unpublished : ℚ) (h : sites ≠ []) :
    ∃ site ∈ sites, twoChoices sites turn unpublished = some site := by
  obtain ⟨first, hfr⟩ := Option.isSome_iff_exists.mp
    (weighted_isSome (unit turn salts.1) h)
  have hmem := weighted_mem hfr
  rw [twoChoices, hfr, Option.bind_eq_bind, Option.bind_some]
  dsimp only
  -- The second draw leaves the first out and falls back on it.
  cases hsec :
      weighted sites (unit turn salts.2) (some first.index) (scaledCapacity unpublished) with
  | none =>
    refine ⟨first, hmem, ?_⟩
    rw [Option.getD_none, ite_self]
  | some second =>
    rw [Option.getD_some]
    split_ifs
    · exact ⟨second, weighted_mem hsec, rfl⟩
    · exact ⟨first, hmem, rfl⟩

/-- **A draw from some sites takes one of them**, whichever of the four rules draws. -/
theorem select_mem {sites : List Site} (spread : Bool) (turn : UInt64) (h : sites ≠ []) :
    ∃ site ∈ sites, select sites spread turn = some site := by
  unfold select
  dsimp only
  split
  · obtain ⟨site, hst⟩ := Option.isSome_iff_exists.mp
      (weighted_isSome (unit turn salts.1) h)
    exact ⟨site, weighted_mem hst, hst⟩
  · obtain ⟨head, rest, rfl⟩ := exists_cons_of_ne_nil h
    exact ⟨head, mem_cons_self, rfl⟩
  · rename_i harm
    match sites, harm with
    | [], _ => exact absurd rfl h
    | [_], harm =>
      cases spread <;> cases harm
    | first :: second :: rest, _ =>
      rcases betweenTwo_cases first second turn (meanCapacity (first :: second :: rest))
        with hpc | hpc
      · exact ⟨first, mem_cons_self, congrArg some hpc⟩
      · exact ⟨second, mem_cons_of_mem _ mem_cons_self, congrArg some hpc⟩
  · exact twoChoices_mem turn _ h

/-! ### The classes of the statement -/

/-- The matches that are not demoted. -/
def undemoted (sites : List Site) : List Site := sites.filter fun site => site.score.isSome

/-- Of these, the ones that are not silent, or all of them when every one is. -/
def heard (sites : List Site) : List Site :=
  Tiers.orWhole ((undemoted sites).filter fun site => !site.candidate.silent) (undemoted sites)

def pressureTiers : List (Site → Bool) :=
  [fun site => hasRoom site.candidate && site.candidate.backlog ≠ some true,
   fun site => hasRoom site.candidate,
   fun site => site.candidate.full ≠ some true && site.candidate.publishesLoad,
   fun site => site.candidate.publishesLoad,
   fun _ => true]

/-- The class a pick is taken from. -/
def bestClass (sites : List Site) : List Site := Tiers.first pressureTiers (heard sites)

/-- What a stage keeps of a class. -/
def Narrow.keeps (narrow : Narrow) (sites : List Site) : List Site :=
  ((sites.zip (narrow.keep (sites.map Site.view))).filter fun (_, kept) => kept).map Prod.fst

/-- What the stage keeps of the best class, or all of it when the stage keeps none. -/
def keptClass (narrow : Narrow) (sites : List Site) : List Site :=
  Tiers.orWhole (narrow.keeps (bestClass sites)) (bestClass sites)

/-- The least queue decides: the class is not all room, or no pressure is known. -/
def DrawnByQueue (narrow : Narrow) (sites : List Site) : Prop :=
  (∃ site ∈ bestClass sites, hasRoom site.candidate = false)
    ∨ ∀ site ∈ keptClass narrow sites, site.candidate.rho = none

def drawPool (narrow : Narrow) (sites : List Site) : List Site :=
  let kept := keptClass narrow sites
  if !((bestClass sites).all fun site => hasRoom site.candidate)
      || kept.all (fun site => site.candidate.rho.isNone) then
    kept.filter fun site => site.score = some (Tiers.leastValue Site.queue kept)
  else kept

/-! ### The classes are those the source computes -/

theorem gather_ne_nil {sites : List Site} (h : sites ≠ []) : gather sites ≠ [] := by
  obtain ⟨front, rest, rfl⟩ := exists_cons_of_ne_nil h
  exact cons_ne_nil _ _

theorem undemoted_gather :
    undemoted (gather (undemoted sites)) = gather (undemoted sites) := by
  refine filter_eq_self.mpr fun site hst => ?_
  exact (mem_filter.mp (mem_of_mem_take hst)).2

/-- The pool depends on the matches that are not demoted. -/
theorem drawPool_congr (narrow : Narrow) {a b : List Site} (h : undemoted a = undemoted b) :
    drawPool narrow a = drawPool narrow b := by
  have hhr : heard a = heard b := by rw [heard, heard, h]
  have hbs : bestClass a = bestClass b := by rw [bestClass, bestClass, hhr]
  have hkp : keptClass narrow a = keptClass narrow b := by rw [keptClass, keptClass, hbs]
  rw [drawPool, drawPool, hbs, hkp]

theorem heard_sublist : (heard sites).Sublist (undemoted sites) :=
  orWhole_sublist filter_sublist

theorem bestClass_sublist : (bestClass sites).Sublist (heard sites) :=
  first_sublist _ _

theorem Narrow.keeps_sublist (narrow : Narrow) :
    (narrow.keeps sites).Sublist sites := by
  have h : (sites.zip (narrow.keep (sites.map Site.view))).map Prod.fst = sites := by
    apply map_fst_zip
    rw [narrow.length_keep, length_map]
  have hsub := (filter_sublist (p := fun x : Site × Bool => x.2)
    (l := sites.zip (narrow.keep (sites.map Site.view)))).map Prod.fst
  rwa [h] at hsub

theorem keptClass_sublist (narrow : Narrow) :
    (keptClass narrow sites).Sublist (bestClass sites) :=
  orWhole_sublist (narrow.keeps_sublist)

theorem length_heard_le {sites : List Site} (h : sites.length ≤ maxSites) :
    (heard sites).length ≤ maxSites :=
  ((heard_sublist).length_le.trans (length_filter_le _ _)).trans h

/-- A stage clears every flag exactly when it keeps no site. -/
theorem Narrow.any_keep_iff (narrow : Narrow) :
    (narrow.keep (sites.map Site.view)).any id = true ↔ narrow.keeps sites ≠ [] := by
  have hlen : (narrow.keep (sites.map Site.view)).length = sites.length := by
    rw [narrow.length_keep, length_map]
  unfold Narrow.keeps
  generalize narrow.keep (sites.map Site.view) = flags at hlen
  induction sites generalizing flags with
  | nil =>
    rw [length_eq_zero_iff.mp hlen]
    simp
  | cons site sites ih =>
    obtain ⟨flag, flags, rfl⟩ := exists_cons_of_length_eq_add_one hlen
    have htl := ih flags (Nat.succ.inj hlen)
    cases flag
    · simpa using htl
    · simp

theorem narrowed_eq {room : List Site} (narrow : Narrow) (h : room.length ≤ maxSites) :
    narrowed room narrow = orWhole (narrow.keeps room) room := by
  have hkp := (narrow.keeps_sublist).length_le.trans h
  unfold narrowed
  rw [gather_eq h]
  by_cases hrm : room.length = 0
  · rw [if_pos hrm, length_eq_zero_iff.mp hrm]
    have hnil := sublist_nil.mp (narrow.keeps_sublist)
    rw [hnil, orWhole_nil]
  · rw [if_neg hrm]
    by_cases hany : narrow.keeps room = []
    · rw [if_pos, hany, orWhole_nil]
      have hnot := mt (narrow.any_keep_iff).mp (not_not.mpr hany)
      simpa using hnot
    · rw [if_neg, orWhole_of_ne_nil _ hany]
      · exact gather_eq hkp
      · have hyes := (narrow.any_keep_iff).mpr hany
        simp [hyes]

/-- The tests of the source, one after the other, are the tiers. -/
theorem eligible_eq {healthy : List Site} (h : healthy.length ≤ maxSites) :
    (let room := gather (healthy.filter fun site =>
        hasRoom site.candidate && site.candidate.backlog ≠ some true)
      if room.length > 0 then room else overflow healthy)
      = first pressureTiers healthy := by
  have hfilter (p : Site → Bool) : gather (healthy.filter p) = healthy.filter p :=
    gather_eq ((length_filter_le _ _).trans h)
  unfold overflow
  simp only [hfilter, gather_eq h]
  show _ = orWhole _ (orWhole _ (orWhole _ (orWhole _
    (orWhole _ _))))
  simp only [filter_true, first]
  cases healthy with
  | nil => rfl
  | cons head rest => rfl

/-! ### No fallback and no draw leaves the best class -/

section Chosen

variable {snapshot : RouteSnapshot} {kind : CapabilityKind} {name : String} {nowMs : Int}
  {routable : RouteCandidate → Bool} {sites : List Site}

theorem selectSpread_nil (turn : UInt64) (narrow : Narrow)
    (hmt : matching snapshot kind name nowMs routable = []) :
    selectSpread snapshot kind name nowMs turn routable narrow = none := by
  rw [selectSpread, hmt]

theorem selectSpread_demoted {front : Site} {rest : List Site} (turn : UInt64) (narrow : Narrow)
    (hmt : matching snapshot kind name nowMs routable = front :: rest)
    (hdm : undemoted (front :: rest) = []) :
    selectSpread snapshot kind name nowMs turn routable narrow = some ⟨front, true⟩ := by
  rw [selectSpread, hmt]
  show (if (gather (undemoted (front :: rest))).length = 0 then _ else _) = _
  rw [hdm]
  rfl

/-- Otherwise the draw is between the sites of `drawPool`, over the first of the matches that are
not demoted. -/
theorem selectSpread_drawn (turn : UInt64) (narrow : Narrow)
    (hmt : matching snapshot kind name nowMs routable = sites)
    (hun : undemoted sites ≠ []) :
    ∃ spread fallback, selectSpread snapshot kind name nowMs turn routable narrow
      = (select (drawPool narrow (gather (undemoted sites))) spread turn).map
        fun chosen => ⟨chosen, fallback⟩ := by
  obtain ⟨front, rest, hst⟩ : ∃ front rest, sites = front :: rest := by
    apply exists_cons_of_ne_nil
    rintro rfl
    exact hun rfl
  have hne : gather (undemoted sites) ≠ [] := gather_ne_nil hun
  have hcn : (gather (undemoted sites)).length ≤ maxSites := length_take_le _ _
  have hsm : undemoted (gather (undemoted sites)) = gather (undemoted sites) :=
    undemoted_gather
  rw [selectSpread, hmt, hst]
  dsimp only
  rw [← hst, show (sites.filter fun site => site.score.isSome) = undemoted sites from rfl]
  generalize gather (undemoted sites) = healthy at hne hcn hsm ⊢
  have hhr := length_heard_le hcn
  have hbs : (bestClass healthy).length ≤ maxSites :=
    (bestClass_sublist).length_le.trans hhr
  have hlv : gather (healthy.filter fun site => !site.candidate.silent)
      = healthy.filter fun site => !site.candidate.silent :=
    gather_eq ((length_filter_le _ _).trans hcn)
  have hpl (p : Site → Bool) :
      gather ((keptClass narrow healthy).filter p) = (keptClass narrow healthy).filter p :=
    gather_eq ((length_filter_le _ _).trans
      ((keptClass_sublist narrow).length_le.trans hbs))
  have hheard_eq : (if (healthy.filter fun site => !site.candidate.silent).length > 0 then
      healthy.filter fun site => !site.candidate.silent else healthy) = heard healthy := by
    rw [heard, hsm]
    rfl
  rw [if_neg (mt length_eq_zero_iff.mp hne), hlv, hheard_eq, eligible_eq hhr,
    show first pressureTiers (heard healthy) = bestClass healthy from rfl,
    narrowed_eq narrow hbs,
    show orWhole (narrow.keeps (bestClass healthy)) (bestClass healthy)
      = keptClass narrow healthy from rfl, hpl]
  exact ⟨_, _, rfl⟩

end Chosen

theorem heard_ne_nil {sites : List Site} (h : undemoted sites ≠ []) : heard sites ≠ [] :=
  orWhole_ne_nil h

theorem bestClass_ne_nil {sites : List Site} (h : undemoted sites ≠ []) : bestClass sites ≠ [] :=
  first_ne_nil (by simp [pressureTiers]) (heard_ne_nil h)

theorem keptClass_ne_nil {sites : List Site} (narrow : Narrow) (h : undemoted sites ≠ []) :
    keptClass narrow sites ≠ [] :=
  orWhole_ne_nil (bestClass_ne_nil h)

theorem mem_undemoted {sites : List Site} (h : site ∈ undemoted sites) :
    site ∈ sites ∧ site.score ≠ none := by
  obtain ⟨hmem, hsc⟩ := mem_filter.mp h
  exact ⟨hmem, Option.isSome_iff_ne_none.mp hsc⟩

theorem not_silent_of_heard {sites : List Site} (h : site ∈ heard sites)
    (hlv : ∃ other ∈ undemoted sites, other.candidate.silent = false) :
    site.candidate.silent = false := by
  obtain ⟨other, hot, hsl⟩ := hlv
  have hne : ((undemoted sites).filter fun site => !site.candidate.silent) ≠ [] := by
    apply ne_nil_of_mem (a := other)
    exact mem_filter.mpr ⟨hot, by simp [hsl]⟩
  rw [heard, orWhole_of_ne_nil _ hne] at h
  simpa using (mem_filter.mp h).2

theorem drawPool_sublist (narrow : Narrow) :
    (drawPool narrow sites).Sublist (keptClass narrow sites) := by
  unfold drawPool
  dsimp only
  split_ifs
  · exact filter_sublist
  · exact Sublist.refl _

theorem score_of_kept {narrow : Narrow} {sites : List Site} (h : site ∈ keptClass narrow sites) :
    site.score = some site.queue := by
  have hmem := (heard_sublist).subset
    ((bestClass_sublist).subset ((keptClass_sublist narrow).subset h))
  obtain ⟨queue, hqu⟩ := Option.ne_none_iff_exists'.mp (mem_undemoted hmem).2
  rw [Site.queue, hqu]
  rfl

theorem drawPool_ne_nil {sites : List Site} (narrow : Narrow) (h : undemoted sites ≠ []) :
    drawPool narrow sites ≠ [] := by
  have hkp := keptClass_ne_nil narrow h
  unfold drawPool
  dsimp only
  split_ifs
  · obtain ⟨site, hst, hls⟩ : ∃ site ∈ keptClass narrow sites,
        site.queue = leastValue Site.queue (keptClass narrow sites) :=
      exists_leastValue hkp
    apply ne_nil_of_mem (a := site)
    refine mem_filter.mpr ⟨hst, decide_eq_true ?_⟩
    rw [score_of_kept hst, hls]
  · exact hkp

theorem queue_le_of_drawPool {narrow : Narrow} {sites : List Site}
    (h : site ∈ drawPool narrow sites) (hqu : DrawnByQueue narrow sites) :
    ∀ other ∈ keptClass narrow sites, site.queue ≤ other.queue := by
  intro other hot
  unfold drawPool at h
  rw [if_pos] at h
  · obtain ⟨hmem, hls⟩ := mem_filter.mp h
    have hsc := of_decide_eq_true hls
    rw [score_of_kept hmem, Option.some.injEq] at hsc
    rw [hsc]
    exact leastValue_le hot
  · rw [Bool.or_eq_true, Bool.not_eq_true', all_eq_false, all_eq_true]
    rcases hqu with ⟨full, hfl, hrm⟩ | hrho
    · exact .inl ⟨full, hfl, by simp [hrm]⟩
    · exact .inr fun x hx => by rw [hrho x hx]; rfl

/-- **However many candidates match, one of them is chosen.** -/
theorem selectSpread_mem {snapshot : RouteSnapshot} {kind : CapabilityKind} {name : String}
    {nowMs : Int} {routable : RouteCandidate → Bool} (turn : UInt64) (narrow : Narrow)
    (h : matching snapshot kind name nowMs routable ≠ []) :
    ∃ pick, selectSpread snapshot kind name nowMs turn routable narrow = some pick
      ∧ pick.site ∈ matching snapshot kind name nowMs routable := by
  generalize hst : matching snapshot kind name nowMs routable = sites at h
  by_cases hnn : undemoted sites = []
  · obtain ⟨front, rest, rfl⟩ := exists_cons_of_ne_nil h
    exact ⟨⟨front, true⟩, selectSpread_demoted turn narrow hst hnn, mem_cons_self⟩
  · obtain ⟨spread, fallback, hdr⟩ := selectSpread_drawn turn narrow hst hnn
    have hhl : undemoted (gather (undemoted sites)) ≠ [] := by
      rw [undemoted_gather]
      exact gather_ne_nil hnn
    obtain ⟨site, hsi, hsl⟩ := select_mem spread turn (drawPool_ne_nil narrow hhl)
    refine ⟨⟨site, fallback⟩, ?_, ?_⟩
    · rw [hdr, hsl]
      rfl
    · have hkp := (drawPool_sublist narrow).subset hsi
      have hbs := (keptClass_sublist narrow).subset hkp
      have hhr := (heard_sublist).subset ((bestClass_sublist).subset hbs)
      have hgt := mem_of_mem_take (mem_undemoted hhr).1
      exact (mem_undemoted hgt).1

/-- **The choice is exact to the tier.**  With no more matches than the lists hold, nothing is
chosen only where nothing matches, a demoted site only where every match is demoted, and
otherwise the pick lies in the best class: not silent where a match is not, in the first pressure
tier that has a member, among what the stage keeps of it, and of least queue where the queue
decides. -/
theorem selectSpread_tier_exact (snapshot : RouteSnapshot) (kind : CapabilityKind) (name : String)
    (nowMs : Int) (turn : UInt64) (routable : RouteCandidate → Bool) (narrow : Narrow)
    (hcount : (matching snapshot kind name nowMs routable).length ≤ maxSites) :
    let sites := matching snapshot kind name nowMs routable
    let picked := selectSpread snapshot kind name nowMs turn routable narrow
    (picked = none ↔ sites = [])
      ∧ (undemoted sites = [] → ∀ front ∈ sites.head?, picked = some ⟨front, true⟩)
      ∧ (undemoted sites ≠ [] → ∃ pick, picked = some pick
        ∧ pick.site ∈ sites ∧ pick.site.score ≠ none
        ∧ ((∃ site ∈ undemoted sites, site.candidate.silent = false) →
          pick.site.candidate.silent = false)
        ∧ pick.site ∈ bestClass sites
        ∧ (narrow.keeps (bestClass sites) ≠ [] → pick.site ∈ narrow.keeps (bestClass sites))
        ∧ (DrawnByQueue narrow sites →
          ∀ site ∈ keptClass narrow sites, pick.site.queue ≤ site.queue)) := by
  intro sites picked
  have hdm : undemoted sites = [] → ∀ front ∈ sites.head?, picked = some ⟨front, true⟩ := by
    intro hnn front hfr
    obtain ⟨rest, hst⟩ := List.head?_eq_some_iff.mp hfr
    exact selectSpread_demoted turn narrow hst (hst ▸ hnn)
  have hch : undemoted sites ≠ [] → ∃ site ∈ drawPool narrow sites, ∃ fallback,
      picked = some ⟨site, fallback⟩ := by
    intro hsm
    obtain ⟨spread, fallback, hdr⟩ := selectSpread_drawn turn narrow rfl hsm
    have hpl : drawPool narrow (gather (undemoted sites)) = drawPool narrow sites := by
      apply drawPool_congr
      rw [undemoted_gather]
      exact gather_eq ((List.length_filter_le _ _).trans hcount)
    replace hdr : picked = _ := hdr
    rw [hpl] at hdr
    obtain ⟨site, hsi, hsl⟩ := select_mem spread turn (drawPool_ne_nil narrow hsm)
    refine ⟨site, hsi, fallback, ?_⟩
    rw [hdr, hsl]
    rfl
  refine ⟨⟨?_, fun hnil => selectSpread_nil turn narrow hnil⟩, hdm, ?_⟩
  · intro hpc
    by_contra hst
    obtain ⟨front, rest, hcn⟩ := List.exists_cons_of_ne_nil hst
    by_cases hnn : undemoted sites = []
    · have hfr := hdm hnn front (by rw [hcn]; rfl)
      rw [hpc] at hfr
      cases hfr
    · obtain ⟨site, _, fallback, hsm⟩ := hch hnn
      rw [hpc] at hsm
      cases hsm
  · intro hsm
    obtain ⟨site, hsi, fallback, hpc⟩ := hch hsm
    have hkp := (drawPool_sublist narrow).subset hsi
    have hbs := (keptClass_sublist narrow).subset hkp
    have hhr := (bestClass_sublist).subset hbs
    obtain ⟨hmem, hsc⟩ := mem_undemoted ((heard_sublist).subset hhr)
    refine ⟨⟨site, fallback⟩, hpc, hmem, hsc, not_silent_of_heard hhr, hbs, ?_,
      queue_le_of_drawPool hsi⟩
    intro hks
    rw [keptClass, Tiers.orWhole_of_ne_nil _ hks] at hkp
    exact hkp

/-- Two sites with the same queue, one of them backlogged. -/
def pairSnapshot : RouteSnapshot where
  localSite := "east"
  candidates :=
    [({ kind := .inferenceModel, name := "llama", site := "east", cluster := "east-llama",
        backlog := some true }, some (2 : ℚ)),
     ({ kind := .inferenceModel, name := "llama", site := "west", cluster := "west-llama",
        backlog := some false }, some (2 : ℚ))]

theorem selectSpread_tier_exact_pair :
    ∃ pick, selectSpread pairSnapshot .inferenceModel "llama" 0 7 (fun _ => true) Narrow.keepAll
      = some pick ∧ pick.site.candidate.site = "west" := by
  obtain ⟨pick, hpc, _, _, _, hbs, _⟩ := (selectSpread_tier_exact pairSnapshot .inferenceModel
    "llama" 0 7 (fun _ => true) Narrow.keepAll (by decide +kernel)).2.2 (by decide +kernel)
  have hws : ∀ site ∈ bestClass (matching pairSnapshot .inferenceModel "llama" 0
      fun _ => true), site.candidate.site = "west" := by decide +kernel
  exact ⟨pick, hpc, hws _ hbs⟩

/-- **Whatever the number of matches, a request that has one is given to one of them.** -/
theorem selection_stays_among_matches (snapshot : RouteSnapshot) (kind : CapabilityKind)
    (name : String) (nowMs : Int) (turn : UInt64) (routable : RouteCandidate → Bool)
    (narrow : Narrow) :
    (selectSpread snapshot kind name nowMs turn routable narrow = none
        ↔ matching snapshot kind name nowMs routable = [])
      ∧ ∀ pick, selectSpread snapshot kind name nowMs turn routable narrow = some pick →
        pick.site ∈ matching snapshot kind name nowMs routable := by
  by_cases hmt : matching snapshot kind name nowMs routable = []
  · simp [selectSpread_nil turn narrow hmt, hmt]
  · obtain ⟨pick, hpk, hmem⟩ := selectSpread_mem turn narrow hmt
    simp [hpk, hmt, hmem]

end PraxisGrid.Gateway
