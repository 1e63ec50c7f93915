/-
PraxisGrid/Gateway/Route.lean

The filter `grid_site_route` on a request:
`on_request` and what it calls in `crates/gateway/crates/ai-grid-filters/src/route.rs`.

A request is kept where an earlier filter sent it, pinned to the site that holds its stored
state, or given to a site that the selection picks; a pick whose dial is busy is made again
without its cluster.  What a call reads besides its arguments is passed in (`Reads`).  Counters and
logs are left out.
-/
import PraxisGrid.Gateway.Credentials
import PraxisGrid.Gateway.Selection

namespace PraxisGrid.Gateway

/-! ### Answers -/

/-- Why no candidate took a request. -/
inductive Refusal
  | unknownModel
  | shed
  | noRoute
  | fenced
  | zoneRequired
  | notReady
  | noModel
deriving DecidableEq

/-- An answer of the gateway itself: a status, an error object and a retry delay. -/
structure Answer where
  status : Nat
  kind : String
  code : String
  message : String
  retryAfter : Option String := none
deriving DecidableEq

/-- How a request ends that goes nowhere. -/
inductive Action
  | answered (answer : Answer)
  | unrouted (status : Nat)
  | rejected (status : Nat) (retryAfter : Option String)
deriving DecidableEq

def retryAfterBackoff : List String := ["3", "4", "5", "6", "7"]

def retryLater (turn : UInt64) (status : Nat) (kind code message : String) : Answer :=
  ⟨status, kind, code, message, some (retryAfterBackoff[turn.toNat % 5]?.getD "5")⟩

def refuse (reason : Refusal) (turn : UInt64) : Action :=
  .answered <|
    match reason with
    | .unknownModel =>
      ⟨404, "invalid_request_error", "model_not_found", "no site serves this model", none⟩
    | .shed =>
      retryLater turn 429 "rate_limit_exceeded" "capacity_exhausted"
        "every site serving this model is at capacity"
    | .noRoute => ⟨404, "invalid_request_error", "no_route", "no route serves this model", none⟩
    | .fenced =>
      ⟨403, "permission_error", "sovereignty_zone",
        "no site in the requested sovereignty zones serves this model", none⟩
    | .zoneRequired =>
      ⟨400, "invalid_request_error", "sovereignty_zone_required",
        "the request must name its sovereignty zones in one header line", none⟩
    | .notReady | .noModel =>
      retryLater turn 503 "server_error" "no_healthy_site" "no healthy site serves this model now"

/-- How a request leaves the filter. -/
inductive Outcome
  | kept (ctx : Context)
  | routed (candidate : RouteCandidate) (ctx : Context)
  | refused (action : Action)

/-! ### What a call reads -/

structure SiteRouteFilter where
  modelHeader : String
  sovereignty : Option FenceConfig := none
  clusters : Option (List String) := none

/-- What one selection reads. -/
structure Attempt where
  turn : UInt64
  nowMs : Int
  matchingMs : Int
  narrow : Narrow
  dialAdmission : RouteCandidate → Admission

/-- What a call of the filter reads. -/
structure Reads where
  snapshot : RouteSnapshot
  pinSnapshot : RouteSnapshot
  decidedMs : Int
  pinnedMs : Int
  tagKey : Option TagKey
  requestId : List Char
  /-- the texts that may be header values -/
  isHeaderValue : List Char → Bool
  turn : UInt64
  first : Attempt
  second : Attempt

/-! ### Whether an earlier choice stands -/

inductive RouteDecision
  | noRoute
  | keepEarlier
  | select
deriving DecidableEq

def RouteSnapshot.routes (snapshot : RouteSnapshot) : List RouteCandidate :=
  snapshot.candidates.map Prod.fst

def servesModel (model : String) (candidate : RouteCandidate) : Bool :=
  candidate.kind = .inferenceModel && candidate.name == model

def routeDecision (snapshot : RouteSnapshot) (earlierSelected : Bool) (model : Option String)
    (nowMs : Int) : RouteDecision :=
  if snapshot.routes.isEmpty then .noRoute
  else if earlierSelected then
    match model with
    | none => .keepEarlier
    | some model =>
      if !snapshot.routes.any (servesModel model) then .keepEarlier
      else if (snapshot.routes.filter (servesModel model)).all fun candidate =>
          candidate.expiredAt nowMs then .noRoute
      else if (snapshot.routes.filter (servesModel model)).all fun candidate =>
          candidate.expiresAtMs.isNone then .keepEarlier
      else .select
  else if snapshot.routes.all fun candidate => candidate.expiredAt nowMs then .noRoute
  else .select

/-! ### Selection for a model -/

/-- Why no candidate took a request: unknown, unroutable, or excluded. -/
def unserved (snapshot : RouteSnapshot) (model : String) (routable : RouteCandidate → Bool) :
    Refusal :=
  let serving := snapshot.routes.filter (servesModel model)
  if serving.isEmpty then .unknownModel
  else if serving.any fun candidate =>
      isAdmittedForNewRequest candidate.admissionState && !routable candidate then .noRoute
  else .notReady

/-- The reason, or the fence when no site serving the model lies in it. -/
def fencedReason (snapshot : RouteSnapshot) (model : String) (fence : Option Fence)
    (reason : Refusal) : Refusal :=
  match fence with
  | none => reason
  | some fence =>
    if reason = .unknownModel then reason
    else if (snapshot.routes.filter (servesModel model)).any fence.admits then reason
    else .fenced

/-- A candidate that a selection may take. -/
def SiteRouteFilter.routable (filter : SiteRouteFilter) (fence : Option Fencing)
    (skip : Option String) (nowMs : Int) (candidate : RouteCandidate) : Bool :=
  !candidate.expiredAt nowMs && hasRoute candidate filter.clusters
    && skip.all (fun skip => candidate.cluster != skip)
    && fence.all fun fence => fence.allows candidate

/-- The site for a request for a model, or the answer when no site can take it. -/
def SiteRouteFilter.choose (filter : SiteRouteFilter) (snapshot : RouteSnapshot) (model : String)
    (fence : Option Fencing) (skip : Option String) (attempt : Attempt) : Except Action Pick :=
  if snapshot.isShedding model attempt.nowMs then .error (refuse .shed attempt.turn)
  else
    let routable := filter.routable fence skip attempt.nowMs
    match selectSpread snapshot .inferenceModel model attempt.matchingMs attempt.turn routable
        attempt.narrow with
    | some pick => .ok pick
    | none =>
      let reason := fencedReason snapshot model (fence.bind Fencing.enforced)
        (unserved snapshot model routable)
      .error (refuse reason attempt.turn)

/-- Whether a request may take a candidate's dial. -/
def Attempt.admission (attempt : Attempt) (candidate : RouteCandidate) : Admission :=
  if candidate.dial.isSome then attempt.dialAdmission candidate else .up

/-- The pick of a request: made again without its cluster when its dial is busy. -/
def SiteRouteFilter.pick (filter : SiteRouteFilter) (reads : Reads) (model : String)
    (fence : Option Fencing) : Except Action Pick := do
  let pick ← filter.choose reads.snapshot model fence none reads.first
  if reads.first.admission pick.site.candidate = .busy then
    match filter.choose reads.snapshot model fence (some pick.site.candidate.cluster)
        reads.second with
    | .ok other => .ok other
    | .error _ => .ok pick
  else .ok pick

/-! ### Sending a request on -/

/-- The state of a request, created on first use. -/
def withState (ctx : Context) (change : RouteState → RouteState) : Context :=
  { ctx with state := some (change (ctx.state.getD {})) }

def selectUpstream (ctx : Context) (candidate : RouteCandidate) : Context :=
  { ctx with
    cluster := some candidate.cluster
    upstream := (candidate.dial.map Dialed.upstream).or ctx.upstream }

def acceptEncoding : String := "accept-encoding"

def sendTo (isHeaderValue : List Char → Bool) (ctx : Context) (snapshot : RouteSnapshot)
    (candidate : RouteCandidate) (requestId : List Char) : Except String Context := do
  let responses := (ctx.state.getD {}).responses
  let ctx := withState ctx fun state =>
    { state with served := some (candidate.site, candidate.cluster) }
  let ctx := if responses then
    { ctx with headersToRemove := ctx.headersToRemove ++ [acceptEncoding] } else ctx
  let ctx ← writeProviderContext isHeaderValue (selectUpstream ctx candidate) candidate snapshot
    requestId
  .ok (writeCredentials ctx candidate snapshot)

/-- The request's fence, none when none applies. -/
def SiteRouteFilter.fence (filter : SiteRouteFilter) (ctx : Context) (turn : UInt64) :
    Except Action (Option Fencing × Context) :=
  match filter.sovereignty with
  | none => .ok (none, ctx)
  | some config =>
    match Fence.fromHeaders ctx.request.headers config.header with
    | .named fence =>
      let ctx := if config.enforce then
        { ctx with headersToSet := ctx.headersToSet ++ [(config.header, fence.value)] } else ctx
      .ok (some ⟨fence, config⟩, ctx)
    | .absent | .invalid =>
      if config.enforce then .error (refuse .zoneRequired turn) else .ok (none, ctx)

/-! ### Stored state -/

/-- Where a pinned request can go. -/
inductive Target
  | found (candidate : RouteCandidate)
  | gone
  | unavailable

def Target.candidate? : Target → Option RouteCandidate
  | .found candidate => some candidate
  | .gone | .unavailable => none

/-- A candidate that lies where stored state does. -/
def Holder.holds (digests : Digests) (holder : Holder) (candidate : RouteCandidate) : Bool :=
  candidate.site == holder.site
    && holder.mark.all fun mark => clusterMark digests candidate.cluster = mark

/-- The front candidate at a holder, anywhere when none, that admits a pinned request. -/
def pinnedTarget (digests : Digests) (snapshot : RouteSnapshot) (holder : Option Holder)
    (model : Option String) (nowMs : Int) : Target :=
  let atSite := snapshot.routes.filter fun candidate =>
    holder.all (fun holder => holder.holds digests candidate)
      && candidate.kind = .inferenceModel
      && model.all (fun model => candidate.name == model)
      && !candidate.expiredAt nowMs
  if atSite.isEmpty then .gone
  else
    match atSite.find? fun candidate =>
        isAdmittedForNewRequest candidate.admissionState && !candidate.expiredAt nowMs with
    | some candidate => .found candidate
    | none => .unavailable

/-- Where a request's stored state pins it, and the path to send; none for a request that names
no stored state. -/
def pinnedSite (digests : Digests) (ctx : Context) (snapshot : RouteSnapshot)
    (key : Option TagKey) (nowMs : Int) :
    Option (Except Action (Option Holder × Option (List Char))) :=
  match statePath ctx.request.path with
  | some (.stored collection id rest) =>
    match untag digests id key with
    | none => some (.error (.rejected 404 none))
    | some pinned =>
      let rewrite := upstreamPath collection pinned.upstream rest ctx.request.query
      some (.ok (some ⟨String.ofList pinned.site, some pinned.mark⟩, some rewrite))
  | some (.create .conversations) =>
    -- A new conversation has no model to route by, so it stays local when the local site can
    -- take it.
    let here : Holder := ⟨snapshot.localSite, none⟩
    let admits := (pinnedTarget digests snapshot (some here) none nowMs).candidate?.isSome
    some (.ok (if admits then some here else none, none))
  | _ => (ctx.state.bind RouteState.pinned).map fun holder => .ok (some holder, none)

def retryAfterSecs : String := "5"

/-- Route a request that names stored state to the site that stored it. -/
def SiteRouteFilter.pin (digests : Digests) (reads : Reads) (ctx : Context)
    (model : Option String) (fence : Option Fencing) : Except String (Option Outcome) :=
  let snapshot := reads.pinSnapshot
  match pinnedSite digests ctx snapshot reads.tagKey reads.pinnedMs with
  | none => .ok none
  | some (.error action) => .ok (some (.refused action))
  | some (.ok (holder, rewrite)) =>
    if model.any fun model => snapshot.isShedding model reads.pinnedMs then
      .ok (some (.refused (refuse .shed reads.turn)))
    else
      match pinnedTarget digests snapshot holder model reads.pinnedMs with
      | .gone => .ok (some (.refused (.rejected 404 none)))
      | .unavailable => .ok (some (.refused (.rejected 503 (some retryAfterSecs))))
      | .found candidate =>
        if fence.any fun fence => !fence.passes candidate then
          .ok (some (.refused (refuse .fenced reads.turn)))
        else do
          let ctx := withState ctx fun state =>
            { state with responses := true, served := some (candidate.site, candidate.cluster) }
          let ctx ← writeProviderContext reads.isHeaderValue (selectUpstream ctx candidate)
            candidate snapshot reads.requestId
          -- The path is rewritten first, so that a credential in its query is stripped too.
          let ctx := writeCredentials { ctx with rewrittenPath := rewrite.or ctx.rewrittenPath }
            candidate snapshot
          .ok (some (.routed candidate
            { ctx with headersToRemove := ctx.headersToRemove ++ [acceptEncoding] }))

/-! ### A request -/

def SiteRouteFilter.model (filter : SiteRouteFilter) (ctx : Context) : Option String :=
  ((headerLines ctx.request.headers filter.modelHeader).head?.bind toStr).map String.ofList

/-- What is done with a request that no earlier filter's choice is kept for. -/
def SiteRouteFilter.place (filter : SiteRouteFilter) (digests : Digests) (reads : Reads)
    (ctx : Context) (fence : Option Fencing) : Except String Outcome := do
  let model := filter.model ctx
  match ← SiteRouteFilter.pin digests reads ctx model fence with
  | some outcome => .ok outcome
  | none =>
    match model with
    | none => .ok (.refused (.unrouted 400))
    | some model =>
      match filter.pick reads model fence with
      | .error action => .ok (.refused action)
      | .ok pick => do
        let ctx ← sendTo reads.isHeaderValue ctx reads.snapshot pick.site.candidate
          reads.requestId
        .ok (.routed pick.site.candidate ctx)

/-- The context after the headers of the filter itself are dropped. -/
def prepared (ctx : Context) : Context :=
  { ctx with
    headersToRemove := ctx.headersToRemove ++
      [selectedCandidateHeader, providerHopRequestIdHeader, overlayRevisionHeader] }

/-- `grid_site_route` on a request. -/
def SiteRouteFilter.onRequest (filter : SiteRouteFilter) (digests : Digests) (reads : Reads)
    (ctx : Context) : Except String Outcome :=
  let ctx := prepared ctx
  let earlierSelected := ctx.cluster.isSome || ctx.upstream.isSome
  let model := filter.model ctx
  match filter.fence ctx reads.turn with
  | .error action => .ok (.refused action)
  | .ok (fence, ctx) =>
    let decision := routeDecision reads.snapshot earlierSelected model reads.decidedMs
    let keepsEarlier := decision = .keepEarlier || (earlierSelected && model.isNone)
    if decision = .noRoute then .ok (.refused (refuse .noRoute reads.turn))
    else if keepsEarlier && fence.any (fun fence => fence.config.enforce) then
      .ok (.refused (refuse .fenced reads.turn))
    else if keepsEarlier then .ok (.kept ctx)
    else filter.place digests reads { ctx with cluster := none, upstream := none } fence

/-! ### What a selection takes -/

structure Selected (filter : SiteRouteFilter) (snapshot : RouteSnapshot) (model : String)
    (fence : Option Fencing) (attempt : Attempt) (candidate : RouteCandidate) : Prop where
  mem : candidate ∈ snapshot.routes
  kind : candidate.kind = .inferenceModel
  name : candidate.name = model
  admitted : candidate.admissionState = .newAndExisting
  fresh : candidate.expiredAt attempt.nowMs = false
  matched : candidate.expiredAt attempt.matchingMs = false
  route : hasRoute candidate filter.clusters = true
  allowed : ∀ fencing ∈ fence, fencing.allows candidate = true

variable {snapshot : RouteSnapshot}

theorem mem_sites_iff {site : Site} :
    site ∈ (snapshot.candidates.zipIdx.map fun ((candidate, score), index) =>
        Site.mk index candidate score)
      ↔ snapshot.candidates[site.index]? = some (site.candidate, site.score) := by
  constructor
  · intro h
    obtain ⟨⟨⟨candidate, score⟩, index⟩, hmem, rfl⟩ := List.mem_map.mp h
    exact List.mem_zipIdx_iff_getElem?.mp hmem
  · intro h
    refine List.mem_map.mpr ⟨((site.candidate, site.score), site.index), ?_, rfl⟩
    exact List.mem_zipIdx_iff_getElem?.mpr h

variable {nowMs : Int}

theorem mem_matching_iff {kind : CapabilityKind} {name : String} {routable : RouteCandidate → Bool}
    {site : Site} :
    site ∈ matching snapshot kind name nowMs routable ↔
      snapshot.candidates[site.index]? = some (site.candidate, site.score)
        ∧ site.candidate.kind = kind ∧ site.candidate.name = name
        ∧ site.candidate.admissionState = .newAndExisting
        ∧ site.candidate.expiredAt nowMs = false ∧ routable site.candidate = true := by
  rw [matching, List.mem_filter, mem_sites_iff]
  simp only [isAdmittedForNewRequest, Bool.and_eq_true, decide_eq_true_eq, beq_iff_eq,
    Bool.not_eq_true', and_assoc]

variable {candidate : RouteCandidate}

theorem mem_routes {score : Score} {index : Nat}
    (h : snapshot.candidates[index]? = some (candidate, score)) :
    candidate ∈ snapshot.routes :=
  List.mem_map.mpr ⟨(candidate, score), List.mem_of_getElem? h, rfl⟩

open SiteRouteFilter

variable {filter : SiteRouteFilter} {fence : Option Fencing}

theorem routable_iff {skip : Option String} :
    filter.routable fence skip nowMs candidate = true ↔
      candidate.expiredAt nowMs = false ∧ hasRoute candidate filter.clusters = true
        ∧ (∀ cluster ∈ skip, candidate.cluster ≠ cluster)
        ∧ ∀ fencing ∈ fence, fencing.allows candidate = true := by
  rw [routable, Bool.and_eq_true, Bool.and_eq_true, Bool.and_eq_true,
    Bool.not_eq_true', Option.all_eq_true, Option.all_eq_true, and_assoc, and_assoc]
  simp

/-- **A choice is one of the candidates that the attempt may take.** -/
theorem selected_of_choose {model : String} {skip : Option String} {attempt : Attempt} {pick : Pick}
    (h : filter.choose snapshot model fence skip attempt = .ok pick) :
    Selected filter snapshot model fence attempt pick.site.candidate := by
  unfold choose at h
  dsimp only at h
  split_ifs at h
  split at h
  · rename_i found hfound
    cases h
    have hne : matching snapshot .inferenceModel model attempt.matchingMs
        (filter.routable fence skip attempt.nowMs) ≠ [] := by
      intro hnil
      rw [selectSpread_nil attempt.turn attempt.narrow hnil] at hfound
      cases hfound
    obtain ⟨chosen, hchosen, hmem⟩ := selectSpread_mem attempt.turn attempt.narrow hne
    rw [hfound] at hchosen
    cases hchosen
    obtain ⟨hat, hkind, hname, hadm, hmatched, hroutable⟩ := mem_matching_iff.mp hmem
    obtain ⟨hfresh, hroute, _, hallowed⟩ := routable_iff.mp hroutable
    exact ⟨mem_routes hat, hkind, hname, hadm, hfresh, hmatched, hroute, hallowed⟩
  · cases h

variable {reads : Reads}

/-- The second pick after a busy dial is chosen by the same rules. -/
theorem selected_of_pick {model : String} {pick : Pick}
    (h : filter.pick reads model fence = .ok pick) :
    Selected filter reads.snapshot model fence reads.first pick.site.candidate
      ∨ Selected filter reads.snapshot model fence reads.second pick.site.candidate := by
  unfold SiteRouteFilter.pick at h
  cases hfr : filter.choose reads.snapshot model fence none reads.first with
  | error action =>
    rw [hfr] at h
    cases h
  | ok first =>
    rw [hfr] at h
    dsimp only [bind, Except.bind] at h
    split_ifs at h
    · split at h
      · rename_i other hot
        cases h
        exact .inr (selected_of_choose hot)
      · cases h
        exact .inl (selected_of_choose hfr)
    · cases h
      exact .inl (selected_of_choose hfr)

/-- What the target of a pin is. -/
structure TargetAt (digests : Digests) (snapshot : RouteSnapshot) (holder : Option Holder)
    (model : Option String) (nowMs : Int) (candidate : RouteCandidate) : Prop where
  mem : candidate ∈ snapshot.routes
  holds : ∀ h ∈ holder, h.holds digests candidate = true
  kind : candidate.kind = .inferenceModel
  name : ∀ m ∈ model, candidate.name = m
  fresh : candidate.expiredAt nowMs = false
  admitted : candidate.admissionState = .newAndExisting

/-- The first candidate in the order of the snapshot that a pin may be given to. -/
def FrontTarget (digests : Digests) (snapshot : RouteSnapshot) (holder : Option Holder)
    (model : Option String) (nowMs : Int) (candidate : RouteCandidate) : Prop :=
  TargetAt digests snapshot holder model nowMs candidate
    ∧ ∃ before after, snapshot.routes = before ++ candidate :: after
      ∧ ∀ other ∈ before, ¬TargetAt digests snapshot holder model nowMs other

variable {digests : Digests} {holder : Option Holder} {model : Option String}

/-- What `pinnedTarget` asks of a candidate, in one test. -/
def takesPin (digests : Digests) (holder : Option Holder) (model : Option String) (nowMs : Int)
    (candidate : RouteCandidate) : Bool :=
  (holder.all (fun holder => holder.holds digests candidate) && candidate.kind = .inferenceModel
      && model.all (fun model => candidate.name == model) && !candidate.expiredAt nowMs)
    && (isAdmittedForNewRequest candidate.admissionState && !candidate.expiredAt nowMs)

theorem targetAt_iff :
    TargetAt digests snapshot holder model nowMs candidate
      ↔ candidate ∈ snapshot.routes ∧ takesPin digests holder model nowMs candidate = true := by
  simp only [takesPin, isAdmittedForNewRequest, Bool.and_eq_true, decide_eq_true_eq,
    Bool.not_eq_true', Option.all_eq_true, beq_iff_eq]
  constructor
  · intro h
    exact ⟨h.mem, ⟨⟨⟨h.holds, h.kind⟩, h.name⟩, h.fresh⟩, h.admitted, h.fresh⟩
  · rintro ⟨hmem, ⟨⟨⟨hhl, hkn⟩, hnm⟩, hfr⟩, hadm, _⟩
    exact ⟨hmem, hhl, hkn, hnm, hfr, hadm⟩

theorem candidate?_pinnedTarget :
    (pinnedTarget digests snapshot holder model nowMs).candidate?
      = snapshot.routes.find? (takesPin digests holder model nowMs) := by
  have hfl : snapshot.routes.find? (takesPin digests holder model nowMs)
      = (snapshot.routes.filter fun candidate =>
          holder.all (fun holder => holder.holds digests candidate)
            && candidate.kind = .inferenceModel
            && model.all (fun model => candidate.name == model)
            && !candidate.expiredAt nowMs).find? fun candidate =>
        isAdmittedForNewRequest candidate.admissionState && !candidate.expiredAt nowMs := by
    rw [List.find?_filter]
    simp only [Bool.decide_and, Bool.decide_eq_true]
    rfl
  rw [hfl]
  unfold pinnedTarget
  dsimp only
  split_ifs with hem
  · rw [List.isEmpty_iff.mp hem]
    rfl
  · split
    · rename_i found hfn
      rw [hfn]
      rfl
    · rename_i hnn
      rw [hnn]
      rfl

/-- **A pin is given to the front candidate that may take it.** -/
theorem pinnedTarget_eq_found_iff :
    pinnedTarget digests snapshot holder model nowMs = .found candidate
      ↔ FrontTarget digests snapshot holder model nowMs candidate := by
  have hcn : pinnedTarget digests snapshot holder model nowMs = .found candidate
      ↔ (pinnedTarget digests snapshot holder model nowMs).candidate? = some candidate := by
    cases pinnedTarget digests snapshot holder model nowMs <;> simp [Target.candidate?]
  rw [hcn, candidate?_pinnedTarget, List.find?_eq_some_iff_append]
  constructor
  · rintro ⟨hcd, before, after, heq, hbf⟩
    refine ⟨targetAt_iff.mpr ⟨by simp [heq], hcd⟩, before, after, heq, fun other hot htr => ?_⟩
    have hnn := hbf other hot
    rw [(targetAt_iff.mp htr).2] at hnn
    cases hnn
  · rintro ⟨htr, before, after, heq, hbf⟩
    refine ⟨(targetAt_iff.mp htr).2, before, after, heq, fun other hot => ?_⟩
    rw [Bool.not_eq_true', ← Bool.not_eq_true]
    exact fun htk => hbf other hot (targetAt_iff.mpr ⟨by simp [heq, hot], htk⟩)

/-! ### How a request is routed -/

/-- A request that went to the site of its stored state. -/
structure PinnedTo (digests : Digests) (reads : Reads) (ctx : Context) (model : Option String)
    (fence : Option Fencing) (holder : Option Holder) (rewrite : Option (List Char))
    (candidate : RouteCandidate) (sent : Context) : Prop where
  site : pinnedSite digests ctx reads.pinSnapshot reads.tagKey reads.pinnedMs
    = some (.ok (holder, rewrite))
  target : pinnedTarget digests reads.pinSnapshot holder model reads.pinnedMs = .found candidate
  passes : ∀ fencing ∈ fence, fencing.passes candidate = true
  sent : ∃ hop, writeProviderContext reads.isHeaderValue (selectUpstream (withState ctx fun state =>
      { state with responses := true, served := some (candidate.site, candidate.cluster) })
        candidate) candidate reads.pinSnapshot reads.requestId = .ok hop
    ∧ sent = { writeCredentials { hop with rewrittenPath := rewrite.or hop.rewrittenPath } candidate
        reads.pinSnapshot with
      headersToRemove := (writeCredentials { hop with rewrittenPath := rewrite.or hop.rewrittenPath }
        candidate reads.pinSnapshot).headersToRemove ++ [acceptEncoding] }

/-- A request that a selection for its model sent on. -/
structure PickedFor (filter : SiteRouteFilter) (digests : Digests) (reads : Reads) (ctx : Context)
    (model : String) (fence : Option Fencing) (candidate : RouteCandidate) (sent : Context) :
    Prop where
  unpinned : pinnedSite digests ctx reads.pinSnapshot reads.tagKey reads.pinnedMs = none
  named : filter.model ctx = some model
  picked : ∃ pick, filter.pick reads model fence = .ok pick ∧ pick.site.candidate = candidate
  sent : sendTo reads.isHeaderValue ctx reads.snapshot candidate reads.requestId = .ok sent

variable {ctx : Context}

/-- What the pin path does with a request: it names no stored state, is refused, or goes to the
target. -/
theorem pin_cases {model : Option String} {result : Option Outcome}
    (h : pin digests reads ctx model fence = .ok result) :
    (result = none
        ∧ pinnedSite digests ctx reads.pinSnapshot reads.tagKey reads.pinnedMs = none)
      ∨ (∃ action, result = some (.refused action))
      ∨ ∃ candidate sent holder rewrite, result = some (.routed candidate sent)
        ∧ PinnedTo digests reads ctx model fence holder rewrite candidate sent := by
  unfold pin at h
  dsimp only at h
  split at h
  · rename_i hst
    cases h
    exact .inl ⟨rfl, hst⟩
  · cases h
    exact .inr (.inl ⟨_, rfl⟩)
  · rename_i holder rewrite hst
    right
    split at h
    · cases h
      exact .inl ⟨_, rfl⟩
    split at h
    · cases h
      exact .inl ⟨_, rfl⟩
    · cases h
      exact .inl ⟨_, rfl⟩
    · rename_i target htr
      split at h
      · cases h
        exact .inl ⟨_, rfl⟩
      rename_i hfc
      cases hhop : writeProviderContext reads.isHeaderValue (selectUpstream (withState ctx fun state =>
          { state with responses := true, served := some (target.site, target.cluster) })
            target) target reads.pinSnapshot reads.requestId with
      | error message =>
        rw [hhop] at h
        cases h
      | ok hop =>
        rw [hhop] at h
        cases h
        refine .inr ⟨target, _, holder, rewrite, rfl, hst, htr, ?_, hop, hhop, rfl⟩
        intro fencing hfn
        rw [Option.mem_def] at hfn
        rw [hfn] at hfc
        simpa using hfc

/-- A request that is placed is refused, pinned or picked for. -/
theorem place_cases {outcome : Outcome} (h : filter.place digests reads ctx fence = .ok outcome) :
    (∃ action, outcome = .refused action)
      ∨ ∃ candidate sent, outcome = .routed candidate sent
        ∧ ((∃ holder rewrite,
            PinnedTo digests reads ctx (filter.model ctx) fence holder rewrite candidate sent)
          ∨ ∃ model, PickedFor filter digests reads ctx model fence candidate sent) := by
  unfold place at h
  dsimp only at h
  cases hpin : pin digests reads ctx (filter.model ctx) fence with
  | error message =>
    rw [hpin] at h
    cases h
  | ok result =>
    rw [hpin] at h
    rcases pin_cases hpin with ⟨rfl, hun⟩ | ⟨action, rfl⟩ | ⟨candidate, sent, holder, rewrite,
      rfl, hpn⟩
    · cases hmd : filter.model ctx with
      | none =>
        rw [hmd] at h
        cases h
        exact .inl ⟨_, rfl⟩
      | some model =>
        rw [hmd] at h
        dsimp only at h
        cases hpc : filter.pick reads model fence with
        | error action =>
          rw [hpc] at h
          cases h
          exact .inl ⟨_, rfl⟩
        | ok pick =>
          rw [hpc] at h
          dsimp only at h
          cases hsn : sendTo reads.isHeaderValue ctx reads.snapshot pick.site.candidate
              reads.requestId with
          | error message =>
            rw [hsn] at h
            cases h
          | ok sent =>
            rw [hsn] at h
            cases h
            exact .inr ⟨_, sent, rfl, .inr ⟨model, hun, hmd, ⟨pick, hpc, rfl⟩, hsn⟩⟩
    · cases h
      exact .inl ⟨_, rfl⟩
    · cases h
      exact .inr ⟨candidate, sent, rfl, .inl ⟨holder, rewrite, hpn⟩⟩

/-! ### Every way through the filter -/

/-- Reading the fence leaves a request as it is, but for the zone header it forwards. -/
theorem fence_cases {fenced : Context} {turn : UInt64}
    (h : filter.fence ctx turn = .ok (fence, fenced)) :
    (fenced = ctx ∧ ∀ fencing ∈ fence, fencing.config.enforce = false)
      ∨ ∃ config named, filter.sovereignty = some config ∧ config.enforce = true
        ∧ Fence.fromHeaders ctx.request.headers config.header = .named named
        ∧ fence = some ⟨named, config⟩
        ∧ fenced = { ctx with headersToSet := ctx.headersToSet ++ [(config.header, named.value)] } := by
  unfold SiteRouteFilter.fence at h
  split at h
  · cases h
    exact .inl ⟨rfl, by simp⟩
  · rename_i config hcn
    split at h
    · rename_i named hnm
      cases h
      cases hen : config.enforce with
      | false => exact .inl ⟨if_neg Bool.false_ne_true, by simpa using hen⟩
      | true => exact .inr ⟨config, named, hcn, hen, hnm, rfl, if_pos rfl⟩
    · split_ifs at h
      cases h
      exact .inl ⟨rfl, by simp⟩
    · split_ifs at h
      cases h
      exact .inl ⟨rfl, by simp⟩

/-- A request that goes on was fenced first, and was kept or placed. -/
theorem onRequest_cases {outcome : Outcome} (h : filter.onRequest digests reads ctx = .ok outcome)
    (hgs : ∀ action, outcome ≠ .refused action) :
    ∃ fence fenced, filter.fence (prepared ctx) reads.turn = .ok (fence, fenced)
      ∧ ((outcome = .kept fenced ∧ ∀ fencing ∈ fence, fencing.config.enforce = false)
        ∨ filter.place digests reads { fenced with cluster := none, upstream := none } fence
          = .ok outcome) := by
  unfold onRequest at h
  dsimp only at h
  cases hfc : filter.fence (prepared ctx) reads.turn with
  | error action =>
    rw [hfc] at h
    cases h
    exact absurd rfl (hgs action)
  | ok result =>
    obtain ⟨fence, fenced⟩ := result
    rw [hfc] at h
    dsimp only at h
    refine ⟨fence, fenced, rfl, ?_⟩
    split at h
    · cases h
      exact absurd rfl (hgs _)
    split at h
    · cases h
      exact absurd rfl (hgs _)
    rename_i hen
    split at h
    · rename_i hkp
      cases h
      refine .inl ⟨rfl, ?_⟩
      rw [Bool.and_eq_true, not_and] at hen
      have hnn := hen hkp
      intro fencing hfn
      rw [Option.mem_def] at hfn
      rw [hfn] at hnn
      simpa using hnn
    · exact .inr h

theorem fenced_request {fenced : Context} {turn : UInt64}
    (h : filter.fence (prepared ctx) turn = .ok (fence, fenced)) :
    fenced.request = ctx.request ∧ fenced.state = ctx.state
      ∧ fenced.rewrittenPath = ctx.rewrittenPath ∧ fenced.metadata = ctx.metadata := by
  rcases fence_cases h with ⟨rfl, _⟩ | ⟨config, named, _, _, _, _, rfl⟩
  · exact ⟨rfl, rfl, rfl, rfl⟩
  · exact ⟨rfl, rfl, rfl, rfl⟩

theorem pinnedSite_congr (digests : Digests) {a b : Context} (snapshot : RouteSnapshot)
    (key : Option TagKey) (nowMs : Int) (hreq : a.request = b.request)
    (hst : a.state = b.state) :
    pinnedSite digests a snapshot key nowMs = pinnedSite digests b snapshot key nowMs := by
  rw [pinnedSite, pinnedSite, hreq, hst]

/-- **How a routed request was routed**: to the target of its pin, or by a selection for the model
it names. -/
theorem routed_cases {sent : Context}
    (h : filter.onRequest digests reads ctx = .ok (.routed candidate sent)) :
    ∃ fence fenced, filter.fence (prepared ctx) reads.turn = .ok (fence, fenced)
      ∧ ((∃ holder rewrite, PinnedTo digests reads
          { fenced with cluster := none, upstream := none } (filter.model ctx) fence holder rewrite
          candidate sent)
        ∨ ∃ model, PickedFor filter digests reads
          { fenced with cluster := none, upstream := none } model fence candidate sent) := by
  obtain ⟨fence, fenced, hfn, hkp | hpl⟩ := onRequest_cases h nofun
  · cases hkp.1
  · have hmd : filter.model { fenced with cluster := none, upstream := none }
        = filter.model ctx := by
      rw [model, model, (fenced_request hfn).1]
    rcases place_cases hpl with ⟨action, heq⟩ | ⟨_, _, heq, hrt⟩
    · cases heq
    · cases heq
      rw [hmd] at hrt
      exact ⟨fence, fenced, hfn, hrt⟩

/-! ### Where a routed request can go -/

/-- A candidate that a request may be given to: of a snapshot the call loaded, not expired when it
was taken, admitted for new requests, and serving the model when one is named. -/
structure Serves (filter : SiteRouteFilter) (reads : Reads) (ctx : Context)
    (candidate : RouteCandidate) : Prop where
  mem : candidate ∈ reads.snapshot.routes ∨ candidate ∈ reads.pinSnapshot.routes
  kind : candidate.kind = .inferenceModel
  admitted : candidate.admissionState = .newAndExisting
  name : ∀ model ∈ filter.model ctx, candidate.name = model
  fresh : candidate.expiredAt reads.pinnedMs = false
    ∨ candidate.expiredAt reads.first.nowMs = false
    ∨ candidate.expiredAt reads.second.nowMs = false

def creates (ctx : Context) : Prop := statePath ctx.request.path = some (.create .conversations)

/-- Where what a request names sends it: to the holder of a stored id in its path or in its body; a
new conversation to the local site where that can take one, and anywhere otherwise. -/
inductive PinsTo (digests : Digests) (reads : Reads) (ctx : Context) : Option Holder → Prop
  | path {collection : Collection} {id rest : List Char} {pinned : Pinned}
    (hpath : statePath ctx.request.path = some (.stored collection id rest))
    (huntag : untag digests id reads.tagKey = some pinned) :
    PinsTo digests reads ctx (some ⟨String.ofList pinned.site, some pinned.mark⟩)
  | here {candidate : RouteCandidate} (hcreates : creates ctx)
    (htakes : TargetAt digests reads.pinSnapshot (some ⟨reads.pinSnapshot.localSite, none⟩) none
      reads.pinnedMs candidate) :
    PinsTo digests reads ctx (some ⟨reads.pinSnapshot.localSite, none⟩)
  | anywhere (hcreates : creates ctx)
    (hnone : ∀ candidate, ¬TargetAt digests reads.pinSnapshot
      (some ⟨reads.pinSnapshot.localSite, none⟩) none reads.pinnedMs candidate) :
    PinsTo digests reads ctx none
  | body {holder : Holder} (hcreates : ¬creates ctx)
    (hpath : ∀ collection id rest, statePath ctx.request.path ≠ some (.stored collection id rest))
    (hbody : ctx.state.bind RouteState.pinned = some holder) :
    PinsTo digests reads ctx (some holder)

theorem pinsTo_of_pinnedSite {rewrite : Option (List Char)}
    (h : pinnedSite digests ctx reads.pinSnapshot reads.tagKey reads.pinnedMs
      = some (.ok (holder, rewrite))) : PinsTo digests reads ctx holder := by
  unfold pinnedSite at h
  split at h
  · rename_i collection id rest hpt
    split at h
    · cases h
    · rename_i pinned hun
      cases h
      exact .path hpt hun
  · rename_i hcr
    dsimp only at h
    rw [candidate?_pinnedTarget] at h
    split_ifs at h with hsm
    · cases h
      obtain ⟨candidate, hmem, htk⟩ := List.find?_isSome.mp hsm
      exact .here hcr (targetAt_iff.mpr ⟨hmem, htk⟩)
    · cases h
      refine .anywhere hcr fun candidate htr => hsm ?_
      exact List.find?_isSome.mpr ⟨candidate, targetAt_iff.mp htr⟩
  · rename_i hst hcr
    obtain ⟨found, hbd, heq⟩ := Option.map_eq_some_iff.mp h
    cases heq
    exact .body hcr hst hbd

/-- The candidate that the filter itself sent a request to. -/
def routedTo (result : Except String Outcome) : Option RouteCandidate :=
  match result with
  | .ok (.routed candidate _) => some candidate
  | _ => none

theorem eq_of_routedTo {result : Except String Outcome} (h : routedTo result = some candidate) :
    ∃ sent, result = .ok (.routed candidate sent) := by
  unfold routedTo at h
  split at h
  · cases h
    exact ⟨_, rfl⟩
  · cases h

/-- A call that reads one snapshot and a still clock, and takes every text as a header value. -/
def stillReads (snapshot : RouteSnapshot) : Reads :=
  let attempt : Attempt := ⟨0, 0, 0, Narrow.keepAll, fun _ => .up⟩
  ⟨snapshot, snapshot, 0, 0, none, [], fun _ => true, 0, attempt, attempt⟩

def answered (filter : SiteRouteFilter) (snapshot : RouteSnapshot) (ctx : Context) :
    Except String Outcome :=
  filter.onRequest Digests.plain (stillReads snapshot) ctx

end PraxisGrid.Gateway
