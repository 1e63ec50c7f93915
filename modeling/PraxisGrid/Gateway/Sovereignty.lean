/-
PraxisGrid/Gateway/Sovereignty.lean

The sovereignty fence over every way through the filter of `Gateway/Route.lean`.

Soundness: where the fence refuses, a request that goes on named its zones in one valid header
line and went to a candidate in one of them, whichever path selected it.  Refusals: a request that a
suitable candidate could take is given to one, except that a new conversation is given its target
before the zones and the routes are looked at.
-/
import PraxisGrid.Gateway.Route

namespace PraxisGrid.Gateway

/-! ### The headers a request is sent with -/

/-- The headers that the filter sets besides the zone header. -/
def filterHeaders : List String :=
  ["authorization", selectedCandidateHeader, providerHopRequestIdHeader]

/-- What is done between two contexts: the filter's own headers are set after the others. -/
def SetsOwn (before after : Context) : Prop :=
  ∃ extra, after.headersToSet = before.headersToSet ++ extra
    ∧ ∀ line ∈ extra, line.1 ∈ filterHeaders

theorem SetsOwn.refl_of_eq {before after : Context}
    (h : after.headersToSet = before.headersToSet) : SetsOwn before after :=
  ⟨[], by rw [h, List.append_nil], by simp⟩

theorem SetsOwn.trans {a b c : Context} (hab : SetsOwn a b) (hbc : SetsOwn b c) : SetsOwn a c := by
  obtain ⟨first, hft, hfr⟩ := hab
  obtain ⟨second, hsec, hsc⟩ := hbc
  refine ⟨first ++ second, by rw [hsec, hft, List.append_assoc], ?_⟩
  intro line hln
  rcases List.mem_append.mp hln with h | h
  · exact hfr line h
  · exact hsc line h

variable {snapshot : RouteSnapshot} {requestId : List Char} {isHeaderValue : List Char → Bool}

theorem setsOwn_writeProviderContext {ctx hop : Context} {candidate : RouteCandidate}
    (h : writeProviderContext isHeaderValue ctx candidate snapshot requestId = .ok hop) :
    SetsOwn ctx hop := by
  unfold writeProviderContext at h
  split at h
  · cases h
    exact SetsOwn.refl_of_eq rfl
  split at h
  · cases h
  split at h
  · cases h
  · cases h
    refine ⟨_, rfl, ?_⟩
    intro line hln
    simp only [List.mem_cons, List.not_mem_nil, or_false] at hln
    rcases hln with rfl | rfl
    · simp [filterHeaders]
    · simp [filterHeaders]

theorem setsOwn_writeCredentials (ctx : Context) (candidate : RouteCandidate)
    (snapshot : RouteSnapshot) : SetsOwn ctx (writeCredentials ctx candidate snapshot) := by
  unfold writeCredentials
  split
  · exact SetsOwn.refl_of_eq rfl
  · split
    · refine ⟨_, rfl, ?_⟩
      simp [filterHeaders]
    · split <;> exact SetsOwn.refl_of_eq rfl

variable {sent : Context}

theorem setsOwn_sendTo {ctx : Context} {candidate : RouteCandidate}
    (h : sendTo isHeaderValue ctx snapshot candidate requestId = .ok sent) :
    SetsOwn ctx sent := by
  unfold sendTo at h
  dsimp only [bind, Except.bind] at h
  split at h
  · cases h
  · rename_i hop hhop
    cases h
    refine SetsOwn.trans ?_ ((setsOwn_writeProviderContext hhop).trans
      (setsOwn_writeCredentials hop candidate snapshot))
    apply SetsOwn.refl_of_eq
    split_ifs <;> rfl

theorem PinnedTo.setsOwn {digests : Digests} {reads : Reads} {ctx : Context} {model : Option String}
    {fence : Option Fencing} {holder : Option Holder} {rewrite : Option (List Char)}
    {candidate : RouteCandidate}
    (h : PinnedTo digests reads ctx model fence holder rewrite candidate sent) :
    SetsOwn ctx sent := by
  obtain ⟨hop, hhop, rfl⟩ := h.sent
  have hcn := setsOwn_writeProviderContext hhop
  have hcr := setsOwn_writeCredentials
    { hop with rewrittenPath := rewrite.or hop.rewrittenPath } candidate reads.pinSnapshot
  exact hcn.trans hcr

theorem headerLines_append (a b : List (String × List Char)) (name : String) :
    headerLines (a ++ b) name = headerLines a name ++ headerLines b name := by
  rw [headerLines, headerLines, headerLines, List.filter_append, List.map_append]

theorem headerLines_eq_nil_iff {lines : List (String × List Char)} {name : String} :
    headerLines lines name = [] ↔ ∀ line ∈ lines, line.1 ≠ name := by
  rw [headerLines, List.map_eq_nil_iff, List.filter_eq_nil_iff]
  simp only [beq_iff_eq]

/-! ### A request that goes on is in its zones -/

theorem allowed_of_routed {filter : SiteRouteFilter} {digests : Digests} {reads : Reads}
    {ctx : Context} {candidate : RouteCandidate}
    (h : filter.onRequest digests reads ctx = .ok (.routed candidate sent)) :
    ∃ fence fenced, filter.fence (prepared ctx) reads.turn = .ok (fence, fenced)
      ∧ (∀ fencing ∈ fence, fencing.config.enforce = true →
        fencing.fence.admits candidate = true)
      ∧ SetsOwn fenced sent := by
  obtain ⟨fence, fenced, hfc, hrt⟩ := routed_cases h
  refine ⟨fence, fenced, hfc, ?_⟩
  rcases hrt with ⟨holder, rewrite, hpin⟩ | ⟨model, hpc⟩
  · refine ⟨?_, hpin.setsOwn⟩
    intro fencing hfn hen
    have hps := hpin.passes fencing hfn
    rw [Fencing.passes, hen] at hps
    simpa using hps
  · obtain ⟨pick, hok, rfl⟩ := hpc.picked
    have hown := setsOwn_sendTo hpc.sent
    refine ⟨?_, hown⟩
    intro fencing hfn hen
    have hal : fencing.allows pick.site.candidate = true := by
      rcases selected_of_pick hok with hsel | hsel
      · exact hsel.allowed fencing hfn
      · exact hsel.allowed fencing hfn
    rw [Fencing.allows, hen] at hal
    simpa using hal

/-- **The fence is sound.**  Where it refuses, a request that goes on carried one zone header line
with up to `maxZones` valid zones, was not left where an earlier filter sent it, and went to a
candidate in one of those zones; and the zone header it carries on parses to the same zones, where
the filter sets no other value under that name and the proxy forwards the last value set. -/
theorem fence_sound (filter : SiteRouteFilter) (digests : Digests) (reads : Reads) (ctx : Context)
    (config : FenceConfig) (outcome : Outcome) (hconfig : filter.sovereignty = some config)
    (henforce : config.enforce = true)
    (h : filter.onRequest digests reads ctx = .ok outcome)
    (hgoes : ∀ action, outcome ≠ .refused action) :
    ∃ line zones candidate sent, headerLines ctx.request.headers config.header = [line]
      ∧ parseZones line = some zones
      ∧ 1 ≤ zones.length ∧ zones.length ≤ 16 ∧ zones.Nodup
      ∧ (∀ zone ∈ zones, sovereigntyZone zone = some zone)
      ∧ outcome = .routed candidate sent
      ∧ (∃ zone ∈ candidate.sovereigntyZone, zone.toList ∈ zones)
      ∧ ∀ sentLines, Forwards sentLines → config.header ∉ filterHeaders →
        ∃ value, sentLines sent config.header = [value] ∧ parseZones value = some zones := by
  have hnm {fence : Option Fencing} {fenced : Context}
      (hfn : filter.fence (prepared ctx) reads.turn = .ok (fence, fenced)) :
      ∃ named, Fence.fromHeaders ctx.request.headers config.header = .named named
        ∧ fence = some ⟨named, config⟩
        ∧ fenced.headersToSet = ctx.headersToSet ++ [(config.header, named.value)] := by
    unfold SiteRouteFilter.fence at hfn
    rw [hconfig] at hfn
    dsimp only at hfn
    split at hfn
    · rename_i named hnm
      rw [henforce] at hfn
      cases hfn
      exact ⟨named, hnm, rfl, rfl⟩
    · rw [henforce] at hfn
      cases hfn
    · rw [henforce] at hfn
      cases hfn
  cases outcome with
  | refused action => exact absurd rfl (hgoes action)
  | kept sent =>
    -- A fence that refuses does not keep what an earlier filter chose.
    obtain ⟨fence, fenced, hfn, hkp | hpl⟩ := onRequest_cases h hgoes
    · obtain ⟨named, _, rfl, _⟩ := hnm hfn
      have hoff := hkp.2 _ rfl
      rw [henforce] at hoff
      cases hoff
    · rcases place_cases hpl with ⟨_, heq⟩ | ⟨_, _, heq, _⟩
      · cases heq
      · cases heq
  | routed candidate sent =>
    obtain ⟨fence, fenced, hfn, hadm, extra, hextra, hown⟩ := allowed_of_routed h
    obtain ⟨named, hfr, rfl, hset⟩ := hnm hfn
    obtain ⟨line, zones, hln, hpr, hcn, rfl⟩ := Fence.fromHeaders_named hfr
    refine ⟨line, zones, candidate, sent, hln, hpr,
      List.length_pos_iff.mpr hcn.nonempty, hcn.length_le,
      hcn.sorted.imp fun hlt => ne_of_lt hlt, hcn.normal, rfl,
      (hcn.admits_iff candidate).mp (hadm _ rfl henforce),
      fun sentLines hfw hhd => ⟨joinZones zones, hfw.set ?_, hcn.parseZones_join⟩⟩
    have hnil : headerLines extra config.header = [] := by
      apply headerLines_eq_nil_iff.mpr
      intro other hot heq
      exact hhd (heq ▸ hown other hot)
    rw [hextra, hset, headerLines_append, hnil, List.append_nil, headerLines_append]
    simp [headerLines]

def zonedCandidate : RouteCandidate :=
  { kind := .inferenceModel, name := "llama", site := "east", cluster := "east-llama",
    sovereigntyZone := some "eu", stableId := "llama-1" }

def zonedSnapshot : RouteSnapshot := ⟨[(zonedCandidate, some ⊤)], "east", [], ["east-llama"]⟩

def fencedFilter (header : String) : SiteRouteFilter :=
  { modelHeader := "x-model", sovereignty := some ⟨header, true⟩ }

def zonedRequest (header : String) : Context :=
  { request :=
      { headers := [("x-model", "llama".toList), (header, "EU".toList)]
        path := "/v1/chat/completions".toList } }

/-- A proxy for runs on fixed inputs. -/
def plainLines (ctx : Context) (name : String) : List (List Char) :=
  match (headerLines ctx.headersToSet name).getLast? with
  | some value => [value]
  | none =>
    if ctx.headersToRemove.contains name then [] else headerLines ctx.request.headers name

theorem forwards_plainLines : Forwards plainLines := by
  constructor
  · intro ctx name value h
    rw [plainLines, h]
  · intro ctx name h hrm
    rw [plainLines, h]
    exact if_pos (by simpa using hrm)

theorem fence_sound_zoned :
    ∃ candidate sent, answered (fencedFilter "x-zone") zonedSnapshot
        (zonedRequest "x-zone") = .ok (.routed candidate sent)
      ∧ (∃ zone ∈ candidate.sovereigntyZone, zone.toList = "eu".toList)
      ∧ ∃ value, plainLines sent "x-zone" = [value] ∧ parseZones value = some ["eu".toList] := by
  have hrt : routedTo (answered (fencedFilter "x-zone") zonedSnapshot
      (zonedRequest "x-zone")) = some zonedCandidate := by decide +kernel
  obtain ⟨sent, hsn⟩ := eq_of_routedTo hrt
  obtain ⟨line, zones, candidate, _, hln, hpr, _, _, _, _, hot, ⟨zone, hzo, hmem⟩, hfw⟩ :=
    fence_sound (fencedFilter "x-zone") Digests.plain (stillReads zonedSnapshot)
      (zonedRequest "x-zone") ⟨"x-zone", true⟩ _ rfl rfl hsn nofun
  cases hot
  have hls : headerLines (zonedRequest "x-zone").request.headers "x-zone" = ["EU".toList] := by
    decide
  rw [show headerLines (zonedRequest "x-zone").request.headers
    (FenceConfig.header ⟨"x-zone", true⟩) = ["EU".toList] from hls] at hln
  cases hln
  have hzn : parseZones "EU".toList = some ["eu".toList] := by decide +kernel
  rw [hzn] at hpr
  cases hpr
  exact ⟨zonedCandidate, sent, hsn, ⟨zone, hzo, by simpa using hmem⟩,
    hfw plainLines forwards_plainLines (by decide)⟩

/-- The values that the filter leaves to be set under a header. -/
def setUnder (header : String) (result : Except String Outcome) : Option (List (List Char)) :=
  match result with
  | .ok (.routed _ sent) => some (headerLines sent.headersToSet header)
  | _ => none

theorem sentLines_of_setUnder {header : String} {candidate : RouteCandidate}
    {lines : List (List Char)} {value : List Char}
    {sentLines : Context → String → List (List Char)}
    (h : setUnder header (.ok (.routed candidate sent)) = some lines)
    (hls : lines.getLast? = some value) (hfw : Forwards sentLines) :
    sentLines sent header = [value] := by
  cases h
  exact hfw.set hls

/-- **A fence on a header that the filter sets is overwritten**: the request goes on with the id of
its candidate in place of its zones. -/
theorem zone_header_overwritten :
    (∃ sent, answered (fencedFilter selectedCandidateHeader) zonedSnapshot
        (zonedRequest selectedCandidateHeader)
          = .ok (.routed zonedCandidate sent)
      ∧ ∀ sentLines, Forwards sentLines →
        sentLines sent selectedCandidateHeader = ["llama-1".toList])
    ∧ parseZones "EU".toList = some ["eu".toList]
    ∧ parseZones "llama-1".toList = some ["llama-1".toList] := by
  have hst : setUnder selectedCandidateHeader (answered (fencedFilter selectedCandidateHeader)
      zonedSnapshot (zonedRequest selectedCandidateHeader))
      = some ["eu".toList, "llama-1".toList] := by decide +kernel
  have hrt : routedTo (answered (fencedFilter selectedCandidateHeader) zonedSnapshot
      (zonedRequest selectedCandidateHeader)) = some zonedCandidate := by
    decide +kernel
  obtain ⟨sent, hsn⟩ := eq_of_routedTo hrt
  rw [hsn] at hst
  exact ⟨⟨sent, hsn, fun _ hfw => sentLines_of_setUnder hst rfl hfw⟩, by decide +kernel,
    by decide +kernel⟩

/-! ### A request that can be served is served -/

/-- The clock as each step of a call reads it. -/
def Reads.clocks (reads : Reads) : List Int :=
  [reads.decidedMs, reads.pinnedMs, reads.first.nowMs, reads.first.matchingMs, reads.second.nowMs,
   reads.second.matchingMs]

/-- A request under a fence that refuses: it names valid zones and no stored id, no earlier filter
chose for it, and one snapshot of candidates whose ids may stand in a header serves the call. -/
structure FencedRequest (filter : SiteRouteFilter) (reads : Reads) (ctx : Context)
    (config : FenceConfig) (fence : Fence) : Prop where
  sovereignty : filter.sovereignty = some config
  enforce : config.enforce = true
  zones : Fence.fromHeaders ctx.request.headers config.header = .named fence
  cluster : ctx.cluster = none
  upstream : ctx.upstream = none
  path : ∀ collection id rest, statePath ctx.request.path ≠ some (.stored collection id rest)
  body : ctx.state.bind RouteState.pinned = none
  steady : reads.pinSnapshot = reads.snapshot
  ids : ∀ candidate ∈ reads.snapshot.routes, reads.isHeaderValue candidate.stableId.toList = true
  requestId : reads.isHeaderValue reads.requestId = true

/-- A candidate that may take the request: for the model it names, or for any when it creates a
conversation. -/
structure Suitable (filter : SiteRouteFilter) (reads : Reads) (ctx : Context) (fence : Fence)
    (candidate : RouteCandidate) : Prop where
  mem : candidate ∈ reads.snapshot.routes
  kind : candidate.kind = .inferenceModel
  admitted : candidate.admissionState = .newAndExisting
  route : hasRoute candidate filter.clusters = true
  zone : fence.admits candidate = true
  model : creates ctx ∨ filter.model ctx = some candidate.name

section Served

variable {filter : SiteRouteFilter} {digests : Digests} {reads : Reads} {ctx : Context}
  {config : FenceConfig} {fence : Fence} {candidate : RouteCandidate} {fencing : Option Fencing}

/-- What the steps after the fence are given. -/
def FencedRequest.context (_ : FencedRequest filter reads ctx config fence) : Context :=
  { prepared ctx with
    headersToSet := ctx.headersToSet ++ [(config.header, fence.value)]
    cluster := none
    upstream := none }

open SiteRouteFilter

section

variable (h : FencedRequest filter reads ctx config fence)
include h

theorem FencedRequest.onRequest_eq (hmem : candidate ∈ reads.snapshot.routes)
    (hfr : candidate.expiredAt reads.decidedMs = false) :
    filter.onRequest digests reads ctx
      = filter.place digests reads h.context (some ⟨fence, config⟩) := by
  have hfn : filter.fence (prepared ctx) reads.turn = .ok (some ⟨fence, config⟩,
      { prepared ctx with
        headersToSet := ctx.headersToSet ++ [(config.header, fence.value)] }) := by
    unfold SiteRouteFilter.fence
    rw [h.sovereignty]
    dsimp only
    rw [show Fence.fromHeaders (prepared ctx).request.headers config.header = .named fence
      from h.zones]
    rw [h.enforce, if_pos rfl]
    rfl
  have hsel : ((prepared ctx).cluster.isSome || (prepared ctx).upstream.isSome) = false := by
    rw [show (prepared ctx).cluster = none from h.cluster,
      show (prepared ctx).upstream = none from h.upstream]
    rfl
  have hdc (model : Option String) :
      routeDecision reads.snapshot false model reads.decidedMs = .select := by
    have hsm : reads.snapshot.routes.isEmpty = false :=
      List.isEmpty_eq_false_iff.mpr (List.ne_nil_of_mem hmem)
    have hany : (reads.snapshot.routes.all fun candidate =>
        candidate.expiredAt reads.decidedMs) = false := by
      rw [List.all_eq_false]
      exact ⟨candidate, hmem, by simp [hfr]⟩
    unfold routeDecision
    rw [hsm, hany]
    rfl
  unfold SiteRouteFilter.onRequest
  dsimp only
  rw [hfn, hsel]
  dsimp only
  rw [hdc]
  rfl

theorem FencedRequest.model_context :
    filter.model h.context = filter.model ctx := rfl

omit h in
/-- A selection with a candidate to take makes a choice. -/
theorem choose_ok {model : String} {attempt : Attempt}
    (hsel : Selected filter reads.snapshot model fencing attempt candidate)
    (hsh : reads.snapshot.isShedding model attempt.nowMs = false) :
    ∃ pick, filter.choose reads.snapshot model fencing none attempt = .ok pick := by
  obtain ⟨⟨found, score⟩, hfn, rfl⟩ := List.mem_map.mp hsel.mem
  obtain ⟨index, hin⟩ := List.getElem?_of_mem hfn
  have hrt : filter.routable fencing none attempt.nowMs found = true :=
    routable_iff.mpr ⟨hsel.fresh, hsel.route, by simp, hsel.allowed⟩
  have hmt : (⟨index, found, score⟩ : Site) ∈ matching reads.snapshot .inferenceModel model
      attempt.matchingMs (filter.routable fencing none attempt.nowMs) :=
    mem_matching_iff.mpr ⟨hin, hsel.kind, hsel.name, hsel.admitted,
      hsel.matched, hrt⟩
  obtain ⟨pick, hpc, _⟩ :=
    selectSpread_mem attempt.turn attempt.narrow (List.ne_nil_of_mem hmt)
  refine ⟨pick, ?_⟩
  rw [choose, hsh, if_neg Bool.false_ne_true]
  dsimp only
  rw [hpc]

omit h in
theorem pick_ok {model : String}
    (hsel : Selected filter reads.snapshot model fencing reads.first candidate)
    (hsh : reads.snapshot.isShedding model reads.first.nowMs = false) :
    ∃ pick, filter.pick reads model fencing = .ok pick := by
  obtain ⟨first, hfr⟩ := choose_ok hsel hsh
  unfold pick
  rw [hfr]
  dsimp only [bind, Except.bind]
  split_ifs
  · split <;> exact ⟨_, rfl⟩
  · exact ⟨_, rfl⟩

omit h in
theorem writeProviderContext_ok (hid : isHeaderValue candidate.stableId.toList = true)
    (hreq : isHeaderValue requestId = true) :
    ∃ hop, writeProviderContext isHeaderValue sent candidate snapshot requestId = .ok hop := by
  unfold writeProviderContext
  rw [hid, hreq]
  split <;> exact ⟨_, rfl⟩

omit h in
theorem sendTo_ok (hid : isHeaderValue candidate.stableId.toList = true)
    (hreq : isHeaderValue requestId = true) :
    ∃ result, sendTo isHeaderValue sent snapshot candidate requestId = .ok result := by
  unfold sendTo
  dsimp only [bind, Except.bind]
  generalize selectUpstream _ candidate = upstream
  obtain ⟨hop, hhop⟩ := writeProviderContext_ok hid hreq
  rw [hhop]
  exact ⟨_, rfl⟩

/-- A request that names no stored id and creates no conversation is not pinned. -/
theorem FencedRequest.unpinned (hcr : ¬creates ctx) (digests : Digests) :
    pinnedSite digests ctx reads.pinSnapshot reads.tagKey reads.pinnedMs = none := by
  unfold pinnedSite
  split
  · rename_i collection id rest hpt
    exact absurd hpt (h.path collection id rest)
  · rename_i hpt
    exact absurd hpt hcr
  · rw [h.body]
    rfl

theorem FencedRequest.routed_of_suitable (hcr : ¬creates ctx)
    (hst : Suitable filter reads ctx fence candidate)
    (hfr : ∀ nowMs ∈ reads.clocks, candidate.expiredAt nowMs = false)
    (hsh : ∀ model ∈ filter.model ctx, ∀ nowMs ∈ reads.clocks,
      reads.snapshot.isShedding model nowMs = false) :
    ∃ found sent, filter.onRequest digests reads ctx = .ok (.routed found sent)
      ∧ Suitable filter reads ctx fence found
      ∧ ∃ nowMs ∈ reads.clocks, found.expiredAt nowMs = false := by
  have hmd : filter.model ctx = some candidate.name :=
    hst.model.resolve_left hcr
  have hpin : pin digests reads h.context (filter.model ctx)
      (some ⟨fence, config⟩) = .ok none := by
    unfold pin
    dsimp only
    rw [show pinnedSite digests h.context reads.pinSnapshot reads.tagKey reads.pinnedMs = none
      from h.unpinned hcr digests]
  have hsel : Selected filter reads.snapshot candidate.name (some ⟨fence, config⟩)
      reads.first candidate := by
    refine ⟨hst.mem, hst.kind, rfl, hst.admitted, ?_, ?_, hst.route, ?_⟩
    · exact hfr _ (by simp [Reads.clocks])
    · exact hfr _ (by simp [Reads.clocks])
    · intro fencing hfn
      cases hfn
      simp [Fencing.allows, hst.zone]
  obtain ⟨pick, hpk⟩ := pick_ok hsel (hsh _ hmd _ (by simp [Reads.clocks]))
  obtain ⟨attempt, hcl, hpc⟩ : ∃ attempt : Attempt, attempt.nowMs ∈ reads.clocks
      ∧ Selected filter reads.snapshot candidate.name (some ⟨fence, config⟩) attempt
        pick.site.candidate := by
    rcases selected_of_pick hpk with hpc | hpc
    · exact ⟨reads.first, by simp [Reads.clocks], hpc⟩
    · exact ⟨reads.second, by simp [Reads.clocks], hpc⟩
  have hzn : fence.admits pick.site.candidate = true := by
    have hal := hpc.allowed _ rfl
    rw [Fencing.allows, h.enforce] at hal
    simpa using hal
  obtain ⟨sent, hsn⟩ := sendTo_ok (h.ids _ hpc.mem) h.requestId
  refine ⟨pick.site.candidate, sent, ?_, ⟨hpc.mem, hpc.kind, hpc.admitted,
    hpc.route, hzn, .inr (hpc.name ▸ hmd)⟩, attempt.nowMs, hcl, hpc.fresh⟩
  rw [h.onRequest_eq hst.mem (hfr _ (by simp [Reads.clocks]))]
  unfold place
  rw [h.model_context]
  dsimp only
  rw [hpin]
  dsimp only [bind, Except.bind]
  rw [hmd]
  dsimp only
  rw [hpk]
  dsimp only
  rw [hsn]

omit h in
/-- The pin of a new conversation is read off the snapshot. -/
theorem pinnedSite_of_creates {holder : Option Holder} (hcr : creates ctx)
    (hpt : PinsTo digests reads ctx holder) :
    pinnedSite digests ctx reads.pinSnapshot reads.tagKey reads.pinnedMs
      = some (.ok (holder, none)) := by
  rw [pinnedSite, show statePath ctx.request.path = _ from hcr]
  dsimp only
  rw [candidate?_pinnedTarget]
  cases hpt with
  | path hst => cases hcr.symm.trans hst
  | here _ htk => rw [if_pos (List.find?_isSome.mpr ⟨_, targetAt_iff.mp htk⟩)]
  | anywhere _ hnn =>
    rw [if_neg]
    intro hsm
    obtain ⟨found, htk⟩ := List.find?_isSome.mp hsm
    exact hnn found (targetAt_iff.mpr htk)
  | body hnc => exact absurd hcr hnc

theorem FencedRequest.routed_of_target {holder : Option Holder} {target : RouteCandidate}
    (hcr : creates ctx) (hpt : PinsTo digests reads ctx holder)
    (htr : FrontTarget digests reads.pinSnapshot holder (filter.model ctx) reads.pinnedMs target)
    (hzn : fence.admits target = true)
    (hfr : ∃ found ∈ reads.snapshot.routes, found.expiredAt reads.decidedMs = false)
    (hsh : ∀ model ∈ filter.model ctx, ∀ nowMs ∈ reads.clocks,
      reads.snapshot.isShedding model nowMs = false) :
    ∃ sent, filter.onRequest digests reads ctx = .ok (.routed target sent) := by
  obtain ⟨found, hmem, hun⟩ := hfr
  have hrt : target ∈ reads.snapshot.routes := h.steady ▸ htr.1.mem
  have hnt : (filter.model ctx).any (fun model =>
      reads.pinSnapshot.isShedding model reads.pinnedMs) = false := by
    rw [Option.any_eq_false_iff_get]
    intro hmd
    rw [h.steady]
    simpa using hsh _ (Option.get_mem hmd) reads.pinnedMs (by simp [Reads.clocks])
  obtain ⟨hop, hhop⟩ := writeProviderContext_ok (h.ids _ hrt) h.requestId
  rw [h.onRequest_eq hmem hun]
  unfold place
  rw [h.model_context]
  unfold pin
  dsimp only
  have hpn := pinnedSite_of_creates hcr hpt
  rw [show pinnedSite digests h.context reads.pinSnapshot reads.tagKey reads.pinnedMs
    = some (.ok (holder, none)) from hpn]
  dsimp only
  rw [hnt, if_neg Bool.false_ne_true, pinnedTarget_eq_found_iff.mpr htr]
  dsimp only
  rw [if_neg (by simp [Fencing.passes, hzn]), hhop]
  exact ⟨_, rfl⟩

end

end Served

/-- **A fenced request that can be served is served, except a new conversation for which the
snapshot lists another candidate first.**  A conversation is given to the first candidate that takes
new requests, of the local site when that has one, before its zone is looked at. -/
theorem fenced_request_served_iff (filter : SiteRouteFilter) (digests : Digests) (reads : Reads)
    (ctx : Context) (config : FenceConfig) (fence : Fence)
    (hrequest : FencedRequest filter reads ctx config fence)
    (hoffered : ∃ candidate, Suitable filter reads ctx fence candidate
      ∧ ∀ nowMs ∈ reads.clocks, candidate.expiredAt nowMs = false)
    (hshed : ∀ model ∈ filter.model ctx, ∀ nowMs ∈ reads.clocks,
      reads.snapshot.isShedding model nowMs = false) :
    (∃ candidate sent, filter.onRequest digests reads ctx = .ok (.routed candidate sent)
        ∧ Suitable filter reads ctx fence candidate
        ∧ ∃ nowMs ∈ reads.clocks, candidate.expiredAt nowMs = false)
      ↔ (creates ctx → ∃ holder target, PinsTo digests reads ctx holder
        ∧ FrontTarget digests reads.pinSnapshot holder (filter.model ctx) reads.pinnedMs target
        ∧ fence.admits target = true ∧ hasRoute target filter.clusters = true) := by
  obtain ⟨offered, hst, hfr⟩ := hoffered
  have hdc := hfr reads.decidedMs (by simp [Reads.clocks])
  constructor
  · rintro ⟨candidate, sent, hrt, htk, _⟩ hcr
    obtain ⟨fenced, context, hfn, hway⟩ := routed_cases hrt
    obtain ⟨hsm, hstt, _, _⟩ := fenced_request hfn
    have hpn := @pinnedSite_congr digests { context with cluster := none, upstream := none } ctx
      reads.pinSnapshot reads.tagKey reads.pinnedMs hsm hstt
    rcases hway with ⟨holder, rewrite, hpin⟩ | ⟨model, hpc⟩
    · exact ⟨holder, candidate, pinsTo_of_pinnedSite (hpn.symm.trans hpin.site),
        pinnedTarget_eq_found_iff.mp hpin.target, htk.zone, htk.route⟩
    · -- A new conversation is always pinned, if only to no site.
      have hnn := hpn.symm.trans hpc.unpinned
      rw [pinnedSite, hcr] at hnn
      cases hnn
  · intro hcn
    by_cases hcr : creates ctx
    · obtain ⟨holder, target, hpt, htr, hzn, hro⟩ := hcn hcr
      obtain ⟨sent, hrt⟩ := hrequest.routed_of_target hcr hpt htr hzn
        ⟨offered, hst.mem, hdc⟩ hshed
      have hat := htr.1
      exact ⟨target, sent, hrt,
        ⟨hrequest.steady ▸ hat.mem, hat.kind, hat.admitted, hro, hzn, .inl hcr⟩,
        reads.pinnedMs, by simp [Reads.clocks], hat.fresh⟩
    · exact hrequest.routed_of_suitable hcr hst hfr hshed

theorem Fence.fromHeaders_line {headers : List (String × List Char)} {header : String}
    {line : List Char} {zones : List (List Char)} (hln : headerLines headers header = [line])
    (hpr : (toStr line).bind parseZones = some zones) :
    Fence.fromHeaders headers header = .named ⟨joinZones zones⟩ := by
  rw [Fence.fromHeaders, hln]
  dsimp only
  rw [hpr]

def zonedConversation : Context :=
  { request := { headers := [("x-zone", "EU".toList)], path := "/v1/conversations".toList } }

theorem creates_zonedConversation : creates zonedConversation := by
  rw [creates]
  decide +kernel

theorem fenced_request_served_iff_zoned :
    ∃ candidate sent, answered (fencedFilter "x-zone") zonedSnapshot
        zonedConversation = .ok (.routed candidate sent)
      ∧ Suitable (fencedFilter "x-zone") (stillReads zonedSnapshot) zonedConversation
        ⟨"eu".toList⟩ candidate := by
  have hzn : Fence.fromHeaders zonedConversation.request.headers "x-zone"
      = .named ⟨joinZones ["eu".toList]⟩ :=
    @Fence.fromHeaders_line _ _ "EU".toList _ (by decide) (by decide +kernel)
  have hcr := creates_zonedConversation
  have hrq : FencedRequest (fencedFilter "x-zone") (stillReads zonedSnapshot)
      zonedConversation ⟨"x-zone", true⟩ ⟨"eu".toList⟩ := by
    refine ⟨rfl, rfl, hzn, rfl, rfl, ?_, rfl, rfl, fun _ _ => rfl, rfl⟩
    intro collection id rest heq
    cases hcr.symm.trans heq
  have hst : Suitable (fencedFilter "x-zone") (stillReads zonedSnapshot) zonedConversation
      ⟨"eu".toList⟩ zonedCandidate :=
    ⟨List.mem_cons_self, rfl, rfl, rfl, by decide +kernel, .inl hcr⟩
  have hat : TargetAt Digests.plain zonedSnapshot (some ⟨"east", none⟩) none 0 zonedCandidate :=
    targetAt_iff.mpr ⟨List.mem_cons_self, by decide +kernel⟩
  have hft : FrontTarget Digests.plain zonedSnapshot (some ⟨"east", none⟩) none 0 zonedCandidate :=
    ⟨hat, [], [], rfl, fun _ h => absurd h List.not_mem_nil⟩
  have hmd : (fencedFilter "x-zone").model zonedConversation = none := by decide +kernel
  obtain ⟨candidate, sent, hrt, htk, _⟩ :=
    (fenced_request_served_iff _ Digests.plain _ _ _ _ hrq
      ⟨zonedCandidate, hst, fun _ _ => rfl⟩ fun _ _ _ _ => rfl).mpr fun _ =>
        ⟨some ⟨"east", none⟩, zonedCandidate, .here hcr hat, hmd ▸ hft, hst.zone, hst.route⟩
  exact ⟨candidate, sent, hrt, htk⟩

/-- How a request was refused. -/
def refusedWith (result : Except String Outcome) : Option Action :=
  match result with
  | .ok (.refused action) => some action
  | _ => none

/-- The local site lies in no zone that the request names, another site does. -/
def dividedSnapshot : RouteSnapshot :=
  ⟨[({ zonedCandidate with sovereigntyZone := some "us" }, some ⊤),
    ({ zonedCandidate with site := "west" }, some ⊤)], "east", [], []⟩

/-- **A new conversation is refused for its zone while a site in the zone can take it.** -/
theorem zoned_conversation_refused :
    Suitable (fencedFilter "x-zone") (stillReads dividedSnapshot) zonedConversation ⟨"eu".toList⟩
        { zonedCandidate with site := "west" }
      ∧ refusedWith (answered (fencedFilter "x-zone") dividedSnapshot
        zonedConversation) = some (refuse .fenced 0) := by
  exact ⟨⟨List.mem_cons_of_mem _ List.mem_cons_self, rfl, rfl, rfl, by decide +kernel,
    .inl creates_zonedConversation⟩, by decide +kernel⟩

end PraxisGrid.Gateway
