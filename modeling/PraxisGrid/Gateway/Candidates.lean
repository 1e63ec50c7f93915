/-
PraxisGrid/Gateway/Candidates.lean

Route candidates and the snapshot a request reads:
`crates/gateway/crates/ai-grid-filters/src/descriptor.rs`, `snapshot.rs` and `dial.rs`.

Readings are exact numbers or absent: a saturation, a capacity and a weight are rationals, and a
score is a rational, unmeasured (`⊤`) or absent for a demoted candidate, where the source has a
NaN.  The two parallel vectors of a snapshot are one list of pairs.
-/
import Mathlib.Algebra.Order.Ring.Unbundled.Rat
import Mathlib.Order.WithBot

namespace PraxisGrid.Gateway

/-- What a candidate offers. -/
inductive CapabilityKind
  | inferenceModel
  | mcpTool
deriving DecidableEq

/-- What sessions a candidate accepts. -/
inductive AdmissionState
  | newAndExisting
  | existingOnly
  | excluded
deriving DecidableEq

/-- Whether a request may take a dial. -/
inductive Admission
  | up
  | probe
  | busy
deriving DecidableEq

/-- An upstream the gateway built itself, with the authorization it sends instead of the caller's. -/
structure Dialed where
  upstream : String
  credential : Option (List Char) := none
deriving DecidableEq

/-- A reference to the secret that a final hop is sent. -/
structure CandidateCredential where
  strategy : String
  name : String
  «namespace» : String
  key : String
deriving DecidableEq

/-- A score: absent when the candidate is demoted, infinite when it is not measured. -/
abbrev Score := Option (WithTop ℚ)

structure RouteCandidate where
  kind : CapabilityKind
  name : String
  site : String
  cluster : String
  admissionState : AdmissionState := .newAndExisting
  expiresAtMs : Option Nat := none
  capacity : Option ℚ := none
  rho : Option ℚ := none
  backlog : Option Bool := none
  full : Option Bool := none
  silent : Bool := false
  publishesLoad : Bool := true
  sovereigntyZone : Option String := none
  stableId : String := ""
  credential : Option CandidateCredential := none
  dial : Option Dialed := none
  weight : Nat := 1
deriving DecidableEq

def candidateExpirySkewMarginMs : Nat := 30000

/-- Past its deadline after the clock-skew margin. -/
def RouteCandidate.expiredAt (candidate : RouteCandidate) (nowMs : Int) : Bool :=
  candidate.expiresAtMs.any fun deadline =>
    decide ((deadline : Int) ≤ nowMs + candidateExpirySkewMarginMs)

def isAdmittedForNewRequest (state : AdmissionState) : Bool := state = .newAndExisting

/-- The candidates in priority order, each with its score. -/
structure RouteSnapshot where
  candidates : List (RouteCandidate × Score)
  localSite : String
  shedding : List String := []
  providerHopClusters : List String := []

/-- One of the sites that the shedding of its model waits on. -/
def shedsOn (candidate : RouteCandidate) (score : Score) : Bool :=
  candidate.kind = .inferenceModel && candidate.admissionState = .newAndExisting
    && !candidate.silent && candidate.publishesLoad && score.isSome

/-- The model is still shed after the expired candidates are removed. -/
def RouteSnapshot.isShedding (snapshot : RouteSnapshot) (model : String) (nowMs : Int) : Bool :=
  snapshot.shedding.contains model
    && snapshot.candidates.any fun (candidate, score) =>
      candidate.name == model && !candidate.expiredAt nowMs && shedsOn candidate score

/-- A request has somewhere to go: a built dial or a declared cluster. -/
def hasRoute (candidate : RouteCandidate) (clusters : Option (List String)) : Bool :=
  candidate.dial.isSome || clusters.all fun clusters => clusters.contains candidate.cluster

end PraxisGrid.Gateway
