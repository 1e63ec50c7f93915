/-
PraxisGrid/Operator/Observations.lean

The samples an operator holds and how it writes them: `Observation`, `render_sample`,
`render_batches` and `complete_batch` in `crates/operator/src/signals.rs`.

The samples of a target are grouped by the site and the provider they are labelled with, and a group
with a metadata row is written whole or not at all.  A value is a float; its text and its comparison
with one are left to `Numbers`.  Durations are natural numbers of nanoseconds and do not saturate.
-/
import Mathlib.Data.List.Dedup
import PraxisGrid.Signals.Exposition

namespace PraxisGrid.Operator.Observed

open Std

/-- The floating-point values of the samples. -/
structure Numbers (V : Type) extends Readings V where
  /-- The text of a value. -/
  text : V → List Char
  isBelowOne : V → Bool

def Numbers.whole : Numbers Int where
  toReadings := Readings.whole
  text value := if value < 0 then '-' :: Nat.toDigits 10 value.natAbs else Nat.toDigits 10 value.natAbs
  isBelowOne value := value < 1

abbrev LabelSet := ExtTreeMap String String

/-- One parsed sample. -/
structure Observation (V : Type) where
  metric : String
  labels : LabelSet
  value : V
  /-- the stamp as parsed, epoch milliseconds -/
  timestampMs : Option Int
  /-- how old the sample already was when this site collected it -/
  age : Nat

variable {V : Type}

/-! ### Lines -/

/-- Escape a label value for exposition. -/
def escape : List Char → List Char
  | [] => []
  | '\\' :: rest => '\\' :: '\\' :: escape rest
  | '"' :: rest => '\\' :: '"' :: escape rest
  | '\n' :: rest => '\\' :: 'n' :: escape rest
  | ch :: rest => ch :: escape rest

def labelText (label : String × String) : List Char :=
  label.1.toList ++ ['=', '"'] ++ escape label.2.toList ++ ['"']

def stampText (stampMs : Int) : List Char :=
  if stampMs < 0 then '-' :: Nat.toDigits 10 stampMs.natAbs else Nat.toDigits 10 stampMs.natAbs

def renderSample (numbers : Numbers V) (observation : Observation V) (stampMs : Int) : List Char :=
  let labels := observation.labels.toList.map labelText
  observation.metric.toList
    ++ (if labels.isEmpty then [] else ['\x7b'] ++ [','].intercalate labels ++ ['\x7d'])
    ++ [' '] ++ numbers.text observation.value ++ [' '] ++ stampText stampMs

/-- One reading of the two clocks a render needs, in nanoseconds; the wall clock from the Unix
epoch. -/
structure ClockReading where
  instant : Nat
  wall : Int

def i64Max : Int := 9223372036854775807

/-- Epoch milliseconds for an observation collected a while ago. -/
def wallMillis (now : Int) (age : Nat) : Int :=
  min ((now.toNat - age) / 1000000 : Nat) i64Max

/-! ### Batches -/

def samplesLabel : String := "batch_samples"

def Observation.isMetadata (observation : Observation V) : Bool :=
  observation.metric == revisionMetric

/-- Whether metadata binds every row of its group at the same age. -/
def completeBatch (numbers : Numbers V) (group : List (Observation V)) (metadata : Observation V) :
    Bool :=
  let line := renderSample numbers metadata (metadata.timestampMs.getD 1)
  match (Metric.parse numbers.toReadings line).bind Revision.parse with
  | none => false
  | some revision =>
    (group.filter Observation.isMetadata).length == 1
      && group.length == revision.batchSamples + 1
      && group.all fun sample =>
        sample.timestampMs == metadata.timestampMs && sample.age == metadata.age

/-- The site and the provider a sample is labelled with. -/
abbrev GroupKey := Option String × Option String

def Observation.key (observation : Observation V) : GroupKey :=
  (observation.labels[siteLabel]?, observation.labels[providerLabel]?)

/-- The order of optional names: a missing one comes first. -/
def nameLe : Option String → Option String → Bool
  | none, _ => true
  | some _, none => false
  | some a, some b => decide (a ≤ b)

def GroupKey.le (a b : GroupKey) : Bool :=
  if a.1 = b.1 then nameLe a.2 b.2 else nameLe a.1 b.1

/-- The samples by site and provider, in the order of these. -/
def groups (samples : List (Observation V)) : List (List (Observation V)) :=
  ((samples.map Observation.key).dedup.mergeSort GroupKey.le).map fun key =>
    samples.filter fun sample => sample.key = key

/-- The `grid_provider_ready` sample's name. -/
def readySignal : String := "grid_provider_ready"

/-- The series a gateway routes on. -/
def peerSignalNames : List String :=
  [revisionMetric, readySignal, "grid_provider_ready_endpoints", "grid_provider_in_flight_requests",
    "grid_provider_ttft_p50_seconds", "grid_provider_ttft_p90_seconds", "grid_provider_tpot_seconds",
    "grid_provider_error_ratio", "inference_pool_average_queue_size",
    "llm_d_epp_average_queue_size", "inference_pool_average_running_requests",
    "llm_d_epp_average_running_requests", "inference_pool_average_kv_cache_utilization",
    "llm_d_epp_average_kv_cache_utilization", "llm_d_epp_std_dev_kv_cache_utilization",
    "llm_d_epp_ready_endpoints", "inference_pool_ready_pods", "llm_d_epp_flow_control_queue_size",
    "inference_pool_per_pod_queue_size", "llm_d_epp_per_endpoint_queue_size",
    "llm_d_epp_flow_control_pool_saturation"]

def isPeerSignal (metric : String) : Bool := peerSignalNames.contains metric

def maxRenderLinesPerTarget : Nat := 4096

/-- A render as far as it has come. -/
structure Block where
  text : List Char := []
  /-- the age of the oldest sample written -/
  oldest : Nat := 0
  lines : Nat := 0
  cut : Nat := 0

/-- How a render is asked for. -/
structure Render where
  /-- the metrics wanted, all when there are none -/
  collect : List String
  heldFor : Nat
  wall : Int
  bounded : Bool

/-- The payload rows of a group that are wanted. -/
def Render.selects (render : Render) (sample : Observation V) : Bool :=
  !sample.isMetadata && (!render.bounded || isPeerSignal sample.metric)
    && (render.collect.isEmpty || render.collect.contains sample.metric)

/-- One line more. -/
def Render.write (numbers : Numbers V) (render : Render) (block : Block) (sample : Observation V) :
    Block :=
  let age := render.heldFor + sample.age
  { block with
    text := block.text ++ renderSample numbers sample (wallMillis render.wall age) ++ ['\n']
    oldest := max block.oldest age }

/-- The metadata row with the number of rows it is written with. -/
def Observation.recounted (metadata : Observation V) (samples : Nat) : Observation V :=
  { metadata with
    labels := metadata.labels.insert samplesLabel (String.ofList (Nat.toDigits 10 samples)) }

/-- Write a group, whole or not at all. -/
def Render.group (numbers : Numbers V) (render : Render) (block : Block)
    (group : List (Observation V)) : Block :=
  let metadata := group.find? Observation.isMetadata
  if metadata.any fun metadata => !completeBatch numbers group metadata then
    { block with cut := block.cut + group.length }
  else
    let selected := group.filter render.selects
    let count := selected.length + (if metadata.isSome then 1 else 0)
    if render.bounded && block.lines + count > maxRenderLinesPerTarget then
      { block with cut := block.cut + count }
    else
      let rows := (metadata.map (·.recounted selected.length)).toList ++ selected
      { rows.foldl (render.write numbers) block with lines := block.lines + count }

/-- Write whole batches. -/
def renderBatches (numbers : Numbers V) (samples : List (Observation V)) (render : Render) : Block :=
  (groups samples).foldl (render.group numbers) {}

/-! ### Attribution -/

/-- Set a label this site is authoritative for, and keep the provider's own value under another
name. -/
def attributeLabel (labels : LabelSet) (key value : String) : LabelSet :=
  match labels[key]? with
  | some theirs => ((labels.erase key).insert ("exported_" ++ key) theirs).insert key value
  | none => labels.insert key value

def attributed (observations : List (Observation V)) (site provider : String) :
    List (Observation V) :=
  observations.map fun observation =>
    { observation with
      labels := attributeLabel (attributeLabel observation.labels siteLabel site) providerLabel
        provider }

end PraxisGrid.Operator.Observed
