/-
PraxisGrid/Signals/Exposition.lean

The text exposition of load signals and the metadata row of a publication:
`crates/signals/src/exposition.rs` and `crates/signals/src/revision.rs`.

A line `name{labels} value [timestamp]` is tokenized with its label section quote- and
escape-aware.  The value is a finite binary float; which one a token stands for is left to
`Readings`, and so are the two operations that combine values and the hash of a label set.
-/
import Mathlib.Data.Prod.Lex
import Mathlib.Order.Nat
import PraxisGrid.Lib.Text
import PraxisGrid.Swim.Trust

namespace PraxisGrid

open Text Saturate

/-- The floating-point values of the signals and the hash of the standard library. -/
structure Readings (V : Type) where
  /-- The finite value a token stands for. -/
  parse : List Char → Option V
  max : V → V → V
  add : V → V → V
  hash : List (String × String) → UInt64

/-- Readings of whole numbers, with the total length of the labels for a hash. -/
def Readings.whole : Readings Int where
  parse := signed64
  max a b := if a ≤ b then b else a
  add := (· + ·)
  hash labels := UInt64.ofNat (labels.map fun label => label.1.length + label.2.length).sum

/-! ### Lines -/

def siteLabel : String := "grid_site"

def providerLabel : String := "grid_provider"

def splitLabelName (text : List Char) : Option (List Char × List Char) :=
  let isName := fun ch => isAlphanumeric ch || ch == '_'
  if text.takeWhile isName = [] then none
  else some (text.takeWhile isName, text.dropWhile isName)

/-- The content of a quoted value up to its closing quote, whether it has an escape, and the
tail after the quote. -/
def scanValue : List Char → Option (List Char × Bool × List Char)
  | [] => none
  | '"' :: tail => some ([], false, tail)
  | ['\\'] => none
  | '\\' :: ch :: rest =>
    (scanValue rest).map fun (content, _, tail) => ('\\' :: ch :: content, true, tail)
  | ch :: rest =>
    (scanValue rest).map fun (content, escaped, tail) => (ch :: content, escaped, tail)

/-- Apply the escapes of a label value. -/
def unescape : List Char → List Char
  | [] => []
  | ['\\'] => []
  | '\\' :: 'n' :: rest => '\n' :: unescape rest
  | '\\' :: ch :: rest => ch :: unescape rest
  | ch :: rest => ch :: unescape rest

def parseLabelValue (text : List Char) : Option (List Char × List Char) := do
  let rest ← strip '"' text
  let (content, escaped, tail) ← scanValue rest
  some (if escaped then unescape content else content, tail)

/-- One label and what follows it, past a comma if there is one. -/
def nextLabel (cursor : List Char) : Option ((List Char × List Char) × List Char) := do
  let (name, tail) ← splitLabelName cursor
  let tail ← strip '=' (trimStart tail)
  let (value, tail) ← parseLabelValue (trimStart tail)
  let tail := trimStart tail
  some ((name, value), (strip ',' tail).getD tail)

/-- The rest of a label section from its closing brace on. -/
def closingBrace : Nat → List Char → Option (List Char)
  | 0, _ => none
  | fuel + 1, cursor =>
    let cursor := trimStart cursor
    if cursor.head? = some '\x7d' then some cursor
    else (nextLabel cursor).bind fun (_, rest) => closingBrace fuel rest

def scanLabels (afterBrace : List Char) : Option (List Char × List Char) :=
  (closingBrace (afterBrace.length + 1) afterBrace).map fun cursor =>
    (afterBrace.take (afterBrace.length - cursor.length), cursor.tail)

/-- The labels of a section, left to right, up to the first that is malformed. -/
def labelsFrom : Nat → List Char → List (String × String)
  | 0, _ => []
  | fuel + 1, rest =>
    match nextLabel (trimStart rest) with
    | none => []
    | some ((name, value), rest) => (String.ofList name, String.ofList value) :: labelsFrom fuel rest

/-- A parsed line. -/
structure Metric (V : Type) where
  name : String
  value : V
  valueText : List Char
  timestampMs : Option Int
  labelText : List Char

variable {V : Type}

/-- The label pairs of a line. -/
def Metric.labels (metric : Metric V) : List (String × String) :=
  labelsFrom (metric.labelText.length + 1) metric.labelText

def Metric.parse (readings : Readings V) (line : List Char) : Option (Metric V) :=
  let line := trim line
  if line.isEmpty || line.head? == some '#' then none
  else do
    let (name, rest) ← splitOnce '\x7b' line
    let name := trimEnd name
    if name.isEmpty then none
    let (labels, tail) ← scanLabels rest
    match splitWhitespace tail with
    | [value] =>
      some ⟨String.ofList name, ← readings.parse value, value, none, labels⟩
    | [value, timestamp] =>
      some ⟨String.ofList name, ← readings.parse value, value, some (← signed64 timestamp), labels⟩
    | _ => none

/-! ### Metadata rows -/

/-- Identity and order of a complete publication of a provider.  Its numbers are 64-bit words on
which nothing is computed. -/
structure Revision where
  batchSamples : Nat
  batchSequence : Nat
  generation : Nat
  publisherEpoch : Nat
  timestampMs : Int
  uid : String
deriving DecidableEq

/-- Publication order, the publisher's epoch first. -/
abbrev PublicationOrder := ℕ ×ₗ ℕ

def Revision.order (revision : Revision) : PublicationOrder :=
  toLex (revision.publisherEpoch, revision.batchSequence)

/-- The name of the metadata metric. -/
def revisionMetric : String := "grid_provider_config_generation"

def metadataLabelNames : List String :=
  [siteLabel, providerLabel, "provider_uid", "publisher_epoch", "batch_sequence", "batch_samples"]

def maxGeneration : Nat := 9007199254740991

def maxBatchSamples : Nat := 4095

def maxIdBytes : Nat := 256

/-- How far a publisher's epoch may lie ahead of the clock, in nanoseconds. -/
def maxPublisherEpochSkew : Nat := 600 * 1000000000

/-- A publisher's epoch is not ahead of the clock by more than the skew.  The clock is in
nanoseconds, none before the Unix epoch. -/
def validEpoch (epoch : Nat) (now : Option Clock) : Bool :=
  now.any fun since => epoch ≤ min (since + maxPublisherEpochSkew) wordMax

/-- An identity that is bounded and safe in a label. -/
def validId (value : String) : Bool :=
  !value.isEmpty && value.utf8ByteSize ≤ maxIdBytes
    && value.toList.all fun ch =>
      isAlphanumeric ch || ch == '-' || ch == '_' || ch == '.' || ch == ':'

/-- A site or provider that can be part of a store key. -/
def validTarget (value : String) : Bool :=
  !(trim value.toList).isEmpty && value.utf8ByteSize ≤ maxIdBytes
    && !value.toList.any fun ch => isControl ch || ch == '/'

def decimalInteger (value : List Char) : Option Nat :=
  if value.isEmpty || !value.all isDigit || (1 < value.length && value.head? == some '0') then none
  else unsigned wordMax value

def positiveInteger (value : List Char) : Option Nat :=
  (decimalInteger value).filter (· != 0)

/-- The values of exactly the six metadata labels, in their order. -/
def metadataLabels (metric : Metric V) : Option (List String) :=
  let labels := metric.labels
  if (labels.map Prod.fst).all metadataLabelNames.contains && (labels.map Prod.fst).Nodup then
    metadataLabelNames.mapM fun name => (labels.find? fun label => label.1 == name).map Prod.snd
  else none

def Revision.parse (metric : Metric V) : Option Revision :=
  if metric.name ≠ revisionMetric then none
  else do
    let [site, provider, uid, epoch, sequence, samples] ← metadataLabels metric | none
    if !validTarget site || !validTarget provider || !validId uid then none
    let generation ← positiveInteger metric.valueText
    let batchSamples ← decimalInteger samples.toList
    if maxGeneration < generation || maxBatchSamples < batchSamples then none
    let batchSequence ← positiveInteger sequence.toList
    let publisherEpoch ← positiveInteger epoch.toList
    let timestampMs ← metric.timestampMs
    some {
      batchSamples := batchSamples
      batchSequence := batchSequence
      generation := generation
      publisherEpoch := publisherEpoch
      timestampMs := timestampMs
      uid := uid }

/-! ### Rows as a publisher writes them -/

/-- A row with its target labels and any others. -/
def exposition (metric site provider : String) (labels : List (String × List Char))
    (value stamp : Nat) : List Char :=
  let pair := fun (name : String) (value : List Char) => name.toList ++ "=\"".toList ++ value ++ ['"']
  metric.toList ++ ['\x7b'] ++ pair siteLabel site.toList ++ [','] ++
    pair providerLabel provider.toList ++
    labels.flatMap (fun label => ',' :: pair label.1 label.2) ++
    ['\x7d', ' '] ++ Nat.toDigits 10 value ++ [' '] ++ Nat.toDigits 10 stamp ++ ['\n']

def Revision.row (revision : Revision) (site provider : String) : List Char :=
  exposition revisionMetric site provider
    [("provider_uid", revision.uid.toList),
      ("publisher_epoch", Nat.toDigits 10 revision.publisherEpoch),
      ("batch_sequence", Nat.toDigits 10 revision.batchSequence),
      ("batch_samples", Nat.toDigits 10 revision.batchSamples)]
    revision.generation revision.timestampMs.toNat

end PraxisGrid