/-
PraxisGrid/Operator/SiteProviders.lean

The provider catalog that a site serves to its peers: `crates/operator/src/site_providers.rs`.

The records of the networks are taken one of each in turn, those that the reader may not use are
left out, and the rest is written into a body up to a number of records and of bytes.  Bodies are
kept by reader until the catalog changes.

A body is that of the longest part of the visible records that fits (`addRecords_eq`,
`renderFrom_eq`).  A hidden record still takes its rank, so the visible ones behind it come later than
they would without it; where hidden records stand behind the visible ones of their network they
leave no trace (`shown_eq_of_leads`).  How a peer reads a body is left out.
-/
import PraxisGrid.Lib.Interleave
import PraxisGrid.Lib.Json
import PraxisGrid.Lib.Run
import PraxisGrid.Operator.PeerProviders

namespace PraxisGrid.Operator

open Std

/-! ### Records as JSON -/

def phaseName : ProviderPhase → String
  | .available => "Available"
  | .pending => "Pending"
  | .degraded => "Degraded"
  | .unavailable => "Unavailable"

def writeText (text : String) : List Char := Json.encodeString text.toList

def writeTexts (texts : List String) : List Char := Json.writeArray (texts.map writeText)

/-- Labels in key order. -/
def writeLabels (labels : ExtTreeMap String String) : List Char :=
  Json.writeObject (labels.toList.map fun label => (label.1.toList, writeText label.2))

def WireProvider.fields (record : WireProvider) : List (List Char × List Char) :=
  [("networkId".toList, writeText record.networkId),
    ("providerId".toList, writeText record.providerId),
    ("routingCluster".toList, writeText record.routingCluster),
    ("models".toList, writeTexts record.models),
    ("tools".toList, writeTexts record.tools),
    ("backendKind".toList, writeText record.backendKind),
    ("capacityWeight".toList, Json.writeNatural record.capacityWeight.toNat),
    ("phase".toList, writeText (phaseName record.phase)),
    ("matchLabels".toList, writeLabels record.matchLabels),
    ("revision".toList, Json.writeNatural record.revision.toNat)]

def WireProvider.toJson (record : WireProvider) : List Char := Json.writeObject record.fields

/-! ### Bodies -/

/-- Most provider records served or accepted in one body. -/
def maxProviders : Nat := 256

/-- Largest providers body served or accepted. -/
def maxBodyBytes : Nat := 256 * 1024

def bodyOpen : List Char := "\x7b\"providers\":[".toList

/-- How a body that left records out closes. -/
def truncatedClose : List Char := "],\"truncated\":true\x7d".toList

def bodyClose : List Char := "]\x7d".toList

/-! ### Rendering -/

abbrev Labels := ExtTreeMap String String

def labelsSatisfy (required carried : Labels) : Bool :=
  required.toList.all fun label => carried[label.1]? = some label.2

inductive Reader
  /-- this site's own gateway, which sees every provider -/
  | localSite
  /-- a peer, with the labels this site holds for it -/
  | peer (labels : Labels)

def Reader.sees (reader : Reader) (provider : WireProvider) : Bool :=
  match reader with
  | .localSite => true
  | .peer labels => labelsSatisfy provider.matchLabels labels

abbrev Networks := ExtTreeMap String (List WireProvider)

/-- Every network's providers, one from each in turn. -/
def interleaved (held : Networks) : List WireProvider := Interleave.interleave (OrdMap.values held)

/-- Add records to a body while they fit; the mark says that some were left out. -/
def addRecords (body : List Char) (count : Nat) : List WireProvider → List Char × Bool
  | [] => (body, false)
  | provider :: rest =>
    let record := provider.toJson
    -- the truncated close is counted with each record, so the cap holds for the whole body
    let full := Text.utf8Size body + Text.utf8Size record + (if 0 < count then 1 else 0)
      + Text.utf8Size truncatedClose > maxBodyBytes
    if count = maxProviders ∨ full then (body, true)
    else addRecords ((if 0 < count then body ++ [','] else body) ++ record) (count + 1) rest

/-- The body a reader is served, none when nothing is published. -/
def renderFrom (held : Networks) (reader : Reader) : Option (List Char) :=
  if held.isEmpty then none
  else
    let visible := (interleaved held).filter reader.sees
    let (body, truncated) := addRecords bodyOpen 0 visible
    some (body ++ if truncated then truncatedClose else bodyClose)

/-! ### The catalog -/

/-- One reader's body and the version that names it. -/
structure Rendered where
  body : List Char
  version : String

/-- The records by network, each reader's body as rendered from them, and a digest of it all. -/
structure Catalog where
  networks : Networks := ∅
  rendered : List (Option Labels × Rendered) := []
  version : Option String := none

/-- Readers whose bodies are kept rendered. -/
def maxRendered : Nat := 1024

/-- Everything held, as it is serialized for its digest. -/
def writeNetworks (held : Networks) : List Char :=
  Json.writeObject (held.toList.map fun entry =>
    (entry.1.toList, Json.writeArray (entry.2.map WireProvider.toJson)))

section Catalogs

-- the first eight bytes of a text's SHA-256, in hex
variable (digest : List Char → String)

def Catalog.replace (catalog : Catalog) (network : String) (providers : List WireProvider) : Catalog :=
  let providers := providers.insertionSort fun a b => a.providerId ≤ b.providerId
  if catalog.networks[network]? = some providers then catalog
  else
    let networks := catalog.networks.insert network providers
    ⟨networks, [], some (digest (writeNetworks networks))⟩

/-- Forget every network that is not kept. -/
def Catalog.retainNetworks (catalog : Catalog) (keep : String → Bool) : Catalog :=
  let networks := OrdMap.retain catalog.networks fun network _ => keep network
  if networks.size = catalog.networks.size then { catalog with networks }
  else ⟨networks, [], if networks.isEmpty then none else some (digest (writeNetworks networks))⟩

def Reader.key : Reader → Option Labels
  | .localSite => none
  | .peer labels => some labels

/-- A reader's body and its version, rendered once per change and reader. -/
def Catalog.read (catalog : Catalog) (reader : Reader) : Catalog × Option Rendered :=
  match catalog.rendered.lookup reader.key with
  | some rendered => (catalog, some rendered)
  | none =>
    match renderFrom catalog.networks reader with
    | none => (catalog, none)
    | some body =>
      let rendered : Rendered := ⟨body, digest body⟩
      let kept := if maxRendered ≤ catalog.rendered.length then [] else catalog.rendered
      ({ catalog with rendered := (reader.key, rendered) :: kept }, some rendered)

/-- What is done with a catalog. -/
inductive CatalogOp
  | replace (network : String) (providers : List WireProvider)
  | retainNetworks (keep : String → Bool)
  | read (reader : Reader)

def Catalog.step (catalog : Catalog) : CatalogOp → Catalog
  | .replace network providers => catalog.replace digest network providers
  | .retainNetworks keep => catalog.retainNetworks digest keep
  | .read reader => (catalog.read digest reader).1

/-- The catalog after a history, from one that holds nothing. -/
def Catalog.after (ops : List CatalogOp) : Catalog := Run.run (Catalog.step digest) {} ops

end Catalogs

open Catalog ExtTreeMap Text Interleave WireProvider

/-! ### The records that fit -/

def bodyOf (shown : List WireProvider) (truncated : Bool) : List Char :=
  bodyOpen ++ Json.commas (shown.map WireProvider.toJson)
    ++ if truncated then truncatedClose else bodyClose

/-- A body of these records stays within both bounds, with the close that a cut body has. -/
def fits (shown : List WireProvider) : Bool :=
  shown.length ≤ maxProviders && Text.utf8Size (bodyOf shown true) ≤ maxBodyBytes

/-- The records that a reader may see, in the order they are written. -/
def visible (held : Networks) (reader : Reader) : List WireProvider :=
  (interleaved held).filter reader.sees

def shown (held : Networks) (reader : Reader) : List WireProvider :=
  Interleave.fitting fits [] (visible held reader)

theorem utf8Size_append (a b : List Char) :
    utf8Size (a ++ b) = utf8Size a + utf8Size b := by
  rw [utf8Size, List.map_append, List.sum_append]
  rfl

variable {records : List WireProvider} {digest : List Char → String}

theorem fits_iff :
    fits records = true
      ↔ records.length ≤ maxProviders ∧ utf8Size (bodyOf records true) ≤ maxBodyBytes := by
  rw [fits, Bool.and_eq_true, decide_eq_true_iff, decide_eq_true_iff]

theorem fits_nil : fits [] = true := by decide

theorem openBody_append (next : WireProvider) :
    (if 0 < records.length then bodyOpen ++ Json.commas (records.map toJson) ++ [',']
      else bodyOpen ++ Json.commas (records.map toJson)) ++ next.toJson
      = bodyOpen ++ Json.commas ((records ++ [next]).map toJson) := by
  rw [List.map_append, List.map_singleton, Json.commas_append_singleton, List.length_map]
  split_ifs <;> simp only [List.append_assoc]

theorem fits_append_iff (h : fits records = true) (next : WireProvider) :
    fits (records ++ [next]) = true
      ↔ ¬(records.length = maxProviders
        ∨ utf8Size (bodyOpen ++ Json.commas (records.map toJson))
            + utf8Size next.toJson + (if 0 < records.length then 1 else 0)
            + utf8Size truncatedClose > maxBodyBytes) := by
  obtain ⟨hcn, -⟩ := fits_iff.mp h
  have hcm : utf8Size [','] = 1 := by decide
  have hsz : utf8Size (bodyOf (records ++ [next]) true)
      = utf8Size (bodyOpen ++ Json.commas (records.map toJson))
        + utf8Size next.toJson + (if 0 < records.length then 1 else 0)
        + utf8Size truncatedClose := by
    rw [bodyOf, if_pos rfl, ← openBody_append]
    split_ifs
    · rw [utf8Size_append, utf8Size_append, utf8Size_append, hcm]
      omega
    · rw [utf8Size_append, utf8Size_append]
      omega
  rw [fits_iff, List.length_append, List.length_singleton, hsz]
  omega

/-- **The loop writes the records that fit**, and marks the body when it leaves some out. -/
theorem addRecords_eq (h : fits records = true) (rest : List WireProvider) :
    addRecords (bodyOpen ++ Json.commas (records.map toJson)) records.length rest
      = (bodyOpen ++ Json.commas
          ((records ++ fitting fits records rest).map toJson),
        decide ((fitting fits records rest).length < rest.length)) := by
  -- by induction on what is left, with the records written so far
  induction rest generalizing records with
  | nil => simp [addRecords, fitting]
  | cons next rest ih =>
    rw [addRecords, fitting]
    by_cases hnx : fits (records ++ [next]) = true
    · have hrm := (fits_append_iff h next).mp hnx
      have hrs := ih hnx
      rw [List.length_append, List.length_singleton] at hrs
      rw [if_neg hrm, openBody_append, hrs, if_pos hnx]
      simp only [List.append_assoc, List.singleton_append, List.length_cons, Nat.add_lt_add_iff_right]
    · have hfl := not_not.mp (mt (fits_append_iff h next).mpr hnx)
      rw [if_pos hfl, if_neg hnx]
      simp

/-- **A reader's body** is the body of what it is shown. -/
theorem renderFrom_eq (held : Networks) (reader : Reader) :
    renderFrom held reader
      = if held.isEmpty then none
        else some (bodyOf (shown held reader)
          (decide ((shown held reader).length < (visible held reader).length))) := by
  have hlp := addRecords_eq fits_nil (visible held reader)
  have hopen : bodyOpen ++ Json.commas (([] : List WireProvider).map toJson) = bodyOpen := by
    simp [Json.commas]
  rw [hopen, List.nil_append, List.length_nil] at hlp
  rw [renderFrom]
  split_ifs with hem
  · rfl
  · dsimp only
    rw [show (interleaved held).filter reader.sees = visible held reader from rfl, hlp]
    rfl

/-- The networks after a replacement, also where it changes nothing. -/
theorem networks_replace (catalog : Catalog) (network : String) (providers : List WireProvider) :
    (catalog.replace digest network providers).networks
      = catalog.networks.insert network
          (providers.insertionSort fun a b => a.providerId ≤ b.providerId) := by
  unfold replace
  dsimp only
  split_ifs with hhl
  · refine ext_getElem? fun key => ?_
    rw [OrdMap.getElem?_insert]
    split_ifs with hkey
    · rw [← hkey, hhl]
    · rfl
  · rfl

/-! ### Two catalogs -/

section TwoCatalogs

variable {held held' : Networks} {reader : Reader}

/-- The same networks, and in each the same records that a reader may see in the same order. -/
def Agree (reader : Reader) (held held' : Networks) : Prop :=
  ∀ network : String,
    held[network]?.map (List.filter reader.sees) = held'[network]?.map (List.filter reader.sees)

section

variable (h : Agree reader held held')
include h

theorem Agree.values :
    (OrdMap.values held).map (List.filter reader.sees)
      = (OrdMap.values held').map (List.filter reader.sees) := by
  have hmap : held.map (fun _ records => records.filter reader.sees)
      = held'.map fun _ records => records.filter reader.sees := by
    refine ext_getElem? fun network => ?_
    rw [getElem?_map, getElem?_map]
    exact h network
  have hvl := congrArg OrdMap.values hmap
  unfold OrdMap.values at hvl ⊢
  rw [toList_map, toList_map, List.map_map, List.map_map] at hvl
  rw [List.map_map, List.map_map]
  exact hvl

/-- **Hidden records behind the visible ones leave no trace.** -/
theorem shown_eq_of_leads (hhl : ∀ (network : String) records, held[network]? = some records →
      records.filter reader.sees <+: records)
    (hhl' : ∀ (network : String) records, held'[network]? = some records →
      records.filter reader.sees <+: records) :
    shown held reader = shown held' reader := by
  have hvs (held : Networks) (hhl : ∀ (network : String) records,
      held[network]? = some records → records.filter reader.sees <+: records) :
      visible held reader
        = interleave ((OrdMap.values held).map (List.filter reader.sees)) := by
    apply filter_interleave
    intro records hrc
    obtain ⟨network, hnet⟩ := OrdMap.mem_values.mp hrc
    exact hhl network records hnet
  rw [shown, shown, hvs held hhl, hvs held' hhl', h.values]

end

end TwoCatalogs

def sampleRecord (network provider : String) (labels : Labels) : WireProvider where
  networkId := network
  providerId := provider
  routingCluster := provider
  capacityWeight := 1
  phase := .available
  matchLabels := labels
  revision := 1

/-- Two networks, the first with the given records. -/
def sampleOps (records : List WireProvider) : List CatalogOp :=
  [.replace "a" records, .replace "b" [sampleRecord "b" "b1" ∅]]

theorem networks_sampleOps :
    (after digest (sampleOps records)).networks
      = ((∅ : Networks).insert "a"
          (records.insertionSort fun a b => a.providerId ≤ b.providerId)).insert
        "b" [sampleRecord "b" "b1" ∅] := by
  show ((replace digest {} "a" records).replace digest "b" [sampleRecord "b" "b1" ∅]).networks = _
  rw [networks_replace, networks_replace]
  rfl

theorem agree_sampleOps {digest : List Char → String} {labels : Labels}
    {records records' : List WireProvider}
    (h : (records.insertionSort fun a b => a.providerId ≤ b.providerId).filter
        (Reader.peer labels).sees
      = (records'.insertionSort fun a b => a.providerId ≤ b.providerId).filter
        (Reader.peer labels).sees) :
    Agree (.peer labels) (after digest (sampleOps records)).networks
      (after digest (sampleOps records')).networks := by
  intro network
  rw [networks_sampleOps, networks_sampleOps]
  simp only [OrdMap.getElem?_insert]
  split_ifs
  · rfl
  · rw [Option.map_some, Option.map_some, h]
  · rfl

theorem shown_eq_of_leads_sample :
    shown (Catalog.after (fun _ => "") (sampleOps [sampleRecord "a" "a1" ∅])).networks (.peer ∅)
      = shown (Catalog.after (fun _ => "") (sampleOps [sampleRecord "a" "a1" ∅,
          sampleRecord "a" "a2" (ExtTreeMap.ofList [("team", "red")])])).networks (.peer ∅) := by
  apply shown_eq_of_leads (agree_sampleOps (by decide +kernel))
  all_goals
    intro network records hrc
    rw [networks_sampleOps, OrdMap.getElem?_insert, OrdMap.getElem?_insert] at hrc
    split_ifs at hrc
    · cases hrc
      decide +kernel
    · cases hrc
      decide +kernel
    · simp at hrc

end PraxisGrid.Operator
