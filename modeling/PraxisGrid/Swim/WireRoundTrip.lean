/-
PraxisGrid/Swim/WireRoundTrip.lean

A state broadcast survives its encoding.

The base payload drops the tools, capacity weights and UIDs of the providers; the trailing
sections carry them by flattened key, and only where they differ from their defaults.  With
records filed under their flattened keys every dropped field is found again
(`restoreProvider_toRecord`), so what is decoded is the broadcast that was encoded, with its
UIDs in key order and the frame version seen on the wire.  Neither shows in the encoding, so a
signature is checked over the bytes it was made over (`decode_encode_stable`).
-/
import PraxisGrid.Swim.Node
import PraxisGrid.Swim.WireShapes

namespace PraxisGrid

open Std OrdMap Bincode Option

/-! ### Fields put back by key -/

/-- Each of the two fields is put back by its own map. -/
theorem restoreProvider_eq (weights : ExtTreeMap String UInt32)
    (providers : ExtTreeMap String ProviderMetadata) (q : ProviderState) :
    restoreProvider weights providers q =
      { q with
        capacityWeight := (weights[q.key]?.filter isValidCapacityWeight).getD q.capacityWeight
        tools := (providers[q.key]?.map ProviderMetadata.tools).getD q.tools } := by
  unfold restoreProvider applyCapacityWeight
  cases weights[q.key]? with
  | none =>
    cases providers[q.key]? with
    | none => rfl
    | some m => rfl
  | some weight =>
    by_cases hvl : isValidCapacityWeight weight = true
    · cases providers[q.key]? with
      | none => simp [hvl, Option.filter]
      | some m => simp [hvl, Option.filter]
    · cases providers[q.key]? with
      | none => simp [hvl, Option.filter]
      | some m => simp [hvl, Option.filter]

/-! ### Well-formed broadcasts -/

namespace StateBroadcast

/-- Records are filed under their flattened keys with capacity weights in range, and UIDs are
given to distinct plain identities of the snapshot. -/
structure WellFormed (b : StateBroadcast) : Prop where
  canonical : ∀ (k : String) (p : ProviderState), b.snapshot.providers[k]? = some p → p.key = k
  weights : ∀ (k : String) (p : ProviderState), b.snapshot.providers[k]? = some p →
    isValidCapacityWeight p.capacityWeight = true
  distinct : (b.providerUids.map (·.identity)).Nodup
  plain : ∀ u ∈ b.providerUids, u.identity.Plain
  present : ∀ u ∈ b.providerUids,
    ∃ (k : String) (p : ProviderState), b.snapshot.providers[k]? = some p ∧
      providerIdentity p = u.identity

variable {b : StateBroadcast}

/-! ### Dropped fields by flattened key -/

theorem getElem?_providerCapacityWeights (hb : b.WellFormed) (k : String) :
    b.providerCapacityWeights[k]? =
      b.snapshot.providers[k]?.bind fun p =>
        if (p.capacityWeight != 1) = true then some p.capacityWeight else none :=
  getElem?_ofList_map_filter_values hb.canonical _ _ k

theorem getElem?_providers_providerStateExtension (hb : b.WellFormed) (k : String) :
    b.providerStateExtension.providers[k]? = b.snapshot.providers[k]?.bind b.providerMetadata :=
  getElem?_ofList_filterMap_values hb.canonical b.providerMetadata k

theorem getElem?_providerTools_legacyExtension (hb : b.WellFormed) (k : String) :
    b.legacyExtension.providerTools[k]? =
      b.snapshot.providers[k]?.bind fun p =>
        if (!p.tools.isEmpty) = true then some p.tools else none :=
  getElem?_ofList_map_filter_values hb.canonical _ _ k

theorem getElem?_uidByIdentity (hb : b.WellFormed) {id : ProviderIdentity} {uid : String} :
    b.uidByIdentity[id]? = some uid ↔ ⟨id, uid⟩ ∈ b.providerUids := by
  have hnd : ((b.providerUids.map fun u => (u.identity, u.uid)).map Prod.fst).Nodup := by
    rw [List.map_map]
    exact hb.distinct
  rw [uidByIdentity, getElem?_ofList_eq_some hnd, List.mem_map]
  constructor
  · rintro ⟨⟨id', uid'⟩, hu, heq⟩
    cases heq
    exact hu
  · intro hu
    exact ⟨_, hu, rfl⟩

theorem providerMetadata_eq (p : ProviderState) :
    (b.providerMetadata p = some ⟨p.tools, b.uidByIdentity[providerIdentity p]?⟩) ∨
      (b.providerMetadata p = none ∧ p.tools = [] ∧
        b.uidByIdentity[providerIdentity p]? = none) := by
  simp only [providerMetadata]
  split_ifs with hcar
  · exact .inl rfl
  · simp only [Bool.or_eq_true, not_or, Bool.not_eq_true', Bool.not_eq_false, Bool.not_eq_true,
      isSome_eq_false_iff, isNone_iff_eq_none, List.isEmpty_iff] at hcar
    exact .inr ⟨rfl, hcar⟩

/-- A record that was written and read has its dropped fields put back. -/
theorem restoreProvider_toRecord (hb : b.WellFormed) {k : String} {p : ProviderState}
    (hp : b.snapshot.providers[k]? = some p) :
    restoreProvider b.providerCapacityWeights b.providerStateExtension.providers
      p.toRecord.toState = p := by
  have hkey : p.toRecord.toState.key = k := hb.canonical k p hp
  have hwg := getElem?_providerCapacityWeights hb k
  have hmt := getElem?_providers_providerStateExtension hb k
  rw [hp, Option.bind_some] at hwg hmt
  -- a weight of one is not written, and is the default
  have hcap : (b.providerCapacityWeights[k]?.filter isValidCapacityWeight).getD
      p.toRecord.toState.capacityWeight = p.capacityWeight := by
    by_cases hone : p.capacityWeight = 1
    · rw [hwg, hone]
      rfl
    · simp [hwg, hone, hb.weights k p hp, Option.filter]
  have htl : (b.providerStateExtension.providers[k]?.map ProviderMetadata.tools).getD
      p.toRecord.toState.tools = p.tools := by
    rcases b.providerMetadata_eq p with hm | ⟨hm, hnil, -⟩
    · rw [hmt, hm]
      rfl
    · rw [hmt, hm, hnil]
      rfl
  rw [restoreProvider_eq, hkey, hcap, htl]
  rfl

/-! ### The shape that is written -/

def frame (b : StateBroadcast) : ProviderStateFrame :=
  if b.requiresV2 then .v2 b.providerStateExtension else .v1 b.legacyExtension

def trailing (b : StateBroadcast) : TrailingShape :=
  if b.carriesProviderStateExtension then .framed b.toExtension b.signalsAddress b.frame
  else if b.signalsAddress.isSome then .signals b.toExtension b.signalsAddress
  else if b.carriesExtension then .capacity b.toExtension
  else .absent

def writtenVersion (b : StateBroadcast) : Option UInt8 :=
  if b.carriesProviderStateExtension then some b.frame.version else none

theorem encodeFrame_eq (b : StateBroadcast) : b.encodeFrame = b.frame.encode := by
  unfold encodeFrame encodeFramePayload frame ProviderStateFrame.encode
  cases hv : b.requiresV2 with
  | false =>
    simp only [Bool.false_eq_true, if_false, ProviderStateFrame.payload, ProviderStateFrame.version]
    cases Wire.providerStateV1.encode b.legacyExtension with
    | error e => rfl
    | ok payload => rfl
  | true =>
    simp only [if_true, ProviderStateFrame.payload, ProviderStateFrame.version]
    cases Wire.providerStateV2.encode b.providerStateExtension with
    | error e => rfl
    | ok payload => rfl

/-- A frame or a signals address is only written with the extension. -/
theorem carriesExtension_of_frame (h : b.carriesProviderStateExtension = true) :
    b.carriesExtension = true := by
  simp [carriesExtension, h]

theorem carriesExtension_of_signals (h : b.signalsAddress.isSome = true) :
    b.carriesExtension = true := by
  simp [carriesExtension, h]

theorem encodeExtension_eq (b : StateBroadcast) : b.encodeExtension = b.trailing.encode := by
  unfold encodeExtension trailing
  rw [encodeFrame_eq]
  by_cases hfr : b.carriesProviderStateExtension = true
  · simp only [carriesExtension_of_frame hfr, hfr, Bool.or_true, if_true,
      TrailingShape.encode, Codec.pair]
    cases Wire.extension.encode b.toExtension with
    | error e => rfl
    | ok ext =>
      cases Wire.signals.encode b.signalsAddress with
      | error e => rfl
      | ok signals =>
        cases b.frame.encode with
        | error e => rfl
        | ok frame => exact congrArg Except.ok (List.append_assoc ext signals frame).symm
  · by_cases hsg : b.signalsAddress.isSome = true
    · simp only [carriesExtension_of_signals hsg, hsg, Bool.true_or, if_true,
        if_neg hfr, TrailingShape.encode, Codec.pair]
      cases Wire.extension.encode b.toExtension with
      | error e => rfl
      | ok ext =>
        cases Wire.signals.encode b.signalsAddress with
        | error e => rfl
        | ok signals => simp
    · by_cases hext : b.carriesExtension = true
      · simp only [hext, hsg, hfr, Bool.or_self, Bool.false_eq_true, if_true, if_false,
          TrailingShape.encode]
        cases Wire.extension.encode b.toExtension with
        | error e => rfl
        | ok ext => simp
      · simp only [if_neg hext, if_neg hfr, if_neg hsg]
        rfl

theorem encode_eq (b : StateBroadcast) : b.encode = b.trailing.encodeAfter b.toV1 := by
  rw [encode, encodeExtension_eq]
  rfl

/-! ### What is read back -/

/-- Without a UID in it the first version of the frame says as much as the second. -/
theorem extension_frame (hb : b.WellFormed) : b.frame.extension = b.providerStateExtension := by
  unfold frame
  split_ifs with hv
  · rfl
  · have hpr : mapValues b.legacyExtension.providerTools (fun tools => ⟨tools, none⟩) =
        b.providerStateExtension.providers := by
      apply ExtTreeMap.ext_getElem?
      intro k
      rw [getElem?_mapValues, getElem?_providerTools_legacyExtension hb,
        getElem?_providers_providerStateExtension hb]
      rcases hp : b.snapshot.providers[k]? with - | p
      · rfl
      · rcases b.providerMetadata_eq p with hm | ⟨hm, hnil, -⟩
        · -- a UID would have asked for the second version
          have huid : b.uidByIdentity[providerIdentity p]? = none := by
            by_contra hsm
            apply hv
            have hmem : ⟨p.tools, b.uidByIdentity[providerIdentity p]?⟩ ∈
                values b.providerStateExtension.providers := by
              rw [mem_values]
              refine ⟨k, ?_⟩
              rw [getElem?_providers_providerStateExtension hb, hp, bind_some, hm]
            rw [requiresV2, Bool.or_eq_true, List.any_eq_true]
            right
            refine ⟨_, hmem, ?_⟩
            rw [isSome_iff_ne_none]
            exact hsm
          have htl : p.tools ≠ [] := by
            intro hnil
            simp [providerMetadata, huid, hnil] at hm
          simp [hm, huid, htl]
        · simp [hm, hnil]
    show (⟨_, _⟩ : ProviderStateExtensionV2) = _
    rw [hpr]
    rfl

theorem providerStateExtension_eq_default (h : ¬ b.carriesProviderStateExtension = true) :
    b.providerStateExtension = {} := by
  simp only [carriesProviderStateExtension, Bool.or_eq_true, not_or, Bool.not_eq_true,
    Bool.not_eq_false', ExtTreeMap.isEmpty_iff] at h
  rw [← h.1, ← h.2]

theorem toExtension_eq_default (h : ¬ b.carriesExtension = true) : b.toExtension = {} := by
  simp only [carriesExtension, Bool.or_eq_true, not_or, Bool.not_eq_true,
    isSome_eq_false_iff, isNone_iff_eq_none, Bool.not_eq_false',
    ExtTreeMap.isEmpty_iff] at h
  obtain ⟨⟨⟨⟨⟨⟨⟨hgt, hcr⟩, hsg⟩, hsd⟩, hgr⟩, hwg⟩, -⟩, -⟩ := h
  rw [toExtension, hgt, hcr, hsg, hsd, hgr, hwg]

theorem sections_trailing (hb : b.WellFormed) :
    b.trailing.sections =
      (b.toExtension, b.signalsAddress, b.providerStateExtension, b.writtenVersion) := by
  unfold trailing writtenVersion
  by_cases hfr : b.carriesProviderStateExtension = true
  · rw [if_pos hfr, if_pos hfr, TrailingShape.sections, extension_frame hb]
  · rw [if_neg hfr, if_neg hfr, providerStateExtension_eq_default hfr]
    by_cases hsg : b.signalsAddress.isSome = true
    · rw [if_pos hsg]
      rfl
    · have hnn : b.signalsAddress = none := by simpa using hsg
      rw [if_neg hsg, hnn]
      split_ifs with hext
      · rfl
      · rw [toExtension_eq_default hext]
        rfl

/-- The records of the base payload with their dropped fields are the records of the
snapshot. -/
theorem assemble_toV1 (hb : b.WellFormed) (version : Option UInt8) :
    assemble b.toV1 (b.toExtension, b.signalsAddress, b.providerStateExtension, version) =
      { b with
        providerUids := decodeProviderUids b.providerStateExtension.providers
        providerStateExtensionVersion := version } := by
  have hpr : mapValues b.toV1.snapshot.toSnapshot.providers
      (restoreProvider b.providerCapacityWeights b.providerStateExtension.providers) =
        b.snapshot.providers := by
    apply ExtTreeMap.ext_getElem?
    intro k
    simp only [toV1, GridStateSnapshot.toRecord, SnapshotRecord.toSnapshot, getElem?_mapValues]
    rcases hp : b.snapshot.providers[k]? with - | p
    · rfl
    · exact congrArg some (restoreProvider_toRecord hb hp)
  simp only [assemble, toExtension, hpr]
  rfl

/-! ### UIDs -/

theorem mem_decodeProviderUids (hb : b.WellFormed) {u : ProviderUid} :
    u ∈ decodeProviderUids b.providerStateExtension.providers ↔ u ∈ b.providerUids := by
  -- the record of a UID is filed under a key that parses as its identity
  have hpr : ∀ {k : String} {p : ProviderState}, b.snapshot.providers[k]? = some p →
      (providerIdentity p).Plain → parseProviderIdentity k = some (providerIdentity p) := by
    intro k p hp hpl
    rw [← hb.canonical k p hp, ← ProviderIdentity.key_providerIdentity]
    exact hpl.parse
  simp only [decodeProviderUids, List.mem_filterMap, Prod.exists,
    ExtTreeMap.mem_toList_iff_getElem?_eq_some, getElem?_providers_providerStateExtension hb,
    bind_eq_some_iff, map_eq_some_iff]
  constructor
  · rintro ⟨k, m, ⟨p, hp, hm⟩, uid, huid, id, hid, rfl⟩
    rcases b.providerMetadata_eq p with hm' | ⟨hm', -⟩
    · rw [hm'] at hm
      cases hm
      have hu := (getElem?_uidByIdentity hb).mp huid
      rw [hpr hp (hb.plain _ hu)] at hid
      rwa [some.inj hid] at hu
    · rw [hm'] at hm
      cases hm
  · intro hu
    obtain ⟨k, p, hp, hit⟩ := hb.present u hu
    have huid : b.uidByIdentity[providerIdentity p]? = some u.uid := by
      rw [hit]
      exact (getElem?_uidByIdentity hb).mpr hu
    have hpl : (providerIdentity p).Plain := by
      rw [hit]
      exact hb.plain u hu
    have hm : b.providerMetadata p = some ⟨p.tools, some u.uid⟩ := by
      simp [providerMetadata, huid]
    refine ⟨k, _, ⟨p, hp, hm⟩, u.uid, rfl, providerIdentity p, hpr hp hpl, ?_⟩
    rw [hit]

theorem nodup_decodeProviderUids (providers : ExtTreeMap String ProviderMetadata) :
    ((decodeProviderUids providers).map (·.identity)).Nodup := by
  have hky := nodup_map_fst_toList providers
  unfold decodeProviderUids
  rw [List.Nodup, List.pairwise_map] at hky ⊢
  refine List.Pairwise.filterMap _ ?_ hky
  intro e e' hne u hu u' hu' hit
  apply hne
  obtain ⟨uid, -, hu⟩ := bind_eq_some_iff.mp hu
  obtain ⟨uid', -, hu'⟩ := bind_eq_some_iff.mp hu'
  obtain ⟨id, hid, rfl⟩ := map_eq_some_iff.mp hu
  obtain ⟨id', hid', rfl⟩ := map_eq_some_iff.mp hu'
  rw [← ProviderIdentity.key_of_parse hid, ← ProviderIdentity.key_of_parse hid']
  exact congrArg ProviderIdentity.key hit

/-! ### Encoding again -/

def reread (b : StateBroadcast) : StateBroadcast :=
  { b with
    providerUids := decodeProviderUids b.providerStateExtension.providers
    providerStateExtensionVersion := b.writtenVersion }

section

variable (hb : b.WellFormed)
include hb

theorem WellFormed.reread : b.reread.WellFormed where
  canonical := hb.canonical
  weights := hb.weights
  distinct := nodup_decodeProviderUids _
  plain u hu := hb.plain u ((mem_decodeProviderUids hb).mp hu)
  present u hu := hb.present u ((mem_decodeProviderUids hb).mp hu)

theorem uidByIdentity_reread : b.reread.uidByIdentity = b.uidByIdentity := by
  apply ExtTreeMap.ext_getElem?
  intro id
  apply ext
  intro uid
  rw [getElem?_uidByIdentity hb.reread, getElem?_uidByIdentity hb]
  exact mem_decodeProviderUids hb

theorem providerStateExtension_reread :
    b.reread.providerStateExtension = b.providerStateExtension := by
  have hmt : b.reread.providerMetadata = b.providerMetadata := by
    funext p
    simp only [providerMetadata, uidByIdentity_reread hb]
  simp only [providerStateExtension, hmt]
  rfl

/-- The version seen on the wire is the version that is written again. -/
theorem frame_reread (hfr : b.carriesProviderStateExtension = true) :
    b.reread.frame = b.frame := by
  have hv : b.reread.requiresV2 = b.requiresV2 := by
    have hver : b.reread.providerStateExtensionVersion = some b.frame.version := if_pos hfr
    rw [requiresV2, providerStateExtension_reread hb, hver, frame]
    cases hv : b.requiresV2 with
    | true => rfl
    | false =>
      rw [requiresV2, Bool.or_eq_false_iff] at hv
      rw [hv.2]
      rfl
  rw [frame, hv, providerStateExtension_reread hb]
  rfl

theorem trailing_reread : b.reread.trailing = b.trailing := by
  have hcar : b.reread.carriesProviderStateExtension = b.carriesProviderStateExtension := by
    rw [carriesProviderStateExtension, providerStateExtension_reread hb, carriesProviderStateExtension]
  have hext : b.reread.carriesExtension = b.carriesExtension := by
    rw [carriesExtension, hcar]
    rfl
  unfold trailing
  rw [hcar, hext]
  by_cases hfr : b.carriesProviderStateExtension = true
  · rw [if_pos hfr, if_pos hfr, frame_reread hb hfr]
    rfl
  · rw [if_neg hfr, if_neg hfr]
    rfl

theorem encode_reread : b.reread.encode = b.encode := by
  rw [encode_eq, encode_eq, trailing_reread hb]
  rfl

/-- The signature does not show in the provider-state sections. -/
theorem signableBytes_reread : b.reread.signableBytes = b.signableBytes := by
  have hun : ({ b with signature := none } : StateBroadcast).WellFormed :=
    ⟨hb.canonical, hb.weights, hb.distinct, hb.plain, hb.present⟩
  have hrr : ({ b.reread with signature := none } : StateBroadcast) =
      ({ b with signature := none } : StateBroadcast).reread := rfl
  rw [signableBytes, hrr, encode_reread hun, signableBytes]

end

/-- Every length of the broadcast fits its prefix. -/
def Encodable (b : StateBroadcast) : Prop := Wire.base.fits b.toV1 = true ∧ b.trailing.Fits

/-- **A broadcast survives its encoding, and so does what its origin signed.**  It is decoded
to itself, with the same UIDs and the frame version that was written, and the bytes a
receiver checks the signature over are those the origin made it over. -/
theorem decode_encode_stable (hb : b.WellFormed) :
    (b.Encodable → ∃ bytes, b.encode = .ok bytes) ∧
      ∀ bytes, b.encode = .ok bytes → ∃ b', decode bytes = .ok b' ∧
        b' = { b with
          providerUids := b'.providerUids
          providerStateExtensionVersion := b'.providerStateExtensionVersion } ∧
        (∀ u, u ∈ b'.providerUids ↔ u ∈ b.providerUids) ∧
        b'.signableBytes = b.signableBytes := by
  refine ⟨fun hft => ?_, fun bytes h => ⟨b.reread, ?_, rfl, ?_, signableBytes_reread hb⟩⟩
  · rw [encode_eq]
    exact hft.2.encodeAfter hft.1
  · rw [encode_eq] at h
    rw [TrailingShape.decode_encodeAfter h, sections_trailing hb, assemble_toV1 hb]
    rfl
  · exact fun u => mem_decodeProviderUids hb

/-- A signed broadcast of one record that differs from its defaults in every dropped field. -/
def weightedTool : StateBroadcast :=
  let p := { Scenario.record "n" "edge" "p" with tools := ["t"], capacityWeight := 5 }
  { Scenario.signed (Scenario.broadcast "edge" 7 []) with
    snapshot := { GridStateSnapshot.new "edge" with
      providers := (∅ : ExtTreeMap String ProviderState).insert "n/edge/p" p }
    providerUids := [⟨⟨"n", "edge", "p"⟩, "u"⟩] }

theorem wellFormed_weightedTool : weightedTool.WellFormed := by
  have hrec : ∀ (k : String) (p : ProviderState),
      weightedTool.snapshot.providers[k]? = some p → k = "n/edge/p" ∧
        p = { Scenario.record "n" "edge" "p" with tools := ["t"], capacityWeight := 5 } := by
    intro k p hp
    simp only [weightedTool, getElem?_insert] at hp
    split_ifs at hp with hk
    · exact ⟨hk.symm, (some.inj hp).symm⟩
    · simp at hp
  refine ⟨?_, ?_, by decide, ?_, ?_⟩
  · intro k p hp
    obtain ⟨rfl, rfl⟩ := hrec k p hp
    decide
  · intro k p hp
    obtain ⟨rfl, rfl⟩ := hrec k p hp
    decide
  · intro u hu
    obtain rfl := List.mem_singleton.mp hu
    decide
  · intro u hu
    obtain rfl := List.mem_singleton.mp hu
    exact ⟨"n/edge/p", _, rfl, rfl⟩

theorem decode_encode_stable_weightedTool :
    ∃ bytes b', weightedTool.encode = .ok bytes ∧ decode bytes = .ok b' ∧
      b'.snapshot = weightedTool.snapshot ∧ b'.signableBytes = weightedTool.signableBytes := by
  have hst := decode_encode_stable wellFormed_weightedTool
  have hft : weightedTool.Encodable := by
    have htr : weightedTool.trailing =
        .framed weightedTool.toExtension none (.v2 weightedTool.providerStateExtension) := rfl
    have hpy : Wire.providerStateV2.fits weightedTool.providerStateExtension = true := rfl
    refine ⟨rfl, ?_⟩
    rw [htr]
    refine ⟨rfl, hpy, fun payload h => ?_⟩
    cases h
    decide
  obtain ⟨bytes, hby⟩ := hst.1 hft
  obtain ⟨b', hdc, hsm, -, hsg⟩ := hst.2 bytes hby
  have hsn : b'.snapshot = weightedTool.snapshot := (congrArg snapshot hsm).trans rfl
  exact ⟨bytes, b', hby, hdc, hsn, hsg⟩

/-! ### What a signature stands for -/

theorem signableBytes_eq_ok {message : Bytes} (h : b.signableBytes = .ok message) :
    ∃ bytes, { b with signature := none }.encode = .ok bytes
      ∧ message = signatureDomain ++ bytes := by
  obtain ⟨bytes, he, h⟩ := bind_eq_ok.mp h
  cases h
  exact ⟨bytes, he, rfl⟩

theorem decode_of_encode (hb : b.WellFormed) {bytes : Bytes} (h : b.encode = .ok bytes) :
    decode bytes = .ok b.reread := by
  rw [encode_eq] at h
  rw [TrailingShape.decode_encodeAfter h, sections_trailing hb, assemble_toV1 hb]
  rfl

/-- **A signature stands for one broadcast**: well-formed ones that are signed alike differ in the
signature, the order of the UIDs and the version they were read with. -/
theorem signature_binds_broadcast (b b' : StateBroadcast) (hb : b.WellFormed) (hb' : b'.WellFormed)
    (message : Bytes) (h : b.signableBytes = .ok message) (h' : b'.signableBytes = .ok message) :
    b' = { b with
        signature := b'.signature
        providerUids := b'.providerUids
        providerStateExtensionVersion := b'.providerStateExtensionVersion }
      ∧ ∀ u, u ∈ b'.providerUids ↔ u ∈ b.providerUids := by
  obtain ⟨bytes, he, rfl⟩ := signableBytes_eq_ok h
  obtain ⟨bytes', he', hm⟩ := signableBytes_eq_ok h'
  obtain rfl := List.append_cancel_left hm
  have hun : { b with signature := none }.WellFormed := ⟨hb.1, hb.2, hb.3, hb.4, hb.5⟩
  have hun' : { b' with signature := none }.WellFormed := ⟨hb'.1, hb'.2, hb'.3, hb'.4, hb'.5⟩
  have heq := Except.ok.inj ((decode_of_encode hun he).symm.trans (decode_of_encode hun' he'))
  constructor
  · cases b
    cases b'
    simp only [reread, mk.injEq] at heq ⊢
    simp [heq]
  · intro u
    rw [← mem_decodeProviderUids hb', ← mem_decodeProviderUids hb]
    exact iff_of_eq (congrArg (fun b : StateBroadcast => u ∈ b.providerUids) heq).symm

theorem signature_binds_broadcast_weightedTool :
    ∃ message, weightedTool.signableBytes = .ok message ∧ ∀ b' : StateBroadcast, b'.WellFormed →
      b'.signableBytes = .ok message → b'.snapshot = weightedTool.snapshot := by
  obtain ⟨message, hm⟩ : ∃ message, weightedTool.signableBytes = .ok message := ⟨_, rfl⟩
  refine ⟨message, hm, fun b' hb' h' => ?_⟩
  have heq := (signature_binds_broadcast _ b' wellFormed_weightedTool hb' message hm h').1
  exact (congrArg snapshot heq).trans rfl

end StateBroadcast

namespace ModelInventoryFrame

theorem signableBytes_eq_ok {f : ModelInventoryFrame} {origin grid : String} {message : Bytes}
    (h : f.signableBytes origin grid = .ok message) :
    ∃ bytes, (Codec.string.pair (Codec.string.pair Wire.inventoryFrame)).encode
        (origin, grid, { f with signature := none }) = .ok bytes
      ∧ message = inventorySignatureDomain ++ bytes := by
  obtain ⟨bytes, he, h⟩ := bind_eq_ok.mp h
  cases h
  exact ⟨bytes, he, rfl⟩

/-- **A signature stands for one frame** of one origin in one grid, and never for a broadcast. -/
theorem signature_binds_frame (f : ModelInventoryFrame) (origin grid : String) (message : Bytes)
    (h : f.signableBytes origin grid = .ok message) :
    (∀ (f' : ModelInventoryFrame) origin' grid', f'.signableBytes origin' grid' = .ok message →
      origin' = origin ∧ grid' = grid ∧ f' = { f with signature := f'.signature })
      ∧ ∀ b : StateBroadcast, b.signableBytes ≠ .ok message := by
  obtain ⟨bytes, he, rfl⟩ := signableBytes_eq_ok h
  constructor
  · intro f' origin' grid' h'
    obtain ⟨bytes', he', hm⟩ := signableBytes_eq_ok h'
    obtain rfl := List.append_cancel_left hm
    have heq := (Codec.decode_encode_nil _ he).symm.trans (Codec.decode_encode_nil _ he')
    cases f
    cases f'
    simp_all
  · intro b hb
    obtain ⟨bytes', -, hm⟩ := StateBroadcast.signableBytes_eq_ok hb
    -- the two domains differ in their eighteenth byte
    have hat := congrArg (·[17]?) hm
    rw [List.getElem?_append_left (by decide +kernel),
      List.getElem?_append_left (by decide +kernel)] at hat
    exact absurd hat (by decide +kernel)

/-- A signed frame of two models. -/
def twoModels : ModelInventoryFrame :=
  ⟨1, "n", "p", "u", 1, 2, 0, 1, .replicate 32 0, ["llama", "mistral"], some 7, none⟩

theorem signature_binds_frame_twoModels :
    ∃ message, twoModels.signableBytes "edge" "grid" = .ok message
      ∧ { twoModels with models := ["llama"] }.signableBytes "edge" "grid" ≠ .ok message
      ∧ StateBroadcast.weightedTool.signableBytes ≠ .ok message := by
  obtain ⟨message, hm⟩ : ∃ message, twoModels.signableBytes "edge" "grid" = .ok message := ⟨_, rfl⟩
  obtain ⟨hframe, hbroadcast⟩ := signature_binds_frame twoModels "edge" "grid" message hm
  exact ⟨message, hm, fun h => absurd (hframe _ _ _ h).2.2 (by decide), hbroadcast _⟩

end ModelInventoryFrame

end PraxisGrid
