/-
PraxisGrid/Swim/WireShapes.lean

The trailing bytes of a state broadcast, in every shape an origin has ever written.

A peer that has not been upgraded writes an older shape, and nothing on the wire says which.
`decodeExtension` tries the shapes from the newest to the oldest, so an older payload is read
for what it is only if every newer shape fails on it.  It does: the newer shapes start with
the fields of the older ones and need at least one byte more, and the length of a bare string
is no tag of an optional field unless the string is too short for what the tag announces.  So the
trailing bytes of a shape are read as that shape (`decodeExtension_encode`), and a whole broadcast of
any era as it was meant (`decode_encodeAfter`).
-/
import PraxisGrid.Swim.Wire

namespace PraxisGrid

open Std OrdMap Bincode Wire Codec

/-! ### Shapes -/

inductive ProviderStateFrame
  | v1 (ext : ProviderStateExtensionV1)
  | v2 (ext : ProviderStateExtensionV2)

namespace ProviderStateFrame

/-- The version byte of the header. -/
def version : ProviderStateFrame → UInt8
  | .v1 _ => providerStateExtensionVersionV1
  | .v2 _ => providerStateExtensionVersionV2

/-- The bytes after the header. -/
def payload : ProviderStateFrame → Except EncodeError Bytes
  | .v1 ext => Wire.providerStateV1.encode ext
  | .v2 ext => Wire.providerStateV2.encode ext

def encode (f : ProviderStateFrame) : Except EncodeError Bytes := do
  let payload ← f.payload
  if payload.length < 2 ^ 32 then
    let header ← Wire.header.encode
      ⟨providerStateExtensionMagic, UInt32.ofNat payload.length, f.version⟩
    pure (header ++ payload)
  else .error (.other "provider-state extension exceeds the frame length limit")

/-- The provider state the frame stands for; the first version knows no UIDs. -/
def extension : ProviderStateFrame → ProviderStateExtensionV2
  | .v1 ext =>
      { authoritativeProviderState := ext.authoritativeProviderState
        providers := mapValues ext.providerTools fun tools => ⟨tools, none⟩ }
  | .v2 ext => ext

/-- The payload can be encoded and its length fits the header. -/
def Fits (f : ProviderStateFrame) : Prop :=
  (match f with
    | .v1 ext => Wire.providerStateV1.fits ext = true
    | .v2 ext => Wire.providerStateV2.fits ext = true) ∧
  ∀ payload, f.payload = .ok payload → payload.length < 2 ^ 32

end ProviderStateFrame

/-- The bytes after the base payload, from the oldest shape to the newest. -/
inductive TrailingShape
  | absent
  | bareGateway (gateway : String)
  | preSignature (ext : PreSignatureBroadcastExtension)
  | preTimestamp (ext : PreTimestampBroadcastExtension)
  | preCapacity (ext : PreCapacityBroadcastExtension)
  | capacity (ext : BroadcastExtension)
  | signals (ext : BroadcastExtension) (signalsAddress : Option String)
  | framed (ext : BroadcastExtension) (signalsAddress : Option String) (frame : ProviderStateFrame)

namespace TrailingShape

/-- The trailing bytes an origin of that era writes. -/
def encode : TrailingShape → Except EncodeError Bytes
  | .absent => .ok []
  | .bareGateway gateway => Codec.string.encode gateway
  | .preSignature ext => Wire.preSignature.encode ext
  | .preTimestamp ext => Wire.preTimestamp.encode ext
  | .preCapacity ext => Wire.preCapacity.encode ext
  | .capacity ext => Wire.extension.encode ext
  | .signals ext signalsAddress => (Wire.extension.pair Wire.signals).encode (ext, signalsAddress)
  | .framed ext signalsAddress frame => do
      let metadata ← (Wire.extension.pair Wire.signals).encode (ext, signalsAddress)
      let frame ← frame.encode
      pure (metadata ++ frame)

/-- Every length in the shape fits its prefix. -/
def Fits : TrailingShape → Prop
  | .absent => True
  | .bareGateway gateway => Codec.string.fits gateway = true
  | .preSignature ext => Wire.preSignature.fits ext = true
  | .preTimestamp ext => Wire.preTimestamp.fits ext = true
  | .preCapacity ext => Wire.preCapacity.fits ext = true
  | .capacity ext => Wire.extension.fits ext = true
  | .signals ext signalsAddress =>
      (Wire.extension.pair Wire.signals).fits (ext, signalsAddress) = true
  | .framed ext signalsAddress frame =>
      (Wire.extension.pair Wire.signals).fits (ext, signalsAddress) = true ∧ frame.Fits

def encodeAfter (t : TrailingShape) (v1 : StateBroadcastV1) : Except EncodeError Bytes := do
  let base ← Wire.base.encode v1
  let ext ← t.encode
  pure (base ++ ext)

/-- The sections a shape stands for, those it does not have at their defaults. -/
def sections : TrailingShape →
    BroadcastExtension × Option String × ProviderStateExtensionV2 × Option UInt8
  | .absent => ({}, none, {}, none)
  | .bareGateway gateway => ({ gatewayAddress := some gateway }, none, {}, none)
  | .preSignature ext =>
      ({ gatewayAddress := ext.gatewayAddress, siteCertPem := ext.siteCertPem }, none, {}, none)
  | .preTimestamp ext =>
      ({ gatewayAddress := ext.gatewayAddress, siteCertPem := ext.siteCertPem
         signature := ext.signature }, none, {}, none)
  | .preCapacity ext =>
      ({ gatewayAddress := ext.gatewayAddress, siteCertPem := ext.siteCertPem
         signature := ext.signature, signedAtMs := ext.signedAtMs, gridId := ext.gridId },
        none, {}, none)
  | .capacity ext => (ext, none, {}, none)
  | .signals ext signalsAddress => (ext, signalsAddress, {}, none)
  | .framed ext signalsAddress frame =>
      (ext, signalsAddress, frame.extension, some frame.version)

end TrailingShape

/-! ### Encoding succeeds -/

variable {f : ProviderStateFrame}

theorem ProviderStateFrame.Fits.encode (hf : f.Fits) :
    ∃ bytes, f.encode = .ok bytes := by
  obtain ⟨hft, hlen⟩ := hf
  have hpy : ∃ payload, f.payload = .ok payload := by
    cases f with
    | v1 ext => exact providerStateV1.encode_ok hft
    | v2 ext => exact providerStateV2.encode_ok hft
  obtain ⟨payload, hpy⟩ := hpy
  obtain ⟨header, hhd⟩ := header.encode_ok
    (a := ⟨providerStateExtensionMagic, UInt32.ofNat payload.length, f.version⟩) rfl
  simp only [ProviderStateFrame.encode, hpy, ok_bind, if_pos (hlen payload hpy),
    hhd]
  exact ⟨_, rfl⟩

theorem TrailingShape.Fits.encode {t : TrailingShape} (ht : t.Fits) :
    ∃ bytes, t.encode = .ok bytes := by
  cases t with
  | absent => exact ⟨_, rfl⟩
  | bareGateway gateway => exact string.encode_ok ht
  | preSignature ext => exact Wire.preSignature.encode_ok ht
  | preTimestamp ext => exact Wire.preTimestamp.encode_ok ht
  | preCapacity ext => exact Wire.preCapacity.encode_ok ht
  | capacity ext => exact Wire.extension.encode_ok ht
  | signals ext signalsAddress => exact (Wire.extension.pair Wire.signals).encode_ok ht
  | framed ext signalsAddress frame =>
    obtain ⟨metadata, hmt⟩ := (Wire.extension.pair Wire.signals).encode_ok ht.1
    obtain ⟨bytes, hby⟩ := ht.2.encode
    simp only [TrailingShape.encode, hmt, hby, ok_bind]
    exact ⟨_, rfl⟩

theorem TrailingShape.Fits.encodeAfter {t : TrailingShape} (ht : t.Fits) {v1 : StateBroadcastV1}
    (hv : base.fits v1 = true) : ∃ bytes, t.encodeAfter v1 = .ok bytes := by
  obtain ⟨base, hbs⟩ := base.encode_ok hv
  obtain ⟨ext, hext⟩ := ht.encode
  simp only [TrailingShape.encodeAfter, hbs, hext, ok_bind]
  exact ⟨_, rfl⟩

/-! ### One shape at a time -/

section Shape

variable {α : Type} {c : Codec α} {a : α} {bytes : Bytes}

theorem shape_encode (rest : Bytes) (h : c.encode a = .ok bytes) :
    shape c (bytes ++ rest) = some (a, rest) := by
  simp only [shape, c.decode_encode rest h]

theorem shape_encode_nil (h : c.encode a = .ok bytes) : shape c bytes = some (a, []) := by
  simp only [shape, c.decode_encode_nil h]

theorem shapeExact_encode (h : c.encode a = .ok bytes) : shapeExact c bytes = some a := by
  simp only [shapeExact, shape_encode_nil h]

theorem shape_eq_none (h : c.Fails bytes) : shape c bytes = none := by
  obtain ⟨e, he⟩ := h
  simp only [shape, he]

end Shape

/-! ### Older shapes are too short for newer ones -/

namespace Wire

open Codec

theorem tooShort_preCapacity_extension : TooShort preCapacity extension :=
  .iso (.pair (.pair (.pair (.pair (tooShort_pair (fails_nil_map _ _))))))

theorem tooShort_preTimestamp_preCapacity : TooShort preTimestamp preCapacity :=
  .iso (.pair (.pair (tooShort_pair ((fails_nil_option _).pair _))))

theorem tooShort_preTimestamp_extension : TooShort preTimestamp extension :=
  .iso (.pair (.pair (tooShort_pair ((fails_nil_option _).pair _))))

theorem tooShort_preSignature_preTimestamp : TooShort preSignature preTimestamp :=
  .iso (.pair (tooShort_pair (fails_nil_option _)))

theorem tooShort_preSignature_preCapacity : TooShort preSignature preCapacity :=
  .iso (.pair (tooShort_pair ((fails_nil_option _).pair _)))

theorem tooShort_preSignature_extension : TooShort preSignature extension :=
  .iso (.pair (tooShort_pair ((fails_nil_option _).pair _)))

theorem tooShort_string_preSignature : TooShort string preSignature :=
  (tooShort_string (fails_nil_option _)).iso_right

theorem tooShort_string_preTimestamp : TooShort string preTimestamp :=
  (tooShort_string ((fails_nil_option _).pair _)).iso_right

theorem tooShort_string_preCapacity : TooShort string preCapacity :=
  (tooShort_string ((fails_nil_option _).pair _)).iso_right

theorem tooShort_string_extension : TooShort string extension :=
  (tooShort_string ((fails_nil_option _).pair _)).iso_right

theorem fails_nil_extension : extension.Fails [] := ((fails_nil_option _).pair _).iso _ _ _

theorem fails_nil_header : header.Fails [] := ((fails_nil_array 7).pair _).iso _ _ _

end Wire

/-! ### Reading a shape -/

theorem decodeProviderStateExtension_encode {bytes : Bytes} (h : f.encode = .ok bytes) :
    decodeProviderStateExtension bytes = (f.extension, some f.version) := by
  obtain ⟨payload, hpy, h⟩ := bind_eq_ok.mp h
  split_ifs at h with hln
  obtain ⟨header, hhd, h⟩ := bind_eq_ok.mp h
  cases h
  have hem : (header ++ payload).isEmpty = false := by
    rw [List.isEmpty_eq_false_iff]
    exact List.append_ne_nil_of_left_ne_nil (ne_nil_of_fails fails_nil_header hhd) _
  have hlen : (UInt32.ofNat payload.length).toNat = payload.length :=
    UInt32.toNat_ofNat_of_lt' hln
  cases f with
  | v1 ext =>
    simp [decodeProviderStateExtension, hem, shape_encode payload hhd, hlen,
      ProviderStateFrame.version, ProviderStateFrame.extension,
      shapeExact_encode (c := providerStateV1) hpy]
  | v2 ext =>
    have hver : providerStateExtensionVersionV2 ≠ providerStateExtensionVersionV1 := by decide
    simp [decodeProviderStateExtension, hem, shape_encode payload hhd, hlen, hver,
      ProviderStateFrame.version, ProviderStateFrame.extension,
      shapeExact_encode (c := providerStateV2) hpy]

/-- Bytes that are too short for the six-field extension are read as an older shape. -/
theorem decodeExtension_of_fails {bytes : Bytes} (hne : bytes ≠ [])
    (hfl : extension.Fails bytes) :
    decodeExtension bytes = (decodeLegacyExtension bytes, none, {}, none) := by
  simp only [decodeExtension, List.isEmpty_eq_false_iff.mpr hne, shape_eq_none hfl]
  rfl

variable {ext : BroadcastExtension}

/-- After the six-field extension and the signals address comes the frame. -/
theorem decodeExtension_pair {signalsAddress : Option String} {metadata : Bytes}
    (h : (extension.pair signals).encode (ext, signalsAddress) = .ok metadata)
    (framed : Bytes) :
    decodeExtension (metadata ++ framed) =
      (ext, signalsAddress, decodeProviderStateExtension framed) := by
  obtain ⟨first, hfr, h⟩ := bind_eq_ok.mp h
  obtain ⟨second, hsec, h⟩ := bind_eq_ok.mp h
  cases h
  have hfirst_ne := ne_nil_of_fails fails_nil_extension hfr
  have hsecond_ne := ne_nil_of_fails (fails_nil_option _) hsec
  have hem : (first ++ (second ++ framed)).isEmpty = false :=
    List.isEmpty_eq_false_iff.mpr (List.append_ne_nil_of_left_ne_nil hfirst_ne _)
  have haf : (second ++ framed).isEmpty = false :=
    List.isEmpty_eq_false_iff.mpr (List.append_ne_nil_of_left_ne_nil hsecond_ne _)
  rw [List.append_assoc]
  simp only [decodeExtension, hem, shape_encode (second ++ framed) hfr, haf,
    Bool.false_eq_true, if_false, shape_encode framed hsec]

namespace TrailingShape

variable {t : TrailingShape} {bytes : Bytes}

/-- **The trailing bytes of a shape are read as that shape.** -/
theorem decodeExtension_encode (h : t.encode = .ok bytes) :
    decodeExtension bytes = t.sections := by
  cases t with
  | absent =>
    cases h
    rfl
  | bareGateway gateway =>
    have hne := ne_nil_of_fails (c := string) ⟨.unexpectedEnd, rfl⟩ h
    rw [decodeExtension_of_fails hne (Wire.tooShort_string_extension.fails h)]
    simp only [decodeLegacyExtension, shape_eq_none (Wire.tooShort_string_preCapacity.fails h),
      shape_eq_none (Wire.tooShort_string_preTimestamp.fails h),
      shape_eq_none (Wire.tooShort_string_preSignature.fails h), shape_encode_nil (c := string) h]
    rfl
  | preSignature ext =>
    have hne := ne_nil_of_fails (c := Wire.preSignature) ⟨.unexpectedEnd, rfl⟩ h
    rw [decodeExtension_of_fails hne (Wire.tooShort_preSignature_extension.fails h)]
    simp only [decodeLegacyExtension, shape_eq_none (Wire.tooShort_preSignature_preCapacity.fails h),
      shape_eq_none (Wire.tooShort_preSignature_preTimestamp.fails h),
      shape_encode_nil (c := Wire.preSignature) h]
    rfl
  | preTimestamp ext =>
    have hne := ne_nil_of_fails (c := Wire.preTimestamp) ⟨.unexpectedEnd, rfl⟩ h
    rw [decodeExtension_of_fails hne (Wire.tooShort_preTimestamp_extension.fails h)]
    simp only [decodeLegacyExtension, shape_eq_none (Wire.tooShort_preTimestamp_preCapacity.fails h),
      shape_encode_nil (c := Wire.preTimestamp) h]
    rfl
  | preCapacity ext =>
    have hne := ne_nil_of_fails (c := Wire.preCapacity) ⟨.unexpectedEnd, rfl⟩ h
    rw [decodeExtension_of_fails hne (Wire.tooShort_preCapacity_extension.fails h)]
    simp only [decodeLegacyExtension, shape_encode_nil (c := Wire.preCapacity) h]
    rfl
  | capacity ext =>
    have hne := ne_nil_of_fails (c := Wire.extension) Wire.fails_nil_extension h
    simp only [decodeExtension, List.isEmpty_eq_false_iff.mpr hne,
      shape_encode_nil (c := Wire.extension) h]
    rfl
  | signals ext signalsAddress =>
    have hrd := decodeExtension_pair h []
    rwa [List.append_nil] at hrd
  | framed ext signalsAddress frame =>
    obtain ⟨metadata, hmt, h⟩ := bind_eq_ok.mp h
    obtain ⟨framed, hfr, h⟩ := bind_eq_ok.mp h
    cases h
    rw [decodeExtension_pair hmt, decodeProviderStateExtension_encode hfr]
    rfl

theorem decode_encodeAfter {v1 : StateBroadcastV1} (h : t.encodeAfter v1 = .ok bytes) :
    StateBroadcast.decode bytes = .ok (StateBroadcast.assemble v1 t.sections) := by
  obtain ⟨base, hbs, h⟩ := bind_eq_ok.mp h
  obtain ⟨ext, hext, h⟩ := bind_eq_ok.mp h
  cases h
  simp only [StateBroadcast.decode, Wire.base.decode_encode ext hbs, ok_bind,
    decodeExtension_encode hext]
  rfl

/-! ### What is received -/

/-- A broadcast with a base payload and nothing after it. -/
def plain (v1 : StateBroadcastV1) : StateBroadcast :=
  { version := v1.version, originSite := v1.originSite, revision := v1.revision
    snapshot := v1.snapshot.toSnapshot }

/-- The snapshot of a base payload with the capacity weights and tools put back that its
broadcast gives by flattened key. -/
def restored (v1 : StateBroadcastV1) (weights : ExtTreeMap String UInt32)
    (providers : ExtTreeMap String ProviderMetadata) : GridStateSnapshot :=
  { v1.snapshot.toSnapshot with
    providers := mapValues v1.snapshot.toSnapshot.providers (restoreProvider weights providers) }

/-- A base payload with the fields of the six-field extension. -/
def extended (v1 : StateBroadcastV1) (ext : BroadcastExtension) : StateBroadcast :=
  { plain v1 with
    gatewayAddress := ext.gatewayAddress, siteCertPem := ext.siteCertPem
    signature := ext.signature, signedAtMs := ext.signedAtMs, gridId := ext.gridId
    snapshot := restored v1 ext.providerCapacityWeights ∅ }

/-- The broadcast an origin of that era meant: the fields of its shape, every later field at
its default. -/
def received (v1 : StateBroadcastV1) : TrailingShape → StateBroadcast
  | .absent => plain v1
  | .bareGateway gateway => { plain v1 with gatewayAddress := some gateway }
  | .preSignature ext =>
      { plain v1 with gatewayAddress := ext.gatewayAddress, siteCertPem := ext.siteCertPem }
  | .preTimestamp ext =>
      { plain v1 with
        gatewayAddress := ext.gatewayAddress, siteCertPem := ext.siteCertPem
        signature := ext.signature }
  | .preCapacity ext =>
      { plain v1 with
        gatewayAddress := ext.gatewayAddress, siteCertPem := ext.siteCertPem
        signature := ext.signature, signedAtMs := ext.signedAtMs, gridId := ext.gridId }
  | .capacity ext => extended v1 ext
  | .signals ext signalsAddress => { extended v1 ext with signalsAddress := signalsAddress }
  | .framed ext signalsAddress frame =>
      { extended v1 ext with
        signalsAddress := signalsAddress
        authoritativeProviderState := frame.extension.authoritativeProviderState
        snapshot := restored v1 ext.providerCapacityWeights frame.extension.providers
        providerUids := decodeProviderUids frame.extension.providers
        providerStateExtensionVersion := some frame.version }

theorem restored_empty (v1 : StateBroadcastV1) : restored v1 ∅ ∅ = v1.snapshot.toSnapshot := by
  have hpr : mapValues v1.snapshot.toSnapshot.providers (restoreProvider ∅ ∅) =
      v1.snapshot.toSnapshot.providers := by
    apply ExtTreeMap.ext_getElem?
    intro k
    rw [getElem?_mapValues]
    cases v1.snapshot.toSnapshot.providers[k]? with
    | none => rfl
    | some p => simp [restoreProvider]
  rw [restored, hpr]

/-- A shape before the capacity map leaves the snapshot as it is. -/
theorem extended_of_no_weights (v1 : StateBroadcastV1) (hext : ext.providerCapacityWeights = ∅) :
    extended v1 ext =
      { plain v1 with
        gatewayAddress := ext.gatewayAddress, siteCertPem := ext.siteCertPem
        signature := ext.signature, signedAtMs := ext.signedAtMs, gridId := ext.gridId } := by
  rw [extended, hext, restored_empty]
  rfl

theorem assemble_sections (v1 : StateBroadcastV1) (t : TrailingShape) :
    StateBroadcast.assemble v1 t.sections = t.received v1 := by
  cases t with
  | absent | bareGateway gateway | preSignature ext | preTimestamp ext | preCapacity ext =>
    exact extended_of_no_weights v1 rfl
  | capacity ext => rfl
  | signals ext signalsAddress => rfl
  | framed ext signalsAddress frame => rfl

/-- **Every era is read for what it is.**  What an origin of any era can encode is decoded to
exactly the fields of its shape, with every later field at its default. -/
theorem decode_every_era (v1 : StateBroadcastV1) (t : TrailingShape) :
    (Wire.base.fits v1 = true → t.Fits → ∃ bytes, t.encodeAfter v1 = .ok bytes) ∧
      ∀ bytes, t.encodeAfter v1 = .ok bytes →
        StateBroadcast.decode bytes = .ok (t.received v1) := by
  refine ⟨fun hv ht => ht.encodeAfter hv, fun bytes h => ?_⟩
  rw [decode_encodeAfter h, assemble_sections]

/-- A gateway of one character, whose length byte is a tag, and the newest shape. -/
theorem decode_every_era_shortest_newest :
    let v1 : StateBroadcastV1 := ⟨1, "edge", 7, (GridStateSnapshot.new "edge").toRecord⟩
    let providers : ExtTreeMap String ProviderMetadata := ∅
    let frame : ProviderStateFrame := .v2 ⟨true, providers.insert "n/edge/p" ⟨["t"], some "u"⟩⟩
    (∃ bytes, (bareGateway "a").encodeAfter v1 = .ok bytes ∧
      StateBroadcast.decode bytes = .ok { plain v1 with gatewayAddress := some "a" }) ∧
    (∃ bytes, (framed {} none frame).encodeAfter v1 = .ok bytes ∧
      StateBroadcast.decode bytes = .ok ((framed {} none frame).received v1)) := by
  intro v1 providers frame
  have hbr := decode_every_era v1 (bareGateway "a")
  have hfr := decode_every_era v1 (framed {} none frame)
  have hft : (framed {} none frame).Fits := by
    have hpy : Wire.providerStateV2.fits ⟨true, providers.insert "n/edge/p" ⟨["t"], some "u"⟩⟩ =
      true := rfl
    refine ⟨rfl, hpy, fun payload h => ?_⟩
    cases h
    decide
  obtain ⟨bare, hby⟩ := hbr.1 rfl rfl
  obtain ⟨newest, hnw⟩ := hfr.1 rfl hft
  exact ⟨⟨bare, hby, hbr.2 bare hby⟩, ⟨newest, hnw, hfr.2 newest hnw⟩⟩

end TrailingShape

end PraxisGrid
