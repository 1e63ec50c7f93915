/-
PraxisGrid/Swim/Trust.lean

What a handler trusts: the cryptographic operations, the clock, and the store of pinned
signing keys, strict grids and network bindings of `crates/swim/src/state_broadcast.rs`.

Signature verification and SHA-256 are parameters (`Crypto`); nothing is assumed of them.
The clock is a number of nanoseconds since the epoch.  A handler reads it once per message.
-/
import PraxisGrid.Swim.Wire

namespace PraxisGrid

open Std OrdMap Bincode Saturate

/-! ### Cryptography and clock -/

/-- The cryptographic operations of the node. -/
structure Crypto where
  /-- Whether `signature` is valid for `message` under the raw public key `key`. -/
  verifyEcdsaP256 : (key message signature : Bytes) → Bool
  /-- SHA-256. -/
  sha256 : Bytes → Vector UInt8 32

/-- A node whose verifier accepts every signature. -/
def Scenario.crypto : Crypto := ⟨fun _ _ _ => true, fun _ => Vector.replicate 32 0⟩

/-- Nanoseconds since the epoch. -/
abbrev Clock := Nat

def wallMs (now : Clock) : UInt64 := saturate (now / 1000000)

/-- Oldest accepted age of a signed message, in milliseconds. -/
def maxBroadcastAgeMs : UInt64 := 5 * 60 * 1000

/-- Furthest accepted lead of a signing timestamp, in milliseconds. -/
def maxClockSkewAheadMs : UInt64 := 30000

def withinFreshnessWindow (now : Clock) (signedAtMs : UInt64) : Bool :=
  satSub (wallMs now) signedAtMs ≤ maxBroadcastAgeMs
    && satSub signedAtMs (wallMs now) ≤ maxClockSkewAheadMs

/-- Clock skew tolerated in leased revisions, in seconds. -/
def maxLeaseSkew : Nat := 600

def revisionLeaseSpan : UInt64 := 256

/-- Highest leased revision a peer accepts at `nowMs`. -/
def maxLeasedRevision (nowMs : UInt64) : UInt64 :=
  satAdd (satAdd nowMs revisionLeaseSpan) (saturate (maxLeaseSkew * 1000))

/-- Whether a held revision outranks an incoming one; a held one past `cap` yields to any
within it. -/
def outranks (held incoming cap : UInt64) : Bool :=
  incoming < held && (held ≤ cap || cap < incoming)

theorem outranks_eq_true_iff {held incoming cap : UInt64} :
    outranks held incoming cap = true ↔ incoming < held ∧ (held ≤ cap ∨ cap < incoming) := by
  simp [outranks]

/-! ### Pins -/

/-- Whose signing keys a pin holds: a site's from before grid scoping, or a site's within
one grid.  An empty set within a grid is a revoked identity. -/
inductive PinKey
  | site (site : String)
  | grid (grid site : String)
deriving DecidableEq

namespace PinKey

/-- The names in the key; their number tells the variants apart. -/
def path : PinKey → List String
  | site s => [s]
  | grid g s => [g, s]

instance : Ord PinKey := ⟨compareOn path⟩

instance : TransOrd PinKey := inferInstanceAs (TransCmp (compareOn path))

instance : LawfulEqOrd PinKey := lawfulEqCmp_compareOn (f := path) (by
  rintro (_ | _) (_ | _) h <;> simp_all [path])

/-- Whether the key is a pin of `s` in some grid. -/
def inGridOf (s : String) : PinKey → Bool
  | site _ => false
  | grid _ s' => s' == s

/-- Whether the key is a pin within grid `g`. -/
def ofGrid (g : String) : PinKey → Bool
  | site _ => false
  | grid g' _ => g' == g

end PinKey

/-- Most keys retained in one pin. -/
def maxPinnedKeysPerOrigin : Nat := 2

/-! ### The trust store -/

/-- Accepted public keys, the grids that require them and the provider networks bound to
grids. -/
structure TrustStore where
  providerNetworks : ExtTreeMap String String := ∅
  pins : ExtTreeMap PinKey (List Bytes) := ∅
  strict : ExtTreeSet String := ∅
  stateAdmissionHeld : Bool := false

namespace TrustStore

/-- The keys pinned for `key`. -/
def pin (t : TrustStore) (key : PinKey) : Option (List Bytes) := t.pins[key]?

/-- Pin `keys` for `key`, replacing any previous pin. -/
def setPin (t : TrustStore) (key : PinKey) (keys : List Bytes) : TrustStore :=
  { t with pins := t.pins.insert key keys }

/-- Drop the pin for `key`. -/
def removePin (t : TrustStore) (key : PinKey) : TrustStore :=
  { t with pins := t.pins.erase key }

/-- Whether `grid` refuses unsigned state. -/
def isStrict (t : TrustStore) (grid : String) : Bool := t.strict.contains grid

def holdStateAdmission (t : TrustStore) : TrustStore := { t with stateAdmissionHeld := true }

/-- Resume state broadcasts. -/
def openStateAdmission (t : TrustStore) : TrustStore := { t with stateAdmissionHeld := false }

/-- Make `grid` refuse unsigned state. -/
def enforce (t : TrustStore) (grid : String) : TrustStore :=
  { t with strict := t.strict.insert grid }

/-- The provider network authorized for `grid`. -/
def providerNetwork (t : TrustStore) (grid : String) : Option String := t.providerNetworks[grid]?

def bindProviderNetwork (t : TrustStore) (grid network : String) : TrustStore :=
  { t with providerNetworks := t.providerNetworks.insert grid network }

/-- Drop a grid's strictness, network binding and pins. -/
def forgetGrid (t : TrustStore) (grid : String) : TrustStore :=
  { t with
    providerNetworks := t.providerNetworks.erase grid
    strict := t.strict.erase grid
    pins := retain t.pins fun key _ => !key.ofGrid grid }

/-- Whether `site` has a pin in any grid, an empty one included. -/
def pinnedInAnyGrid (t : TrustStore) (site : String) : Bool :=
  t.pins.keys.any (PinKey.inGridOf site)

/-- Whether any grid refuses unsigned state. -/
def anyStrict (t : TrustStore) : Bool := !t.strict.isEmpty

/-- Whether `site` holds a usable key in `grid`. -/
def verifiedGrid (t : TrustStore) (grid : Option String) (site : String) : Bool :=
  match grid with
  | none => false
  | some grid => (t.pin (.grid grid site)).any fun keys => !keys.isEmpty

/-! ### What the operations do -/

@[simp] theorem pin_setPin (t : TrustStore) (key : PinKey) (keys : List Bytes) (k : PinKey) :
    (t.setPin key keys).pin k = if key = k then some keys else t.pin k :=
  getElem?_insert ..

@[simp] theorem pin_removePin (t : TrustStore) (key k : PinKey) :
    (t.removePin key).pin k = if key = k then none else t.pin k :=
  getElem?_erase ..

@[simp] theorem pin_forgetGrid (t : TrustStore) (grid : String) (k : PinKey) :
    (t.forgetGrid grid).pin k = if k.ofGrid grid then none else t.pin k := by
  unfold pin forgetGrid
  rw [getElem?_retain_key]
  cases k.ofGrid grid <;> rfl

@[simp] theorem isStrict_forgetGrid (t : TrustStore) (grid g : String) :
    (t.forgetGrid grid).isStrict g = (decide (grid ≠ g) && t.isStrict g) := by
  rw [Bool.eq_iff_iff]
  simp only [isStrict, forgetGrid, Bool.and_eq_true, decide_eq_true_eq,
    ExtTreeSet.contains_iff_mem, mem_erase]

@[simp] theorem isStrict_enforce (t : TrustStore) (grid g : String) :
    (t.enforce grid).isStrict g = (decide (grid = g) || t.isStrict g) := by
  rw [Bool.eq_iff_iff]
  simp only [isStrict, enforce, Bool.or_eq_true, decide_eq_true_eq,
    ExtTreeSet.contains_iff_mem, mem_insert]

@[simp] theorem providerNetwork_forgetGrid (t : TrustStore) (grid g : String) :
    (t.forgetGrid grid).providerNetwork g = if grid = g then none else t.providerNetwork g :=
  getElem?_erase ..

@[simp] theorem providerNetwork_bindProviderNetwork (t : TrustStore) (grid network g : String) :
    (t.bindProviderNetwork grid network).providerNetwork g =
      if grid = g then some network else t.providerNetwork g :=
  getElem?_insert ..

theorem pinnedInAnyGrid_iff {t : TrustStore} {site : String} :
    t.pinnedInAnyGrid site = true ↔ ∃ grid keys, t.pin (.grid grid site) = some keys := by
  unfold pinnedInAnyGrid pin
  rw [List.any_eq_true]
  constructor
  · rintro ⟨key, hkey, hst⟩
    cases key with
    | site s => cases hst
    | grid g s =>
      obtain rfl : s = site := beq_iff_eq.mp hst
      exact ⟨g, mem_keys_iff.mp hkey⟩
  · rintro ⟨grid, hky⟩
    exact ⟨.grid grid site, mem_keys_iff.mpr hky, beq_self_eq_true site⟩

theorem anyStrict_iff {t : TrustStore} :
    t.anyStrict = true ↔ ∃ grid, t.isStrict grid = true := by
  simp only [anyStrict, isStrict, Bool.not_eq_true', isEmpty_eq_false_iff,
    ExtTreeSet.contains_iff_mem]

theorem verifiedGrid_eq_true_iff {t : TrustStore} {grid : Option String} {site : String} :
    t.verifiedGrid grid site = true ↔
      ∃ g keys, grid = some g ∧ t.pin (.grid g site) = some keys ∧ keys ≠ [] := by
  cases grid with
  | none => simp [verifiedGrid]
  | some g => simp [verifiedGrid, Option.any_eq_true]

end TrustStore

end PraxisGrid
