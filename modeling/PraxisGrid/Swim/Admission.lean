/-
PraxisGrid/Swim/Admission.lean

What an admitted broadcast is known to carry.

`admission` has three ways to accept: a key set pinned for the broadcast's own grid and
origin, the certificate bootstrap of a strict grid, and the legacy path where neither its
label nor its origin nor any strict grid asks for a grid key (`admission_cases`).  So what is
merged either verified under a key pinned for its scope, or its scope has no pin and no grid is
strict (`Admits.provenance`).
-/
import PraxisGrid.Swim.Outcome

namespace PraxisGrid

open Std OrdMap Bincode

/-- The broadcast's signature verifies under `key`. -/
def StateBroadcast.VerifiesUnder (c : Crypto) (b : StateBroadcast) (key : Bytes) : Prop :=
  ∃ signature message, b.signature = some signature ∧ b.signableBytes = .ok message ∧
    c.verifyEcdsaP256 key message signature = true

namespace TrustStore

/-- The key set pinned for a scope, if there is one. -/
def scopedPin (t : TrustStore) (scope : ProviderStateScope) : Option (List Bytes) :=
  scope.gridId.bind fun grid => t.pin (.grid grid scope.originSite)

def strictScope (t : TrustStore) (scope : ProviderStateScope) : Bool :=
  scope.gridId.any t.isStrict

end TrustStore

namespace StateBroadcastHandler

variable {c : Crypto} {h : StateBroadcastHandler} {now : Clock} {b : StateBroadcast}

/-- **The ways to be admitted**: signed by the keys pinned for the scope, by certificate
bootstrap, or on the legacy path. -/
theorem admission_cases {way : Admission} (hadm : h.admission b = .ok way) :
    (∃ keys, h.trust.scopedPin b.providerStateScope = some keys ∧ keys ≠ [] ∧
        way = .signed keys) ∨
      (h.trust.scopedPin b.providerStateScope = none ∧
        h.trust.strictScope b.providerStateScope = true ∧ b.isCertOnly = true ∧
        way = .unsigned) ∨
      (h.trust.scopedPin b.providerStateScope = none ∧
        h.trust.strictScope b.providerStateScope = false ∧
        h.trust.pinnedInAnyGrid b.originSite = false ∧
        (b.carriesGridState = true → h.trust.anyStrict = false)) := by
  have hsc : (b.gridId.bind fun grid => h.trust.pin (.grid grid b.originSite)) =
      h.trust.scopedPin b.providerStateScope := rfl
  have hstr : b.gridId.any h.trust.isStrict = h.trust.strictScope b.providerStateScope := rfl
  by_cases hhl : h.trust.stateAdmissionHeld = true
  case pos => simp [admission, hhl] at hadm
  simp only [admission, hsc, hstr, hhl, Bool.false_eq_true, if_false] at hadm
  rcases hpin : h.trust.scopedPin b.providerStateScope with - | (- | ⟨key, keys⟩)
  · right
    simp only [hpin] at hadm
    split_ifs at hadm with hcr hlg
    · rw [Bool.and_eq_true] at hcr
      exact .inl ⟨rfl, hcr.1, hcr.2, (Except.ok.inj hadm).symm⟩
    · simp only [Bool.or_eq_true, not_or, Bool.not_eq_true, Bool.and_eq_true, not_and] at hlg
      exact .inr ⟨rfl, hlg.1.1, hlg.1.2, hlg.2⟩
  · simp only [hpin] at hadm
    cases hadm
  · simp only [hpin] at hadm
    exact .inl ⟨_, rfl, List.cons_ne_nil key keys, (Except.ok.inj hadm).symm⟩

/-- A broadcast that passes with a required signature carries one under an admitted key,
and names only networks bound to its grid when it carries provider state. -/
theorem verified_of_signed {keys : List Bytes} (hadm : h.admission b = .ok (.signed keys))
    (hok : h.verifySignatureIfPinned c now b = .ok ()) :
    (∃ key ∈ keys, b.VerifiesUnder c key) ∧
      ∀ grid, b.gridId = some grid → b.carriesProviderState = true →
        h.validateProviderNetworks grid (namedNetworks b) = .ok () := by
  simp only [verifySignatureIfPinned, hadm, ok_bind] at hok
  rcases hsig : b.signature with - | signature
  · simp [hsig] at hok
  · rcases htm : b.signedAtMs with - | signedAtMs
    · simp [hsig, htm] at hok
    · rcases hby : b.signableBytes with e | message
      · simp [hsig, htm, hby] at hok
      · simp only [hsig, htm, hby] at hok
        by_cases hvr : (keys.any fun key => c.verifyEcdsaP256 key message signature) = true
        case neg => simp [hvr] at hok
        by_cases hfr : withinFreshnessWindow now signedAtMs = true
        case neg => simp [hvr, hfr] at hok
        simp only [hvr, hfr, Bool.not_true, Bool.false_eq_true, if_false] at hok
        obtain ⟨key, hkey, hvr⟩ := List.any_eq_true.mp hvr
        refine ⟨⟨key, hkey, signature, message, hsig, hby, hvr⟩, ?_⟩
        intro grid hgr hcar
        simpa [hgr, hcar] using hok

theorem validateProviderNetworks_ok {grid : String} {networks : List String}
    (hok : h.validateProviderNetworks grid networks = .ok ()) :
    ∃ allowed, h.trust.providerNetwork grid = some allowed ∧ ∀ n ∈ networks, n = allowed := by
  unfold validateProviderNetworks at hok
  rcases hbn : h.trust.providerNetwork grid with - | allowed
  · simp [hbn] at hok
  · simp only [hbn] at hok
    rcases hfn : networks.find? (fun network => network != allowed) with - | network
    · refine ⟨allowed, rfl, fun n hn => ?_⟩
      simpa using List.find?_eq_none.mp hfn n hn
    · simp [hfn] at hok

/-- **Provenance of merged grid state.**  A broadcast with grid state is admitted under a
key pinned for its scope, with its networks bound to the grid, or else its scope has no
pin and no grid is strict. -/
theorem Admits.provenance {h₁ : StateBroadcastHandler} (hadm : h.Admits c now b h₁)
    (hmt : b.isMetadataOnly = false) :
    (∃ grid keys key, b.gridId = some grid ∧
        h.trust.pin (.grid grid b.originSite) = some keys ∧ key ∈ keys ∧ b.VerifiesUnder c key ∧
        (b.carriesProviderState = true →
          ∃ allowed, h.trust.providerNetwork grid = some allowed ∧
            ∀ p ∈ b.ownProviders, p.networkId = allowed)) ∨
      (h.trust.scopedPin b.providerStateScope = none ∧ h.trust.anyStrict = false) := by
  have hok := hadm.verified
  rcases hcs : h.admission b with e | way
  · rw [verifySignatureIfPinned, hcs] at hok
    cases hok
  rcases admission_cases hcs with ⟨keys, hpin, -, rfl⟩ | ⟨-, -, hcr, -⟩ | ⟨hpin, -, -, hstr⟩
  · left
    obtain ⟨⟨key, hkey, hvr⟩, hnt⟩ := verified_of_signed hcs hok
    obtain ⟨grid, hgr, hpin⟩ := Option.bind_eq_some_iff.mp hpin
    refine ⟨grid, keys, key, hgr, hpin, hkey, hvr, fun hcar => ?_⟩
    obtain ⟨allowed, hbn, hall⟩ := validateProviderNetworks_ok (hnt grid hgr hcar)
    refine ⟨allowed, hbn, fun p hp => hall _ ?_⟩
    exact List.mem_append_left _ (List.mem_map.mpr ⟨p, hp, rfl⟩)
  · -- a certificate-only broadcast carries no grid state
    simp only [StateBroadcast.isCertOnly, Bool.and_eq_true, hmt, Bool.false_eq_true,
      and_false] at hcr
  · exact .inr ⟨hpin, hstr (by rw [StateBroadcast.carriesGridState, hmt]; rfl)⟩

end StateBroadcastHandler

end PraxisGrid
