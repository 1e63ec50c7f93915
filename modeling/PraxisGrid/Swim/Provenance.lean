/-
PraxisGrid/Swim/Provenance.lean

Provenance of the records of signed grids.

The handler does not remember which broadcast wrote a record.  A `Traced` run carries it
along: after each operation, a key whose record the received broadcast supplied has this
broadcast as its last writer.  The trace only observes; its handler is the handler of the
plain run (`Traced.handler_run`).

The invariant (`Traced.Signed`) speaks of the scopes of strict grids and those with a pin.  What
removes a key from such a scope, or makes a scope one, drops what the scope owns first.
-/
import PraxisGrid.Swim.Ownership

namespace PraxisGrid

open Std OrdMap Bincode Scenario StateBroadcastHandler Option TrustStore RetainedOrigins

/-! ### Last writers -/

/-- The broadcast that wrote the record under a key in one operation: it carries provider
state, it was merged, and the record is one of its own. -/
def NodeOp.writer (c : Crypto) (h : StateBroadcastHandler) (k : String) :
    NodeOp → Option StateBroadcast
  | .receiveItem now data =>
    if ModelInventoryBroadcast.recognizes data then none
    else
      match StateBroadcast.decode data with
      | .error _ => none
      | .ok b =>
        match h.receiveStateBroadcast c now b with
        | (.ok (some _), h') =>
          if b.carriesProviderState && h'.state.providers[k]?.any
              fun p => (b.ownProviders.map b.stamp).contains p then some b
          else none
        | _ => none
  | _ => none

/-- A handler with the last writer of each key. -/
structure Traced where
  handler : StateBroadcastHandler
  writer : String → Option StateBroadcast

namespace Traced

/-- A node at its start; nothing is written yet. -/
def init (siteId : String) (maxOrigins : Nat) : Traced :=
  ⟨.withCapacity siteId maxOrigins, fun _ => none⟩

/-- One operation, with the writers it makes known. -/
def step (c : Crypto) (t : Traced) (op : NodeOp) : Traced :=
  ⟨t.handler.step c op, fun k => (op.writer c t.handler k).or (t.writer k)⟩

def run (c : Crypto) (t : Traced) (ops : List NodeOp) : Traced := Run.run (step c) t ops

theorem handler_run (c : Crypto) (t : Traced) (ops : List NodeOp) :
    (t.run c ops).handler = t.handler.run c ops :=
  Run.run_map handler fun _ _ => rfl

end Traced

/-! ### Where a signature is due -/

namespace TrustStore

/-- A signature is due from the scope: its grid is strict, or it has a pin. -/
def Guarded (t : TrustStore) (scope : ProviderStateScope) : Prop :=
  t.strictScope scope = true ∨ t.scopedPin scope ≠ none

theorem scopedPin_setPin_grid (t : TrustStore) (grid site : String) (keys : List Bytes) :
    (t.setPin (.grid grid site) keys).scopedPin scope =
      if scope = ⟨site, some grid⟩ then some keys else t.scopedPin scope := by
  rcases scope with ⟨s, - | g⟩
  · simp [scopedPin]
  · simp only [scopedPin, bind_some, pin_setPin, PinKey.grid.injEq,
      ProviderStateScope.mk.injEq, some.injEq]
    exact if_congr (by constructor <;> rintro ⟨rfl, rfl⟩ <;> exact ⟨rfl, rfl⟩) rfl rfl

theorem scopedPin_removePin_grid (t : TrustStore) (grid site : String) :
    (t.removePin (.grid grid site)).scopedPin scope =
      if scope = ⟨site, some grid⟩ then none else t.scopedPin scope := by
  rcases scope with ⟨s, - | g⟩
  · simp [scopedPin]
  · simp only [scopedPin, bind_some, pin_removePin, PinKey.grid.injEq,
      ProviderStateScope.mk.injEq, some.injEq]
    exact if_congr (by constructor <;> rintro ⟨rfl, rfl⟩ <;> exact ⟨rfl, rfl⟩) rfl rfl

theorem scopedPin_setPin_site (t : TrustStore) (site : String) (keys : List Bytes) :
    (t.setPin (.site site) keys).scopedPin = t.scopedPin := by
  funext scope
  rcases scope with ⟨s, - | g⟩ <;> simp [scopedPin]

theorem scopedPin_removePin_site (t : TrustStore) (site : String) :
    (t.removePin (.site site)).scopedPin = t.scopedPin := by
  funext scope
  rcases scope with ⟨s, - | g⟩ <;> simp [scopedPin]

theorem scopedPin_forgetGrid (t : TrustStore) (grid : String) :
    (t.forgetGrid grid).scopedPin scope =
      if scope.gridId = some grid then none else t.scopedPin scope := by
  rcases scope with ⟨s, - | g⟩
  · simp [scopedPin]
  · simp [scopedPin, PinKey.ofGrid]

theorem strictScope_forgetGrid (t : TrustStore) (grid : String) :
    (t.forgetGrid grid).strictScope scope =
      (decide (scope.gridId ≠ some grid) && t.strictScope scope) := by
  rcases scope with ⟨s, - | g⟩
  · simp [strictScope]
  · simp [strictScope, eq_comm]

variable {scope : ProviderStateScope}

/-- Forgetting a grid leaves no signature due in it. -/
theorem not_guarded_forgetGrid (t : TrustStore) {grid : String} (hgr : scope.gridId = some grid) :
    ¬ (t.forgetGrid grid).Guarded scope := by
  simp [Guarded, strictScope_forgetGrid, scopedPin_forgetGrid, hgr]

/-- What is due from a scope under `t'` was due under `t`, and no key of it was dropped. -/
def Extends (t t' : TrustStore) (scope : ProviderStateScope) : Prop :=
  t'.Guarded scope → t.Guarded scope ∧
    ∀ keys, t.scopedPin scope = some keys → ∃ keys', t'.scopedPin scope = some keys' ∧ keys ⊆ keys'

theorem extends_of_eq {t t' : TrustStore} (hstr : t'.strictScope scope = t.strictScope scope)
    (hpin : t'.scopedPin scope = t.scopedPin scope) : t.Extends t' scope := by
  intro hg
  rw [Guarded, hstr, hpin] at hg
  exact ⟨hg, fun keys hky => ⟨keys, hpin.trans hky, List.Subset.refl keys⟩⟩

theorem extends_forgetGrid (t : TrustStore) (grid : String) :
    t.Extends (t.forgetGrid grid) scope := by
  by_cases hgr : scope.gridId = some grid
  · exact fun hg => absurd hg (t.not_guarded_forgetGrid hgr)
  · refine extends_of_eq ?_ ?_
    · simp [strictScope_forgetGrid, hgr]
    · rw [scopedPin_forgetGrid, if_neg hgr]

end TrustStore

/-! ### The invariant -/

/-- The writer spoke for `scope`, supplied the record `p`, and verified under a key still
pinned for the scope. -/
structure SignedBy (c : Crypto) (t : TrustStore) (scope : ProviderStateScope)
    (p : ProviderState) (b : StateBroadcast) : Prop where
  scope_eq : b.providerStateScope = scope
  supplied : p ∈ b.ownProviders.map b.stamp
  verified : ∃ keys key, t.scopedPin scope = some keys ∧ key ∈ keys ∧ b.VerifiesUnder c key

variable {p : ProviderState}

theorem SignedBy.extends {c : Crypto} {t t' : TrustStore} {scope : ProviderStateScope}
    {b : StateBroadcast} (hs : SignedBy c t scope p b)
    (hky : ∀ keys, t.scopedPin scope = some keys →
      ∃ keys', t'.scopedPin scope = some keys' ∧ keys ⊆ keys') : SignedBy c t' scope p b := by
  obtain ⟨keys, key, hpin, hkey, hvr⟩ := hs.verified
  obtain ⟨keys', hpin', hsub⟩ := hky keys hpin
  exact ⟨hs.scope_eq, hs.supplied, keys', key, hpin', hsub hkey, hvr⟩

namespace Traced

variable {c : Crypto} {t : Traced} {store : TrustStore}

/-- Where a signature is due, the last writer of a record verified under a current key. -/
def Signed (c : Crypto) (t : Traced) : Prop :=
  ∀ ⦃k : String⦄ ⦃p : ProviderState⦄ ⦃owner : ProviderOwner⦄,
    t.handler.state.providers[k]? = some p →
    t.handler.retained.providerOwners[providerIdentity p]? = some owner →
    t.handler.trust.Guarded owner.scope →
      ∃ b, t.writer k = some b ∧ SignedBy c t.handler.trust owner.scope p b

section

variable (hi : t.Signed c)
include hi

/-- Fewer records with the same writers, under a policy that drops no key of their scopes. -/
theorem Signed.mono {h' : StateBroadcastHandler}
    (hrc : ∀ {k : String} {p : ProviderState} {owner : ProviderOwner},
      h'.state.providers[k]? = some p →
      h'.retained.providerOwners[providerIdentity p]? = some owner →
        t.handler.state.providers[k]? = some p ∧
          t.handler.retained.providerOwners[providerIdentity p]? = some owner ∧
          t.handler.trust.Extends h'.trust owner.scope) : Signed c ⟨h', t.writer⟩ := by
  intro k p owner hp ho hg
  obtain ⟨hp, ho, hext⟩ := hrc hp ho
  obtain ⟨hg, hky⟩ := hext hg
  obtain ⟨b, hw, hs⟩ := hi hp ho hg
  exact ⟨b, hw, hs.extends hky⟩

theorem Signed.trust (hext : ∀ scope, t.handler.trust.Extends store scope) :
    Signed c ⟨{ t.handler with trust := store }, t.writer⟩ := by
  refine hi.mono fun {k p owner} hp ho => ?_
  exact ⟨hp, ho, hext _⟩

theorem Signed.removeOrigin (origin : String) (hext : ∀ scope, t.handler.trust.Extends store scope)
    :
    Signed c ⟨{ t.handler.removeOrigin origin with trust := store }, t.writer⟩ := by
  refine hi.mono fun {k p owner} hp ho => ?_
  exact ⟨(providers_removeOrigin_eq_some.mp hp).1,
    owner_of_removeOrigin ho, hext _⟩

/-- A grid is removed before its policy changes: the scopes left are not the ones of the
removal. -/
theorem Signed.removeGrid (gridId : String) (origin : Option String)
    (hext : ∀ scope, selectsScope gridId origin scope = false →
      t.handler.trust.Extends store scope) :
    Signed c ⟨{ t.handler.removeGrid gridId origin with trust := store }, t.writer⟩ := by
  refine hi.mono fun {k p owner} hp ho => ?_
  obtain ⟨ho, hkp⟩ := owner_of_removeGrid ho
  refine ⟨(providers_removeGrid_eq_some.mp hp).1, ho, hext _ ?_⟩
  rcases hsel : selectsScope gridId origin owner.scope with - | -
  · rfl
  · obtain ⟨hgr, horig⟩ := (selectsScope_eq_true_iff gridId origin).mp hsel
    rw [(removesOwner_eq_true_iff gridId origin).mpr ⟨horig, .inl hgr⟩] at hkp
    cases hkp

/-! ### Steps -/

theorem Signed.clearPin (gridId origin : String)
    (hstr : ∀ scope, store.strictScope scope = t.handler.trust.strictScope scope)
    (hpin : ∀ scope : ProviderStateScope, scope ≠ ⟨origin, some gridId⟩ →
      store.scopedPin scope = t.handler.trust.scopedPin scope) :
    Signed c ⟨{ t.handler.removeGrid gridId (some origin) with trust := store }, t.writer⟩ := by
  refine hi.removeGrid gridId (some origin) fun scope hsel => ?_
  refine extends_of_eq (hstr scope) (hpin scope ?_)
  rintro rfl
  simp [selectsScope] at hsel

theorem Signed.pinOriginForGrid (gridId origin : String) (keys : List Bytes) :
    Signed c ⟨t.handler.pinOriginForGrid gridId origin keys, t.writer⟩ := by
  -- a scope other than the pinned one is not affected
  have hot : ∀ scope : ProviderStateScope, scope ≠ ⟨origin, some gridId⟩ →
      (t.handler.trust.setPin (.grid gridId origin) keys).scopedPin scope =
        t.handler.trust.scopedPin scope := by
    intro scope hne
    rw [scopedPin_setPin_grid, if_neg hne]
  simp only [StateBroadcastHandler.pinOriginForGrid]
  split_ifs with hmn hpr
  · exact hi
  · exact hi.clearPin gridId origin (fun _ => rfl) hot
  · -- the previous keys are all kept
    refine hi.trust fun scope => ?_
    by_cases hsc : scope = ⟨origin, some gridId⟩
    · subst hsc
      intro _
      simp only [Bool.or_eq_true, not_or, Bool.not_eq_true, all_eq_false,
        any_eq_false] at hpr
      obtain ⟨⟨⟨previous, hpv, -⟩, hkp⟩, -⟩ := hpr
      have hpin : t.handler.trust.scopedPin ⟨origin, some gridId⟩ = some previous := hpv
      refine ⟨.inr (by simp [hpin]), fun keys' hky' => ⟨keys, ?_, fun key hkey => ?_⟩⟩
      · rw [scopedPin_setPin_grid, if_pos rfl]
      · obtain rfl : previous = keys' := some.inj (hpin.symm.trans hky')
        simpa using List.any_eq_false.mp (hkp previous hpv) key hkey
    · exact extends_of_eq rfl (hot scope hsc)

theorem Signed.pinOrigin (origin : String) (keys : List Bytes) :
    Signed c ⟨t.handler.pinOrigin origin keys, t.writer⟩ := by
  -- a site's own pin guards no scope
  have hext : ∀ scope, t.handler.trust.Extends
      (t.handler.trust.setPin (.site origin) keys) scope := fun scope =>
    extends_of_eq rfl
      (congrFun (t.handler.trust.scopedPin_setPin_site origin keys) scope)
  simp only [StateBroadcastHandler.pinOrigin]
  split_ifs
  · exact hi
  · exact hi.removeOrigin origin hext
  · exact hi.trust hext

theorem Signed.enforceSignedGrid (gridId networkName : String) :
    Signed c ⟨t.handler.enforceSignedGrid gridId networkName, t.writer⟩ := by
  simp only [StateBroadcastHandler.enforceSignedGrid]
  split_ifs
  · exact hi
  · refine hi.removeGrid gridId none fun scope hsel => ?_
    have hgr : scope.gridId ≠ some gridId := by
      simpa [selectsScope] using hsel
    refine extends_of_eq ?_ ?_
    · rcases scope with ⟨site, - | grid⟩
      · rfl
      · have hne : gridId ≠ grid := fun heq => hgr (by rw [heq])
        have hstr : ((t.handler.trust.forgetGrid gridId).enforce gridId).isStrict grid =
            t.handler.trust.isStrict grid := by simp [hne]
        exact hstr
    · exact (t.handler.trust.scopedPin_forgetGrid gridId).trans (if_neg hgr)

end

end Traced

/-! ### Received items -/

namespace StateBroadcastHandler

variable {c : Crypto} {h : StateBroadcastHandler} {now : Clock} {data : Bytes}

variable {b : StateBroadcast} {h₁ : StateBroadcastHandler}

/-- **A record after a received item** was there with the same owner, or the item is a
merged broadcast that supplied it. -/
theorem receiveItem_record {k : String} {owner : ProviderOwner}
    (hp : (h.receiveItem c now data).2.state.providers[k]? = some p)
    (ho : (h.receiveItem c now data).2.retained.providerOwners[providerIdentity p]? = some owner) :
    (h.state.providers[k]? = some p ∧
        h.retained.providerOwners[providerIdentity p]? = some owner) ∨
      ∃ b h₁, h.Merges c now data b h₁ ∧
        p ∈ b.acceptedProviders ((h₁.offerMetadata now b).replacedNetworks b) := by
  -- room made for the origin only drops records and owners
  have hrm : ∀ {incoming h₁}, h.makeRoomFor incoming = some h₁ →
      h₁.state.providers[k]? = some p →
      h₁.retained.providerOwners[providerIdentity p]? = some owner →
      h.state.providers[k]? = some p ∧
        h.retained.providerOwners[providerIdentity p]? = some owner := by
    intro incoming h₁ hrm hp₁ ho₁
    rcases makeRoomFor_cases hrm with ⟨rfl, -⟩ | ⟨v, -, -, -, -, rfl⟩
    · exact ⟨hp₁, ho₁⟩
    · exact ⟨(providers_removeOrigin_eq_some.mp hp₁).1, owner_of_removeOrigin ho₁⟩
  rcases receiveItem_cases with
    heq | ⟨b, h₁, hkn, hdec, hadm, heq⟩ | ⟨f, h₁, -, -, hadm, heq⟩
  · rw [heq] at hp ho
    exact .inl ⟨hp, ho⟩
  · rw [heq] at hp ho
    rcases settle_cases h₁ now b with ⟨hs, -⟩ | hs | ⟨-, hfr, hs⟩
    · rw [hs] at hp ho
      exact .inl (hrm hadm.room hp ho)
    · rw [hs] at hp ho
      exact .inl (hrm hadm.room hp ho)
    · rw [hs] at hp ho
      rcases providers_merged_cases hp with ⟨hcar, hacc, -⟩ | ⟨hp, hrep⟩
      · exact .inr ⟨b, h₁, ⟨hkn, hdec, hcar, hadm, hfr⟩, hacc⟩
      · rw [providerOwners_merged_of_not_replaces hrep] at ho
        exact .inl (hrm hadm.room hp ho)
  · rw [heq, settleFrame] at hp ho
    split_ifs at hp ho <;> exact .inl (hrm hadm.room hp ho)

/-- The owner of a record that a merged broadcast supplied. -/
theorem Merges.owner (hi : h.Authorized) (hm : h.Merges c now data b h₁)
    (hp : p ∈ b.ownProviders.map b.stamp) :
    (h.receiveItem c now data).2.retained.providerOwners[providerIdentity p]? =
      some ⟨b.providerStateScope, (h₁.offerMetadata now b).mergesVerified b⟩ := by
  obtain ⟨q, hq, rfl⟩ := List.mem_map.mp hp
  rw [hm.receiveItem]
  refine providerOwners_merged_of_incoming hm.carries
    (StateBroadcast.mem_incomingIdentities.mpr ⟨q, hq, ?_, rfl⟩)
  exact hi.mem_replacedNetworks hm.admits hm.metadataOnly hm.carries hq

end StateBroadcastHandler

namespace NodeOp

variable {c : Crypto} {h : StateBroadcastHandler} {k : String} {b : StateBroadcast}

/-- **When an operation writes a key**: it receives a broadcast that is merged, and the
record under the key is one of its own. -/
theorem writer_eq_some_iff {op : NodeOp} :
    op.writer c h k = some b ↔
      ∃ now data h₁ p, op = .receiveItem now data ∧ h.Merges c now data b h₁ ∧
        (h.receiveItem c now data).2.state.providers[k]? = some p ∧
        p ∈ b.ownProviders.map b.stamp := by
  constructor
  · intro hw
    cases op with
    | receiveItem now data =>
      simp only [writer] at hw
      split_ifs at hw with hkn
      split at hw
      · cases hw
      rename_i b' hdec
      split at hw
      · rename_i key h' hps
        split_ifs at hw with hcar
        obtain rfl := some.inj hw
        rw [Bool.and_eq_true, any_eq_true] at hcar
        obtain ⟨hcar, p, hp, hown⟩ := hcar
        obtain ⟨h₁, hadm, hfr⟩ := (receiveStateBroadcast_passes_iff
          (StateBroadcast.isMetadataOnly_eq_false_of_carriesProviderState hcar)).mp
          ⟨key, congrArg Prod.fst hps⟩
        have hm : h.Merges c now data b' h₁ :=
          ⟨by simpa using hkn, hdec, hcar, hadm, hfr⟩
        refine ⟨now, data, h₁, p, rfl, hm, ?_, List.contains_iff_mem.mp hown⟩
        rw [hm.receiveItem, ← hm.receiveStateBroadcast, hps]
        exact hp
      · cases hw
    | _ => cases hw
  · rintro ⟨now, data, h₁, p, rfl, hm, hp, hown⟩
    obtain ⟨key, hps⟩ := (receiveStateBroadcast_passes_iff
      hm.metadataOnly).mpr ⟨h₁, hm.admits, hm.fresh⟩
    have hpr : h.receiveStateBroadcast c now b =
        (.ok (some key), (h.receiveItem c now data).2) := by
      rw [hm.receiveItem, ← hm.receiveStateBroadcast, ← hps]
    simp only [writer, hm.recognizes, hm.decode, hpr, hm.carries, hp, any_some,
      List.contains_iff_mem.mpr hown, Bool.and_self, Bool.false_eq_true, if_false, if_true]

end NodeOp

namespace Traced

variable {c : Crypto} {t : Traced}

/-- A received item keeps the invariant: a record that it wrote is signed where a
signature is due, and the others keep their writers. -/
theorem Signed.receiveItem (hi : t.Signed c) (hat : t.handler.Authorized) (now : Clock)
    (data : Bytes) : (t.step c (.receiveItem now data)).Signed c := by
  intro k p owner hp ho hg
  change (t.handler.receiveItem c now data).2.state.providers[k]? = some p at hp
  change (t.handler.receiveItem c now data).2.retained.providerOwners[_]? = some owner at ho
  change (t.handler.receiveItem c now data).2.trust.Guarded owner.scope at hg
  change ∃ b, (NodeOp.writer c t.handler k (.receiveItem now data)).or (t.writer k) = some b ∧
    SignedBy c (t.handler.receiveItem c now data).2.trust owner.scope p b
  rw [trust_receiveItem] at hg ⊢
  rcases hw : NodeOp.writer c t.handler k (.receiveItem now data) with - | b
  · rw [none_or]
    rcases receiveItem_record hp ho with ⟨hp, ho⟩ | ⟨b, h₁, hm, hacc⟩
    · exact hi hp ho hg
    · -- the key would have been written
      obtain ⟨q, hq, -, rfl⟩ := StateBroadcast.mem_acceptedProviders.mp hacc
      rw [NodeOp.writer_eq_some_iff.mpr
        ⟨now, data, h₁, _, rfl, hm, hp, List.mem_map_of_mem hq⟩] at hw
      cases hw
  · rw [some_or]
    obtain ⟨now', data', h₁, q, hop, hm, hq, hown⟩ := NodeOp.writer_eq_some_iff.mp hw
    obtain ⟨rfl, rfl⟩ := NodeOp.receiveItem.inj hop
    obtain rfl : q = p := some.inj (hq.symm.trans hp)
    cases (hm.owner hat hown).symm.trans ho
    rcases hm.admits.provenance hm.metadataOnly with
      ⟨grid, keys, key, hgr, hpin, hkey, hvr, -⟩ | ⟨hpin, hstr⟩
    · refine ⟨b, rfl, rfl, hown, keys, key, ?_, hkey, hvr⟩
      exact (congrArg (fun g => t.handler.trust.scopedPin ⟨b.originSite, g⟩) hgr).trans hpin
    · -- without a pin and without strict grids no signature is due
      rcases hg with hg | hg
      · obtain ⟨grid, -, hgr⟩ := (any_eq_true ..).mp hg
        rw [anyStrict_iff.mpr ⟨grid, hgr⟩] at hstr
        cases hstr
      · exact absurd hpin hg

theorem Signed.step (hi : t.Signed c) (hat : t.handler.Authorized) (op : NodeOp) :
    (t.step c op).Signed c := by
  cases op with
  | pinOrigin origin keys => exact hi.pinOrigin origin keys
  | pinOriginForGrid gridId origin keys => exact hi.pinOriginForGrid gridId origin keys
  | enforceSignedGrid gridId networkName => exact hi.enforceSignedGrid gridId networkName
  | relaxSignedGrid gridId => exact hi.trust fun scope => extends_forgetGrid _ _
  | unpinOrigin origin =>
    refine hi.trust fun scope => extends_of_eq rfl ?_
    exact congrFun (t.handler.trust.scopedPin_removePin_site origin) scope
  | unpinOriginForGrid gridId origin =>
    refine hi.clearPin gridId origin (fun _ => rfl) fun scope hne => ?_
    exact (scopedPin_setPin_grid ..).trans (if_neg hne)
  | clearOriginPinForGrid gridId origin =>
    refine hi.clearPin gridId origin (fun _ => rfl) fun scope hne => ?_
    exact (scopedPin_removePin_grid ..).trans (if_neg hne)
  | holdStateAdmission | openStateAdmission =>
    exact hi.trust fun _ => extends_of_eq rfl rfl
  | evictOrigin origin => exact hi.removeOrigin origin fun _ => extends_of_eq rfl rfl
  | forgetDepartedOrigin origin => exact hi
  | receiveItem now data => exact hi.receiveItem hat now data

theorem signed_run (c : Crypto) (siteId : String) (maxOrigins : Nat) (ops : List NodeOp) :
    let t := (init siteId maxOrigins).run c ops
    t.Signed c ∧ t.handler.Authorized := by
  refine Run.run_invariant (P := fun t : Traced => t.Signed c ∧ t.handler.Authorized) ?_ ⟨?_, ?_⟩
  · exact fun t op hi => ⟨hi.1.step hi.2 op, hi.2.step op⟩
  · intro k p owner hp
    simp [init, withCapacity, GridStateSnapshot.new] at hp
  · exact .init siteId maxOrigins

/-- **Signed-grid provenance.**  After any run: a record whose owner's scope is of a strict
grid is in the network bound to the grid, and its last writer supplied it, spoke for the
scope and verified under a key that is pinned for the scope now; and while any grid is
strict, every owner was admitted under a verified grid key. -/
theorem strict_grid_provenance (c : Crypto) (siteId : String) (maxOrigins : Nat)
    (ops : List NodeOp) :
    let t := (init siteId maxOrigins).run c ops
    t.handler = (StateBroadcastHandler.withCapacity siteId maxOrigins).run c ops ∧
    (∀ (grid network site k : String) (p : ProviderState) (owner : ProviderOwner),
      t.handler.trust.isStrict grid = true →
      t.handler.trust.providerNetwork grid = some network →
      t.handler.state.providers[k]? = some p →
      t.handler.retained.providerOwners[providerIdentity p]? = some owner →
      owner.scope = ⟨site, some grid⟩ →
        p.networkId = network ∧
        ∃ b keys key, t.writer k = some b ∧ p ∈ b.ownProviders.map b.stamp ∧
          b.providerStateScope = ⟨site, some grid⟩ ∧
          t.handler.trust.pin (.grid grid site) = some keys ∧ key ∈ keys ∧
          b.VerifiesUnder c key) ∧
    (t.handler.trust.anyStrict = true →
      ∀ (id : ProviderIdentity) (owner : ProviderOwner),
        t.handler.retained.providerOwners[id]? = some owner → owner.verifiedGrid = true) := by
  intro t
  obtain ⟨hsg, hat⟩ := signed_run c siteId maxOrigins ops
  refine ⟨handler_run c _ ops, fun grid network site k p owner hst hbn hp ho hsc => ?_,
    fun hany id owner ho => hat.verified hany ho⟩
  have hgd : owner.scope.gridId = some grid := by rw [hsc]
  refine ⟨hat.network_eq ho hgd hbn, ?_⟩
  have hgr : t.handler.trust.Guarded owner.scope := by
    left
    rw [hsc]
    exact hst
  obtain ⟨b, hw, hs⟩ := hsg hp ho hgr
  obtain ⟨keys, key, hpin, hkey, hvr⟩ := hs.verified
  rw [hsc] at hpin
  exact ⟨b, keys, key, hw, hs.supplied, hs.scope_eq.trans hsc, hpin, hkey, hvr⟩

def signedGridRun : List NodeOp :=
  [.enforceSignedGrid "grid" "net", .pinOriginForGrid "grid" "site" [[1]],
    deliver (signed { broadcast "site" 1
      [record "net" "site" "provider"] with gridId := some "grid" })]

/-- The published provider has its writer, under the pinned key. -/
theorem strict_grid_provenance_signedGridRun :
    let t := (init "self" 4).run crypto signedGridRun
    t.handler.state.providers.contains "net/site/provider" = true ∧
      ∃ b, t.writer "net/site/provider" = some b ∧ b.VerifiesUnder crypto [1] := by
  intro t
  have hpr := strict_grid_provenance crypto "self" 4 signedGridRun
  have hp : t.handler.state.providers["net/site/provider"]? =
      some { record "net" "site" "provider" with revision := 1 } := by decide
  obtain ⟨-, b, keys, key, hw, -, -, hpin, hkey, hvr⟩ :=
    hpr.2.1 "grid" "net" "site" _ _ ⟨⟨"site", some "grid"⟩, true⟩ (by decide) (by decide) hp
      (by decide) rfl
  have hky : t.handler.trust.pin (.grid "grid" "site") = some [[1]] := by decide
  obtain rfl : [[1]] = keys := Option.some.inj (hky.symm.trans hpin)
  obtain rfl : key = [1] := List.mem_singleton.mp hkey
  exact ⟨by decide, b, hw, hvr⟩

end Traced

end PraxisGrid
