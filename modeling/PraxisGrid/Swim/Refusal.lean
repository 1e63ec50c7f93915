/-
PraxisGrid/Swim/Refusal.lean

What a refused item costs the other origins.

The assembler's buffers are local to the origin of a frame, up to what expired.  So a refused
item has three ways to touch another origin: room was made for it before it was refused, it is a
frame and something of the other was due to be pruned, or its rejection made the handler publish
its inventories again and the published list was not up to date (`refused_item_iff`).
-/
import PraxisGrid.Swim.Assembler
import PraxisGrid.Swim.Isolation

namespace PraxisGrid

open Std OrdMap Bincode Saturate Scenario ModelInventoryAssembler

namespace StateBroadcastHandler

variable {c : Crypto} {h h' : StateBroadcastHandler} {now : Clock} {data : Bytes}
  {b : StateBroadcast} {f : ModelInventoryBroadcast} {o s : String}

theorem filed_mergedAssembler (hi : h.assembler.Filed) (b : StateBroadcast) :
    (h.mergedAssembler b).Filed := by
  unfold mergedAssembler
  split_ifs
  · unfold invalidateReplacedProviderInventories
    dsimp only
    -- each replaced provider instance is withdrawn in turn
    generalize (h.retained.providerUidsByScope.getD b.providerStateScope ∅).toList = uids
    generalize h.assembler = a at hi
    induction uids generalizing a with
    | nil => exact hi
    | cons uid uids ih =>
      rw [List.foldl_cons]
      refine ih _ ?_
      split_ifs
      · exact hi
      · exact hi.withdrawProvider _
  · exact hi

theorem assembler_buffered :
    (h.buffered c now f).assembler = (h.assembler.push c f (wallMs now)).2 := rfl

/-- **In a reachable handler every inventory is filed under its origin.** -/
theorem Reachable.filed (hr : Reachable c h) : h.assembler.Filed := by
  refine hr.invariant (P := fun h => h.assembler.Filed) ?_ fun h op hi => ?_
  · intro siteId maxOrigins scope inventory hhl
    simp [withCapacity] at hhl
  · refine step_preserves (P := fun h => h.assembler.Filed) (fun _ hi => hi)
      (fun origin hi => hi.removeOrigin origin)
      (fun gridId origin hi => hi.removeGrid gridId origin) (fun _ hi => hi) op ?_ hi
    intro now data _ hi
    refine receiveItem_preserves (P := fun h => h.assembler.Filed)
      (fun origin hi => hi.removeOrigin origin) (fun _ hi => hi) ?_ ?_ (fun hi => hi) hi
    · intro b h₁ _ _ _ _ _ hi
      rw [assembler_merged]
      exact filed_mergedAssembler hi b
    · intro h₁ f hi
      rw [assembler_buffered]
      exact hi.push

/-! ### Refused items -/

/-- The assembler holds the same of a site, and the same of its inventories are published. -/
structure SameInventories (h h' : StateBroadcastHandler) (s : String) : Prop where
  buffers : ∀ scope : InventoryScope, scope.originSite = s →
    h.assembler.Untouched h'.assembler scope
  published : ∀ inventory : ModelInventory, inventory.originSite = s →
    (inventory ∈ h'.modelInventories ↔ inventory ∈ h.modelInventories)

/-- Nothing the assembler holds of a site has expired: no partial inventory, no complete one, and
no floor but those of the inventories held. -/
structure NothingDue (h : StateBroadcastHandler) (now : Clock) (s : String) : Prop where
  pending : ∀ (key : InventoryKey) (pending : PendingInventory), key.scope.originSite = s →
    h.assembler.pending[key]? = some pending → pending.fresh (wallMs now) = true
  complete : ∀ (scope : InventoryScope) (inventory : ModelInventory), scope.originSite = s →
    h.assembler.complete[scope]? = some inventory → inventory.fresh (wallMs now) = true
  floor : ∀ (scope : InventoryScope) (held : RevisionFloor), scope.originSite = s →
    h.assembler.revisionFloor[scope]? = some held →
      wallMs now ≤ held.retainUntilMs ∨
        ∃ inventory, h.assembler.complete[scope]? = some inventory

/-- The published inventories of a site are those that publishing would choose. -/
def InSync (h : StateBroadcastHandler) (now : Clock) (s : String) : Prop :=
  ∀ inventory : ModelInventory, inventory.originSite = s →
    (inventory ∈ h.modelInventories ↔
      inventory ∈ (h.publishVerifiedInventories now).modelInventories)

/-- The item is an admitted frame. -/
def Buffers (c : Crypto) (h : StateBroadcastHandler) (now : Clock) (data : Bytes) : Prop :=
  ∃ f h₁, ModelInventoryBroadcast.recognizes data = true ∧
    ModelInventoryBroadcast.decode data = .ok f ∧ h.AdmitsFrame c now f h₁

/-- The item is an admitted frame whose outcome makes the handler publish again. -/
def Republishes (c : Crypto) (h : StateBroadcastHandler) (now : Clock) (data : Bytes) : Prop :=
  ∃ f h₁, ModelInventoryBroadcast.recognizes data = true ∧
    ModelInventoryBroadcast.decode data = .ok f ∧ h.AdmitsFrame c now f h₁ ∧
    publishes (h₁.assembler.push c f (wallMs now)).1 = true

/-- No value, guard or frame of an origin is held. -/
structure HoldsNothing (h : StateBroadcastHandler) (o : String) : Prop where
  values : ∀ lane, (h.retained.lanes lane).values[o]? = none
  revisions : ∀ lane, (h.retained.lanes lane).revisions[o]? = none
  latest : ∀ scope : ProviderStateScope, scope.originSite = o →
    h.retained.latestByScope[scope]? = none
  pending : ∀ key : InventoryKey, key.scope.originSite = o → h.assembler.pending[key]? = none
  complete : ∀ scope : InventoryScope, scope.originSite = o →
    h.assembler.complete[scope]? = none

theorem SameInventories.of_eq (har : h'.assembler = h.assembler)
    (hpub : h'.modelInventories = h.modelInventories) : h.SameInventories h' s :=
  ⟨fun scope _ => har ▸ .refl _ scope, fun _ _ => by rw [hpub]⟩

/-- Nothing is due exactly if pruning leaves all that is held of the site. -/
theorem nothingDue_iff :
    h.NothingDue now s ↔ ∀ scope : InventoryScope, scope.originSite = s →
      h.assembler.Untouched (h.assembler.prune (wallMs now)) scope := by
  constructor
  · intro hn scope hsc
    have hcm : (h.assembler.prune (wallMs now)).complete[scope]? =
        h.assembler.complete[scope]? := by
      rw [complete_prune, filter_eq_self_iff]
      exact fun inventory hhl => hn.complete scope inventory hsc hhl
    refine ⟨fun revision => ?_, hcm, ?_⟩
    · rw [pending_prune, filter_eq_self_iff]
      exact fun pending hhl => hn.pending _ pending hsc hhl
    · rw [revisionFloor_prune, filter_eq_self_iff]
      intro held hhl
      rw [Bool.or_eq_true, decide_eq_true_eq]
      refine (hn.floor scope held hsc hhl).imp_right ?_
      rintro ⟨inventory, hin⟩
      rw [hin, Option.any_some]
      exact hn.complete scope inventory hsc hin
  · intro hun
    refine ⟨fun key pending hkey hhl => ?_, fun scope inventory hsc hhl => ?_,
      fun scope held hsc hhl => ?_⟩
    · have hpn := (hun key.scope hkey).pending key.revision
      rw [pending_prune] at hpn
      exact filter_eq_self_iff.mp hpn pending hhl
    · have hcm := (hun scope hsc).complete
      rw [complete_prune] at hcm
      exact filter_eq_self_iff.mp hcm inventory hhl
    · have hfl := (hun scope hsc).floor
      rw [revisionFloor_prune] at hfl
      have hkp := filter_eq_self_iff.mp hfl held hhl
      rw [Bool.or_eq_true, decide_eq_true_eq, Option.any_eq_true] at hkp
      exact hkp.imp_right fun ⟨inventory, hin, _⟩ => ⟨inventory, hin⟩

theorem mem_publishVerifiedInventories {inventory : ModelInventory} :
    inventory ∈ (h.publishVerifiedInventories now).modelInventories ↔
      (∃ scope : InventoryScope, h.assembler.complete[scope]? = some inventory) ∧
        inventory.fresh (wallMs now) = true ∧ backs h.retained inventory = true := by
  simp only [publishVerifiedInventories, inventories, List.mem_filter,
    mem_values, and_assoc, ModelInventory.fresh]

theorem mem_publish_buffered (hfl : h.assembler.Filed) {inventory : ModelInventory}
    (hne : inventory.originSite ≠ f.originSite) :
    inventory ∈ ((h.buffered c now f).publishVerifiedInventories now).modelInventories ↔
      inventory ∈ (h.publishVerifiedInventories now).modelInventories := by
  have hfl' : (h.assembler.push c f (wallMs now)).2.Filed := hfl.push
  have hbc : backs (h.buffered c now f).retained inventory = backs h.retained inventory := rfl
  rw [mem_publishVerifiedInventories, mem_publishVerifiedInventories, assembler_buffered, hbc]
  constructor
  · rintro ⟨⟨scope, hhl⟩, hfr, hbc⟩
    have hsc : scope.originSite ≠ f.originSite := hfl' hhl ▸ hne
    rw [(untouched_push hsc).complete, complete_prune] at hhl
    exact ⟨⟨scope, (Option.filter_eq_some_iff.mp hhl).1⟩, hfr, hbc⟩
  · rintro ⟨⟨scope, hhl⟩, hfr, hbc⟩
    have hsc : scope.originSite ≠ f.originSite := hfl hhl ▸ hne
    refine ⟨⟨scope, ?_⟩, hfr, hbc⟩
    rw [(untouched_push hsc).complete, complete_prune]
    exact Option.filter_eq_some_iff.mpr ⟨hhl, hfr⟩

theorem assembler_settleFrame :
    (h.settleFrame c now f).assembler = (h.assembler.push c f (wallMs now)).2 := by
  unfold settleFrame
  split_ifs <;> rfl

/-- **A frame leaves the inventories of another origin** exactly when nothing of it is due, and
the frame does not make the handler publish or the published list was up to date. -/
theorem sameInventories_settleFrame_iff (hfd : h.assembler.Filed) (hne : s ≠ f.originSite) :
    h.SameInventories (h.settleFrame c now f) s ↔
      h.NothingDue now s ∧
        (publishes (h.assembler.push c f (wallMs now)).1 = true → h.InSync now s) := by
  have hun : ∀ scope : InventoryScope, scope.originSite = s →
      (h.assembler.prune (wallMs now)).Untouched (h.settleFrame c now f).assembler scope := by
    intro scope hsc
    rw [assembler_settleFrame]
    exact untouched_push (hsc ▸ hne)
  rw [nothingDue_iff]
  constructor
  · intro hsm
    refine ⟨fun scope hsc => (hsm.buffers scope hsc).trans (hun scope hsc).symm, ?_⟩
    intro hpb inventory hst
    have hmem := hsm.published inventory hst
    rw [settleFrame, if_pos hpb, mem_publish_buffered hfd (hst ▸ hne)] at hmem
    exact hmem.symm
  · rintro ⟨hdue, hsy⟩
    refine ⟨fun scope hsc => (hdue scope hsc).trans (hun scope hsc), fun inventory hst => ?_⟩
    unfold settleFrame
    split_ifs with hpb
    · rw [mem_publish_buffered hfd (hst ▸ hne)]
      exact (hsy hpb inventory hst).symm
    · rfl

/-- An evicted origin lost something: it was known before and is not any more. -/
theorem not_sameSite_removeOrigin {v : String} (hv : v ∈ h.retained.knownOrigins) :
    ¬ h.SameSite (h.removeOrigin v) v := by
  intro hs
  rcases RetainedOrigins.mem_knownOrigins.mp hv with
    ⟨scope, ⟨revision, hhl⟩, hst⟩ | ⟨scope, ⟨networks, hhl⟩, hst⟩ | ⟨scope, hhl, hst⟩ |
      ⟨lane, ⟨value, hhl⟩ | ⟨revision, hhl⟩⟩
  · have hsm := hs.scopes.latest scope hst
    simp [hhl, hst] at hsm
  · have hsm := hs.scopes.networks scope hst
    simp [hhl, hst] at hsm
  · have hsm := (hs.scopes.inventories scope hst).mpr hhl
    simp [hst] at hsm
  · have hsm := (hs.lanes lane).value
    simp [hhl] at hsm
  · have hsm := (hs.lanes lane).guard
    simp [hhl] at hsm

theorem mem_knownOrigins_of_victim {incoming v : String} (hv : h.victim incoming = some v) :
    v ∈ h.retained.knownOrigins := by
  simp only [victim] at hv
  split_ifs at hv
  exact ExtTreeSet.mem_toList.mp (List.mem_of_find?_eq_some hv)

theorem HoldsNothing.settle_cases (hnt : (h.settle now b).HoldsNothing b.originSite) :
    h.settle now b = h ∨ h.settle now b = h.offerMetadata now b := by
  rcases StateBroadcastHandler.settle_cases h now b with ⟨hs, -⟩ | hs | ⟨-, -, hs⟩
  · exact .inl hs
  · exact .inr hs
  · have hlt := hnt.latest b.providerStateScope rfl
    rw [hs, retained_merged, latestByScope_mergedRetained, if_pos rfl] at hlt
    cases hlt

/-- Once there is room, a refused item is local to its origin. -/
theorem Takes.sameSite {h₁ : StateBroadcastHandler} (htk : h.Takes c now data o h₁)
    (hnt : (h.receiveItem c now data).2.HoldsNothing o) (hne : s ≠ o) :
    h₁.SameSite (h.receiveItem c now data).2 s := by
  cases htk with
  | state hkn hdec hadm =>
    rw [receiveItem_of_admits hkn hdec hadm] at hnt ⊢
    rcases hnt.settle_cases with hs | hs
    · rw [hs]
      exact .refl h₁ s
    · rw [hs]
      exact .offerMetadata hne
  | frame hkn hdec hadm =>
    rw [receiveItem_of_admitsFrame hkn hdec hadm]
    exact .settleFrame hne

/-- **What a refused item costs the others, exactly.**  If nothing of the origin of an item
is held after it, everything of the other origins is as before if and only if nobody was
evicted, an admitted frame found nothing of the others due, and, where the rejection of a frame
made the handler publish, the published inventories of the others were up to date. -/
theorem refused_item_iff (hr : Reachable c h) (horigin : claimedOrigin data = some o)
    (hnothing : (h.receiveItem c now data).2.HoldsNothing o) :
    (∀ s, s ≠ o → h.SameSite (h.receiveItem c now data).2 s ∧
        h.SameInventories (h.receiveItem c now data).2 s) ↔
      (∀ v, ¬ h.Evicts c now data v) ∧
        (h.Buffers c now data → ∀ s, s ≠ o → h.NothingDue now s) ∧
        (h.Republishes c now data → ∀ s, s ≠ o → h.InSync now s) := by
  have hfl := hr.filed
  constructor
  · intro hsm
    have hno : ∀ v, ¬ h.Evicts c now data v := by
      rintro v hev
      obtain ⟨o', h₁, htk, hv⟩ := hev
      obtain rfl : o' = o := Option.some.inj (htk.origin_eq.symm.trans horigin)
      have hne : v ≠ o' := by
        rintro rfl
        exact h.victim_ne_self v hv
      have hro : h₁ = h.removeOrigin v := by rw [eq_of_makeRoomFor htk.room, hv, Option.elim]
      have hrm : h.SameSite h₁ v := (hsm v hne).1.trans (htk.sameSite hnothing hne).symm
      rw [hro] at hrm
      exact not_sameSite_removeOrigin (mem_knownOrigins_of_victim hv) hrm
    have hfr : ∀ f h₁, ModelInventoryBroadcast.recognizes data = true →
        ModelInventoryBroadcast.decode data = .ok f → h.AdmitsFrame c now f h₁ → h₁ = h ∧
          ∀ s, s ≠ o → h.NothingDue now s ∧
            (publishes (h.assembler.push c f (wallMs now)).1 = true → h.InSync now s) := by
      intro f h₁ hkn hdc hadm
      obtain rfl : f.originSite = o :=
        Option.some.inj ((claimedOrigin_of_frame hkn hdc).symm.trans horigin)
      obtain rfl : h₁ = h := (Takes.frame hkn hdc hadm).room_eq hno
      refine ⟨rfl, fun s hne => ?_⟩
      have hsm := (hsm s hne).2
      rw [receiveItem_of_admitsFrame hkn hdc hadm] at hsm
      exact (sameInventories_settleFrame_iff hfl hne).mp hsm
    refine ⟨hno, ?_, ?_⟩
    · rintro ⟨f, h₁, hkn, hdc, hadm⟩ s hne
      exact ((hfr f h₁ hkn hdc hadm).2 s hne).1
    · rintro ⟨f, h₁, hkn, hdc, hadm, hpb⟩ s hne
      obtain ⟨rfl, hin⟩ := hfr f h₁ hkn hdc hadm
      exact (hin s hne).2 hpb
  · rintro ⟨hno, hdue, hsy⟩ s hne
    rcases receiveItem_cases with
      heq | ⟨b, h₁, hkn, hdc, hadm, heq⟩ | ⟨f, h₁, hkn, hdc, hadm, heq⟩
    · rw [heq]
      exact ⟨.refl h s, .of_eq rfl rfl⟩
    · have htk := Takes.state hkn hdc hadm
      obtain rfl : b.originSite = o := Option.some.inj (htk.origin_eq.symm.trans horigin)
      obtain rfl : h₁ = h := htk.room_eq hno
      refine ⟨htk.sameSite hnothing hne, ?_⟩
      rw [heq] at hnothing ⊢
      rcases hnothing.settle_cases with hs | hs
      · rw [hs]
        exact .of_eq rfl rfl
      · rw [hs]
        exact .of_eq rfl rfl
    · have htk := Takes.frame hkn hdc hadm
      obtain rfl : f.originSite = o := Option.some.inj (htk.origin_eq.symm.trans horigin)
      obtain rfl : h₁ = h := htk.room_eq hno
      refine ⟨htk.sameSite hnothing hne, ?_⟩
      rw [heq]
      exact (sameInventories_settleFrame_iff hfl hne).mpr
        ⟨hdue ⟨f, h₁, hkn, hdc, hadm⟩ s hne, fun hpb => hsy ⟨f, h₁, hkn, hdc, hadm, hpb⟩ s hne⟩

/-- A handler with room for one origin, which has published its gateway. -/
def fullHandler : StateBroadcastHandler :=
  (withCapacity "self" 1).run crypto
    [deliver { broadcast "site" 1 [] with gatewayAddress := some "address" }]

/-- A gateway address of another origin, with a revision from the future. -/
def futureGateway : Bytes :=
  wire { broadcast "other" 1000000000 [] with gatewayAddress := some "future" }

theorem fullHandler_reachable : Reachable crypto fullHandler := ⟨_, _, _, rfl⟩

theorem fullHandler_holdsNothing :
    (fullHandler.receiveItem crypto 0 futureGateway).2.HoldsNothing "other" := by
  have hlt : (fullHandler.receiveItem crypto 0
      futureGateway).2.retained.latestByScope.isEmpty = true := by decide
  have hpn : (fullHandler.receiveItem crypto 0
      futureGateway).2.assembler.pending.isEmpty = true := by decide
  have hcm : (fullHandler.receiveItem crypto 0
      futureGateway).2.assembler.complete.isEmpty = true := by decide
  refine ⟨fun lane => ?_, fun lane => ?_, fun _ _ => ?_, fun _ _ => ?_, fun _ _ => ?_⟩
  · cases lane <;> decide
  · cases lane <;> decide
  · rw [ExtTreeMap.isEmpty_iff.mp hlt]
    rfl
  · rw [ExtTreeMap.isEmpty_iff.mp hpn]
    rfl
  · rw [ExtTreeMap.isEmpty_iff.mp hcm]
    rfl

theorem refused_item_iff_fullHandler :
    (∀ s, s ≠ "other" →
        fullHandler.SameSite (fullHandler.receiveItem crypto 0 futureGateway).2 s ∧
        fullHandler.SameInventories (fullHandler.receiveItem crypto 0 futureGateway).2 s) ↔
      (∀ v, ¬ fullHandler.Evicts crypto 0 futureGateway v) ∧
        (fullHandler.Buffers crypto 0 futureGateway →
          ∀ s, s ≠ "other" → fullHandler.NothingDue 0 s) ∧
        (fullHandler.Republishes crypto 0 futureGateway →
          ∀ s, s ≠ "other" → fullHandler.InSync 0 s) := by
  exact refused_item_iff fullHandler_reachable (by decide) fullHandler_holdsNothing

/-- The address from the future is refused, and the only other origin has lost its own. -/
theorem refused_item_evicts :
    let h' := (fullHandler.receiveItem crypto 0 futureGateway).2
    Reachable crypto fullHandler ∧ claimedOrigin futureGateway = some "other" ∧
      "other" ∉ fullHandler.retained.knownOrigins ∧
      (fullHandler.receiveItem crypto 0 futureGateway).1 = .ok none ∧
      h'.HoldsNothing "other" ∧
      (fullHandler.retained.lanes .gateway).values["site"]? = some "address" ∧
      (h'.retained.lanes .gateway).values["site"]? = none := by
  intro h'
  exact ⟨fullHandler_reachable, by decide, by decide, by decide, fullHandler_holdsNothing,
    by decide, by decide⟩

end StateBroadcastHandler

end PraxisGrid
