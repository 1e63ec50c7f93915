/-
PraxisGrid/Enrollment/Holder.lean

The honest holder of an identity and its record: `renew` and `pending` of
`crates/operator/src/enroll/renew.rs` against the enrollment store.

The operator keeps the leaf it presents and the key of a renewal in flight in one Secret.  It writes
a fresh key there before it sends it and sends it until an answer is written; every write, request
and answer may be lost.  Either the leaf is for the current key and the key in flight, if any, was
never enrolled; or the key in flight is the current key and the leaf is for the one before it.  A
renewal from the first rotates, one from the second is signed again, and nothing the other names do
moves either.
-/
import PraxisGrid.Enrollment.Keys
import PraxisGrid.Enrollment.Forks

namespace PraxisGrid.Enrollment

open Std

/-! ### The operator -/

/-- The identity Secret: the leaf and the key of a renewal in flight. -/
structure Secret where
  leaf : Leaf
  pending : Option String

/-- What happens to one attempt to renew: the key generated if none is in flight, whether that
write takes place, whether the request reaches the store, the signer's answer there, and the start of
the leaf if the answer arrives, verifies, and is written. -/
structure Attempt where
  fresh : String
  stashed : Bool
  reached : Bool
  sign : Except StoreError Issued
  now : Instant
  stored : Option Instant

/-- The renewal in flight, else a new key stored before it is sent. -/
def Secret.pendingKey (secret : Secret) (attempt : Attempt) : Secret × Option String :=
  match secret.pending with
  | some key => (secret, some key)
  | none =>
    if attempt.stashed then ({ secret with pending := some attempt.fresh }, some attempt.fresh)
    else (secret, none)

/-- A site and the store it renews with. -/
structure World where
  inner : Inner
  secret : Secret

def Leaf.renewal (leaf : Leaf) (name key : String) : Renewal :=
  ⟨name, leaf.key, key, leaf.notBefore⟩

/-- Renew now and store the result in place. -/
def World.renew (world : World) (name : String) (attempt : Attempt) : World :=
  match world.secret.pendingKey attempt with
  | (secret, none) => { world with secret := secret }
  | (secret, some key) =>
    if attempt.reached then
      let answered := world.inner.renewAndIssue (secret.leaf.renewal name key) attempt.sign attempt.now
      match answered.2, attempt.stored with
      | .ok _, some start => ⟨answered.1, ⟨⟨key, start⟩, none⟩⟩
      | _, _ => ⟨answered.1, secret⟩
    else { world with secret := secret }

/-- The site attempts to renew, or somebody else uses the store. -/
inductive Event
  | renew (attempt : Attempt)
  | other (op : Op)

def World.step (name : String) (world : World) : Event → World
  | .renew attempt => world.renew name attempt
  | .other op => { world with inner := world.inner.step op }

/-! ### The others -/

def Op.On (name : String) : Op → Prop
  | .renew renewal _ _ => renewal.siteName = name
  | .seed record _ _ => record.siteName = name
  | .delete siteName => siteName = name
  | _ => False

/-- The operation comes with the key, which only its holder can do. -/
def Op.Brings (key : String) : Op → Prop
  | .redeem _ sign _ _ => ∃ pin issued, sign pin = .ok issued ∧ issued.publicKeySha256 = key
  | .renew renewal _ _ => renewal.requestedKey = key
  | .seed record _ _ => record.keySha256 = key
  | _ => False

/-- A key generated by the site was never enrolled; the others work on other names and do not
have the site's key in flight. -/
def Honest (name : String) (world : World) : Event → Prop
  | .renew attempt => attempt.fresh ∉ world.inner.enrolledKeys
  | .other op => ¬op.On name ∧ ∀ key ∈ world.secret.pending, ¬op.Brings key

section Others

variable {inner inner' : Inner} {op : Op} {name key : String} {held : Held}

theorem Effect.brings_of_enrolled (h : Effect inner op inner') (hkey : key ∈ inner'.enrolledKeys) :
    key ∈ inner.enrolledKeys ∨ op.Brings key := by
  cases h with
  | kept _ hky | froze _ _ _ hky | acknowledged _ _ hky | deleted _ hky =>
    rw [hky] at hkey
    exact Or.inl hkey
  | enrolled _ _ hsg _ hky =>
    rw [hky, OrdMap.mem_insert] at hkey
    rcases hkey with rfl | hkey
    · exact Or.inr hsg
    · exact Or.inl hkey
  | rotated _ _ _ _ _ hky | begun _ _ hky =>
    rw [hky, OrdMap.mem_insert] at hkey
    rcases hkey with rfl | hkey
    · exact Or.inr rfl
    · exact Or.inl hkey

theorem record?_step_of_not_on (hhl : inner.record? name = some held) (hop : ¬op.On name) :
    (inner.step op).record? name = some held := by
  have heff := (inner.effect_step op).record hhl
  generalize (inner.step op).record? name = after at heff
  cases heff with
  | kept => rfl
  | rotated hnm _ _ | froze hnm _ | acknowledged hnm | begun hnm _ => exact (hop hnm).elim
  | deleted => exact (hop rfl).elim

end Others

/-! ### The two positions -/

/-- Both keys of the record are enrolled. -/
def Held.Enrolled (held : Held) (inner : Inner) : Prop :=
  held.currentKey ∈ inner.enrolledKeys ∧ ∀ key ∈ held.previousKey, key ∈ inner.enrolledKeys

/-- Where the Secret stands to the record. -/
inductive Position (inner : Inner) (held : Held) (secret : Secret) : Prop
  /-- the leaf is for the current key, and a key in flight was never enrolled -/
  | settled (hleaf : secret.leaf.key = held.currentKey)
      (hpending : ∀ key ∈ secret.pending, key ∉ inner.enrolledKeys)
  /-- the key in flight is current already, and the answer was lost -/
  | unanswered (hleaf : held.previousKey = some secret.leaf.key)
      (hpending : secret.pending = some held.currentKey)
      (hne : secret.leaf.key ≠ held.currentKey)

structure Held.Admits (held : Held) (world : World) : Prop where
  unfrozen : held.frozen = false
  enrolled : held.Enrolled world.inner
  position : Position world.inner held world.secret

section Positions

variable {world : World} {name key : String} {held : Held}

/-- A renewal with the key in flight is a rotation to a new key or a retry. -/
theorem Held.Admits.decide_cases (h : held.Admits world) (hpn : world.secret.pending = some key) :
    ((world.secret.leaf.renewal name key).decide (some held) = .ok .rotate
        ∧ key ∉ world.inner.enrolledKeys ∧ world.secret.leaf.key = held.currentKey)
      ∨ (world.secret.leaf.renewal name key).decide (some held) = .ok .resign
        ∧ key = held.currentKey := by
  cases h.position with
  | settled hlf hnew =>
    have hkey : key ∉ world.inner.enrolledKeys := hnew key hpn
    refine Or.inl ⟨?_, hkey, hlf⟩
    rw [decide_eq_rotate_iff]
    refine ⟨h.unfrozen, hlf, ?_, ?_⟩
    · intro (hcur : key = held.currentKey)
      exact hkey (hcur ▸ h.enrolled.1)
    · intro hpr
      exact hkey (h.enrolled.2 key hpr)
  | unanswered hlf hcur hne =>
    have hkey : key = held.currentKey := Option.some.inj (hpn.symm.trans hcur)
    refine Or.inr ⟨?_, hkey⟩
    rw [decide_eq_resign_iff]
    exact ⟨h.unfrozen, hlf, hkey, hne⟩

/-- The key in flight, or a fresh one written before it is sent, keeps the position. -/
theorem Held.Admits.pendingKey (h : held.Admits world) (attempt : Attempt)
    (hfr : attempt.fresh ∉ world.inner.enrolledKeys) :
    held.Admits ⟨world.inner, (world.secret.pendingKey attempt).1⟩ := by
  unfold Secret.pendingKey
  split
  · exact h
  · rename_i hnn
    split
    · refine ⟨h.unfrozen, h.enrolled, ?_⟩
      cases h.position with
      | settled hlf _ =>
        refine .settled hlf ?_
        rintro key ⟨⟩
        exact hfr
      | unanswered _ hpn _ =>
        rw [hnn] at hpn
        cases hpn
    · exact h

theorem pending_of_pendingKey {secret secret' : Secret} {attempt : Attempt}
    (h : secret.pendingKey attempt = (secret', some key)) : secret'.pending = some key := by
  unfold Secret.pendingKey at h
  split at h
  · rename_i hpn
    obtain ⟨rfl, hkey⟩ := Prod.mk.inj h
    rw [hpn, hkey]
  · split at h
    · obtain ⟨rfl, hkey⟩ := Prod.mk.inj h
      exact hkey
    · cases h

end Positions

/-! ### One event -/

section Steps

variable {world : World} {name key : String} {held : Held}

/-- What a renewal with the key in flight leaves, whether the answer is written or not. -/
theorem admits_of_reached (world : World) (now : Instant) (hhl : world.inner.record? name = some held)
    (h : held.Admits world) (hpn : world.secret.pending = some key) (issued : Issued) :
    let answered :=
      world.inner.renewAndIssue (world.secret.leaf.renewal name key) (.ok issued) now
    ∃ held', answered.1.record? name = some held' ∧ held'.Admits ⟨answered.1, world.secret⟩
      ∧ ∀ start, held'.Admits ⟨answered.1, ⟨⟨key, start⟩, none⟩⟩ := by
  intro answered
  have heff := world.inner.effect_renew (world.secret.leaf.renewal name key) (.ok issued)
    now
  have hgr (k : String) (hk : k ∈ world.inner.enrolledKeys) : k ∈ answered.1.enrolledKeys :=
    heff.enrolledKeys_subset hk
  rcases @Held.Admits.decide_cases world name key held h hpn with
    ⟨hrt, hnew, hlf⟩ | ⟨hrs, hkey⟩
  · have haf : answered.1.record? name = some (held.rotate key now) :=
      (@renewAndIssue_rotate _ (world.secret.leaf.renewal name key) _ _ _ hhl hrt hnew).2
    have hkey : key ∈ answered.1.enrolledKeys := by
      have hcur : answered.1.currentKey? name = some key := by
        rw [Inner.currentKey?, haf]
        rfl
      rcases heff.currentKey?_cases hcur with hpre | ⟨henr, -⟩
      · -- the record did not have the key before
        rw [Inner.currentKey?, hhl] at hpre
        have hsm : held.currentKey = key := Option.some.inj hpre
        exact (hnew (hsm ▸ h.enrolled.1)).elim
      · exact henr
    have henr : (held.rotate key now).Enrolled answered.1 := by
      refine ⟨hkey, ?_⟩
      rintro previous ⟨⟩
      exact hgr _ h.enrolled.1
    refine ⟨_, haf, ⟨h.unfrozen, henr, ?_⟩, fun start => ⟨h.unfrozen, henr, ?_⟩⟩
    · refine .unanswered (congrArg some hlf.symm) hpn ?_
      intro (hsm : world.secret.leaf.key = key)
      exact hnew (hsm ▸ hlf ▸ h.enrolled.1)
    · exact .settled rfl (by rintro _ ⟨⟩)
  · have haf : answered.1.record? name = some held :=
      (@renewAndIssue_resign _ (world.secret.leaf.renewal name key) _ _ _ hhl hrs).2
    have henr : held.Enrolled answered.1 :=
      ⟨hgr _ h.enrolled.1, fun previous hpr => hgr _ (h.enrolled.2 previous hpr)⟩
    refine ⟨held, haf, ⟨h.unfrozen, henr, ?_⟩, fun start => ⟨h.unfrozen, henr, ?_⟩⟩
    · cases h.position with
      | settled _ hnew => exact (hnew key hpn (hkey ▸ h.enrolled.1)).elim
      | unanswered hlf hcur hne => exact .unanswered hlf hcur hne
    · exact .settled hkey (by rintro _ ⟨⟩)

theorem renewAndIssue_sign_error {inner : Inner} {renewal : Renewal} {action : RenewAction}
    {error : StoreError} {now : Instant} (hhl : inner.record? renewal.siteName = some held)
    (hadm : renewal.decide (some held) = .ok action)
    (hnew : action = .rotate → renewal.requestedKey ∉ inner.enrolledKeys) :
    inner.renewAndIssue renewal (.error error) now = (inner, .error error) := by
  obtain ⟨reserved, hen⟩ := exists_getElem?_of_record? hhl
  unfold Inner.renewAndIssue
  rw [hen]
  dsimp only
  rw [hadm]
  dsimp only
  rw [if_neg fun h => hnew h.1 h.2]

/-- An attempt to renew, however much of it is lost. -/
theorem admits_renew (attempt : Attempt) (hhl : world.inner.record? name = some held)
    (h : held.Admits world) (hfr : attempt.fresh ∉ world.inner.enrolledKeys) :
    ∃ held', (world.renew name attempt).inner.record? name = some held'
      ∧ held'.Admits (world.renew name attempt) := by
  have hpn := h.pendingKey attempt hfr
  unfold World.renew
  split
  · rename_i secret hnn
    rw [hnn] at hpn
    exact ⟨held, hhl, hpn⟩
  · rename_i secret key hkey
    rw [hkey] at hpn
    split
    · cases hsg : attempt.sign with
      | error error =>
        -- nothing is signed, so nothing is written on either side
        have hkp : world.inner.renewAndIssue (secret.leaf.renewal name key) (.error error)
            attempt.now = (world.inner, .error error) := by
          rcases @Held.Admits.decide_cases _ name key held hpn (pending_of_pendingKey hkey) with
            ⟨hrt, hnew, -⟩ | ⟨hrs, -⟩
          · exact renewAndIssue_sign_error hhl hrt fun _ => hnew
          · exact renewAndIssue_sign_error hhl hrs (by rintro ⟨⟩)
        rw [hkp]
        exact ⟨held, hhl, hpn⟩
      | ok issued =>
        have hfl : (World.mk world.inner secret).secret.pending = some key :=
          pending_of_pendingKey hkey
        obtain ⟨held', hhl', hls, hst⟩ :=
          admits_of_reached ⟨world.inner, secret⟩ attempt.now hhl hpn hfl issued
        dsimp only
        split
        · rename_i start _ _
          exact ⟨held', hhl', hst start⟩
        · exact ⟨held', hhl', hls⟩
    · exact ⟨held, hhl, hpn⟩

theorem admits_other (op : Op) (hhl : world.inner.record? name = some held)
    (h : held.Admits world) (hnm : ¬op.On name)
    (hky : ∀ key ∈ world.secret.pending, ¬op.Brings key) :
    (world.inner.step op).record? name = some held
      ∧ held.Admits ⟨world.inner.step op, world.secret⟩ := by
  have heff := world.inner.effect_step op
  refine ⟨record?_step_of_not_on hhl hnm, h.unfrozen, ?_, ?_⟩
  · exact ⟨heff.enrolledKeys_subset h.enrolled.1,
      fun key hkey => heff.enrolledKeys_subset (h.enrolled.2 key hkey)⟩
  · cases h.position with
    | settled hlf hpn =>
      refine .settled hlf ?_
      intro key hkey henr
      rcases heff.brings_of_enrolled henr with hpre | hbr
      · exact hpn key hkey hpre
      · exact hky key hkey hbr
    | unanswered hlf hpn hne => exact .unanswered hlf hpn hne

/-- **Every event keeps the record and the Secret in step.** -/
theorem admits_step (event : Event) (hev : Honest name world event)
    (h : ∃ held, world.inner.record? name = some held ∧ held.Admits world) :
    ∃ held, (world.step name event).inner.record? name = some held
      ∧ held.Admits (world.step name event) := by
  obtain ⟨held, hhl, hadm⟩ := h
  cases event with
  | renew attempt => exact admits_renew attempt hhl hadm hev
  | other op => exact ⟨held, admits_other op hhl hadm hev.1 hev.2⟩

end Steps

/-! ### Reachable stores -/

theorem Effect.previousKey_cases {inner inner' : Inner} {op : Op} {name key : String} {held' : Held}
    (h : Effect inner op inner') (hhl : inner'.record? name = some held')
    (hkey : held'.previousKey = some key) :
    ∃ held, inner.record? name = some held
      ∧ (held.currentKey = key ∨ held.previousKey = some key) := by
  cases hpre : inner.record? name with
  | some held =>
    refine ⟨held, rfl, ?_⟩
    have hrec := h.record hpre
    rw [hhl] at hrec
    cases hrec with
    | kept | froze | acknowledged => exact Or.inr hkey
    | rotated => exact Or.inl (Option.some.inj hkey)
    | begun => cases hkey
  | none =>
    -- a record that is new has no previous key
    cases h with
    | kept hnm _ =>
      rw [record?_eq_of_issuedNames hnm, hpre] at hhl
      cases hhl
    | enrolled _ _ _ hnm _ | begun _ hnm _ =>
      rw [record?_insert hnm, hpre] at hhl
      split_ifs at hhl
      cases hhl
      cases hkey
    | rotated hen _ _ _ hnm _ | froze hen _ hnm _ | acknowledged hen hnm _ =>
      rw [record?_insert hnm, hpre] at hhl
      split_ifs at hhl with hna
      rw [← hna, record?_of_getElem? hen] at hpre
      cases hpre
    | deleted hnm _ =>
      rw [record?_erase hnm, hpre] at hhl
      split_ifs at hhl

def Inner.KeysEnrolled (inner : Inner) : Prop :=
  ∀ name held, inner.record? name = some held → held.Enrolled inner

theorem keysEnrolled_step (inner : Inner) (op : Op) (h : inner.KeysEnrolled) :
    (inner.step op).KeysEnrolled := by
  intro name held hhl
  have heff := inner.effect_step op
  constructor
  · refine currentKey?_enrolled_step op ?_ name _ (by rw [Inner.currentKey?, hhl]; rfl)
    intro other key hot
    obtain ⟨held', hhl', rfl⟩ := Option.map_eq_some_iff.mp hot
    exact (h other held' hhl').1
  · intro key hkey
    obtain ⟨held', hhl', hpre⟩ := heff.previousKey_cases hhl hkey
    apply heff.enrolledKeys_subset
    rcases hpre with rfl | hpr
    · exact (h name held' hhl').1
    · exact (h name held' hhl').2 key hpr

theorem keysEnrolled_after (ops : List Op) : (Inner.after {} ops).KeysEnrolled := by
  refine Run.run_invariant keysEnrolled_step ?_
  intro name held hhl
  simp [Inner.record?] at hhl

/-! ### The honest holder -/

/-- **The honest holder is never frozen out.**  From any reachable store in which a name's record
is for the site's leaf, and through every sequence of the site's attempts and of
operations by others, the record stays unfrozen, every renewal the site sends is admitted as a
rotation or signed again, and a Secret with no renewal in flight holds a leaf for the record's
current key. -/
theorem honest_holder_admitted (ops : List Op) (name : String) (held : Held) (leaf : Leaf)
    (events : List Event) (hheld : (Inner.after {} ops).record? name = some held)
    (hfrozen : held.frozen = false) (hleaf : leaf.key = held.currentKey)
    (hevents : Run.Along (World.step name) (Honest name) ⟨Inner.after {} ops, ⟨leaf, none⟩⟩ events) :
    let world := Run.run (World.step name) ⟨Inner.after {} ops, ⟨leaf, none⟩⟩ events
    ∃ held', world.inner.record? name = some held' ∧ held'.frozen = false
      ∧ (∀ attempt secret key, attempt.fresh ∉ world.inner.enrolledKeys →
        world.secret.pendingKey attempt = (secret, some key) →
        ∃ action, ∀ sign now,
          (world.inner.renewAndIssue (secret.leaf.renewal name key) sign now).2
            = sign.map fun issued => ⟨held'.id, action, held'.currentKey, issued⟩)
      ∧ (world.secret.pending = none → world.secret.leaf.key = held'.currentKey) := by
  intro world
  have hst : held.Admits ⟨Inner.after {} ops, ⟨leaf, none⟩⟩ :=
    ⟨hfrozen, keysEnrolled_after ops name held hheld, .settled hleaf (by rintro _ ⟨⟩)⟩
  obtain ⟨held', hheld', hadm⟩ : ∃ held', world.inner.record? name = some held'
      ∧ held'.Admits world :=
    Run.run_invariant_along
      (P := fun world => ∃ held, world.inner.record? name = some held ∧ held.Admits world)
      (fun _ event hev h => admits_step event hev h) hevents ⟨held, hheld, hst⟩
  refine ⟨held', hheld', hadm.unfrozen, ?_, ?_⟩
  · intro attempt secret key hfr hkey
    have hpn := hadm.pendingKey attempt hfr
    rw [hkey] at hpn
    rcases @Held.Admits.decide_cases _ name key held' hpn (pending_of_pendingKey hkey) with
      ⟨hrt, hnew, -⟩ | ⟨hrs, -⟩
    · refine ⟨.rotate, ?_⟩
      rintro (error | issued) now
      · rw [renewAndIssue_sign_error hheld' hrt fun _ => hnew]
        rfl
      · exact (renewAndIssue_rotate hheld' hrt hnew).1
    · refine ⟨.resign, ?_⟩
      rintro (error | issued) now
      · rw [renewAndIssue_sign_error hheld' hrs (by rintro ⟨⟩)]
        rfl
      · exact (renewAndIssue_resign hheld' hrs).1
  · intro hnn
    cases hadm.position with
    | settled hleaf _ => exact hleaf
    | unanswered _ hpn _ =>
      rw [hnn] at hpn
      cases hpn

/-- An attempt that reaches the store and is signed there. -/
def attemptWith (fresh : String) (stored : Option Instant) : Attempt :=
  ⟨fresh, true, true, .ok ⟨"hub", fresh, none⟩, .seconds 0, stored⟩

/-- The first answer is lost, somebody else deletes a record, and the resent key is answered. -/
def answeredTwice : List Event :=
  [.renew (attemptWith "k1" none), .other (.delete "west"),
    .renew (attemptWith "k9" (some (.seconds 0)))]

/-- The hub with the leaf of its first key. -/
def hubWorld : World := ⟨Inner.after {} [seeding "hub" "k0" 1 0], ⟨⟨"k0", .seconds 0⟩, none⟩⟩

theorem honest_holder_admitted_hub :
    ∃ held', (Run.run (World.step "hub") hubWorld answeredTwice).inner.record? "hub" = some held'
      ∧ held'.frozen = false
      ∧ (Run.run (World.step "hub") hubWorld answeredTwice).secret.leaf.key = held'.currentKey := by
  have hev : Run.Along (World.step "hub") (Honest "hub") hubWorld answeredTwice := by
    refine ⟨?_, ⟨?_, ?_⟩, ?_, trivial⟩
    · show "k1" ∉ hubWorld.inner.enrolledKeys
      decide +kernel
    · intro (hnm : "west" = "hub")
      revert hnm
      decide
    · exact fun _ _ hbr => hbr
    · show "k9" ∉ ((hubWorld.step "hub" (.renew (attemptWith "k1" none))).step "hub"
        (.other (.delete "west"))).inner.enrolledKeys
      decide +kernel
  obtain ⟨held', hhl', hfr, -, hlf⟩ :=
    honest_holder_admitted [seeding "hub" "k0" 1 0] "hub"
      ⟨1, "k0", none, .seconds 0, .seconds 0, false, some 1⟩ ⟨"k0", .seconds 0⟩ answeredTwice
      (by decide +kernel) rfl rfl hev
  exact ⟨held', hhl', hfr, hlf (by decide +kernel)⟩

end PraxisGrid.Enrollment
