/-
PraxisGrid/Enrollment/Store.lean

The enrollment service's memory store, `crates/enrollment/src/store.rs`: site tokens, the record
of every enrolled name, and every key ever enrolled.

One lock covers each operation, so a history of the store is a sequence of operations.  The
signer is a parameter of the two that issue, with an answer of its own each time, and so are the
clock's reading and a fresh identifier.  `Effect` says once what an operation does to the records and to
the enrolled keys; every invariant of the store is read off it.
-/
import PraxisGrid.Enrollment.Renewal
import PraxisGrid.Lib.OrdMap
import PraxisGrid.Lib.Run

namespace PraxisGrid.Enrollment

open Std

/-! ### The state -/

/-- Reasons a store operation could not be carried out. -/
inductive StoreError
  | notFound
  | nameTaken
  | tokenOutstanding
  | nameDeleted
  | keyReused
  | keyMismatch
  | tokenInvalid
  | refused (refusal : Refusal)
  | backend (detail : String)
deriving DecidableEq

/-- A token an operator mints so that a site can enroll under a pinned name. -/
structure NewSiteToken where
  tokenId : Option Uuid
  tokenSha256 : String
  publicKeySha256 : Option String
  siteName : String
  gridNetworkRef : String
  issuedBy : String
  expiresAt : Instant
  allowDeletedName : Bool

/-- The pinned name a redeemed token yields. -/
structure Pin where
  siteName : String
  publicKeySha256 : Option String

/-- A signed identity: the key it certifies and, where the certificate can be read, when it
expires. -/
structure Issued where
  siteName : String
  publicKeySha256 : String
  notAfter : Option Instant
deriving DecidableEq

structure TokenRow where
  tokenSha256 : String
  publicKeySha256 : Option String
  siteName : String
  gridNetworkRef : String
  issuedBy : String
  expiresAt : Instant
  allowDeletedName : Bool
  redeemedBy : Option Uuid

def NewSiteToken.row (token : NewSiteToken) : TokenRow :=
  ⟨token.tokenSha256, token.publicKeySha256, token.siteName, token.gridNetworkRef, token.issuedBy,
    token.expiresAt, token.allowDeletedName, none⟩

/-- The tokens and the names already issued. -/
structure Inner where
  tokens : ExtTreeMap Uuid TokenRow := ∅
  byDigest : ExtTreeMap String Uuid := ∅
  /-- the record renewal reads, and whether the name is reserved -/
  issuedNames : ExtTreeMap String (Held × Bool) := ∅
  notAfter : ExtTreeMap String Instant := ∅
  /-- every key ever enrolled, never removed -/
  enrolledKeys : ExtTreeSet String := ∅
  deletedNames : ExtTreeSet String := ∅

/-- An admitted, signed renewal. -/
structure Renewed where
  id : Uuid
  action : RenewAction
  replacedKey : String
  issued : Issued
deriving DecidableEq

/-- What an operation answers, with the state it leaves. -/
abbrev Outcome (α : Type) := Inner × Except StoreError α

/-! ### The operations -/

namespace Inner

/-- Drop a token, as revoke does. -/
def forget (inner : Inner) (tokenId : Uuid) : Inner :=
  match inner.tokens[tokenId]? with
  | none => inner
  | some row =>
    { inner with
      tokens := inner.tokens.erase tokenId
      byDigest := inner.byDigest.erase row.tokenSha256 }

/-- Record a token, unless the name is held, deleted without opt-in, or pinned by a live token. -/
def mintSiteToken (inner : Inner) (token : NewSiteToken) (fresh : Uuid) (now : Instant) :
    Outcome Uuid :=
  let tokenId := token.tokenId.getD fresh
  match inner.tokens[tokenId]? with
  | some existing =>
    if existing.tokenSha256 = token.tokenSha256 ∧ existing.siteName = token.siteName
        ∧ existing.gridNetworkRef = token.gridNetworkRef ∧ existing.issuedBy = token.issuedBy
        ∧ existing.publicKeySha256 = token.publicKeySha256 ∧ existing.expiresAt = token.expiresAt
        ∧ existing.allowDeletedName = token.allowDeletedName then
      (inner, .ok tokenId)
    else (inner, .error (.backend "site token id is already in use"))
  | none =>
    if token.siteName ∈ inner.issuedNames then (inner, .error .nameTaken)
    else if token.allowDeletedName = false ∧ token.siteName ∈ inner.deletedNames then
      (inner, .error .nameDeleted)
    else if (OrdMap.values inner.tokens).any fun row =>
        row.siteName = token.siteName && row.redeemedBy.isNone && now < row.expiresAt then
      (inner, .error .tokenOutstanding)
    else if token.tokenSha256 ∈ inner.byDigest then
      (inner, .error (.backend "site token digest is already in use"))
    else
      ({ inner with
          byDigest := inner.byDigest.insert token.tokenSha256 tokenId
          tokens := inner.tokens.insert tokenId token.row },
        .ok tokenId)

def revokeSiteToken (inner : Inner) (tokenId : Uuid) : Outcome Unit :=
  if inner.tokens[tokenId]?.any fun row => row.redeemedBy.isNone then
    (inner.forget tokenId, .ok ())
  else (inner, .error .notFound)

/-- The expiry of an issued certificate is kept under its name when it can be read. -/
def noteExpiry (inner : Inner) (siteName : String) (issued : Issued) : Inner :=
  match issued.notAfter with
  | none => inner
  | some expiry => { inner with notAfter := inner.notAfter.insert siteName expiry }

def usableToken (inner : Inner) (tokenSha256 : String) (now : Instant) :
    Option (Uuid × TokenRow) := do
  let tokenId ← inner.byDigest[tokenSha256]?
  let row ← inner.tokens[tokenId]?
  guard (row.redeemedBy.isNone ∧ now < row.expiresAt)
  pure (tokenId, row)

/-- Redeem a token by digest, sign under its pin, and record the enrollment. -/
def redeemAndIssue (inner : Inner) (tokenSha256 : String) (sign : Pin → Except StoreError Issued)
    (fresh : Uuid) (now : Instant) : Outcome (Uuid × Issued) :=
  match inner.usableToken tokenSha256 now with
  | none => (inner, .error .tokenInvalid)
  | some (tokenId, row) =>
    let signed :=
      if row.siteName ∈ inner.issuedNames then .error .nameTaken
      else if row.allowDeletedName = false ∧ row.siteName ∈ inner.deletedNames then
        .error .nameDeleted
      else sign ⟨row.siteName, row.publicKeySha256⟩
    match signed with
    -- The token of a deleted name is revoked, whoever reports the deletion.
    | .error .nameDeleted => (inner.forget tokenId, .error .nameDeleted)
    | .error error => (inner, .error error)
    | .ok issued =>
      if issued.publicKeySha256 ∈ inner.enrolledKeys then (inner, .error .keyReused)
      else
        let spent :=
          { inner with
            enrolledKeys := inner.enrolledKeys.insert issued.publicKeySha256
            tokens := inner.tokens.insert tokenId { row with redeemedBy := some fresh } }
        let held := Held.new fresh issued.publicKeySha256 none now
        ({ spent.noteExpiry row.siteName issued with
            issuedNames := inner.issuedNames.insert row.siteName (held, false) },
          .ok (fresh, issued))

/-- Admit a renewal, sign, and record the new key. -/
def renewAndIssue (inner : Inner) (renewal : Renewal) (sign : Except StoreError Issued)
    (now : Instant) : Outcome Renewed :=
  match inner.issuedNames[renewal.siteName]? with
  | none => (inner, .error (.refused .unknownSite))
  | some (held, reserved) =>
    match renewal.decide (some held) with
    | .error .forked =>
      let frozen := { held with frozen := true }
      ({ inner with issuedNames := inner.issuedNames.insert renewal.siteName (frozen, reserved) },
        .error (.refused .forked))
    | .error refusal => (inner, .error (.refused refusal))
    | .ok action =>
      if action = .rotate ∧ renewal.requestedKey ∈ inner.enrolledKeys then
        (inner, .error (.refused .keyReused))
      else
        match sign with
        | .error error => (inner, .error error)
        | .ok issued =>
          let recorded :=
            match action with
            | .resign => inner
            | .rotate =>
              let rotated := held.rotate renewal.requestedKey now
              { inner with
                enrolledKeys := inner.enrolledKeys.insert renewal.requestedKey
                issuedNames := inner.issuedNames.insert renewal.siteName (rotated, reserved) }
          (recorded.noteExpiry renewal.siteName issued,
            .ok ⟨held.id, action, held.currentKey, issued⟩)

def seedReserved (inner : Inner) (seed : SeedRecord) (fresh : Uuid) (now : Instant) :
    Inner × Seeded :=
  let entry := inner.issuedNames[seed.siteName]?
  let seeded := seedDecision entry seed
  let id := (entry.map fun record => record.1.id).getD fresh
  let begun :=
    { inner with
      issuedNames := inner.issuedNames.insert seed.siteName (seed.held id now, true)
      notAfter := inner.notAfter.erase seed.siteName
      enrolledKeys := inner.enrolledKeys.insert seed.keySha256 }
  let next :=
    match seeded, entry with
    | .acknowledged, some (held, reserved) =>
      let acknowledged := { held with seedGeneration := some seed.generation }
      { inner with issuedNames := inner.issuedNames.insert seed.siteName (acknowledged, reserved) }
    | .registered, _ => begun
    | .reset _, _ => begun
    | _, _ => inner
  (next, seeded)

/-- Delete a record.  The name is recorded as deleted and its keys stay enrolled. -/
def deleteEnrollment (inner : Inner) (siteName : String) : Outcome Unit :=
  let kept :=
    { inner with
      issuedNames := inner.issuedNames.erase siteName
      notAfter := inner.notAfter.erase siteName }
  if siteName ∈ inner.issuedNames then
    ({ kept with deletedNames := inner.deletedNames.insert siteName }, .ok ())
  else (kept, .error .notFound)

end Inner

/-! ### Histories -/

/-- A store operation with what it reads from outside. -/
inductive Op
  | mint (token : NewSiteToken) (fresh : Uuid) (now : Instant)
  | revoke (tokenId : Uuid)
  | redeem (tokenSha256 : String) (sign : Pin → Except StoreError Issued) (fresh : Uuid)
      (now : Instant)
  | renew (renewal : Renewal) (sign : Except StoreError Issued) (now : Instant)
  | seed (seed : SeedRecord) (fresh : Uuid) (now : Instant)
  | delete (siteName : String)

/-- The state after an operation. -/
def Inner.step (inner : Inner) : Op → Inner
  | .mint token fresh now => (inner.mintSiteToken token fresh now).1
  | .revoke tokenId => (inner.revokeSiteToken tokenId).1
  | .redeem tokenSha256 sign fresh now => (inner.redeemAndIssue tokenSha256 sign fresh now).1
  | .renew renewal sign now => (inner.renewAndIssue renewal sign now).1
  | .seed seed fresh now => (inner.seedReserved seed fresh now).1
  | .delete siteName => (inner.deleteEnrollment siteName).1

/-- The state after a history. -/
def Inner.after (inner : Inner) (ops : List Op) : Inner := Run.run Inner.step inner ops

def Inner.record? (inner : Inner) (name : String) : Option Held :=
  inner.issuedNames[name]?.map Prod.fst

def Inner.currentKey? (inner : Inner) (name : String) : Option String :=
  (inner.record? name).map Held.currentKey

def Inner.Begins (inner : Inner) (seed : SeedRecord) : Prop :=
  match seedDecision inner.issuedNames[seed.siteName]? seed with
  | .registered => True
  | .reset _ => True
  | _ => False

instance (inner : Inner) (seed : SeedRecord) : Decidable (inner.Begins seed) := by
  unfold Inner.Begins
  split <;> infer_instance

/-! ### Reading a changed record -/

section Records

variable {inner inner' : Inner} {name : String} {record : Held × Bool}

theorem record?_insert (h : inner'.issuedNames = inner.issuedNames.insert name record)
    (other : String) :
    inner'.record? other = if name = other then some record.1 else inner.record? other := by
  unfold Inner.record?
  rw [h, OrdMap.getElem?_insert]
  split <;> rfl

theorem record?_erase (h : inner'.issuedNames = inner.issuedNames.erase name) (other : String) :
    inner'.record? other = if name = other then none else inner.record? other := by
  unfold Inner.record?
  rw [h, OrdMap.getElem?_erase]
  split <;> rfl

theorem record?_eq_of_issuedNames (h : inner'.issuedNames = inner.issuedNames) (other : String) :
    inner'.record? other = inner.record? other := by
  unfold Inner.record?
  rw [h]

theorem record?_of_getElem? {held : Held} {reserved : Bool}
    (h : inner.issuedNames[name]? = some (held, reserved)) : inner.record? name = some held := by
  unfold Inner.record?
  rw [h]
  rfl

theorem exists_getElem?_of_record? {held : Held} (h : inner.record? name = some held) :
    ∃ reserved, inner.issuedNames[name]? = some (held, reserved) := by
  obtain ⟨⟨held', reserved⟩, hen, rfl⟩ := Option.map_eq_some_iff.mp h
  exact ⟨reserved, hen⟩

end Records

/-! ### What an operation does to the records -/

inductive Effect (inner : Inner) : Op → Inner → Prop
  /-- no record changes and no key is enrolled -/
  | kept {op inner'} (hnames : inner'.issuedNames = inner.issuedNames)
      (hkeys : inner'.enrolledKeys = inner.enrolledKeys) : Effect inner op inner'
  /-- a token is redeemed for a free name and a key that was never enrolled -/
  | enrolled {digest sign fresh now inner' name key}
      (hfree : name ∉ inner.issuedNames) (hnew : key ∉ inner.enrolledKeys)
      (hsign : ∃ pin issued, sign pin = .ok issued ∧ issued.publicKeySha256 = key)
      (hnames : inner'.issuedNames
        = inner.issuedNames.insert name (Held.new fresh key none now, false))
      (hkeys : inner'.enrolledKeys = inner.enrolledKeys.insert key) :
      Effect inner (.redeem digest sign fresh now) inner'
  /-- the current key asks for a key that was never enrolled -/
  | rotated {renewal sign now inner' held reserved issued}
      (hheld : inner.issuedNames[renewal.siteName]? = some (held, reserved))
      (hrotate : renewal.decide (some held) = .ok .rotate)
      (hnew : renewal.requestedKey ∉ inner.enrolledKeys) (hsign : sign = .ok issued)
      (hnames : inner'.issuedNames = inner.issuedNames.insert renewal.siteName
        (held.rotate renewal.requestedKey now, reserved))
      (hkeys : inner'.enrolledKeys = inner.enrolledKeys.insert renewal.requestedKey) :
      Effect inner (.renew renewal sign now) inner'
  /-- a second holder shows up -/
  | froze {renewal sign now inner' held reserved}
      (hheld : inner.issuedNames[renewal.siteName]? = some (held, reserved))
      (hforked : renewal.decide (some held) = .error .forked)
      (hnames : inner'.issuedNames
        = inner.issuedNames.insert renewal.siteName ({ held with frozen := true }, reserved))
      (hkeys : inner'.enrolledKeys = inner.enrolledKeys) :
      Effect inner (.renew renewal sign now) inner'
  /-- a seed for a key the record holds leaves only its generation -/
  | acknowledged {seed fresh now inner' held reserved}
      (hheld : inner.issuedNames[seed.siteName]? = some (held, reserved))
      (hnames : inner'.issuedNames = inner.issuedNames.insert seed.siteName
        ({ held with seedGeneration := some seed.generation }, reserved))
      (hkeys : inner'.enrolledKeys = inner.enrolledKeys) :
      Effect inner (.seed seed fresh now) inner'
  /-- a seed begins an incarnation -/
  | begun {seed fresh now inner' id} (hbegins : inner.Begins seed)
      (hnames : inner'.issuedNames
        = inner.issuedNames.insert seed.siteName (seed.held id now, true))
      (hkeys : inner'.enrolledKeys = inner.enrolledKeys.insert seed.keySha256) :
      Effect inner (.seed seed fresh now) inner'
  /-- a record is deleted -/
  | deleted {name inner'} (hnames : inner'.issuedNames = inner.issuedNames.erase name)
      (hkeys : inner'.enrolledKeys = inner.enrolledKeys) : Effect inner (.delete name) inner'

namespace Inner

variable (inner : Inner)

@[simp] theorem forget_issuedNames (tokenId : Uuid) :
    (inner.forget tokenId).issuedNames = inner.issuedNames := by
  unfold forget
  split <;> rfl

@[simp] theorem forget_enrolledKeys (tokenId : Uuid) :
    (inner.forget tokenId).enrolledKeys = inner.enrolledKeys := by
  unfold forget
  split <;> rfl

@[simp] theorem noteExpiry_issuedNames :
    (inner.noteExpiry name issued).issuedNames = inner.issuedNames := by
  unfold noteExpiry
  split <;> rfl

@[simp] theorem noteExpiry_enrolledKeys :
    (inner.noteExpiry name issued).enrolledKeys = inner.enrolledKeys := by
  unfold noteExpiry
  split <;> rfl

theorem effect_mint (token : NewSiteToken) (fresh : Uuid) (now : Instant) :
    Effect inner (.mint token fresh now) (inner.mintSiteToken token fresh now).1 := by
  unfold mintSiteToken
  dsimp only
  split
  · split <;> exact .kept rfl rfl
  · split_ifs <;> exact .kept rfl rfl

theorem effect_revoke (tokenId : Uuid) :
    Effect inner (.revoke tokenId) (inner.revokeSiteToken tokenId).1 := by
  unfold revokeSiteToken
  split
  · exact .kept (inner.forget_issuedNames tokenId) (inner.forget_enrolledKeys tokenId)
  · exact .kept rfl rfl

theorem effect_redeem (digest : String) (sign : Pin → Except StoreError Issued) (fresh : Uuid)
    (now : Instant) :
    Effect inner (.redeem digest sign fresh now) (inner.redeemAndIssue digest sign fresh now).1 := by
  unfold redeemAndIssue
  split
  · exact .kept rfl rfl
  · rename_i tokenId row _
    dsimp only
    split
    · exact .kept (inner.forget_issuedNames tokenId) (inner.forget_enrolledKeys tokenId)
    · exact .kept rfl rfl
    · rename_i issued hsg
      split_ifs with hkey
      · exact .kept rfl rfl
      · -- the signer was reached, so the name is free
        have hfr : row.siteName ∉ inner.issuedNames := by
          intro hnm
          rw [if_pos hnm] at hsg
          cases hsg
        rw [if_neg hfr] at hsg
        split at hsg
        · cases hsg
        · exact .enrolled hfr hkey ⟨_, issued, hsg, rfl⟩ rfl (by simp)

theorem effect_renew (renewal : Renewal) (sign : Except StoreError Issued) (now : Instant) :
    Effect inner (.renew renewal sign now) (inner.renewAndIssue renewal sign now).1 := by
  unfold renewAndIssue
  split
  · exact .kept rfl rfl
  · rename_i held reserved hhl
    split
    · rename_i hfr
      exact .froze hhl hfr rfl rfl
    · exact .kept rfl rfl
    · rename_i action hadm
      split_ifs with hrs
      · exact .kept rfl rfl
      · cases sign with
        | error error => exact .kept rfl rfl
        | ok issued =>
          cases action with
          | resign => exact .kept (by simp) (by simp)
          | rotate =>
            have hnew : renewal.requestedKey ∉ inner.enrolledKeys :=
              fun hkey => hrs ⟨rfl, hkey⟩
            exact .rotated hhl hadm hnew rfl (by simp) (by simp)

theorem effect_seed (seed : SeedRecord) (fresh : Uuid) (now : Instant) :
    Effect inner (.seed seed fresh now) (inner.seedReserved seed fresh now).1 := by
  unfold seedReserved
  dsimp only
  split
  · rename_i hen
    exact .acknowledged hen rfl rfl
  · rename_i hsd
    exact .begun (by simp [Begins, hsd]) rfl rfl
  · rename_i hsd
    exact .begun (by simp [Begins, hsd]) rfl rfl
  · exact .kept rfl rfl

theorem effect_delete (name : String) :
    Effect inner (.delete name) (inner.deleteEnrollment name).1 := by
  unfold deleteEnrollment
  split <;> exact .deleted rfl rfl

/-- **Every operation has one of the effects.** -/
theorem effect_step (op : Op) : Effect inner op (inner.step op) := by
  cases op with
  | mint token fresh now => exact inner.effect_mint token fresh now
  | revoke tokenId => exact inner.effect_revoke tokenId
  | redeem digest sign fresh now => exact inner.effect_redeem digest sign fresh now
  | renew renewal sign now => exact inner.effect_renew renewal sign now
  | seed seed fresh now => exact inner.effect_seed seed fresh now
  | delete name => exact inner.effect_delete name

end Inner

/-! ### What a renewal answers -/

section Answers

variable {inner : Inner} {renewal : Renewal} {held : Held} {issued : Issued} {now : Instant}

theorem renewAndIssue_rotate (hhl : inner.record? renewal.siteName = some held)
    (hrt : renewal.decide (some held) = .ok .rotate)
    (hnew : renewal.requestedKey ∉ inner.enrolledKeys) :
    (inner.renewAndIssue renewal (.ok issued) now).2
        = .ok ⟨held.id, .rotate, held.currentKey, issued⟩
      ∧ (inner.renewAndIssue renewal (.ok issued) now).1.record? renewal.siteName
        = some (held.rotate renewal.requestedKey now) := by
  obtain ⟨reserved, hen⟩ := exists_getElem?_of_record? hhl
  unfold Inner.renewAndIssue
  rw [hen]
  dsimp only
  rw [hrt]
  dsimp only
  rw [if_neg fun h => hnew h.2]
  refine ⟨rfl, ?_⟩
  unfold Inner.record?
  simp

theorem renewAndIssue_resign (hhl : inner.record? renewal.siteName = some held)
    (hrs : renewal.decide (some held) = .ok .resign) :
    (inner.renewAndIssue renewal (.ok issued) now).2
        = .ok ⟨held.id, .resign, held.currentKey, issued⟩
      ∧ (inner.renewAndIssue renewal (.ok issued) now).1.record? renewal.siteName = some held := by
  obtain ⟨reserved, hen⟩ := exists_getElem?_of_record? hhl
  unfold Inner.renewAndIssue
  rw [hen]
  dsimp only
  rw [hrs]
  dsimp only
  rw [if_neg fun h => by cases h.1]
  refine ⟨rfl, ?_⟩
  unfold Inner.record?
  simp [hen]

theorem issuedNames_of_begins {seed : SeedRecord} (fresh : Uuid) (h : inner.Begins seed) :
    ∃ id, (inner.seedReserved seed fresh now).1.issuedNames
      = inner.issuedNames.insert seed.siteName (seed.held id now, true) := by
  unfold Inner.Begins at h
  unfold Inner.seedReserved
  dsimp only
  split at h
  · rename_i hrg
    rw [hrg]
    exact ⟨_, rfl⟩
  · rename_i hrs
    rw [hrs]
    exact ⟨_, rfl⟩
  · exact h.elim

end Answers

/-! ### What an operation does to one record -/

/-- An operation changes the record of one name at most. -/
theorem Effect.frame {inner inner' : Inner} {op : Op} (h : Effect inner op inner') :
    ∃ name, ∀ other, name ≠ other → inner'.record? other = inner.record? other := by
  cases h with
  | kept hnm hky =>
    exact ⟨"", fun other _ => record?_eq_of_issuedNames hnm other⟩
  | @enrolled _ _ _ _ _ name _ _ _ _ hnm _ =>
    exact ⟨name, fun other hne => by rw [record?_insert hnm, if_neg hne]⟩
  | @rotated renewal _ _ _ _ _ _ _ _ _ _ hnm _ | @froze renewal _ _ _ _ _ _ _ hnm _ =>
    exact ⟨renewal.siteName, fun other hne => by rw [record?_insert hnm, if_neg hne]⟩
  | @acknowledged seed _ _ _ _ _ _ hnm _ | @begun seed _ _ _ _ _ hnm _ =>
    exact ⟨seed.siteName, fun other hne => by rw [record?_insert hnm, if_neg hne]⟩
  | @deleted name _ hnm _ =>
    exact ⟨name, fun other hne => by rw [record?_erase hnm, if_neg hne]⟩

inductive RecordEffect (inner : Inner) (name : String) (held : Held) : Op → Option Held → Prop
  | kept {op} : RecordEffect inner name held op (some held)
  | rotated {renewal issued now} (hname : renewal.siteName = name)
      (hrotate : renewal.decide (some held) = .ok .rotate)
      (hnew : renewal.requestedKey ∉ inner.enrolledKeys) :
      RecordEffect inner name held (.renew renewal (.ok issued) now)
        (some (held.rotate renewal.requestedKey now))
  | froze {renewal sign now} (hname : renewal.siteName = name)
      (hforked : renewal.decide (some held) = .error .forked) :
      RecordEffect inner name held (.renew renewal sign now) (some { held with frozen := true })
  | acknowledged {seed fresh now} (hname : seed.siteName = name) :
      RecordEffect inner name held (.seed seed fresh now)
        (some { held with seedGeneration := some seed.generation })
  | begun {seed fresh now id} (hname : seed.siteName = name) (hbegins : inner.Begins seed) :
      RecordEffect inner name held (.seed seed fresh now) (some (seed.held id now))
  | deleted : RecordEffect inner name held (.delete name) none

/-- **What an operation does to a held record.** -/
theorem Effect.record {inner inner' : Inner} {op : Op} {name : String} {held : Held}
    (h : Effect inner op inner') (hhl : inner.record? name = some held) :
    RecordEffect inner name held op (inner'.record? name) := by
  cases h with
  | kept hnm _ =>
    rw [record?_eq_of_issuedNames hnm, hhl]
    exact .kept
  | @enrolled _ _ _ _ _ other _ hfree _ _ hnm _ =>
    -- a free name is not this one
    have hne : other ≠ name := by
      rintro rfl
      obtain ⟨reserved, hen⟩ := exists_getElem?_of_record? hhl
      exact hfree (Std.ExtTreeMap.mem_iff_isSome_getElem?.mpr (by rw [hen]; rfl))
    rw [record?_insert hnm, if_neg hne, hhl]
    exact .kept
  | @rotated renewal _ _ _ _ _ _ hen hrt hnew hsg hnm _ =>
    subst hsg
    rw [record?_insert hnm]
    split_ifs with hna
    · cases (record?_of_getElem? (hna ▸ hen)).symm.trans hhl
      exact .rotated hna hrt hnew
    · rw [hhl]
      exact .kept
  | @froze renewal _ _ _ _ _ hen hfr hnm _ =>
    rw [record?_insert hnm]
    split_ifs with hna
    · cases (record?_of_getElem? (hna ▸ hen)).symm.trans hhl
      exact .froze hna hfr
    · rw [hhl]
      exact .kept
  | @acknowledged seed _ _ _ _ _ hen hnm _ =>
    rw [record?_insert hnm]
    split_ifs with hna
    · cases (record?_of_getElem? (hna ▸ hen)).symm.trans hhl
      exact .acknowledged hna
    · rw [hhl]
      exact .kept
  | @begun seed _ _ _ _ hbg hnm _ =>
    rw [record?_insert hnm]
    split_ifs with hna
    · exact .begun hna hbg
    · rw [hhl]
      exact .kept
  | @deleted other _ hnm _ =>
    rw [record?_erase hnm]
    split_ifs with hna
    · subst hna
      exact .deleted
    · rw [hhl]
      exact .kept

theorem Effect.enrolledKeys_subset {inner inner' : Inner} {op : Op} (h : Effect inner op inner')
    {key : String} (hkey : key ∈ inner.enrolledKeys) : key ∈ inner'.enrolledKeys := by
  cases h with
  | kept _ hky | froze _ _ _ hky | acknowledged _ _ hky | deleted _ hky =>
    rwa [hky]
  | enrolled _ _ _ _ hky | rotated _ _ _ _ _ hky | begun _ _ hky =>
    rw [hky, OrdMap.mem_insert]
    exact Or.inr hkey

/-! ### Operations for small histories -/

instance neZero_million : NeZero 1000000 := ⟨by decide⟩

/-- A time in whole seconds of the first ones. -/
def Instant.seconds (seconds : Fin 1000000) : Instant :=
  ⟨seconds * 1000000000, by have := seconds.isLt; omega⟩

def renewalOf (siteName presented requested : String) : Renewal :=
  ⟨siteName, presented, requested, .seconds 0⟩

def renewing (siteName presented requested : String) : Op :=
  .renew (renewalOf siteName presented requested) (.ok ⟨siteName, requested, none⟩) (.seconds 0)

def seeding (siteName key : String) (generation : Nat) (time : Fin 1000000) : Op :=
  .seed ⟨siteName, key, generation, .seconds time⟩ 1 (.seconds time)

end PraxisGrid.Enrollment
