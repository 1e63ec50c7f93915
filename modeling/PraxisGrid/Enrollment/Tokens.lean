/-
PraxisGrid/Enrollment/Tokens.lean

A site token is one-shot and exact: `MemoryStore::mint_site_token`, `revoke_site_token` and
`redeem_and_issue`.

The rows of the tokens and their digest index change together: a token is recorded, an open token is
dropped, or a usable token is marked as redeemed (`TokenEffect`).  A redeemed row is never dropped,
so neither its identifier nor its digest is ever free again; and a token is recorded only when no
live token pins its name, which stays so while the clock does not go back.
-/
import PraxisGrid.Enrollment.Forks
import PraxisGrid.Enrollment.Keys

namespace PraxisGrid.Enrollment

open Std PraxisGrid.Enrollment.Inner OrdMap Option

/-! ### Issues -/

/-- The token that an operation issues a certificate for. -/
def Inner.spent? (inner : Inner) : Op → Option (Uuid × TokenRow)
  | .redeem digest sign fresh now =>
    match (inner.redeemAndIssue digest sign fresh now).2 with
    | .ok _ => inner.usableToken digest now
    | .error _ => none
  | _ => none

def TokenRow.asMinted (row : TokenRow) : TokenRow := { row with redeemedBy := none }

/-- An operation of a history issued a certificate for the token. -/
def SpentIn (ops : List Op) (tokenId : Uuid) (row : TokenRow) : Prop :=
  ∃ ops₁ op ops₂, ops = ops₁ ++ op :: ops₂ ∧ (Inner.after {} ops₁).spent? op = some (tokenId, row)

/-- The token was recorded in a history and its row is there ever since. -/
def MintedIn (ops : List Op) (tokenId : Uuid) (token : NewSiteToken) : Prop :=
  ∃ before fresh now since, ops = before ++ .mint token fresh now :: since
    ∧ token.tokenId.getD fresh = tokenId
    ∧ ∀ part rest, since = part ++ rest → ∃ row,
      (Inner.after {} (before ++ .mint token fresh now :: part)).tokens[tokenId]? = some row
        ∧ row.asMinted = token.row

/-! ### What a redemption does -/

/-- The state once a certificate was issued for a token: its row is marked, its name is held and the
key is enrolled. -/
def Inner.enroll (inner : Inner) (tokenId : Uuid) (row : TokenRow) (issued : Issued) (fresh : Uuid)
    (now : Instant) : Inner :=
  let spent :=
    { inner with
      enrolledKeys := inner.enrolledKeys.insert issued.publicKeySha256
      tokens := inner.tokens.insert tokenId { row with redeemedBy := some fresh } }
  { spent.noteExpiry row.siteName issued with
    issuedNames := inner.issuedNames.insert row.siteName
      (Held.new fresh issued.publicKeySha256 none now, false) }

section Redemption

variable {inner : Inner} {digest : String} {now : Instant} {tokenId : Uuid} {row : TokenRow}
  {sign : Pin → Except StoreError Issued} {fresh : Uuid} {issued : Issued}

@[simp] theorem enroll_tokens :
    (inner.enroll tokenId row issued fresh now).tokens
      = inner.tokens.insert tokenId { row with redeemedBy := some fresh } := by
  unfold enroll noteExpiry
  split <;> rfl

@[simp] theorem enroll_byDigest :
    (inner.enroll tokenId row issued fresh now).byDigest = inner.byDigest := by
  unfold enroll noteExpiry
  split <;> rfl

@[simp] theorem enroll_issuedNames :
    (inner.enroll tokenId row issued fresh now).issuedNames
      = inner.issuedNames.insert row.siteName
        (Held.new fresh issued.publicKeySha256 none now, false) := rfl

theorem usableToken_eq_some_iff :
    inner.usableToken digest now = some (tokenId, row) ↔ inner.byDigest[digest]? = some tokenId
      ∧ inner.tokens[tokenId]? = some row ∧ row.redeemedBy = none ∧ now < row.expiresAt := by
  unfold usableToken
  simp only [bind_eq_bind, bind_eq_some_iff, guard_eq_some', pure_def,
    isNone_iff_eq_none]
  constructor
  · rintro ⟨id, hid, found, hfn, -, ⟨hopen, hlv⟩, hpr⟩
    cases hpr
    exact ⟨hid, hfn, hopen, hlv⟩
  · rintro ⟨hid, hrow, hopen, hlv⟩
    exact ⟨tokenId, hid, row, hrow, (), ⟨hopen, hlv⟩, rfl⟩

/-- The effects of a redemption that finds a usable token, with its answer. -/
inductive Redemption (inner : Inner) (tokenId : Uuid) (row : TokenRow)
    (sign : Pin → Except StoreError Issued) (fresh : Uuid) (now : Instant) :
    Outcome (Uuid × Issued) → Prop
  /-- the name was deleted and the token did not opt in, or the signer says so -/
  | forgotten : Redemption inner tokenId row sign fresh now
      (inner.forget tokenId, .error .nameDeleted)
  | refused {error : StoreError} (herror : error ≠ .nameDeleted) :
      Redemption inner tokenId row sign fresh now (inner, .error error)
  | issued {issued : Issued} (hfree : row.siteName ∉ inner.issuedNames)
      (hdeleted : row.siteName ∈ inner.deletedNames → row.allowDeletedName = true)
      (hsign : sign ⟨row.siteName, row.publicKeySha256⟩ = .ok issued)
      (hkey : issued.publicKeySha256 ∉ inner.enrolledKeys) :
      Redemption inner tokenId row sign fresh now
        (inner.enroll tokenId row issued fresh now, .ok (fresh, issued))

/-- **What a redemption does with a usable token.** -/
theorem redemption_of_usable (hus : inner.usableToken digest now = some (tokenId, row)) :
    Redemption inner tokenId row sign fresh now
      (inner.redeemAndIssue digest sign fresh now) := by
  unfold redeemAndIssue
  rw [hus]
  dsimp only
  split
  · exact .forgotten
  · rename_i error hne hsg
    exact .refused hne
  · rename_i issued hsg
    split_ifs at hsg with hnm hdl
    split_ifs with hkey
    · exact .refused StoreError.noConfusion
    · refine .issued hnm ?_ hsg hkey
      intro hmem
      by_contra hopt
      exact hdl ⟨Bool.eq_false_of_not_eq_true hopt, hmem⟩

theorem redeemAndIssue_of_unusable (h : inner.usableToken digest now = none) :
    inner.redeemAndIssue digest sign fresh now = (inner, .error .tokenInvalid) := by
  unfold redeemAndIssue
  rw [h]

end Redemption

/-! ### What an operation does to the tokens -/

/-- The effect of an operation on the tokens and their index. -/
inductive TokenEffect (inner : Inner) : Op → Inner → Prop
  | kept {op inner'} (htokens : inner'.tokens = inner.tokens)
      (hindex : inner'.byDigest = inner.byDigest) (hspent : inner.spent? op = none) :
      TokenEffect inner op inner'
  /-- a token is recorded under a new identifier and a new digest, for a name no live token pins -/
  | minted {token fresh now inner'} (hid : inner.tokens[token.tokenId.getD fresh]? = none)
      (hdigest : inner.byDigest[token.tokenSha256]? = none)
      (hpinned : ∀ (id : Uuid) (row : TokenRow), inner.tokens[id]? = some row →
        row.siteName = token.siteName → row.redeemedBy = none → ¬now < row.expiresAt)
      (htokens : inner'.tokens = inner.tokens.insert (token.tokenId.getD fresh) token.row)
      (hindex : inner'.byDigest
        = inner.byDigest.insert token.tokenSha256 (token.tokenId.getD fresh)) :
      TokenEffect inner (.mint token fresh now) inner'
  /-- a token that was not redeemed is dropped -/
  | forgotten {op inner' tokenId row} (hrow : inner.tokens[tokenId]? = some row)
      (hopen : row.redeemedBy = none) (htokens : inner'.tokens = inner.tokens.erase tokenId)
      (hindex : inner'.byDigest = inner.byDigest.erase row.tokenSha256)
      (hspent : inner.spent? op = none) : TokenEffect inner op inner'
  /-- a certificate is issued for a token, which is marked -/
  | spent {digest sign fresh now inner' tokenId row}
      (husable : inner.usableToken digest now = some (tokenId, row))
      (htokens : inner'.tokens
        = inner.tokens.insert tokenId { row with redeemedBy := some fresh })
      (hindex : inner'.byDigest = inner.byDigest)
      (hspent : inner.spent? (.redeem digest sign fresh now) = some (tokenId, row)) :
      TokenEffect inner (.redeem digest sign fresh now) inner'

section Effects

variable {inner : Inner}

theorem forget_of_row {tokenId : Uuid} {row : TokenRow} (h : inner.tokens[tokenId]? = some row) :
    (inner.forget tokenId).tokens = inner.tokens.erase tokenId
      ∧ (inner.forget tokenId).byDigest = inner.byDigest.erase row.tokenSha256 := by
  unfold forget
  rw [h]
  exact ⟨rfl, rfl⟩

theorem tokenEffect_mint (token : NewSiteToken) :
    TokenEffect inner (.mint token fresh now) (inner.mintSiteToken token fresh now).1 := by
  unfold mintSiteToken
  dsimp only
  split
  · split <;> exact .kept rfl rfl rfl
  · rename_i hid
    split_ifs with hnm hdl hpin hdg
    · exact .kept rfl rfl rfl
    · exact .kept rfl rfl rfl
    · exact .kept rfl rfl rfl
    · exact .kept rfl rfl rfl
    · refine .minted hid (ExtTreeMap.getElem?_eq_none hdg) ?_ rfl rfl
      intro id row hrow hst hopen hlv
      apply hpin
      rw [List.any_eq_true]
      refine ⟨row, mem_values.mpr ⟨id, hrow⟩, ?_⟩
      simp [hst, hopen, hlv]

theorem tokenEffect_revoke :
    TokenEffect inner (.revoke tokenId) (inner.revokeSiteToken tokenId).1 := by
  unfold revokeSiteToken
  rcases hrow : inner.tokens[tokenId]? with - | row
  · exact .kept rfl rfl rfl
  · split_ifs with hopen
    · obtain ⟨htk, hin⟩ := forget_of_row hrow
      exact .forgotten hrow (isNone_iff_eq_none.mp hopen) htk hin rfl
    · exact .kept rfl rfl rfl

theorem tokenEffect_redeem :
    TokenEffect inner (.redeem digest sign fresh now)
      (inner.redeemAndIssue digest sign fresh now).1 := by
  have hsp : inner.spent? (.redeem digest sign fresh now)
      = match (inner.redeemAndIssue digest sign fresh now).2 with
        | .ok _ => inner.usableToken digest now
        | .error _ => none := rfl
  rcases hus : inner.usableToken digest now with - | ⟨tokenId, row⟩
  · rw [redeemAndIssue_of_unusable hus] at hsp ⊢
    exact .kept rfl rfl hsp
  · obtain ⟨-, hrow, hopen, -⟩ := usableToken_eq_some_iff.mp hus
    have hrd : Redemption inner tokenId row sign fresh now
        (inner.redeemAndIssue digest sign fresh now) := redemption_of_usable hus
    generalize inner.redeemAndIssue digest sign fresh now = outcome at hrd hsp ⊢
    cases hrd with
    | forgotten =>
      obtain ⟨htk, hin⟩ := forget_of_row hrow
      exact .forgotten hrow hopen htk hin hsp
    | refused herr => exact .kept rfl rfl hsp
    | issued hfr hdl hsg hkey =>
      exact .spent hus enroll_tokens enroll_byDigest (hsp.trans hus)

@[simp] theorem noteExpiry_tokens (name : String) :
    (inner.noteExpiry name issued).tokens = inner.tokens := by
  unfold noteExpiry
  split <;> rfl

@[simp] theorem noteExpiry_byDigest (name : String) :
    (inner.noteExpiry name issued).byDigest = inner.byDigest := by
  unfold noteExpiry
  split <;> rfl

theorem renewAndIssue_tokens (renewal : Renewal) (sign : Except StoreError Issued) :
    (inner.renewAndIssue renewal sign now).1.tokens = inner.tokens
      ∧ (inner.renewAndIssue renewal sign now).1.byDigest = inner.byDigest := by
  unfold renewAndIssue
  split
  · exact ⟨rfl, rfl⟩
  · split
    · exact ⟨rfl, rfl⟩
    · exact ⟨rfl, rfl⟩
    · rename_i action _
      split_ifs
      · exact ⟨rfl, rfl⟩
      · cases sign with
        | error error => exact ⟨rfl, rfl⟩
        | ok issued => cases action <;> simp

theorem seedReserved_tokens (seed : SeedRecord) :
    (inner.seedReserved seed fresh now).1.tokens = inner.tokens
      ∧ (inner.seedReserved seed fresh now).1.byDigest = inner.byDigest := by
  unfold seedReserved
  dsimp only
  split <;> exact ⟨rfl, rfl⟩

/-- **Every operation has one of the effects on the tokens.** -/
theorem tokenEffect_step (inner : Inner) (op : Op) : TokenEffect inner op (inner.step op) := by
  cases op with
  | mint token fresh now => exact tokenEffect_mint token
  | revoke tokenId => exact tokenEffect_revoke
  | redeem digest sign fresh now => exact tokenEffect_redeem
  | renew renewal sign now =>
    obtain ⟨htk, hin⟩ := renewAndIssue_tokens renewal sign
    exact .kept htk hin rfl
  | seed seed fresh now =>
    obtain ⟨htk, hin⟩ := seedReserved_tokens seed
    exact .kept htk hin rfl
  | delete name =>
    show TokenEffect inner _ (inner.deleteEnrollment name).1
    unfold deleteEnrollment
    split <;> exact .kept rfl rfl rfl

end Effects

/-! ### The index -/

section Index

variable {inner inner' : Inner} {op : Op}

/-- The digest index maps exactly the tokens that are stored. -/
def Inner.Indexed (inner : Inner) : Prop :=
  ∀ (digest : String) (tokenId : Uuid), inner.byDigest[digest]? = some tokenId
    ↔ ∃ row, inner.tokens[tokenId]? = some row ∧ row.tokenSha256 = digest

theorem Inner.Indexed.eq_of_digest (h : inner.Indexed) {id₁ id₂ : Uuid} {row₁ row₂ : TokenRow}
    (h₁ : inner.tokens[id₁]? = some row₁) (h₂ : inner.tokens[id₂]? = some row₂)
    (hdg : row₁.tokenSha256 = row₂.tokenSha256) : id₁ = id₂ := by
  have hfr := (h row₁.tokenSha256 id₁).mpr ⟨row₁, h₁, rfl⟩
  have hsec := (h row₁.tokenSha256 id₂).mpr ⟨row₂, h₂, hdg.symm⟩
  exact some.inj (hfr.symm.trans hsec)

theorem TokenEffect.indexed (h : TokenEffect inner op inner') (hin : inner.Indexed) :
    inner'.Indexed := by
  cases h with
  | kept htk hix _ =>
    unfold Indexed
    rw [htk, hix]
    exact hin
  | @minted token fresh _ _ hid hdg _ htk hix =>
    intro digest tokenId
    rw [htk, hix, getElem?_insert, getElem?_insert]
    constructor
    · intro hfn
      split_ifs at hfn with hsm
      · cases hfn
        exact ⟨token.row, if_pos rfl, hsm⟩
      · obtain ⟨row, hrow, hrw⟩ := (hin digest tokenId).mp hfn
        refine ⟨row, ?_, hrw⟩
        rw [if_neg]
        · exact hrow
        · rintro rfl
          rw [hid] at hrow
          cases hrow
    · rintro ⟨row, hrow, rfl⟩
      split_ifs at hrow with hsm
      · cases hrow
        exact (if_pos rfl).trans (congrArg some hsm)
      · have hfn := (hin row.tokenSha256 tokenId).mpr ⟨row, hrow, rfl⟩
        rw [if_neg]
        · exact hfn
        · intro hsm
          rw [← hsm, hdg] at hfn
          cases hfn
  | @forgotten _ _ forgottenId forgottenRow hrow _ htk hix _ =>
    intro digest tokenId
    rw [htk, hix, getElem?_erase, getElem?_erase]
    constructor
    · intro hfn
      split_ifs at hfn with hsm
      obtain ⟨row, hst, rfl⟩ := (hin digest tokenId).mp hfn
      refine ⟨row, ?_, rfl⟩
      rw [if_neg]
      · exact hst
      · rintro rfl
        rw [hrow] at hst
        exact hsm (by rw [some.inj hst])
    · rintro ⟨row, hst, rfl⟩
      split_ifs at hst with hsm
      rw [if_neg]
      · exact (hin row.tokenSha256 tokenId).mpr ⟨row, hst, rfl⟩
      · intro hdg
        exact hsm (hin.eq_of_digest hrow hst hdg)
  | @spent _ _ fresh _ _ spentId spentRow hus htk hix _ =>
    obtain ⟨-, hst, -, -⟩ := usableToken_eq_some_iff.mp hus
    intro digest tokenId
    rw [htk, hix, hin, getElem?_insert]
    -- the mark does not change the digest of the row
    split_ifs with hsm
    · subst hsm
      rw [hst]
      simp
    · rfl

end Index

/-! ### Live tokens -/

section Pins

variable {inner inner' : Inner} {op : Op}

def TokenRow.Live (row : TokenRow) (now : Instant) : Prop :=
  row.redeemedBy = none ∧ now < row.expiresAt

def Inner.PinnedOnce (inner : Inner) (now : Instant) : Prop :=
  ∀ (id₁ id₂ : Uuid) (row₁ row₂ : TokenRow), inner.tokens[id₁]? = some row₁ →
    inner.tokens[id₂]? = some row₂ → row₁.siteName = row₂.siteName → row₁.Live now →
    row₂.Live now → id₁ = id₂

theorem TokenRow.Live.earlier {row : TokenRow} {now earlier : Instant} (h : row.Live now)
    (hle : earlier ≤ now) : row.Live earlier :=
  ⟨h.1, Int.lt_of_le_of_lt hle h.2⟩

/-- An open row after an operation was open before it, unless the operation recorded it. -/
theorem TokenEffect.open_row (h : TokenEffect inner op inner') {tokenId : Uuid} {row : TokenRow}
    (hrow : inner'.tokens[tokenId]? = some row) (hopen : row.redeemedBy = none) :
    inner.tokens[tokenId]? = some row
      ∨ ∃ token fresh now, op = .mint token fresh now ∧ token.tokenId.getD fresh = tokenId
        ∧ row = token.row ∧ inner.tokens[tokenId]? = none
        ∧ ∀ (id : Uuid) (other : TokenRow), inner.tokens[id]? = some other →
          other.siteName = row.siteName → ¬other.Live now := by
  cases h with
  | kept htk _ _ =>
    rw [htk] at hrow
    exact Or.inl hrow
  | @minted token fresh now _ hid _ hpin htk _ =>
    rw [htk, getElem?_insert] at hrow
    split_ifs at hrow with hsm
    · cases hrow
      subst hsm
      exact Or.inr ⟨token, fresh, now, rfl, rfl, rfl, hid,
        fun id other hot hst hlv => hpin id other hot hst hlv.1 hlv.2⟩
    · exact Or.inl hrow
  | forgotten _ _ htk _ _ =>
    rw [htk, getElem?_erase] at hrow
    split_ifs at hrow
    exact Or.inl hrow
  | spent _ htk _ _ =>
    rw [htk, getElem?_insert] at hrow
    split_ifs at hrow
    · cases hrow
      cases hopen
    · exact Or.inl hrow

theorem pinnedOnce_step {now : Instant} (hnow : ∀ time ∈ op.now?, time ≤ now)
    (h : inner.PinnedOnce now) : (inner.step op).PinnedOnce now := by
  intro id₁ id₂ row₁ row₂ h₁ h₂ hst hlv₁ hlv₂
  have heff := tokenEffect_step inner op
  rcases heff.open_row h₁ hlv₁.1 with hold₁ | ⟨token₁, fresh₁, now₁, rfl, hid₁, -, -, hpin₁⟩
  · rcases heff.open_row h₂ hlv₂.1 with hold₂ | ⟨token₂, fresh₂, now₂, rfl, -, -, -, hpin₂⟩
    · exact h id₁ id₂ row₁ row₂ hold₁ hold₂ hst hlv₁ hlv₂
    · exact absurd (hlv₁.earlier (hnow now₂ rfl)) (hpin₂ id₁ row₁ hold₁ hst)
  · rcases heff.open_row h₂ hlv₂.1 with hold₂ | ⟨token₂, fresh₂, now₂, hop₂, hid₂, -⟩
    · exact absurd (hlv₂.earlier (hnow now₁ rfl)) (hpin₁ id₂ row₂ hold₂ hst.symm)
    · -- both are the row that this operation recorded
      injection hop₂ with htk hfr hnow₂
      rw [← hid₁, ← hid₂, htk, hfr]

end Pins

/-! ### Histories of the tokens -/

section Histories

variable {ops : List Op} {op : Op} {tokenId : Uuid} {row : TokenRow}

theorem after_append_singleton :
    after {} (ops ++ [op]) = (after {} ops).step op :=
  after_append ops [op]

theorem indexed_after (ops : List Op) : (after {} ops).Indexed := by
  have hem : Indexed {} := by
    intro digest tokenId
    simp
  exact Run.run_invariant (fun inner op h => (tokenEffect_step inner op).indexed h) hem

theorem SpentIn.append_left (h : SpentIn ops tokenId row) (op : Op) :
    SpentIn (ops ++ [op]) tokenId row := by
  obtain ⟨ops₁, op₁, ops₂, rfl, hsp⟩ := h
  exact ⟨ops₁, op₁, ops₂ ++ [op], by simp, hsp⟩

theorem spentIn_append_singleton :
    SpentIn (ops ++ [op]) tokenId row
      ↔ SpentIn ops tokenId row ∨ (after {} ops).spent? op = some (tokenId, row) := by
  constructor
  · rintro ⟨ops₁, op₁, ops₂, heq, hsp⟩
    rcases List.eq_nil_or_concat ops₂ with rfl | ⟨ops₃, op₃, rfl⟩
    · obtain ⟨rfl, hop⟩ := List.append_inj' heq rfl
      obtain rfl := (List.cons.inj hop).1
      exact Or.inr hsp
    · rw [List.concat_eq_append, ← List.cons_append, ← List.append_assoc] at heq
      obtain ⟨rfl, -⟩ := List.append_inj' heq rfl
      exact Or.inl ⟨ops₁, op₁, ops₃, rfl, hsp⟩
  · rintro (hpre | hnow)
    · exact hpre.append_left op
    · exact ⟨ops, op, [], rfl, hnow⟩

theorem TokenEffect.marked_row {inner inner' : Inner} (h : TokenEffect inner op inner')
    (hrow : inner.tokens[tokenId]? = some row) (hmr : row.redeemedBy.isSome) :
    inner'.tokens[tokenId]? = some row := by
  cases h with
  | kept htk _ _ => rw [htk, hrow]
  | minted hid _ _ htk _ =>
    rw [htk, getElem?_insert, if_neg, hrow]
    rintro rfl
    rw [hid] at hrow
    cases hrow
  | forgotten hst hopen htk _ _ =>
    rw [htk, getElem?_erase, if_neg, hrow]
    rintro rfl
    cases hst.symm.trans hrow
    rw [hopen] at hmr
    cases hmr
  | spent hus htk _ _ =>
    obtain ⟨-, hst, hopen, -⟩ := usableToken_eq_some_iff.mp hus
    rw [htk, getElem?_insert, if_neg, hrow]
    rintro rfl
    cases hst.symm.trans hrow
    rw [hopen] at hmr
    cases hmr

/-- A row that is marked was marked before, or is the one a certificate is issued for now. -/
theorem TokenEffect.marked_cases {inner inner' : Inner} (h : TokenEffect inner op inner')
    (hrow : inner'.tokens[tokenId]? = some row) (hmr : row.redeemedBy.isSome) :
    inner.tokens[tokenId]? = some row
      ∨ ∃ found, inner.spent? op = some (tokenId, found) := by
  cases h with
  | kept htk _ _ =>
    rw [htk] at hrow
    exact Or.inl hrow
  | minted _ _ _ htk _ =>
    rw [htk, getElem?_insert] at hrow
    split_ifs at hrow
    · cases hrow
      cases hmr
    · exact Or.inl hrow
  | forgotten _ _ htk _ _ =>
    rw [htk, getElem?_erase] at hrow
    split_ifs at hrow
    exact Or.inl hrow
  | @spent _ _ _ _ _ spentId spentRow _ htk _ hsp =>
    rw [htk, getElem?_insert] at hrow
    split_ifs at hrow with hsm
    · subst hsm
      exact Or.inr ⟨spentRow, hsp⟩
    · exact Or.inl hrow

theorem row_of_spent? {inner : Inner} (h : inner.spent? op = some (tokenId, row)) :
    ∃ marked, (inner.step op).tokens[tokenId]? = some marked ∧ marked.redeemedBy.isSome
      ∧ marked.asMinted = row.asMinted := by
  have heff := tokenEffect_step inner op
  generalize inner.step op = inner' at heff
  cases heff with
  | kept _ _ hsp | forgotten _ _ _ _ hsp =>
    rw [hsp] at h
    cases h
  | minted => cases h
  | @spent _ _ fresh _ _ _ spentRow _ htk _ hsp =>
    obtain ⟨rfl, rfl⟩ := Prod.mk.inj (some.inj (hsp.symm.trans h))
    refine ⟨{ spentRow with redeemedBy := some fresh }, ?_, rfl, rfl⟩
    rw [htk, getElem?_insert, if_pos rfl]

theorem row_of_spentIn (h : SpentIn ops tokenId row) :
    ∃ marked, (after {} ops).tokens[tokenId]? = some marked ∧ marked.redeemedBy.isSome
      ∧ marked.asMinted = row.asMinted := by
  induction ops using List.reverseRecOn with
  | nil =>
    obtain ⟨ops₁, op, ops₂, heq, -⟩ := h
    simp at heq
  | append_singleton ops op ih =>
    rw [after_append_singleton]
    rcases spentIn_append_singleton.mp h with hpre | hnow
    · obtain ⟨marked, hrow, hmr, hsm⟩ := ih hpre
      exact ⟨marked, (tokenEffect_step _ op).marked_row hrow hmr, hmr, hsm⟩
    · exact row_of_spent? hnow

/-- **A token's row is marked exactly when a certificate was issued for it.** -/
theorem redeemed_iff_spentIn (ops : List Op) (tokenId : Uuid) :
    (∃ row, (after {} ops).tokens[tokenId]? = some row ∧ row.redeemedBy.isSome)
      ↔ ∃ row, SpentIn ops tokenId row := by
  constructor
  · rintro ⟨row, hrow, hmr⟩
    induction ops using List.reverseRecOn with
    | nil => simp [after] at hrow
    | append_singleton ops op ih =>
      rw [after_append_singleton] at hrow
      rcases (tokenEffect_step _ op).marked_cases hrow hmr with hpre | ⟨found, hnow⟩
      · obtain ⟨spent, hsp⟩ := ih hpre
        exact ⟨spent, hsp.append_left op⟩
      · exact ⟨found, spentIn_append_singleton.mpr (Or.inr hnow)⟩
  · rintro ⟨row, hsp⟩
    obtain ⟨marked, hrow, hmr, -⟩ := row_of_spentIn hsp
    exact ⟨marked, hrow, hmr⟩

/-- **A stored token was recorded once and is there ever since.** -/
theorem exists_mintedIn (ops : List Op) (tokenId : Uuid) (row : TokenRow)
    (hrow : (after {} ops).tokens[tokenId]? = some row) :
    ∃ token, MintedIn ops tokenId token ∧ row.asMinted = token.row := by
  induction ops using List.reverseRecOn generalizing row with
  | nil => simp [after] at hrow
  | append_singleton ops op ih =>
    have hrow' := hrow
    rw [after_append_singleton] at hrow
    have heff := tokenEffect_step (after {} ops) op
    -- a row that was there before keeps its history
    have hkp (held : TokenRow) (hhl : (after {} ops).tokens[tokenId]? = some held)
        (hsm : row.asMinted = held.asMinted) :
        ∃ token, MintedIn (ops ++ [op]) tokenId token ∧ row.asMinted = token.row := by
      obtain ⟨token, ⟨before, fresh, now, since, rfl, hid, hth⟩, htn⟩ := ih held hhl
      refine ⟨token, ⟨before, fresh, now, since ++ [op], by simp, hid, ?_⟩, hsm.trans htn⟩
      intro part rest hpr
      rcases List.eq_nil_or_concat rest with rfl | ⟨rest', last, rfl⟩
      · rw [List.append_nil] at hpr
        subst hpr
        exact ⟨row, by simpa using hrow', hsm.trans htn⟩
      · rw [List.concat_eq_append, ← List.append_assoc] at hpr
        obtain ⟨hpr, -⟩ := List.append_inj' hpr rfl
        exact hth part rest' hpr
    generalize (after {} ops).step op = inner' at heff hrow
    cases heff with
    | kept htk _ _ =>
      rw [htk] at hrow
      exact hkp row hrow rfl
    | @minted token fresh now _ hid _ _ htk _ =>
      rw [htk, getElem?_insert] at hrow
      split_ifs at hrow with hsm
      · cases hrow
        refine ⟨token, ⟨ops, fresh, now, [], rfl, hsm, ?_⟩, rfl⟩
        intro part rest hpr
        obtain ⟨rfl, -⟩ := List.append_eq_nil_iff.mp hpr.symm
        exact ⟨token.row, hrow', rfl⟩
      · exact hkp row hrow rfl
    | forgotten _ _ htk _ _ =>
      rw [htk, getElem?_erase] at hrow
      split_ifs at hrow
      exact hkp row hrow rfl
    | @spent _ _ _ _ _ spentId spentRow hus htk _ _ =>
      obtain ⟨-, hst, -, -⟩ := usableToken_eq_some_iff.mp hus
      rw [htk, getElem?_insert] at hrow
      split_ifs at hrow with hsm
      · cases hrow
        exact hkp spentRow (hsm ▸ hst) rfl
      · exact hkp row hrow rfl

theorem pinnedOnce_after {now : Instant} (hnow : ∀ time ∈ ops.filterMap Op.now?, time ≤ now) :
    (after {} ops).PinnedOnce now := by
  have hem : PinnedOnce {} now := by
    intro id₁ id₂ row₁ row₂ h₁
    simp at h₁
  have hrd : Run.Along step (fun _ op => ∀ time ∈ op.now?, time ≤ now) {} ops := by
    apply Run.along_of_forall
    intro op hop time htm
    exact hnow time (List.mem_filterMap.mpr ⟨op, hop, htm⟩)
  have hst (inner : Inner) (op : Op) (hop : ∀ time ∈ op.now?, time ≤ now)
      (h : inner.PinnedOnce now) : (inner.step op).PinnedOnce now := pinnedOnce_step hop h
  exact Run.run_invariant_along (P := fun inner => inner.PinnedOnce now) hst hrd hem

end Histories

/-! ### Exactness -/

/-- The tokens after a history are exact, and so is every operation that can follow it. -/
structure TokensExact (ops : List Op) : Prop where
  /-- a token is issued for once: what an operation issues for was never issued for, neither its
  identifier nor its digest -/
  once : ∀ op tokenId row, (Inner.after {} ops).spent? op = some (tokenId, row) →
    ∀ otherId other, SpentIn ops otherId other →
      otherId ≠ tokenId ∧ other.tokenSha256 ≠ row.tokenSha256
  /-- an issue is for a token as it was recorded, not dropped since and not expired, under its name,
  which no record held and which the token opted in to if it was deleted -/
  issue : ∀ op tokenId row, (Inner.after {} ops).spent? op = some (tokenId, row) →
    ∃ digest sign fresh now token issued, op = .redeem digest sign fresh now
      ∧ MintedIn ops tokenId token ∧ digest = token.tokenSha256 ∧ now < token.expiresAt
      ∧ (Inner.after {} ops).record? token.siteName = none
      ∧ (token.siteName ∈ (Inner.after {} ops).deletedNames → token.allowDeletedName = true)
      ∧ sign ⟨token.siteName, token.publicKeySha256⟩ = .ok issued
      ∧ (Inner.after {} ops).redeemAndIssue digest sign fresh now
        = (Inner.after {} (ops ++ [op]), .ok (fresh, issued))
      ∧ (Inner.after {} (ops ++ [op])).record? token.siteName
        = some (Held.new fresh issued.publicKeySha256 none now)
  /-- a token is marked exactly when it was issued for -/
  redeemed : ∀ tokenId,
    (∃ row, (Inner.after {} ops).tokens[tokenId]? = some row ∧ row.redeemedBy.isSome)
      ↔ ∃ row, SpentIn ops tokenId row
  /-- a redemption that fails changes nothing, unless its name was deleted, which drops the token and
  no other -/
  refused : ∀ digest sign fresh now inner error,
    (Inner.after {} ops).redeemAndIssue digest sign fresh now = (inner, .error error) →
      (error ≠ .nameDeleted ∧ inner = Inner.after {} ops)
      ∨ error = .nameDeleted ∧ ∃ tokenId row,
        (Inner.after {} ops).usableToken digest now = some (tokenId, row)
          ∧ inner.tokens = (Inner.after {} ops).tokens.erase tokenId
          ∧ inner.byDigest = (Inner.after {} ops).byDigest.erase digest
  /-- while the clock does not go back, no name is pinned by two live tokens -/
  pinned : ∀ now, (∀ time ∈ ops.filterMap Op.now?, time ≤ now) →
    (Inner.after {} ops).PinnedOnce now
  /-- the digest index maps exactly the tokens that are stored -/
  index : (Inner.after {} ops).Indexed

theorem usable_of_spent? {inner : Inner} {op : Op} {tokenId : Uuid} {row : TokenRow}
    (h : inner.spent? op = some (tokenId, row)) :
    ∃ digest sign fresh now issued, op = .redeem digest sign fresh now
      ∧ inner.usableToken digest now = some (tokenId, row)
      ∧ row.siteName ∉ inner.issuedNames
      ∧ (row.siteName ∈ inner.deletedNames → row.allowDeletedName = true)
      ∧ sign ⟨row.siteName, row.publicKeySha256⟩ = .ok issued
      ∧ inner.redeemAndIssue digest sign fresh now
        = (inner.enroll tokenId row issued fresh now, .ok (fresh, issued)) := by
  cases op with
  | redeem digest sign fresh now =>
    have hus : inner.usableToken digest now = some (tokenId, row) := by
      unfold spent? at h
      dsimp only at h
      split at h
      · exact h
      · cases h
    have hsp : (match (inner.redeemAndIssue digest sign fresh now).2 with
        | .ok _ => inner.usableToken digest now
        | .error _ => none) = some (tokenId, row) := h
    have hrd : Redemption inner tokenId row sign fresh now
        (inner.redeemAndIssue digest sign fresh now) := redemption_of_usable hus
    generalize hout : inner.redeemAndIssue digest sign fresh now = outcome at hrd hsp
    cases hrd with
    | forgotten => cases hsp
    | refused herr => cases hsp
    | @issued issued hfr hdl hsg hkey =>
      exact ⟨digest, sign, fresh, now, issued, rfl, hus, hfr, hdl, hsg, hout⟩
  | mint token fresh now => cases h
  | revoke id => cases h
  | renew renewal sign now => cases h
  | seed seed fresh now => cases h
  | delete name => cases h

/-- **A site token is one-shot and exact.** -/
theorem site_tokens_exact (ops : List Op) : TokensExact ops := by
  have hin := indexed_after ops
  constructor
  · intro op tokenId row hsp otherId other hor
    obtain ⟨digest, sign, fresh, now, issued, rfl, hus, -⟩ := usable_of_spent? hsp
    obtain ⟨-, hrow, hopen, -⟩ := usableToken_eq_some_iff.mp hus
    obtain ⟨marked, hmr, hmd, hsm⟩ := row_of_spentIn hor
    have hne : otherId ≠ tokenId := by
      rintro rfl
      cases hrow.symm.trans hmr
      rw [hopen] at hmd
      cases hmd
    refine ⟨hne, fun hdg => hne (hin.eq_of_digest hmr hrow ?_)⟩
    exact (congrArg TokenRow.tokenSha256 hsm).trans hdg
  · intro op tokenId row hsp
    obtain ⟨digest, sign, fresh, now, issued, rfl, hus, hfr, hdl, hsg, hot⟩ :=
      usable_of_spent? hsp
    obtain ⟨hdg, hrow, hopen, hlv⟩ := usableToken_eq_some_iff.mp hus
    obtain ⟨token, hmn, htn⟩ := exists_mintedIn ops tokenId row hrow
    -- the row is open, so it is the row as it was recorded
    have hrw : row = token.row := by
      rw [← htn, TokenRow.asMinted, ← hopen]
    subst hrw
    have hst : Inner.after {} (ops ++ [.redeem digest sign fresh now])
        = (Inner.after {} ops).enroll tokenId token.row issued fresh now := by
      rw [after_append_singleton]
      exact congrArg Prod.fst hot
    obtain ⟨found, hfd, hfn⟩ := (hin digest tokenId).mp hdg
    cases hrow.symm.trans hfd
    refine ⟨digest, sign, fresh, now, token, issued, rfl, hmn, hfn.symm, hlv, ?_,
      hdl, hsg, ?_, ?_⟩
    · show ((Inner.after {} ops).issuedNames[token.row.siteName]?).map Prod.fst = none
      rw [ExtTreeMap.getElem?_eq_none hfr]
      rfl
    · rw [hot, hst]
    · rw [hst, record?_insert enroll_issuedNames]
      exact if_pos rfl
  · exact redeemed_iff_spentIn ops
  · intro digest sign fresh now inner error han
    rcases hus : (Inner.after {} ops).usableToken digest now with - | ⟨tokenId, row⟩
    · rw [redeemAndIssue_of_unusable hus] at han
      obtain ⟨rfl, herr⟩ := Prod.mk.inj han
      cases herr
      exact Or.inl ⟨StoreError.noConfusion, rfl⟩
    · obtain ⟨hdg, hrow, -, -⟩ := usableToken_eq_some_iff.mp hus
      have hrd : Redemption (Inner.after {} ops) tokenId row sign fresh now
          (inner, .error error) := han ▸ redemption_of_usable hus
      cases hrd with
      | forgotten =>
        obtain ⟨htk, hix⟩ := forget_of_row hrow
        obtain ⟨found, hfd, rfl⟩ := (hin digest tokenId).mp hdg
        cases hrow.symm.trans hfd
        exact Or.inr ⟨rfl, tokenId, row, rfl, htk, hix⟩
      | refused herr => exact Or.inl ⟨herr, rfl⟩
  · intro now hnow
    exact pinnedOnce_after hnow
  · exact hin

end PraxisGrid.Enrollment
