/-
PraxisGrid/Enrollment/LostAnswer.lean

What an enrolling site reports of an invite that it may have spent: `sent` of
`crates/operator/src/enroll.rs` with the mark of `enroll/pending.rs` and the errors of
`enroll/signer.rs` and `enroll/local.rs`.

The kept request is marked as unanswered before it is sent, and a rejection of the token while the
mark stands is reported as one after a lost answer.  Any other answer of the signer takes the mark
away, also that of an earlier request.  So do a success that cannot be read and a TLS failure of a
first request, also one that comes after it was sent, as every TLS failure counts as an untrusted
signer (`refusal_forgets_lost_request`).  Without those, no request that may have arrived is
forgotten.
-/
import PraxisGrid.Lib.Run

namespace PraxisGrid.Enrollment.LostAnswer

open Run

/-! ### Errors -/

inductive SignerError
  | unauthenticated (detail : String)
  | noClientCertificate (detail : String)
  | nameTaken (detail : String)
  | nameDeleted (detail : String)
  | forbidden (detail : String)
  | refused (detail : String)
  | disabled (detail : String)
  | transport (sent : Bool) (detail : String)
  | untrusted (lapsed : Bool) (detail : String)
  | request (detail : String)
  | invalid (detail : String)

/-- The errors a request can end with. -/
inductive EnrollError
  | config (detail : String)
  | signerUntrusted (detail : String)
  | signerLapsed (detail : String)
  | tokenRejected (detail : String)
  | nameTaken (detail : String)
  | nameDeleted (detail : String)
  | refused (detail : String)
  | maybeSpent (detail : String) (refused : Bool)
  | invalidResponse (detail : String)
  | unreachable (detail : String)

/-- What comes back of one request. -/
inductive Reply
  /-- the request could not be built -/
  | unbuilt (detail : String)
  /-- a TLS failure, before or after the request was sent -/
  | untrusted (sent lapsed : Bool) (signer : String)
  | unconnected (detail : String)
  /-- no answer, or one whose body could not be read -/
  | unread (detail : String)
  /-- a status with its text, the certificate the body decodes to, and the code and message of an
  error body -/
  | answer (status : Nat) (text : String) (issued : Option String) (error : Option (String × String))

def classify (status : Nat) (text : String) (issued : Option String)
    (error : Option (String × String)) : Except SignerError String :=
  if 200 ≤ status ∧ status < 300 then
    issued.elim (.error (.invalid "decoding")) .ok
  else
    let detail := error.elim text fun (code, message) => text ++ " " ++ code ++ ": " ++ message
    let code := (error.map Prod.fst).getD ""
    .error <|
      if status = 401 then
        if code = "identity_required" then .noClientCertificate detail else .unauthenticated detail
      else if status = 503 ∧ code = "rotation_disabled" then .disabled detail
      else if status = 409 ∧ code = "name_taken" then .nameTaken detail
      else if status = 409 ∧ code = "name_deleted" then .nameDeleted detail
      else if status = 403 then .forbidden detail
      else if status = 408 ∨ 500 ≤ status ∧ status < 600 then .transport true detail
      else .refused detail

def post : Reply → Except SignerError String
  | .unbuilt detail => .error (.request detail)
  | .untrusted _ lapsed signer => .error (.untrusted lapsed signer)
  | .unconnected detail => .error (.transport false detail)
  | .unread detail => .error (.transport true detail)
  | .answer status text issued error => classify status text issued error

def enrollError : SignerError → EnrollError
  | .unauthenticated detail => .tokenRejected detail
  | .nameTaken detail => .nameTaken detail
  | .nameDeleted detail => .nameDeleted detail
  | .forbidden detail | .refused detail | .noClientCertificate detail => .refused detail
  | .disabled detail | .transport _ detail => .maybeSpent detail false
  | .untrusted true detail => .signerLapsed detail
  | .untrusted false detail => .signerUntrusted detail
  | .request detail => .config detail
  | .invalid detail => .invalidResponse ("the enrollment: " ++ detail)

/-- What the sending ends with: a request that never left is reported once the budget is spent. -/
def ended : Except SignerError String → Except EnrollError String
  | .ok issued => .ok issued
  | .error (.transport false detail) => .error (.unreachable detail)
  | .error error => .error (enrollError error)

/-- Present the invite; a request that never left is sent again while the budget lasts. -/
def redeem (reply : Reply) : List Reply → Except EnrollError String
  | [] => ended (post reply)
  | next :: later =>
    match post reply with
    | .error (.transport false _) => redeem next later
    | result => ended result

/-- The reply at which the sending ends. -/
def lastReply (reply : Reply) : List Reply → Reply
  | [] => reply
  | next :: later =>
    match post reply with
    | .error (.transport false _) => lastReply next later
    | _ => reply

def answeredBySigner : EnrollError → Bool
  | .tokenRejected _ | .nameTaken _ | .nameDeleted _ | .refused _ | .invalidResponse _ => true
  | _ => false

/-- The reason of the condition that reports an error. -/
def reason : EnrollError → String
  | .config _ => "Misconfigured"
  | .signerUntrusted _ => "SignerUntrusted"
  | .signerLapsed _ => "SignerLapsed"
  | .tokenRejected _ => "InviteInvalid"
  | .nameTaken _ => "NameTaken"
  | .nameDeleted _ => "NameDeleted"
  | .refused _ => "Refused"
  | .maybeSpent _ false => "InviteMaybeSpent"
  | .maybeSpent _ true => "InviteRefusedAfterLostAnswer"
  | .invalidResponse _ => "InvalidResponse"
  | .unreachable _ => "SignerUnreachable"

/-- Whether retrying with the same inputs cannot succeed. -/
def definitive : EnrollError → Bool
  | .maybeSpent _ refused => refused
  | .signerLapsed _ | .unreachable _ => false
  | _ => true

/-- Whether an error of the attempt itself holds its inputs: one of the configuration does not, as
it may read state that the inputs do not track. -/
def holdsInputs : EnrollError → Bool
  | .config _ => false
  | error => definitive error

/-! ### Attempts -/

/-- What is kept of the request, whether the inputs are held as failed, and whether a request of the
sequence may have reached the signer without a readable answer. -/
structure World where
  unanswered : Bool := false
  issued : Option String := none
  failed : Bool := false
  lost : Bool := false

/-- Where an attempt ends: before its mark landed, before it is sent, with the answer out, before
what came back is recorded, or at its end. -/
inductive Stop
  | unmarked
  | marked
  | inFlight
  | unrecorded
  | done

inductive Op
  | attempt (reply : Reply) (later : List Reply) (stop : Stop)
  /-- the process starts again, or another input changes -/
  | restart

/-- What `sent` makes of a result: the error it returns, and whether it takes the mark away. -/
def verdict (resent : Bool) : EnrollError → EnrollError × Bool
  | .maybeSpent detail refused => (.maybeSpent detail refused, false)
  | .tokenRejected detail =>
    if resent then
      (.maybeSpent (detail ++ "; an earlier request with this key got no answer and may have spent "
        ++ "the invite, so a new invite may be needed") true, false)
    else (.tokenRejected detail, true)
  | error => (error, !resent || answeredBySigner error)

/-- The request may have arrived, and no readable answer came back. -/
def Reply.lost : Reply → Bool
  | .unbuilt _ | .unconnected _ => false
  | .untrusted sent _ _ => sent
  | .unread _ => true
  | .answer status text issued error =>
    match classify status text issued error with
    | .error (.transport true _) | .error (.disabled _) | .error (.invalid _) => true
    | _ => false

def World.step (world : World) : Op → World
  | .restart => { world with failed := false }
  | .attempt reply later stop =>
    if world.failed ∨ world.issued.isSome then world
    else
      match stop with
      | .unmarked => world
      | .marked => { world with unanswered := true }
      | .inFlight => { world with unanswered := true, lost := true }
      | .unrecorded =>
        match redeem reply later with
        | .ok _ => { world with unanswered := true, lost := true }
        | .error _ =>
          { world with unanswered := true, lost := world.lost || (lastReply reply later).lost }
      | .done =>
        match redeem reply later with
        | .ok issued => { world with unanswered := false, issued := some issued }
        | .error error =>
          let (reported, cleared) := verdict world.unanswered error
          { world with
            unanswered := !cleared
            failed := holdsInputs reported
            lost := world.lost || (lastReply reply later).lost }

def World.reports (world : World) : Op → Option EnrollError
  | .attempt reply later .done =>
    if world.failed ∨ world.issued.isSome then none
    else
      match redeem reply later with
      | .ok _ => none
      | .error error => some (verdict world.unanswered error).1
  | _ => none

def Op.Rejects (op : Op) : Prop :=
  ∃ reply later detail, op = .attempt reply later .done
    ∧ redeem reply later = .error (.tokenRejected detail)

/-- The signer answers readably, after a lost answer only by issuing or by rejecting the token, and
no request fails in TLS after it was sent but one that finds the mark of another. -/
def World.steady (world : World) : Op → Bool
  | .attempt reply later .done =>
    match redeem reply later with
    | .ok _ => true
    | .error (.tokenRejected _) | .error (.maybeSpent _ _) => true
    | .error (.config _) | .error (.unreachable _) => true
    | .error (.nameTaken _) | .error (.nameDeleted _) | .error (.refused _) => !world.lost
    | .error (.signerUntrusted _) | .error (.signerLapsed _) =>
      world.unanswered || !(lastReply reply later).lost
    | .error (.invalidResponse _) => false
  | _ => true

variable {world : World} {op : Op} {reply : Reply} {later : List Reply} {error : EnrollError}

/-- What is redeemed is the reply at which the sending ends. -/
theorem redeem_eq (reply : Reply) (later : List Reply) :
    redeem reply later = ended (post (lastReply reply later)) := by
  induction later generalizing reply with
  | nil => rfl
  | cons next later ih =>
    rw [redeem, lastReply]
    split
    · exact ih next
    · rfl

/-- The errors a lost answer can end with. -/
theorem cases_of_lost (hr : redeem reply later = .error error)
    (hl : (lastReply reply later).lost = true) :
    (∃ detail refused, error = .maybeSpent detail refused) ∨
      (∃ detail, error = .signerUntrusted detail ∨ error = .signerLapsed detail) ∨
      ∃ detail, error = .invalidResponse detail := by
  rw [redeem_eq] at hr
  generalize lastReply reply later = last at hr hl
  cases last with
  | unbuilt detail => cases hl
  | unconnected detail => cases hl
  | untrusted sent lapsed signer =>
    cases lapsed with
    | false => exact .inr (.inl ⟨signer, .inl (Except.error.inj hr).symm⟩)
    | true => exact .inr (.inl ⟨signer, .inr (Except.error.inj hr).symm⟩)
  | unread detail => exact .inl ⟨detail, false, (Except.error.inj hr).symm⟩
  | answer status text issued body =>
    rw [Reply.lost] at hl
    rw [post] at hr
    split at hl
    · next detail hc =>
      rw [hc] at hr
      exact .inl ⟨detail, false, (Except.error.inj hr).symm⟩
    · next detail hc =>
      rw [hc] at hr
      exact .inl ⟨detail, false, (Except.error.inj hr).symm⟩
    · next detail hc =>
      rw [hc] at hr
      exact .inr (.inr ⟨_, (Except.error.inj hr).symm⟩)
    · cases hl

/-- A lost answer is marked as long as requests are sent. -/
def World.Marked (world : World) : Prop :=
  world.lost = true → world.issued = none → world.unanswered = true

/-- With the mark of an earlier request, only a readable answer of another kind than a rejection
takes it away. -/
theorem verdict_resent (hs : world.steady (.attempt reply later .done) = true)
    (hr : redeem reply later = .error error) (hl : world.lost = true) :
    (verdict true error).2 = false := by
  rw [World.steady, hr] at hs
  cases error with
  | nameTaken detail | nameDeleted detail | refused detail =>
    rw [hl] at hs
    cases hs
  | invalidResponse detail => cases hs
  | tokenRejected detail | maybeSpent detail refused | config detail | unreachable detail
  | signerUntrusted detail | signerLapsed detail => rfl

theorem verdict_lost (hs : world.steady (.attempt reply later .done) = true)
    (hr : redeem reply later = .error error) (hl : (lastReply reply later).lost = true) :
    (verdict world.unanswered error).2 = false := by
  rw [World.steady, hr] at hs
  rcases cases_of_lost hr hl with ⟨detail, refused, rfl⟩ | ⟨detail, rfl | rfl⟩ | ⟨detail, rfl⟩
  · rfl
  · have hmark : world.unanswered = true := by simpa [hl] using hs
    rw [hmark]
    rfl
  · have hmark : world.unanswered = true := by simpa [hl] using hs
    rw [hmark]
    rfl
  · cases hs

theorem step_marked (h : world.Marked) (hs : world.steady op = true) : (world.step op).Marked := by
  cases op with
  | restart => exact h
  | attempt reply later stop =>
    unfold World.step
    dsimp only
    split_ifs with hhl
    · exact h
    have hi : world.issued = none := by simpa using (not_or.mp hhl).2
    cases stop with
    | unmarked => exact h
    | marked | inFlight => exact fun _ _ => rfl
    | unrecorded =>
      dsimp only
      split <;> exact fun _ _ => rfl
    | done =>
      dsimp only
      cases hr : redeem reply later with
      | ok issued => exact fun _ hn => by cases hn
      | error error =>
        intro hl _
        -- the answer was lost before, or is this one
        have hkept : (verdict world.unanswered error).2 = false := by
          rcases Bool.or_eq_true_iff.mp hl with hl | hl
          · rw [h hl hi]
            exact verdict_resent hs hr hl
          · exact verdict_lost hs hr hl
        exact congrArg not hkept

/-- **A possibly spent invite is never reported as plainly invalid** where no refusal of another
kind, no unreadable success and no TLS failure of a first request that was sent comes in
between. -/
theorem rejection_after_lost_answer (ops : List Op) (op : Op)
    (h : Along World.step (fun world op => world.steady op = true) {} ops)
    (hl : (run World.step {} ops).lost = true) (error : EnrollError)
    (hr : (run World.step {} ops).reports op = some error) :
    reason error ≠ "InviteInvalid"
      ∧ (op.Rejects → reason error = "InviteRefusedAfterLostAnswer") := by
  have hm : (run World.step {} ops).Marked :=
    run_invariant_along (fun world op hs hm => step_marked hm hs) h (fun hl => by cases hl)
  generalize run World.step {} ops = world at *
  cases op with
  | restart => cases hr
  | attempt reply later stop =>
    cases stop with
    | done =>
      unfold World.reports at hr
      dsimp only at hr
      split_ifs at hr with hhl
      have hi : world.issued = none := by simpa using (not_or.mp hhl).2
      rw [hm hl hi] at hr
      split at hr
      · cases hr
      · rename_i failure hf
        cases hr
        constructor
        · cases failure with
          | maybeSpent detail refused => cases refused <;> simp [verdict, reason]
          | _ => simp [verdict, reason]
        · rintro ⟨reply', later', detail, heq, hd⟩
          cases heq
          cases hf.symm.trans hd
          rfl
    | _ => cases hr

def timedOut : Op := .attempt (.unread "timeout") [] .done

def answered (status : Nat) (text : String) : Op := .attempt (.answer status text none none) [] .done

theorem rejection_after_lost_answer_timeout :
    ∃ error, (run World.step {} [timedOut]).reports (answered 401 "401 Unauthorized") = some error
      ∧ reason error ≠ "InviteInvalid" :=
  ⟨_, rfl, (rejection_after_lost_answer [timedOut] (answered 401 "401 Unauthorized") (by decide) rfl
    _ rfl).1⟩

/-- The first request times out, the second is refused, and the token is rejected after a restart.
Or the TLS connection of the first request fails after it was sent, as for a lapsed certificate. -/
theorem refusal_forgets_lost_request :
    let refused := run World.step {} [timedOut, answered 403 "403 Forbidden", .restart]
    let cut := run World.step {} [.attempt (.untrusted true true "signer") [] .done]
    refused.lost = true
      ∧ (refused.reports (answered 401 "401 Unauthorized")).map reason = some "InviteInvalid"
      ∧ cut.lost = true
      ∧ (cut.reports (answered 401 "401 Unauthorized")).map reason = some "InviteInvalid" := by
  decide

end PraxisGrid.Enrollment.LostAnswer
