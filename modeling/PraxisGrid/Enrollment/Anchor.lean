/-
PraxisGrid/Enrollment/Anchor.lean

The grid CA that the records belong to: `crates/enrollment/src/ca.rs`, with `recorded_ca` and
`swap_recorded_ca` of `store.rs`, and the start of a service in `main.rs`.

Services share one record.  A call of `anchor` reads it, swaps it under a guard, and reads it again
when the swap lost; between two operations on the store, and before a service takes over what the
call found (`Task.settling`, `Task.installing`, `Task.raising`), any other service may act.  An
operation may fail before it did anything, or its answer may be lost.

What the last operation of a service found recorded is kept (`Service.found`) and decides nothing:
`Service.Sound` compares it with the flag that does.
-/
import PraxisGrid.Lib.Run

namespace PraxisGrid.Enrollment

/-! ### The record -/

structure Ca where
  fingerprint : String
  key : String
deriving DecidableEq

/-- The record after a guarded swap, and whether it was swapped. -/
def swapRecordedCa (record expected : Option String) (fingerprint : String) :
    Option String × Bool :=
  if record = expected then (some fingerprint, true) else (record, false)

/-- How an operation on the store ends for its caller. -/
inductive Reply
  | done
  /-- nothing happened -/
  | failed
  /-- it happened, and the caller does not know -/
  | lost
deriving DecidableEq

/-! ### Calls of `anchor` -/

/-- How a CA stands against the recorded one. -/
inductive Anchored
  | recorded
  | matched
  | replaced (previous : String)
deriving DecidableEq

inductive AnchorError
  | mismatch (recorded loaded : String)
  | store
  /-- the record was removed while it was being written -/
  | removed

/-- The next operation of a call. -/
inductive AnchorPhase
  | read
  | swap (expected : Option String) (decided : Anchored)
  | reread
deriving DecidableEq

structure AnchorCall where
  loaded : String
  confirm : Option String
  phase : AnchorPhase := .read
deriving DecidableEq

/-- What one operation makes of a call: it goes on, or it returns. -/
inductive CallStep
  | next (phase : AnchorPhase)
  | returned (answer : Except AnchorError Anchored)

/-- What a call makes of the record it reads first. -/
def AnchorCall.decided (call : AnchorCall) (recorded : Option String) : CallStep :=
  match recorded with
  | none => .next (.swap none .recorded)
  | some recorded =>
    if recorded = call.loaded then .returned (.ok .matched)
    else if call.confirm = some recorded then .next (.swap (some recorded) (.replaced recorded))
    else .returned (.error (.mismatch recorded call.loaded))

/-- What a call makes of the record after another service moved it first. -/
def AnchorCall.accepted (call : AnchorCall) (recorded : Option String) : CallStep :=
  match recorded with
  | none => .returned (.error .removed)
  | some recorded =>
    if recorded = call.loaded then .returned (.ok .matched)
    else .returned (.error (.mismatch recorded call.loaded))

def AnchorCall.step (call : AnchorCall) (record : Option String) (reply : Reply) :
    Option String × CallStep :=
  match call.phase with
  | .read =>
    (record, if reply = .done then call.decided record else .returned (.error .store))
  | .swap expected decided =>
    let swapped := swapRecordedCa record expected call.loaded
    match reply with
    | .failed => (record, .returned (.error .store))
    | .lost => (swapped.1, .returned (.error .store))
    | .done => (swapped.1, if swapped.2 then .returned (.ok decided) else .next .reread)
  | .reread =>
    (record, if reply = .done then call.accepted record else .returned (.error .store))

/-! ### Services -/

/-- What a service is doing. -/
inductive Task
  | idle
  /-- squaring the CA it starts with -/
  | starting (ca : Ca) (call : AnchorCall)
  /-- checking the record of the CA it holds -/
  | checking (call : AnchorCall)
  /-- squaring the CA that is mounted now -/
  | adopting (ca : Ca) (call : AnchorCall)
  /-- the check returned and its result is not stored yet -/
  | settling (ok : Bool) (recorded : Option String)
  /-- the mounted CA was admitted and is not in place yet -/
  | installing (ca : Ca) (recorded : Option String)
  /-- the mounted CA is in place and its flag is not stored yet -/
  | raising
deriving DecidableEq

/-- A service: the rotation an operator confirmed, the CA it holds once it has started, and whether
the record last held that CA's key. -/
structure Service where
  confirm : Option String
  held : Option Ca := none
  anchored : Bool := false
  task : Task := .idle
  /-- what the last completed check or swap found recorded -/
  found : Option String := none

def Service.signer (service : Service) : Option Ca := if service.anchored then service.held else none

/-- What is mounted when a service reloads. -/
inductive Material
  | unreadable
  | unparsable
  /-- a certificate, and the key if the CA loads -/
  | cert (fingerprint : String) (key : Option String)

def Ca.check (held : Ca) : Task := .checking { loaded := held.key, confirm := none }

def Service.reload (service : Service) (held : Ca) (material : Material) : Service :=
  { service with
    task :=
      match material with
      | .unreadable => held.check
      | .unparsable => held.check
      | .cert fingerprint key =>
        if fingerprint = held.fingerprint then held.check
        else
          match key with
          | none => held.check
          | some key => .adopting ⟨fingerprint, key⟩ { loaded := key, confirm := service.confirm } }

/-- The held CA is checked after the mounted one was refused. -/
def Service.recheck (service : Service) : Service :=
  match service.held with
  | none => { service with task := .idle }
  | some held => { service with task := held.check }

def Service.storeStep (service : Service) (record : Option String) (reply : Reply) :
    Option String × Service :=
  match service.task with
  | .starting ca call =>
    match call.step record reply with
    | (record, .next phase) =>
      (record, { service with task := .starting ca { call with phase := phase } })
    | (record, .returned (.ok _)) =>
      (record,
        { service with held := some ca, anchored := true, task := .idle, found := record })
    -- the process exits
    | (record, .returned (.error _)) => (record, { service with task := .idle })
  | .checking call =>
    match call.step record reply with
    | (record, .next phase) =>
      (record, { service with task := .checking { call with phase := phase } })
    | (record, .returned (.ok _)) => (record, { service with task := .settling true record })
    | (record, .returned (.error _)) => (record, { service with task := .settling false record })
  | .adopting ca call =>
    match call.step record reply with
    | (record, .next phase) =>
      (record, { service with task := .adopting ca { call with phase := phase } })
    | (record, .returned (.ok _)) => (record, { service with task := .installing ca record })
    | (record, .returned (.error _)) => (record, service.recheck)
  | _ => (record, service)

/-- What a service takes over without the store. -/
def Service.settle (service : Service) : Service :=
  match service.task with
  | .settling ok recorded =>
    { service with anchored := ok, task := .idle, found := recorded }
  | .installing ca recorded => { service with held := some ca, task := .raising, found := recorded }
  | .raising => { service with anchored := true, task := .idle }
  | _ => service

/-! ### Runs -/

section Runs

variable {ι : Type*} [DecidableEq ι]

structure Services (ι : Type*) where
  record : Option String
  service : ι → Service

inductive CaOp (ι : Type*)
  | start (i : ι) (ca : Ca)
  | reload (i : ι) (material : Material)
  | store (i : ι) (reply : Reply)
  | settle (i : ι)
  | crash (i : ι)

def Services.set (services : Services ι) (i : ι) (service : Service) : Services ι :=
  { services with service := Function.update services.service i service }

def Services.step (services : Services ι) : CaOp ι → Services ι
  | .start i ca =>
    let service := services.service i
    match service.held, service.task with
    | none, .idle =>
      services.set i
        { service with task := .starting ca { loaded := ca.key, confirm := service.confirm } }
    | _, _ => services
  | .reload i material =>
    let service := services.service i
    match service.held, service.task with
    | some held, .idle => services.set i (service.reload held material)
    | _, _ => services
  | .store i reply =>
    let next := (services.service i).storeStep services.record reply
    { services.set i next.2 with record := next.1 }
  | .settle i => services.set i (services.service i).settle
  | .crash i => services.set i { confirm := (services.service i).confirm }

def Services.initial (record : Option String) (confirm : ι → Option String) : Services ι :=
  { record, service := fun i => { confirm := confirm i } }

def Services.after (services : Services ι) (ops : List (CaOp ι)) : Services ι :=
  Run.run Services.step services ops

end Runs

/-! ### What a call does to the record -/

section Calls

variable {call : AnchorCall} {record record' : Option String} {reply : Reply} {answer : Anchored}

def AnchorCall.Guarded (call : AnchorCall) : Prop :=
  ∀ expected decided, call.phase = .swap expected decided →
    expected = none ∨ expected = call.confirm

open AnchorCall Services

/-- **A call moves the record only to its own key**, from nothing or from what was confirmed. -/
theorem AnchorCall.record_cases (record : Option String) (reply : Reply)
    (hgr : call.Guarded) :
    (call.step record reply).1 = record
      ∨ (call.step record reply).1 = some call.loaded
        ∧ (record = none ∨ record = call.confirm) := by
  have hsw (expected : Option String) (decided : Anchored)
      (hph : call.phase = .swap expected decided) :
      (swapRecordedCa record expected call.loaded).1 = record
        ∨ (swapRecordedCa record expected call.loaded).1 = some call.loaded
          ∧ (record = none ∨ record = call.confirm) := by
    unfold swapRecordedCa
    split_ifs with hexpected
    · rw [hexpected]
      exact Or.inr ⟨rfl, hgr expected decided hph⟩
    · exact Or.inl rfl
  unfold step
  split
  · exact Or.inl rfl
  · rename_i expected decided hph
    cases reply with
    | failed => exact Or.inl rfl
    | lost | done => exact hsw expected decided hph
  · exact Or.inl rfl

theorem AnchorCall.decided_eq_ok (h : call.decided record = .returned (.ok answer)) :
    record = some call.loaded := by
  unfold decided at h
  split at h
  · cases h
  · split_ifs at h with hsm
    · rw [hsm]
    · cases h

theorem AnchorCall.accepted_eq_ok (h : call.accepted record = .returned (.ok answer)) :
    record = some call.loaded := by
  unfold accepted at h
  split at h
  · cases h
  · split_ifs at h with hsm
    · rw [hsm]
    · cases h

/-- **A call that succeeds sees its own key recorded** at the operation it returns from. -/
theorem AnchorCall.record_of_ok (h : call.step record reply = (record', .returned (.ok answer))) :
    record' = some call.loaded := by
  unfold step at h
  split at h
  · obtain ⟨rfl, hout⟩ := Prod.mk.inj h
    split_ifs at hout
    · exact decided_eq_ok hout
    · cases hout
  · cases reply with
    | failed | lost => cases (Prod.mk.inj h).2
    | done =>
      obtain ⟨hrec, hout⟩ := Prod.mk.inj h
      split_ifs at hout with hsw
      unfold swapRecordedCa at hsw hrec
      split_ifs at hsw hrec
      exact hrec.symm
  · obtain ⟨rfl, hout⟩ := Prod.mk.inj h
    split_ifs at hout
    · exact accepted_eq_ok hout
    · cases hout

theorem AnchorCall.guarded_next {phase : AnchorPhase}
    (h : call.step record reply = (record', .next phase)) :
    ({ call with phase := phase } : AnchorCall).Guarded := by
  intro expected decided hph
  obtain rfl : phase = .swap expected decided := hph
  show expected = none ∨ expected = call.confirm
  unfold AnchorCall.step at h
  split at h
  · have hout := (Prod.mk.inj h).2
    split_ifs at hout
    unfold AnchorCall.decided at hout
    split at hout
    · injection hout with hph
      injection hph with hexpected
      exact Or.inl hexpected.symm
    · split_ifs at hout with hsm hcn
      injection hout with hph
      injection hph with hexpected
      exact Or.inr (hexpected.symm.trans hcn.symm)
  · have hout := (Prod.mk.inj h).2
    cases reply with
    | failed => cases hout
    | lost => cases hout
    | done =>
      split_ifs at hout
      cases hout
  · have hout := (Prod.mk.inj h).2
    split_ifs at hout
    unfold AnchorCall.accepted at hout
    split at hout
    · cases hout
    · split_ifs at hout

theorem AnchorCall.step_of_other {loaded other : String} (hne : other ≠ loaded) :
    ∃ error, ({ loaded := loaded, confirm := none } : AnchorCall).step (some other) reply
      = (some other, .returned (.error error)) := by
  by_cases hrp : reply = .done
  · refine ⟨.mismatch other loaded, ?_⟩
    unfold step decided
    simp [hrp, hne]
  · refine ⟨.store, ?_⟩
    unfold step
    simp [hrp]

end Calls

/-! ### What a service keeps -/

def Service.call? (service : Service) : Option AnchorCall :=
  match service.task with
  | .starting _ call => some call
  | .checking call => some call
  | .adopting _ call => some call
  | _ => none

def Service.TaskSound (service : Service) : Prop :=
  match service.task with
  | .idle => True
  | .starting ca call => call.loaded = ca.key ∧ call.confirm = service.confirm ∧ call.Guarded
  | .checking call =>
    ∃ held, service.held = some held ∧ call.loaded = held.key ∧ call.confirm = none ∧ call.Guarded
  | .adopting ca call => call.loaded = ca.key ∧ call.confirm = service.confirm ∧ call.Guarded
  | .settling ok recorded =>
    ∃ held, service.held = some held ∧ (ok = true → recorded = some held.key)
  | .installing ca recorded => recorded = some ca.key
  | .raising => ∃ held, service.held = some held ∧ service.found = some held.key

/-- A service signs only with a CA whose key its last completed check or swap found recorded. -/
structure Service.Sound (confirm : Option String) (service : Service) : Prop where
  confirm : service.confirm = confirm
  signs : service.anchored = true → ∀ held ∈ service.held, service.found = some held.key
  task : service.TaskSound

open Service

section Services

variable {confirm : Option String} {service : Service} {record : Option String} {reply : Reply}

theorem Service.sound_initial (confirm : Option String) :
    Sound confirm { confirm := confirm } :=
  ⟨rfl, fun h => absurd h Bool.false_ne_true, trivial⟩

theorem guarded_read {loaded : String} {confirm : Option String} :
    ({ loaded := loaded, confirm := confirm } : AnchorCall).Guarded := by
  nofun

section

variable (h : service.Sound confirm)
include h

theorem Service.Sound.check {held : Ca} (hhl : service.held = some held) :
    ({ service with task := held.check } : Service).Sound confirm :=
  ⟨h.confirm, h.signs, held, hhl, rfl, rfl, guarded_read⟩

theorem Service.Sound.reload {held : Ca} (hhl : service.held = some held) (material : Material) :
    (service.reload held material).Sound confirm := by
  have hch := h.check hhl
  unfold Service.reload
  cases material with
  | unreadable => exact hch
  | unparsable => exact hch
  | cert fingerprint key =>
    dsimp only
    split_ifs
    · exact hch
    · cases key with
      | none => exact hch
      | some key => exact ⟨h.confirm, h.signs, rfl, rfl, guarded_read⟩

theorem Service.Sound.recheck : service.recheck.Sound confirm := by
  unfold Service.recheck
  split
  · exact ⟨h.confirm, h.signs, trivial⟩
  · rename_i held hhl
    exact h.check hhl

theorem Service.Sound.storeStep :
    (service.storeStep record reply).2.Sound confirm := by
  have hts := h.task
  unfold Service.TaskSound at hts
  unfold Service.storeStep
  split
  · rename_i ca call hcl
    rw [hcl] at hts
    obtain ⟨hld, hcn, -⟩ := hts
    split
    · rename_i record' phase hst
      exact ⟨h.confirm, h.signs, hld, hcn, AnchorCall.guarded_next hst⟩
    · rename_i record' answer hst
      refine ⟨h.confirm, fun _ held hhl => ?_, trivial⟩
      cases hhl
      exact (AnchorCall.record_of_ok hst).trans (congrArg some hld)
    · exact ⟨h.confirm, h.signs, trivial⟩
  · rename_i call hcl
    rw [hcl] at hts
    obtain ⟨held, hhl, hld, hcn, -⟩ := hts
    split
    · rename_i record' phase hst
      exact ⟨h.confirm, h.signs, held, hhl, hld, hcn, AnchorCall.guarded_next hst⟩
    · rename_i record' answer hst
      exact ⟨h.confirm, h.signs, held, hhl,
        fun _ => (AnchorCall.record_of_ok hst).trans (congrArg some hld)⟩
    · exact ⟨h.confirm, h.signs, held, hhl, nofun⟩
  · rename_i ca call hcl
    rw [hcl] at hts
    obtain ⟨hld, hcn, -⟩ := hts
    split
    · rename_i record' phase hst
      exact ⟨h.confirm, h.signs, hld, hcn, AnchorCall.guarded_next hst⟩
    · rename_i record' answer hst
      exact ⟨h.confirm, h.signs, (AnchorCall.record_of_ok hst).trans (congrArg some hld)⟩
    · exact h.recheck
  · exact h

theorem Service.Sound.settle : service.settle.Sound confirm := by
  have hts := h.task
  unfold Service.TaskSound at hts
  unfold Service.settle
  split
  · rename_i ok recorded hcl
    rw [hcl] at hts
    obtain ⟨held, hhl, hrc⟩ := hts
    refine ⟨h.confirm, fun hok other hot => ?_, trivial⟩
    cases hhl.symm.trans hot
    exact hrc hok
  · rename_i ca recorded hcl
    rw [hcl] at hts
    refine ⟨h.confirm, fun _ other hot => ?_, ca, rfl, hts⟩
    cases hot
    exact hts
  · rename_i hcl
    rw [hcl] at hts
    obtain ⟨held, hhl, hfn⟩ := hts
    refine ⟨h.confirm, fun _ other hot => ?_, trivial⟩
    cases hhl.symm.trans hot
    exact hfn
  · exact h

end

end Services

/-! ### The grid CA -/

section Agreement

variable {ι : Type*} [DecidableEq ι] {confirm : ι → Option String} {services : Services ι}

def Services.Sound (confirm : ι → Option String) (services : Services ι) : Prop :=
  ∀ i, (services.service i).Sound (confirm i)

@[simp] theorem Services.set_service_self (services : Services ι) (i : ι) (service : Service) :
    (services.set i service).service i = service := by
  simp [set]

theorem Services.set_service_of_ne (services : Services ι) {i j : ι} (hne : j ≠ i)
    (service : Service) : (services.set i service).service j = services.service j := by
  simp [set, hne]

theorem Services.Sound.set (h : services.Sound confirm) {i : ι} {service : Service}
    (hsr : service.Sound (confirm i)) :
    (services.set i service).Sound confirm := by
  intro j
  by_cases hj : j = i
  · subst hj
    rw [set_service_self]
    exact hsr
  · rw [set_service_of_ne services hj]
    exact h j

theorem Services.Sound.step (h : services.Sound confirm) (op : CaOp ι) :
    (services.step op).Sound confirm := by
  cases op with
  | start i ca =>
    unfold Services.step
    dsimp only
    split
    · exact h.set ⟨(h i).confirm, (h i).signs, rfl, rfl, guarded_read⟩
    · exact h
  | reload i material =>
    unfold Services.step
    dsimp only
    split
    · rename_i held hhl _
      exact h.set ((h i).reload hhl material)
    · exact h
  | store i reply => exact h.set (h i).storeStep
  | settle i => exact h.set (h i).settle
  | crash i => exact h.set ((h i).confirm ▸ sound_initial _)

theorem Services.sound_after (record : Option String) (confirm : ι → Option String)
    (ops : List (CaOp ι)) : ((initial record confirm).after ops).Sound confirm := by
  have hst (services : Services ι) (op : CaOp ι) (h : services.Sound confirm) :
      (services.step op).Sound confirm := h.step op
  exact Run.run_invariant hst fun i => sound_initial (confirm i)

theorem Service.storeStep_record (service : Service) (record : Option String) (reply : Reply) :
    (service.storeStep record reply).1
      = match service.call? with
        | some call => (call.step record reply).1
        | none => record := by
  unfold storeStep call?
  split
  · rename_i ca call _
    split <;> simp [*]
  · rename_i call _
    split <;> simp [*]
  · rename_i ca call _
    split <;> simp [*]
  · split
    · simp_all
    · rfl

theorem Service.Sound.call {confirm : Option String} {service : Service}
    (h : service.Sound confirm) {call : AnchorCall} (hcl : service.call? = some call) :
    call.Guarded ∧ (call.confirm = none ∨ call.confirm = confirm) := by
  have htk := h.task
  unfold TaskSound at htk
  unfold call? at hcl
  split at hcl
  · rename_i ca found hts
    rw [hts] at htk
    cases hcl
    exact ⟨htk.2.2, Or.inr (htk.2.1.trans h.confirm)⟩
  · rename_i found hts
    rw [hts] at htk
    cases hcl
    obtain ⟨-, -, -, hcn, hgr⟩ := htk
    exact ⟨hgr, Or.inl hcn⟩
  · rename_i ca found hts
    rw [hts] at htk
    cases hcl
    exact ⟨htk.2.2, Or.inr (htk.2.1.trans h.confirm)⟩
  · cases hcl

theorem Services.record_step (services : Services ι) (op : CaOp ι)
    (hmv : (services.step op).record ≠ services.record) :
    ∃ i reply call, op = .store i reply ∧ (services.service i).call? = some call
      ∧ (services.step op).record = (call.step services.record reply).1 := by
  cases op with
  | start i ca | reload i material =>
    unfold step at hmv
    dsimp only at hmv
    split at hmv <;> exact absurd rfl hmv
  | store i reply =>
    have hrec := (services.service i).storeStep_record services.record reply
    have hst : (services.step (.store i reply)).record
        = ((services.service i).storeStep services.record reply).1 := rfl
    rw [hst, hrec] at hmv ⊢
    rcases hcl : (services.service i).call? with - | call
    · rw [hcl] at hmv
      exact absurd rfl hmv
    · exact ⟨i, reply, call, rfl, hcl, rfl⟩
  | settle i | crash i => exact absurd rfl hmv

/-- What an operation may do to the record and to the signers. -/
structure CaAgreed (confirm : ι → Option String) (services : Services ι) (op : CaOp ι) : Prop where
  /-- the record moves away from a key only in a call of a service that confirmed exactly that key,
  and to the key of that call -/
  moved : ∀ recorded, services.record = some recorded →
    (services.step op).record ≠ some recorded →
    ∃ i reply call, op = .store i reply ∧ (services.service i).call? = some call
      ∧ confirm i = some recorded ∧ (services.step op).record = some call.loaded
  /-- the record is not lost -/
  kept : services.record.isSome → (services.step op).record.isSome
  /-- a call that succeeds sees its own key recorded -/
  succeeded : ∀ i reply call answer, op = .store i reply →
    (services.service i).call? = some call →
    (call.step services.record reply).2 = .returned (.ok answer) →
    (services.step op).record = some call.loaded
  /-- a CA is handed out only if the last completed check or swap found its key recorded -/
  signs : ∀ i ca, ((services.step op).service i).signer = some ca →
    ((services.step op).service i).found = some ca.key
  /-- a check that begins while another key is recorded fails -/
  fails : ∀ i reply (held : Ca) recorded, op = .store i reply →
    (services.service i).task = held.check → services.record = some recorded →
    recorded ≠ held.key →
    ((services.step op).service i).task = .settling false (some recorded)
  /-- and nothing is signed once a failed check is completed -/
  stops : ∀ i recorded, op = .settle i → (services.service i).task = .settling false recorded →
    ((services.step op).service i).signer = none

/-- **The grid CA moves only by a confirmed, agreed step**, whatever the services that share the
record do and however their operations are interleaved. -/
theorem grid_ca_agreed (record : Option String) (confirm : ι → Option String)
    (ops : List (CaOp ι)) (op : CaOp ι) :
    CaAgreed confirm ((Services.initial record confirm).after ops) op := by
  have hsn := Services.sound_after record confirm ops
  generalize (Services.initial record confirm).after ops = services at hsn ⊢
  have hmv (recorded : String) (hrc : services.record = some recorded)
      (hne : (services.step op).record ≠ some recorded) :
      ∃ i reply call, op = .store i reply ∧ (services.service i).call? = some call
        ∧ confirm i = some recorded ∧ (services.step op).record = some call.loaded := by
    obtain ⟨i, reply, call, hop, hcl, hrd⟩ :=
      services.record_step op (fun heq => hne (heq.trans hrc))
    obtain ⟨hgr, hcn⟩ := (hsn i).call hcl
    refine ⟨i, reply, call, hop, hcl, ?_⟩
    have hcs := AnchorCall.record_cases services.record reply hgr
    rw [← hrd] at hcs
    rcases hcs with hsa | ⟨hld, hfr⟩
    · rw [hsa] at hne
      exact absurd hrc hne
    · -- something is recorded, so the swap expected what the call confirmed
      rw [hrc] at hfr
      rcases hfr with hnn | hsm
      · cases hnn
      · rcases hcn with hnn | hsr
        · rw [hnn] at hsm
          cases hsm
        · exact ⟨hsr.symm.trans hsm.symm, hld⟩
  constructor
  · exact hmv
  · intro hsm
    obtain ⟨recorded, hrc⟩ := Option.isSome_iff_exists.mp hsm
    by_cases hsa : (services.step op).record = some recorded
    · rw [hsa]
      rfl
    · obtain ⟨i, reply, call, -, -, -, hld⟩ := hmv recorded hrc hsa
      rw [hld]
      rfl
  · rintro i reply call answer rfl hcl har
    have hrd : (services.step (.store i reply)).record = (call.step services.record reply).1 := by
      have hst := (services.service i).storeStep_record services.record reply
      rw [hcl] at hst
      exact hst
    rw [hrd]
    exact AnchorCall.record_of_ok (Prod.ext rfl har)
  · intro i ca hsg
    have hsr := hsn.step op i
    unfold Service.signer at hsg
    split_ifs at hsg with han
    exact hsr.signs han ca hsg
  · rintro i reply held recorded rfl hts hrc hne
    obtain ⟨error, hst⟩ := AnchorCall.step_of_other hne
    show ((services.set i _).service i).task = _
    rw [Services.set_service_self]
    unfold Service.storeStep
    rw [hts, hrc]
    unfold Ca.check
    dsimp only
    rw [hst]
  · rintro i recorded rfl hts
    show ((services.set i _).service i).signer = none
    rw [Services.set_service_self]
    unfold Service.settle
    rw [hts]
    rfl

end Agreement

end PraxisGrid.Enrollment
