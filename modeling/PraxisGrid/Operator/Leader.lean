/-
PraxisGrid/Operator/Leader.lean

Leader election: `crates/operator/src/leader.rs`, and the identity check of `elect` in
`crates/operator/src/main.rs`.

Replicas contend for a lease that is written by compare-and-swap only.  Time passes on one clock the
replicas do not see; a replica reads its own, ahead of it by an offset.  A call of an elector is cut
at its awaits, and whatever is awaited may fail, time out or be dropped with its caller at any moment;
a write that was sent may land long after.

The lease is kept as the history of its writes.  The code sees its last write and its version, the
length of the history (`current`); the rest is there for the proofs.

Waits are not modelled: a replica may try at any moment.  Nor is the overflow of an instant.
-/
import PraxisGrid.Lib.Run
import PraxisGrid.Lib.Tenure

namespace PraxisGrid.Operator.Leader

open Tenure List Option

/-! ### The lease -/

/-- A duration of seconds, in nanoseconds. -/
def secs (n : Nat) : Nat := n * 1000000000

/-- How long a lease stays held without a renewal. -/
def leaseDuration : Nat := secs 10

/-- How long the holder keeps trying after its last renewal before it counts itself lost. -/
def renewDeadline : Nat := secs 8

def i32Max : Int := 2147483647

/-- What the lease says. -/
structure Record where
  /-- who holds it, none once released -/
  holder : Option String
  duration : Nat
  /-- when the current holder took it, by its wall clock -/
  acquired : Option Int
  renewed : Option Int
  /-- how many times it has changed hands -/
  transitions : Int

/-- The spec of a `coordination.k8s.io/v1` `Lease`. -/
structure LeaseSpec where
  holderIdentity : Option String
  leaseDurationSeconds : Option Int
  acquireTime : Option Int
  renewTime : Option Int
  leaseTransitions : Option Int

/-- What a `Lease` spec says. -/
def recordOf (spec : LeaseSpec) : Record where
  holder := spec.holderIdentity.filter (· ≠ "")
  duration := secs ((spec.leaseDurationSeconds.bind fun seconds =>
    if 0 ≤ seconds then some seconds.toNat else none).getD 0)
  acquired := spec.acquireTime
  renewed := spec.renewTime
  transitions := spec.leaseTransitions.getD 0

/-- The `Lease` spec saying a record. -/
def specOf (record : Record) : LeaseSpec where
  holderIdentity := record.holder
  leaseDurationSeconds := some (min (record.duration / secs 1 : Nat) i32Max)
  acquireTime := record.acquired
  renewTime := record.renewed
  leaseTransitions := some record.transitions

/-- A replica's holder identity. -/
structure Identity where
  name : String
  nonempty : name ≠ ""
deriving DecidableEq

/-- The identity a replica is elected under. -/
def identityOf : Option String → Except String Identity
  | none => .error "GRID_LEADER_LEASE is set but GRID_LEADER_IDENTITY is not"
  | some name =>
    if h : name = "" then .error "GRID_LEADER_LEASE is set but GRID_LEADER_IDENTITY is not"
    else .ok ⟨name, h⟩

abbrev Write := Entry Identity LeaseSpec

/-- The record and its version, none when no lease exists. -/
def current : List Write → Option (Record × Nat)
  | [] => none
  | write :: earlier => some (recordOf write.value, earlier.length + 1)

/-- Whether a replica may write a record: it holds the lease, nobody does, or the lease has gone
unchanged for its whole duration. -/
def takeable (record : Record) (me : String) (unchangedFor : Nat) : Bool :=
  match record.holder.filter (· ≠ "") with
  | none => true
  | some holder => if holder = me then true else unchangedFor ≥ record.duration

/-- The record a replica writes over another to hold the lease. -/
def taken (me : String) (current : Option Record) (now : Int) : Record :=
  let mine := current.any fun record => record.holder = some me
  { holder := some me
    duration := leaseDuration
    acquired := if mine then current.bind Record.acquired else some now
    renewed := some now
    transitions :=
      match current with
      | none => 0
      | some record =>
        if mine then record.transitions else min (record.transitions + 1) i32Max }

/-! ### Electors -/

/-- A write on its way to the store, sent over what was read. -/
structure Put where
  owner : Identity
  takes : Bool
  past : List Write
  value : LeaseSpec
  /-- when it was decided -/
  decided : Nat
  /-- once it landed, its version, or that another write came first -/
  outcome : Option (Option Nat) := none

/-- Where an attempt is. -/
inductive Stage
  | reading
  | read (past : List Write)
  /-- a write sent, and the replica's clock when it was decided -/
  | writing (put : Nat) (now : Nat)

/-- The call an elector is in. -/
inductive Task
  | idle
  /-- `acquire_when`, between two attempts or in one -/
  | acquiring (stage : Option Stage)
  /-- `hold_until`, before the next renewal -/
  | holding (deadline : Nat)
  /-- `renew`, in its attempt -/
  | renewing (deadline : Nat) (stage : Stage)
  /-- `names_me` -/
  | checking (deadline : Nat) (read : Option (List Write))
  | releasing (stage : Stage)

structure Elector where
  /-- how far its clock is ahead -/
  offset : Nat
  /-- the version last seen and when it was first seen, on this replica's clock -/
  observed : Option (Nat × Nat) := none
  /-- when this replica last wrote the lease as its holder -/
  renewedAt : Option Nat := none
  task : Task := .idle

/-- Whether a replica may act as the lease holder. -/
inductive Holding
  /-- a replica that writes unelected -/
  | unelected
  | elected (renewed : Option Nat)

def Holding.holds : Holding → Nat → Bool
  | .unelected, _ => true
  | .elected none, _ => false
  | .elected (some renewed), now => now < renewed + renewDeadline

def Elector.holding (elector : Elector) : Holding := .elected elector.renewedAt

def Task.attempting : Task → Option Stage
  | .acquiring stage => stage
  | .renewing _ stage => some stage
  | _ => none

def Task.to (stage : Stage) : Task → Task
  | .acquiring _ => .acquiring (some stage)
  | .renewing deadline _ => .renewing deadline stage
  | task => task

/-- The head of the loop of `hold_until`. -/
def Elector.holdOn (elector : Elector) : Elector :=
  match elector.renewedAt with
  | some at_ => { elector with task := .holding (at_ + renewDeadline) }
  | none => { elector with task := .idle }

/-- The end of `hold_until` when the lease is lost. -/
def Elector.lost (elector : Elector) : Elector :=
  { elector with renewedAt := none, task := .idle }

/-- What follows an attempt: whether the lease is held, or none for an error. -/
def Elector.attempted (elector : Elector) (result : Option Bool) : Elector :=
  match elector.task with
  | .acquiring _ =>
    { elector with task := if result = some true then .idle else .acquiring none }
  | .renewing deadline _ =>
    if result = some false then { elector with task := .checking deadline none }
    else elector.holdOn
  | _ => elector

/-- The version read, and when it was first seen. -/
def Elector.seen (elector : Elector) (version now : Nat) : Nat × Nat :=
  match elector.observed with
  | some (seen, since) => if seen = version then (seen, since) else (version, now)
  | none => (version, now)

/-- `attempt` once the lease is read: give up, or the record to write. -/
def Elector.answered (elector : Elector) (me : Identity) (now : Nat) (past : List Write)
    (stamp : Int) : Elector × Option Record :=
  match current past with
  | none => (elector, some (taken me.name none stamp))
  | some (record, version) =>
    let seen := elector.seen version now
    let elector := { elector with observed := some seen }
    if takeable record me.name (now - seen.2) then
      (elector, some (taken me.name (some record) stamp))
    else (elector, none)

inductive ElectorOp
  /-- the process restarts, perhaps on another node -/
  | restart (offset : Nat)
  | acquire
  | hold
  | release
  /-- the gate is open -/
  | attempt
  /-- the wait before a renewal is over -/
  | wake
  /-- the caller finished -/
  | finished
  /-- the store answers a read -/
  | read
  /-- the answer arrives, at a wall clock -/
  | answer (stamp : Int)
  /-- the answer to a write arrives -/
  | reply
  /-- a read or a write fails or times out -/
  | fail
  /-- the caller drops the call -/
  | cancel

def Elector.send (elector : Elector) (me : Identity) (now : Nat) (puts : List Put)
    (past : List Write) (record : Record) : Elector × Option Put :=
  ({ elector with task := elector.task.to (.writing puts.length (now + elector.offset)) },
    some { owner := me, takes := true, past, value := specOf record, decided := now })

def Elector.act (elector : Elector) (me : Identity) (now : Nat) (history : List Write)
    (puts : List Put) : ElectorOp → Elector × Option Put
  | .restart offset => ({ offset }, none)
  | .cancel => ({ elector with task := .idle }, none)
  | .acquire =>
    match elector.task with
    | .idle => ({ elector with task := .acquiring none }, none)
    | _ => (elector, none)
  | .hold =>
    match elector.task with
    | .idle => (elector.holdOn, none)
    | _ => (elector, none)
  | .release =>
    match elector.task with
    | .idle => ({ elector with renewedAt := none, task := .releasing .reading }, none)
    | _ => (elector, none)
  | .attempt =>
    match elector.task with
    | .acquiring none => ({ elector with task := .acquiring (some .reading) }, none)
    | _ => (elector, none)
  | .wake =>
    match elector.task with
    | .holding deadline =>
      if now + elector.offset < deadline then
        ({ elector with task := .renewing deadline .reading }, none)
      else (elector.lost, none)
    | _ => (elector, none)
  | .finished =>
    match elector.task with
    | .holding _ => ({ elector with task := .idle }, none)
    | _ => (elector, none)
  | .read =>
    match elector.task with
    | .checking deadline none =>
      ({ elector with task := .checking deadline (some history) }, none)
    | .releasing .reading => ({ elector with task := .releasing (.read history) }, none)
    | task =>
      match task.attempting with
      | some .reading => ({ elector with task := task.to (.read history) }, none)
      | _ => (elector, none)
  | .answer stamp =>
    match elector.task with
    | .checking _ (some past) =>
      if (current past).any fun (record, _) => record.holder = some me.name then
        (elector.holdOn, none)
      else (elector.lost, none)
    | .releasing (.read past) =>
      match current past with
      | none => ({ elector with task := .idle }, none)
      | some (record, _) =>
        if record.holder = some me.name then
          ({ elector with task := .releasing (.writing puts.length (now + elector.offset)) },
            some
              { owner := me, takes := false, past
                value := specOf { record with holder := none, renewed := some stamp }
                decided := now })
        else ({ elector with task := .idle }, none)
    | task =>
      match task.attempting with
      | some (.read past) =>
        match elector.answered me (now + elector.offset) past stamp with
        | (elector, some record) => elector.send me now puts past record
        | (elector, none) => (elector.attempted (some false), none)
      | _ => (elector, none)
  | .reply =>
    match elector.task with
    | .releasing (.writing put _) =>
      if (puts[put]?.bind Put.outcome).isSome then ({ elector with task := .idle }, none)
      else (elector, none)
    | task =>
      match task.attempting with
      | some (.writing put now) =>
        match puts[put]?.bind Put.outcome with
        | some (some version) =>
          ({ elector with
              observed := some (version, now)
              renewedAt := some now }.attempted (some true), none)
        | some none => (elector.attempted (some false), none)
        | none => (elector, none)
      | _ => (elector, none)
  | .fail =>
    match elector.task with
    | .checking _ _ => (elector.lost, none)
    | .releasing _ => ({ elector with task := .idle }, none)
    | task =>
      match task.attempting with
      | some _ => (elector.attempted none, none)
      | none => (elector, none)

/-! ### Runs -/

structure World where
  /-- the time, on no replica's clock -/
  now : Nat := 0
  /-- the writes of the lease, the newest first -/
  history : List Write := []
  /-- the writes sent -/
  puts : List Put := []
  electors : Identity → Elector

inductive LeaderOp
  | tick (elapsed : Nat)
  /-- a write reaches the store -/
  | land (put : Nat)
  | act (replica : Identity) (op : ElectorOp)

/-- A write over what was read, or a creation if nothing was, unless another came first. -/
def World.land (world : World) (index : Nat) (put : Put) : World :=
  if (current put.past).map Prod.snd = (current world.history).map Prod.snd then
    { world with
      history :=
        { owner := put.owner, takes := put.takes, landed := world.now, value := put.value }
          :: world.history
      puts := world.puts.set index
        { put with outcome := some (some (world.history.length + 1)) } }
  else { world with puts := world.puts.set index { put with outcome := some none } }

def World.step (world : World) : LeaderOp → World
  | .tick elapsed => { world with now := world.now + elapsed }
  | .land index =>
    match world.puts[index]? with
    | some put => if put.outcome.isNone then world.land index put else world
    | none => world
  | .act replica op =>
    let (elector, put) := (world.electors replica).act replica world.now world.history world.puts op
    { world with
      electors := Function.update world.electors replica elector
      puts := world.puts ++ put.toList }

/-- The replicas at the start, with no lease yet. -/
def World.initial (offsets : Identity → Nat) : World where
  electors replica := { offset := offsets replica }

def World.after (offsets : Identity → Nat) (ops : List LeaderOp) : World :=
  Run.run World.step (World.initial offsets) ops

/-- Whether the holding handle of a replica reports that it holds. -/
def World.holds (world : World) (replica : Identity) : Bool :=
  (world.electors replica).holding.holds (world.now + (world.electors replica).offset)

/-! ### What is written -/

section

variable {history history' past : List Write} {puts puts' : List Put} {put put' : Put}
  {replica : Identity} {elector : Elector} {n v floor now index : Nat} {write : Write}
  {record : Record} {stage : Stage}

/-- What a write of a replica says when it is read. -/
def States (owner : Identity) (takes : Bool) (spec : LeaseSpec) : Prop :=
  (recordOf spec).holder = (if takes then some owner.name else none) ∧
    (recordOf spec).duration = leaseDuration

theorem duration_recordOf_specOf (record : Record) (h : record.duration = leaseDuration) :
    (recordOf (specOf record)).duration = leaseDuration := by
  show secs ((((some (min ((record.duration / secs 1 : Nat) : Int) i32Max)).bind fun seconds =>
    if 0 ≤ seconds then some seconds.toNat else none)).getD 0) = leaseDuration
  rw [h]
  decide

theorem states_taken (me : Identity) (current : Option Record) (stamp : Int) :
    States me true (specOf (taken me.name current stamp)) := by
  refine ⟨?_, duration_recordOf_specOf _ rfl⟩
  show (some me.name).filter (· ≠ "") = some me.name
  rw [filter_some, if_pos]
  exact decide_eq_true me.nonempty

theorem states_released (me : Identity) (h : record.duration = leaseDuration) (stamp : Int) :
    States me false (specOf { record with holder := none, renewed := some stamp }) :=
  ⟨rfl, duration_recordOf_specOf _ h⟩

/-- A tenure that lasts is another's for its whole duration. -/
theorem lasted_of_takeable (hst : States write.owner write.takes write.value)
    {unchangedFor : Nat}
    (htk : takeable (recordOf write.value) replica.name unchangedFor = true)
    (hts : write.takes = true) (hot : write.owner ≠ replica) :
    leaseDuration ≤ unchangedFor := by
  obtain ⟨hhl, hdr⟩ := hst
  rw [hts, if_pos rfl] at hhl
  unfold takeable at htk
  rw [hhl, hdr, filter_some, if_pos (decide_eq_true write.owner.nonempty)] at htk
  dsimp only at htk
  have hnm : write.owner.name ≠ replica.name := by
    intro heq
    obtain ⟨⟨name, _⟩, _⟩ := write
    obtain ⟨name', _⟩ := replica
    obtain rfl : name = name' := heq
    exact hot rfl
  rw [if_neg hnm] at htk
  exact of_decide_eq_true htk

theorem length_eq_of_version (h : (current past).map Prod.snd = (current history).map Prod.snd) :
    past.length = history.length := by
  cases past with
  | nil =>
    cases history with
    | nil => rfl
    | cons _ _ => cases h
  | cons _ past =>
    cases history with
    | nil => cases h
    | cons _ history => exact some.inj h

/-! ### Invariants -/

/-- A write on its way is over a past state of the lease, and keeps off another's tenure. -/
structure Put.Sound (history : List Write) (now : Nat) (put : Put) : Prop where
  past : put.past <:+ history
  decided : put.decided ≤ now
  states : States put.owner put.takes put.value
  taken : put.takes = true → ∀ x ∈ put.past.head?, x.takes = true → x.owner ≠ put.owner →
    x.landed + leaseDuration ≤ put.decided
  given : put.takes = false → ∀ x ∈ put.past.head?, x.takes = true ∧ x.owner = put.owner

/-- A replica's write that nobody can have written over in time, not even a release of its own that
is still on its way. -/
structure Backed (history : List Write) (puts : List Put) (replica : Identity) (n v : Nat) :
    Prop where
  secured : Secured leaseDuration replica n v history
  released : ∀ put ∈ puts, put.outcome = none → put.owner = replica → put.takes = false →
    put.past.length < v

/-- What an elector knows is so. -/
structure Elector.Sound (floor : Nat) (history : List Write) (puts : List Put) (replica : Identity)
    (elector : Elector) : Prop where
  renewed : ∀ now, elector.renewedAt = some now →
    ∃ n v, now = n + elector.offset ∧ floor < v ∧ Backed history puts replica n v
  observed : ∀ v since, elector.observed = some (v, since) →
    ∃ x, At history v x ∧
      (x.landed + elector.offset ≤ since ∨ x.owner = replica ∧ x.takes = true)
  reads : ∀ past, elector.task.attempting = some (.read past) ∨
    elector.task = .releasing (.read past) → past <:+ history
  writing : ∀ index now, elector.task.attempting = some (.writing index now) →
    ∃ put, puts[index]? = some put ∧ put.owner = replica ∧ put.takes = true ∧
      now = put.decided + elector.offset ∧
      ∀ v, put.outcome = some (some v) → floor < v ∧ Backed history puts replica put.decided v
  releasing : ∀ stage, elector.task = .releasing stage → elector.renewedAt = none

structure World.Sound (floor : Identity → Nat) (world : World) : Prop where
  landed : ∀ x ∈ world.history, x.landed ≤ world.now
  states : ∀ x ∈ world.history, States x.owner x.takes x.value
  floors : ∀ replica, floor replica ≤ world.history.length
  puts : ∀ put ∈ world.puts, put.outcome = none → put.Sound world.history world.now
  electors : ∀ replica,
    (world.electors replica).Sound (floor replica) world.history world.puts replica

/-! ### A write is sent -/

theorem Backed.send (h : Backed history puts replica n v)
    (hput : put.owner = replica → put.takes = true) :
    Backed history (puts ++ [put]) replica n v := by
  refine ⟨h.secured, fun p hp hfl how hgv => ?_⟩
  rcases mem_append.mp hp with hp | hp
  · exact h.released p hp hfl how hgv
  · obtain rfl := mem_singleton.mp hp
    exact absurd ((hput how).symm.trans hgv) nofun

theorem Elector.Sound.send (h : elector.Sound floor history puts replica) (put : Put)
    (hput : put.owner = replica → put.takes = true) :
    elector.Sound floor history (puts ++ [put]) replica := by
  refine ⟨fun now hnow => ?_, h.observed, h.reads, fun index now hts => ?_, h.releasing⟩
  · obtain ⟨n, v, hn, hv, hbc⟩ := h.renewed now hnow
    exact ⟨n, v, hn, hv, hbc.send hput⟩
  · obtain ⟨p, hp, how, htk, hn, hout⟩ := h.writing index now hts
    refine ⟨p, ?_, how, htk, hn, fun v hv => ?_⟩
    · rw [List.getElem?_append_left (List.getElem?_eq_some_iff.mp hp).1, hp]
    · exact ⟨(hout v hv).1, (hout v hv).2.send hput⟩

/-! ### A write lands -/

/-- What is left on its way when one write has landed. -/
theorem mem_of_mem_set {p : Put} (hp : p ∈ puts.set index put') (hfl : p.outcome = none)
    (hout : put'.outcome ≠ none) : p ∈ puts := by
  rcases mem_or_eq_of_mem_set hp with hp | rfl
  · exact hp
  · exact absurd hfl hout

theorem Backed.set (h : Backed history puts replica n v)
    (hsc : Secured leaseDuration replica n v history') (hout : put'.outcome ≠ none) :
    Backed history' (puts.set index put') replica n v :=
  ⟨hsc, fun p hp hfl => h.released p (mem_of_mem_set hp hfl hout) hfl⟩

theorem Put.Sound.fair {history : List Write} (hput : put.Sound history now)
    (hln : ∀ x ∈ history, x.landed ≤ now) (hps : put.past = history) :
    Fair leaseDuration history
      { owner := put.owner, takes := put.takes, landed := now, value := put.value } := by
  obtain ⟨-, hdc, -, htk, hgv⟩ := hput
  rw [hps] at htk hgv
  refine ⟨hln, fun hts x hx hxt hot => ?_, hgv⟩
  exact Nat.le_trans (htk hts x hx hxt hot) hdc

/-- **What is backed stays so when a write lands.** -/
theorem Backed.land (h : Backed history puts replica n v) (hin : puts[index]? = some put)
    (hfl : put.outcome = none) (hput : put.Sound history now)
    (hln : ∀ x ∈ history, x.landed ≤ now) (hps : put.past = history)
    (hout : put'.outcome ≠ none) :
    Backed ({ owner := put.owner, takes := put.takes, landed := now, value := put.value } :: history)
      (puts.set index put') replica n v := by
  refine h.set (h.secured.cons (hput.fair hln hps) fun how => ?_) hout
  -- a release of its own would be over an older version
  by_contra hgv
  have hlt : put.past.length < v :=
    h.released put (mem_of_getElem? hin) hfl how (Bool.eq_false_iff.mpr hgv)
  obtain ⟨x, hat, -, -⟩ := h.secured.at
  have hle : v ≤ history.length := hat.le
  rw [hps] at hlt
  omega

/-- An elector when a write on its way has landed or come too late. -/
theorem Elector.Sound.set (h : elector.Sound floor history puts replica)
    (hin : puts[index]? = some put) (outcome : Option Nat) (hsf : history <:+ history')
    (hbk : ∀ n v, Backed history puts replica n v →
      Backed history' (puts.set index { put with outcome := some outcome }) replica n v)
    (hown : ∀ v, outcome = some v → put.owner = replica → put.takes = true → floor < v ∧
      Backed history' (puts.set index { put with outcome := some outcome }) replica put.decided v) :
    elector.Sound floor history' (puts.set index { put with outcome := some outcome }) replica := by
  refine ⟨fun t ht => ?_, fun v since hv => ?_, fun past hrd => (h.reads past hrd).trans hsf,
    fun i t hts => ?_, h.releasing⟩
  · obtain ⟨n, v, hn, hv, hbc⟩ := h.renewed t ht
    exact ⟨n, v, hn, hv, hbk n v hbc⟩
  · obtain ⟨x, hat, hx⟩ := h.observed v since hv
    exact ⟨x, hat.of_suffix hsf, hx⟩
  · obtain ⟨p, hp, how, htk, ht, hout⟩ := h.writing i t hts
    by_cases hi : i = index
    · subst hi
      obtain rfl : p = put := some.inj (hp.symm.trans hin)
      exact ⟨_, List.getElem?_set_self (List.getElem?_eq_some_iff.mp hp).1, how, htk, ht,
        fun v hv => hown v (some.inj hv) how htk⟩
    · refine ⟨p, by rw [List.getElem?_set_ne (Ne.symm hi), hp], how, htk, ht, fun v hv => ?_⟩
      obtain ⟨hlt, hbc⟩ := hout v hv
      exact ⟨hlt, hbk _ v hbc⟩

theorem Elector.Sound.land (h : elector.Sound floor history puts replica)
    (hin : puts[index]? = some put) (hfl : put.outcome = none)
    (hpt : ∀ p ∈ puts, p.outcome = none → p.Sound history now)
    (hln : ∀ x ∈ history, x.landed ≤ now) (hfr : floor ≤ history.length)
    (hps : put.past = history) :
    elector.Sound floor
      ({ owner := put.owner, takes := put.takes, landed := now, value := put.value } :: history)
      (puts.set index { put with outcome := some (some (history.length + 1)) }) replica := by
  have hput : put.Sound history now := hpt put (mem_of_getElem? hin) hfl
  refine h.set hin _ (suffix_cons _ history)
    (fun n v hbc => hbc.land hin hfl hput hln hps nofun) fun v hv how htk => ?_
  -- its own write: the tenure starts here
  obtain rfl : history.length + 1 = v := some.inj hv
  refine ⟨Nat.lt_succ_of_le hfr, Secured.start how htk hput.decided, fun q hq hqf _ _ => ?_⟩
  have hqp : q ∈ puts := mem_of_mem_set hq hqf nofun
  exact Nat.lt_succ_of_le (hpt q hqp hqf).past.length_le

theorem Put.Sound.of_suffix (h : put.Sound history now) (hsf : history <:+ history') :
    put.Sound history' now :=
  ⟨h.past.trans hsf, h.decided, h.states, h.taken, h.given⟩

theorem World.Sound.land {floor : Identity → Nat} {world : World} (h : world.Sound floor)
    (hin : world.puts[index]? = some put) (hfl : put.outcome = none) :
    (world.land index put).Sound floor := by
  have hput : put.Sound world.history world.now :=
    h.puts put (mem_of_getElem? hin) hfl
  unfold World.land
  split_ifs with hver
  · have hps : put.past = world.history :=
      hput.past.eq_of_length (length_eq_of_version hver)
    refine ⟨fun x hx => ?_, fun x hx => ?_, fun r => ?_, fun p hp hpf => ?_, fun r => ?_⟩
    · rcases mem_cons.mp hx with rfl | hx
      · exact Nat.le_refl _
      · exact h.landed x hx
    · rcases mem_cons.mp hx with rfl | hx
      · exact hput.states
      · exact h.states x hx
    · exact Nat.le_succ_of_le (h.floors r)
    · have hp' : p ∈ world.puts := mem_of_mem_set hp hpf nofun
      exact (h.puts p hp' hpf).of_suffix (suffix_cons _ _)
    · exact (h.electors r).land hin hfl h.puts h.landed (h.floors r) hps
  · refine ⟨h.landed, h.states, h.floors, fun p hp hpf => ?_, fun r => ?_⟩
    · exact h.puts p (mem_of_mem_set hp hpf nofun) hpf
    · exact (h.electors r).set hin none (suffix_refl _)
        (fun n v hbc => hbc.set hbc.secured nofun) nofun

/-! ### A replica acts -/

section

variable (h : elector.Sound floor history puts replica)
include h

theorem Elector.Sound.to (task : Task)
    (hat : ∀ stage, task.attempting = some stage → stage = .reading)
    (hrel : ∀ stage, task ≠ .releasing stage) :
    { elector with task }.Sound floor history puts replica := by
  refine ⟨h.renewed, h.observed, fun past hrd => ?_, fun i t hwr => ?_, fun stage hst => ?_⟩
  · rcases hrd with hrd | hrd
    · cases hat _ hrd
    · exact absurd hrd (hrel _)
  · cases hat _ hwr
  · exact absurd hst (hrel stage)

theorem Elector.Sound.idle :
    { elector with task := .idle }.Sound floor history puts replica :=
  h.to .idle nofun nofun

theorem Elector.Sound.drop :
    { elector with renewedAt := none }.Sound floor history puts replica :=
  ⟨nofun, h.observed, h.reads, h.writing, fun _ _ => rfl⟩

theorem Elector.Sound.lost :
    elector.lost.Sound floor history puts replica :=
  h.drop.idle

theorem Elector.Sound.holdOn :
    elector.holdOn.Sound floor history puts replica := by
  unfold Elector.holdOn
  split
  · exact h.to (.holding _) nofun nofun
  · exact h.idle

theorem Elector.Sound.attempted (result : Option Bool) :
    (elector.attempted result).Sound floor history puts replica := by
  unfold Elector.attempted
  split
  · apply h.to
    · split_ifs <;> nofun
    · split_ifs <;> nofun
  · split_ifs
    · exact h.to (.checking _ none) nofun nofun
    · exact h.holdOn
  · exact h

/-- The elector and the write an operation leaves. -/
structure Follows (floor : Nat) (history : List Write) (puts : List Put) (replica : Identity)
    (now : Nat) (next : Elector × Option Put) : Prop where
  elector : next.1.Sound floor history (puts ++ next.2.toList) replica
  put : ∀ put, next.2 = some put → put.Sound history now
  owner : ∀ put, next.2 = some put → put.owner = replica

theorem Elector.Sound.follows :
    Follows floor history puts replica now (elector, none) :=
  ⟨(append_nil puts).symm ▸ h, nofun, nofun⟩

/-- What a replica has seen of a version it has seen since the version landed. -/
theorem Elector.Sound.seen (hln : ∀ x ∈ history, x.landed ≤ now) (hat : At history v write) :
    (elector.seen v (now + elector.offset)).1 = v ∧
      (write.landed + elector.offset ≤ (elector.seen v (now + elector.offset)).2 ∨
        write.owner = replica ∧ write.takes = true) := by
  have hnow : write.landed ≤ now := hln write hat.mem
  have hnew : write.landed + elector.offset ≤ now + elector.offset := Nat.add_le_add_right hnow _
  unfold Elector.seen
  rcases hob : elector.observed with _ | ⟨version, since⟩
  · exact ⟨rfl, .inl hnew⟩
  · dsimp only
    split_ifs with hver
    · obtain ⟨y, hy, hcs⟩ := h.observed version since hob
      rw [hver] at hy
      exact ⟨hver, hat.unique hy ▸ hcs⟩
    · exact ⟨rfl, .inl hnew⟩

/-- **An attempt writes over nobody's tenure.** -/
theorem Elector.Sound.answered (hln : ∀ x ∈ history, x.landed ≤ now)
    (hst : ∀ x ∈ history, States x.owner x.takes x.value) (hps : past <:+ history)
    (stamp : Int) {elector' : Elector} {record : Option Record}
    (hans : elector.answered replica (now + elector.offset) past stamp = (elector', record)) :
    elector'.Sound floor history puts replica ∧ elector'.task = elector.task ∧
      elector'.offset = elector.offset ∧
      ∀ r, record = some r → Put.Sound history now
        { owner := replica, takes := true, past, value := specOf r, decided := now } := by
  unfold Elector.answered at hans
  cases past with
  | nil =>
    cases hans
    refine ⟨h, rfl, rfl, fun r hr => ?_⟩
    cases hr
    exact ⟨hps, Nat.le_refl _, states_taken _ _ _, nofun, nofun⟩
  | cons x earlier =>
    have hat : At history (earlier.length + 1) x := (At.head earlier).of_suffix hps
    have hcs := h.seen hln hat
    simp only [current] at hans
    generalize elector.seen (earlier.length + 1) (now + elector.offset) = seen at hans hcs
    obtain ⟨version, since⟩ := seen
    obtain ⟨rfl, hcs⟩ := hcs
    have hob : ({ elector with observed := some (earlier.length + 1, since) } : Elector).Sound
        floor history puts replica := by
      refine ⟨h.renewed, fun v s hv => ?_, h.reads, h.writing, h.releasing⟩
      cases hv
      exact ⟨x, hat, hcs⟩
    split_ifs at hans with htk
    · cases hans
      refine ⟨hob, rfl, rfl, fun r hr => ?_⟩
      cases hr
      refine ⟨hps, Nat.le_refl _, states_taken _ _ _, fun _ y hy hts hot => ?_, nofun⟩
      obtain rfl : x = y := some.inj hy
      have hls := lasted_of_takeable (hst x hat.mem) htk hts hot
      have hnow : x.landed ≤ now := hln x hat.mem
      rcases hcs with hcs | ⟨how, -⟩
      · show x.landed + leaseDuration ≤ now
        omega
      · exact absurd how hot
    · cases hans
      exact ⟨hob, rfl, rfl, nofun⟩

omit h in
theorem attempting_to {task : Task} (h : task.attempting = some stage) (stage' : Stage) :
    (task.to stage').attempting = some stage' ∧ ∀ stage, task.to stage' ≠ .releasing stage := by
  cases task with
  | acquiring stage | renewing deadline stage => exact ⟨rfl, nofun⟩
  | idle => cases h
  | holding deadline => cases h
  | checking deadline read => cases h
  | releasing stage => cases h

theorem Elector.Sound.read (hst : elector.task.attempting = some stage) :
    { elector with task := elector.task.to (.read history) }.Sound floor history puts replica := by
  obtain ⟨hat, hrel⟩ := attempting_to hst (.read history)
  refine ⟨h.renewed, h.observed, fun past hrd => ?_, fun i t hwr => ?_,
    fun stage hst => absurd hst (hrel stage)⟩
  · rcases hrd with hrd | hrd
    · obtain rfl : history = past := Stage.read.inj (some.inj (hat.symm.trans hrd))
      exact suffix_refl history
    · exact absurd hrd (hrel _)
  · cases hat.symm.trans hwr

theorem Elector.Sound.sends (hst : elector.task.attempting = some stage)
    (hput : Put.Sound history now
      { owner := replica, takes := true, past, value := specOf record, decided := now }) :
    Follows floor history puts replica now (elector.send replica now puts past record) := by
  obtain ⟨hat, hrel⟩ :=
    attempting_to hst (.writing puts.length (now + elector.offset))
  refine ⟨?_, ?_, ?_⟩
  · have hsn := h.send
      { owner := replica, takes := true, past, value := specOf record, decided := now } fun _ => rfl
    refine ⟨hsn.renewed, hsn.observed, fun past hrd => ?_, fun i t hwr => ?_,
      fun stage hst => absurd hst (hrel stage)⟩
    · rcases hrd with hrd | hrd
      · cases hat.symm.trans hrd
      · exact absurd hrd (hrel _)
    · obtain ⟨rfl, rfl⟩ :=
        Stage.writing.inj (some.inj (hat.symm.trans hwr))
      exact ⟨_, getElem?_concat_length, rfl, rfl, rfl, nofun⟩
  · rintro put hsn
    cases hsn
    exact hput
  · rintro put hsn
    cases hsn
    rfl

omit h in
/-- The answer to a release is a write over the replica's own. -/
theorem sound_release {version : Nat} (hst : ∀ x ∈ history, States x.owner x.takes x.value)
    (hps : past <:+ history) (hcur : current past = some (record, version))
    (hhl : record.holder = some replica.name) (stamp : Int) :
    Put.Sound history now
      { owner := replica, takes := false, past
        value := specOf { record with holder := none, renewed := some stamp }
        decided := now } := by
  cases past with
  | nil => cases hcur
  | cons x earlier =>
    obtain ⟨rfl, -⟩ := Prod.mk.inj (some.inj hcur)
    have hat : At history (earlier.length + 1) x := (At.head earlier).of_suffix hps
    obtain ⟨hx, hdr⟩ := hst x hat.mem
    rw [hx] at hhl
    refine ⟨hps, Nat.le_refl _, states_released _ hdr _, nofun, fun _ y hy => ?_⟩
    obtain rfl : x = y := some.inj hy
    split_ifs at hhl with htk
    refine ⟨htk, ?_⟩
    obtain ⟨⟨name, _⟩, _⟩ := x
    obtain ⟨name', _⟩ := replica
    obtain rfl : name = name' := some.inj hhl
    rfl

theorem Elector.Sound.releases {past' : List Write}
    (hts : elector.task = .releasing (.read past')) (hput : put.Sound history now)
    (how : put.owner = replica) (stage : Stage) (hst : ∀ past, stage ≠ .read past) :
    Follows floor history puts replica now
      ({ elector with task := .releasing stage }, some put) := by
  have hnn : elector.renewedAt = none := h.releasing _ hts
  refine ⟨⟨fun t ht => ?_, h.observed, fun past hrd => ?_, nofun, fun _ _ => hnn⟩, ?_, ?_⟩
  · exact absurd (hnn.symm.trans ht) nofun
  · rcases hrd with hrd | hrd
    · cases hrd
    · exact absurd (Task.releasing.inj hrd) (hst past)
  · intro p hp
    exact some.inj hp ▸ hput
  · intro p hp
    exact some.inj hp ▸ how

theorem Elector.Sound.reply {t : Nat} (hst : elector.task.attempting = some (.writing index t))
    {version : Nat} (hout : puts[index]?.bind Put.outcome = some (some version)) :
    ({ elector with
        observed := some (version, t)
        renewedAt := some t } : Elector).Sound floor history puts replica := by
  obtain ⟨p, hp, how, htk, ht, hbc⟩ := h.writing index t hst
  rw [hp, bind_some] at hout
  obtain ⟨hfl, hbc⟩ := hbc version hout
  refine ⟨fun t' ht' => ?_, fun v since hv => ?_, h.reads, h.writing, fun stage hts => ?_⟩
  · obtain rfl : t = t' := some.inj ht'
    exact ⟨p.decided, version, ht, hfl, hbc⟩
  · cases hv
    obtain ⟨x, hat, hx⟩ := hbc.secured.at
    exact ⟨x, hat, .inr hx⟩
  · rw [show elector.task = .releasing stage from hts] at hst
    cases hst

/-- **Whatever a replica does, what it knows stays so.** -/
theorem Elector.Sound.act (hln : ∀ x ∈ history, x.landed ≤ now)
    (hss : ∀ x ∈ history, States x.owner x.takes x.value) (op : ElectorOp) :
    Follows floor history puts replica now (elector.act replica now history puts op) := by
  cases op with
  | restart offset => exact Elector.Sound.follows ⟨nofun, nofun, nofun, nofun, nofun⟩
  | cancel => exact h.idle.follows
  | acquire =>
    simp only [Elector.act]
    split
    · exact (h.to (.acquiring none) nofun nofun).follows
    · exact h.follows
  | hold =>
    simp only [Elector.act]
    split
    · exact h.holdOn.follows
    · exact h.follows
  | release =>
    simp only [Elector.act]
    split
    · have hrel : ({ elector with renewedAt := none, task := .releasing .reading } :
          Elector).Sound floor history puts replica :=
        ⟨nofun, h.observed, nofun, nofun, fun _ _ => rfl⟩
      exact hrel.follows
    · exact h.follows
  | attempt =>
    simp only [Elector.act]
    split
    · exact (h.to (.acquiring (some .reading)) (fun _ hst => (some.inj hst).symm) nofun).follows
    · exact h.follows
  | wake =>
    simp only [Elector.act]
    split
    · split_ifs
      · exact (h.to (.renewing _ .reading) (fun _ hst => (some.inj hst).symm) nofun).follows
      · exact h.lost.follows
    · exact h.follows
  | finished =>
    simp only [Elector.act]
    split
    · exact h.idle.follows
    · exact h.follows
  | read =>
    simp only [Elector.act]
    split
    · exact (h.to (.checking _ (some history)) nofun nofun).follows
    · rename_i hts
      have hnn : elector.renewedAt = none := h.releasing _ hts
      have hre : ({ elector with task := .releasing (.read history) } : Elector).Sound floor
          history puts replica := by
        refine ⟨h.renewed, h.observed, fun past hre => ?_, nofun, fun _ _ => hnn⟩
        rcases hre with hre | hre
        · cases hre
        · obtain rfl := Stage.read.inj (Task.releasing.inj hre)
          exact suffix_refl history
      exact hre.follows
    · split
      · rename_i hst
        exact (h.read hst).follows
      · exact h.follows
  | answer stamp =>
    simp only [Elector.act]
    split
    · split_ifs
      · exact h.holdOn.follows
      · exact h.lost.follows
    · rename_i past hts
      split
      · exact h.idle.follows
      · rename_i record version hcur
        split_ifs with hhl
        · have hps : past <:+ history := h.reads past (.inr hts)
          exact h.releases hts (sound_release hss hps hcur hhl stamp) rfl _ nofun
        · exact h.idle.follows
    · split
      · rename_i past hst
        have hps : past <:+ history := h.reads past (.inl hst)
        split
        · rename_i elector' record hans
          obtain ⟨hel', hts, -, hput⟩ := h.answered hln hss hps stamp hans
          exact hel'.sends (hts ▸ hst) (hput record rfl)
        · rename_i elector' hans
          obtain ⟨hel', -⟩ := h.answered hln hss hps stamp hans
          exact (hel'.attempted (some false)).follows
      · exact h.follows
  | reply =>
    simp only [Elector.act]
    split
    · split_ifs
      · exact h.idle.follows
      · exact h.follows
    · split
      · rename_i index t hst
        split
        · rename_i version hout
          exact ((h.reply hst hout).attempted (some true)).follows
        · exact (h.attempted (some false)).follows
        · exact h.follows
      · exact h.follows
  | fail =>
    simp only [Elector.act]
    split
    · exact h.lost.follows
    · exact h.idle.follows
    · split
      · exact (h.attempted none).follows
      · exact h.follows

end

end

/-! ### Runs keep the invariant -/

variable {floor : Identity → Nat} {world : World}

section

variable (h : world.Sound floor)
include h

theorem World.Sound.act (replica : Identity) (op : ElectorOp) :
    (world.step (.act replica op)).Sound floor := by
  have hfl := (h.electors replica).act h.landed h.states op
  show ({ world with
    electors := Function.update world.electors replica
      ((world.electors replica).act replica world.now world.history world.puts op).1
    puts := world.puts
      ++ ((world.electors replica).act replica world.now world.history world.puts op).2.toList } :
        World).Sound floor
  generalize (world.electors replica).act replica world.now world.history world.puts op = next
    at hfl
  obtain ⟨elector, put⟩ := next
  obtain ⟨hel, hput, how⟩ := hfl
  refine ⟨h.landed, h.states, h.floors, fun p hp hfg => ?_, fun r => ?_⟩
  · rcases mem_append.mp hp with hp | hp
    · exact h.puts p hp hfg
    · exact hput p (mem_toList.mp hp)
  · by_cases hr : r = replica
    · subst hr
      dsimp only
      rw [Function.update_self]
      exact hel
    · dsimp only
      rw [Function.update_of_ne hr]
      cases put with
      | none =>
        rw [toList_none, append_nil]
        exact h.electors r
      | some put =>
        -- another replica's write is no release of this one
        apply (h.electors r).send put
        intro hown
        exact absurd (hown.symm.trans (how put rfl)) hr

theorem World.Sound.step (op : LeaderOp) :
    (world.step op).Sound floor := by
  cases op with
  | tick elapsed =>
    refine ⟨fun x hx => ?_, h.states, h.floors, fun p hp hfl => ?_, h.electors⟩
    · exact Nat.le_add_right_of_le (h.landed x hx)
    · have hput := h.puts p hp hfl
      exact ⟨hput.past, Nat.le_add_right_of_le hput.decided, hput.states, hput.taken, hput.given⟩
  | land index =>
    simp only [World.step]
    split
    · rename_i put hin
      split_ifs with hfl
      · exact h.land hin (isNone_iff_eq_none.mp hfl)
      · exact h
    · exact h
  | act replica op => exact h.act replica op

theorem World.Sound.run (ops : List LeaderOp) :
    (Run.run World.step world ops).Sound floor :=
  Run.run_invariant (fun _ op h => h.step op) h

omit h in
theorem sound_initial (offsets : Identity → Nat) :
    (World.initial offsets).Sound fun _ => 0 :=
  ⟨nofun, nofun, fun _ => Nat.le_refl 0, nofun, fun _ => ⟨nofun, nofun, nofun, nofun, nofun⟩⟩

/-- A replica that reports holding has a write of its own, less than the deadline ago. -/
theorem World.Sound.of_holds {replica : Identity} (hhl : world.holds replica = true) :
    ∃ n v, world.now < n + renewDeadline ∧ floor replica < v ∧
      Secured leaseDuration replica n v world.history := by
  unfold World.holds Elector.holding Holding.holds at hhl
  rcases hrn : (world.electors replica).renewedAt with _ | t
  · rw [hrn] at hhl
    cases hhl
  · rw [hrn] at hhl
    obtain ⟨n, v, ht, hv, hbc⟩ := (h.electors replica).renewed t hrn
    have hlt := of_decide_eq_true hhl
    exact ⟨n, v, by omega, hv, hbc.secured⟩

/-- **Two replicas never hold at once.** -/
theorem World.Sound.exclusive {replica replica' : Identity} (hne : replica ≠ replica') :
    ¬ (world.holds replica = true ∧ world.holds replica' = true) := by
  rintro ⟨hhl, hhl'⟩
  obtain ⟨n, v, hn, -, hsc⟩ := h.of_holds hhl
  obtain ⟨n', v', hn', -, hsc'⟩ := h.of_holds hhl'
  -- one of the two tenures was over, by the lease's duration, when the other's write landed
  obtain ⟨x, hx, hov⟩ := hsc.exclusive hsc' hne
  have hln : x.landed ≤ world.now := h.landed x hx
  have hsh : renewDeadline ≤ leaseDuration := by decide
  omega

/-! ### Releases -/

omit h in
theorem history_step (world : World) (op : LeaderOp) :
    world.history <:+ (world.step op).history := by
  cases op with
  | tick elapsed | act replica op => exact suffix_refl _
  | land index =>
    simp only [World.step]
    split
    · split_ifs
      · unfold World.land
        split_ifs
        · exact suffix_cons _ _
        · exact suffix_refl _
      · exact suffix_refl _
    · exact suffix_refl _

omit h in
theorem history_run (world : World) (ops : List LeaderOp) :
    world.history <:+ (Run.run World.step world ops).history :=
  Run.run_invariant (P := fun w => world.history <:+ w.history)
    (fun w op h => h.trans (history_step w op)) (suffix_refl _)

/-- A replica that releases has nothing to show until it writes again. -/
theorem World.Sound.release {replica : Identity} (hid : (world.electors replica).task = .idle) :
    (world.step (.act replica .release)).Sound
      (Function.update floor replica world.history.length) := by
  have hst := h.step (.act replica .release)
  have hel : (world.step (.act replica .release)).electors replica
      = { world.electors replica with renewedAt := none, task := .releasing .reading } := by
    simp only [World.step, Function.update_self, Elector.act, hid]
  have hhs : (world.step (.act replica .release)).history = world.history := rfl
  refine ⟨hst.landed, hst.states, fun r => ?_, hst.puts, fun r => ?_⟩
  · by_cases hr : r = replica
    · have hfl : Function.update floor replica world.history.length r = world.history.length := by
        rw [hr, Function.update_self]
      exact Nat.le_of_eq hfl
    · rw [Function.update_of_ne hr]
      exact hst.floors r
  · by_cases hr : r = replica
    · subst hr
      have hsn := hst.electors r
      rw [hel] at hsn ⊢
      exact ⟨nofun, hsn.observed, nofun, nofun, fun _ _ => rfl⟩
    · rw [Function.update_of_ne hr]
      exact hst.electors r

theorem World.Sound.later_write {replica : Identity} (hid : (world.electors replica).task = .idle)
    (ops : List LeaderOp)
    (hhl : (Run.run World.step (world.step (.act replica .release)) ops).holds replica = true) :
    ∃ newer, (Run.run World.step (world.step (.act replica .release)) ops).history
        = newer ++ world.history ∧
      ∃ write ∈ newer, write.owner = replica ∧ write.takes = true := by
  have hsn := (h.release hid).run ops
  obtain ⟨n, v, -, hv, hsc⟩ := hsn.of_holds hhl
  obtain ⟨newer, hnw⟩ := history_run (world.step (.act replica .release)) ops
  have hhs : (world.step (.act replica .release)).history = world.history := rfl
  rw [Function.update_self] at hv
  obtain ⟨write, hat, how, htk⟩ := hsc.at
  rw [← hnw] at hat
  exact ⟨newer, hnw.symm, write, hat.mem_newer hv, how, htk⟩

end

/-- **One leader at a time.**  For replicas of distinct names, with clocks of any offsets, after
every run of reads, writes, answers, failures, late landings, calls, cancellations and restarts, no
two replicas report that they hold the lease.  And a replica that releases it reports holding it
afterwards only if it won a write in between. -/
theorem one_leader_at_a_time (offsets : Identity → Nat) (ops : List LeaderOp) :
    (∀ replica replica', replica ≠ replica' →
        ¬ ((World.after offsets ops).holds replica = true ∧
          (World.after offsets ops).holds replica' = true)) ∧
      ∀ replica, ((World.after offsets ops).electors replica).task = .idle →
        ∀ more, (World.after offsets (ops ++ .act replica .release :: more)).holds replica = true →
          ∃ newer, (World.after offsets (ops ++ .act replica .release :: more)).history
              = newer ++ (World.after offsets ops).history ∧
            ∃ write ∈ newer, write.owner = replica ∧ write.takes = true := by
  have hsn : (World.after offsets ops).Sound fun _ => 0 := (sound_initial offsets).run ops
  refine ⟨fun replica replica' hne => hsn.exclusive hne, fun replica hid more hhl => ?_⟩
  unfold World.after at hhl ⊢
  rw [Run.run_append, Run.run_cons] at hhl ⊢
  exact hsn.later_write hid more hhl

/-- A replica that takes a lease nobody holds does report it. -/
example :
    let a : Identity := ⟨"a", by decide⟩
    (World.after (fun _ => 0) [.act a .acquire, .act a .attempt, .act a .read, .act a (.answer 0),
      .land 0, .act a .reply]).holds a = true := by
  decide

end PraxisGrid.Operator.Leader
