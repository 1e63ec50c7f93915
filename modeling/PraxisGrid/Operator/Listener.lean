/-
PraxisGrid/Operator/Listener.lean

The caps of the signals listener: `Admission`, `SourceSlots`, `PeerSlots` and
`serve_signals_connection` in `crates/operator/src/main.rs`.

A connection holds a slot of the listener from its admission to its end, and on the way a share of
the other counters: a turn and a source slot until its handshake is over, a silent slot until it has
sent a byte, a peer slot while it is served with a site's scope.  Between two of these it holds its
slot only (`Phase.naming`, `Phase.closing`), and so does one that is refused at a peer cap, for as
long as its request takes to come (`Phase.refused`); none of the counters that keep the reserve
counts it.

The counters are read through their default; the entry that is removed at zero is not modelled.
`PeerSlots::acquire` is one step: the permit a refused caller holds for a moment could only refuse
one more.
-/
import PraxisGrid.Lib.Sums
import PraxisGrid.Lib.Run

namespace PraxisGrid.Operator.Listener

open Held Nat

/-! ### Sources -/

inductive IpAddr
  | v4 (bits : BitVec 32)
  | v6 (bits : BitVec 128)
deriving DecidableEq

/-- An IPv4 address mapped into IPv6 is that address. -/
def IpAddr.toCanonical : IpAddr → IpAddr
  | .v4 bits => .v4 bits
  | .v6 bits => if bits >>> 32 = 0xffff#128 then .v4 (bits.setWidth 32) else .v6 bits

def network (bits : BitVec 128) (length : Nat) : IpAddr :=
  .v6 (bits &&& (BitVec.allOnes 128 <<< (128 - length)))

/-- The keys a source counts against: a global unicast IPv6 /64 and its /48, else its own address. -/
def sourceKeys (ip : IpAddr) : IpAddr × Option IpAddr :=
  match ip.toCanonical with
  | .v6 bits =>
    if bits >>> 125 = 1#128 then (network bits 64, some (network bits 48)) else (.v6 bits, none)
  | .v4 bits => (.v4 bits, none)

def keys (ip : IpAddr) : List IpAddr := (sourceKeys ip).1 :: (sourceKeys ip).2.toList

structure SourceSlots where
  pending : IpAddr → Nat := fun _ => 0
  limit : Nat
  /-- the cap of a global unicast IPv6 /48 -/
  limit48 : Nat

def bump (pending : IpAddr → Nat) (key : IpAddr) : IpAddr → Nat :=
  Function.update pending key (pending key + 1)

def unbump (pending : IpAddr → Nat) (key : IpAddr) : IpAddr → Nat :=
  Function.update pending key (pending key - 1)

def SourceSlots.acquire (slots : SourceSlots) (ip : IpAddr) : Option SourceSlots :=
  let (key, wider) := sourceKeys ip
  let full := slots.pending key ≥ slots.limit
    || wider.any fun wider => slots.pending wider ≥ slots.limit48
  if full then none else some { slots with pending := (keys ip).foldl bump slots.pending }

def SourceSlots.release (slots : SourceSlots) (ip : IpAddr) : SourceSlots :=
  { slots with pending := (keys ip).foldl unbump slots.pending }

/-! ### Peers -/

/-- Authenticated connections by site, under a cap across all sites. -/
structure PeerSlots where
  «open» : String → Nat := fun _ => 0
  limit : Nat
  /-- the permits left of the cap across all sites -/
  total : Nat

def PeerSlots.acquire (slots : PeerSlots) (site : String) : Option PeerSlots :=
  if slots.total = 0 then none
  else if slots.open site ≥ slots.limit then none
  else some { slots with
    «open» := Function.update slots.open site (slots.open site + 1)
    total := slots.total - 1 }

def PeerSlots.release (slots : PeerSlots) (site : String) : PeerSlots :=
  { slots with
    «open» := Function.update slots.open site (slots.open site - 1)
    total := slots.total + 1 }

/-! ### The listener -/

def maxConnections : Nat := 256

def connectionsCeiling : Nat := 4096

def maxHandshakes : Nat := 64

def localReserve : Nat := 8

def maxPerSource48 : Nat := 32

/-- Where a connection is. -/
inductive Phase
  /-- admitted, and has sent nothing yet -/
  | silent
  | handshaking
  /-- its handshake is over and it is not counted yet -/
  | naming
  /-- served as the local gateway -/
  | gateway
  /-- served with a site's scope -/
  | peer (site : String)
  /-- answered 503 at its site's cap, or at the cap across sites -/
  | refused (site : String)
  /-- about to give back its slot -/
  | closing (gateway : Bool)
  | closed
deriving DecidableEq

structure Connection where
  ip : IpAddr
  phase : Phase

structure Admission where
  /-- the permits left of every open connection -/
  slots : Nat
  capacity : Nat
  handshakes : Nat
  sources : SourceSlots
  silent : SourceSlots
  peers : PeerSlots
  perPeer : Nat
  /-- the declared members -/
  members : Nat
  connections : List Connection := []

/-- Grow the caps to fit every declared member. -/
def Admission.sizeForMembers (admission : Admission) : Admission :=
  let wanted := min (max (admission.members * admission.perPeer + (localReserve + maxHandshakes))
    maxConnections) connectionsCeiling
  let grow := wanted - admission.capacity
  if grow > 0 then
    { admission with
      slots := admission.slots + grow
      peers := { admission.peers with total := admission.peers.total + grow }
      capacity := wanted }
  else admission

/-- The caps before they are grown. -/
def Admission.least (maxPerPeer maxPerSource members : Nat) : Admission :=
  let share := maxHandshakes / 2
  { slots := maxConnections
    capacity := maxConnections
    handshakes := maxHandshakes
    sources :=
      { limit := min maxPerSource share
        limit48 := min (max maxPerSource maxPerSource48) share }
    silent := { limit := max (share / 4) 1, limit48 := max (share / 4) 1 }
    peers :=
      { limit := max maxPerPeer 1
        total := max (maxConnections - (localReserve + maxHandshakes)) 1 }
    perPeer := max maxPerPeer 1
    members }

def Admission.new (maxPerPeer maxPerSource members : Nat) : Admission :=
  (Admission.least maxPerPeer maxPerSource members).sizeForMembers

/-- A slot, a turn and two source slots, or the connection is shed. -/
def Admission.admitFrom (admission : Admission) (ip : IpAddr) : Admission :=
  let admission := admission.sizeForMembers
  if admission.slots = 0 then admission
  else if admission.handshakes = 0 then admission
  else
    match admission.sources.acquire ip, admission.silent.acquire ip with
    | some sources, some silent =>
      { admission with
        slots := admission.slots - 1
        handshakes := admission.handshakes - 1
        sources
        silent
        connections := admission.connections ++ [⟨ip, .silent⟩] }
    | _, _ => admission

/-- Whom a leaf speaks for. -/
inductive Named
  | gateway
  | site (site : String)
  | nobody

/-- What a connection in a phase gives back when its task ends, but for its slot. -/
def Admission.giveBack (admission : Admission) (connection : Connection) : Admission :=
  match connection.phase with
  | .silent =>
    { admission with
      handshakes := admission.handshakes + 1
      sources := admission.sources.release connection.ip
      silent := admission.silent.release connection.ip }
  | .handshaking =>
    { admission with
      handshakes := admission.handshakes + 1
      sources := admission.sources.release connection.ip }
  | .peer site => { admission with peers := admission.peers.release site }
  | _ => admission

def Admission.move (admission : Admission) (index : Nat) (connection : Connection) (phase : Phase) :
    Admission :=
  { admission with connections := admission.connections.set index { connection with phase } }

inductive ListenerOp
  /-- the grid declares so many members -/
  | declare (members : Nat)
  | arrive (ip : IpAddr)
  /-- the connection sends its first byte -/
  | speak (index : Nat)
  /-- its handshake succeeds -/
  | handshaken (index : Nat)
  /-- its certificate is read -/
  | named (index : Nat) (caller : Named)
  /-- its task ends: silence, a failed handshake or a timeout, an answer, an age, the other end -/
  | finish (index : Nat)
  /-- its slot is given back -/
  | release (index : Nat)

def Admission.advance (admission : Admission) (index : Nat) (connection : Connection) :
    ListenerOp → Admission
  | .speak _ =>
    if connection.phase = .silent then
      { admission with silent := admission.silent.release connection.ip }.move index connection
        .handshaking
    else admission
  | .handshaken _ =>
    if connection.phase = .handshaking then
      (admission.giveBack connection).move index connection .naming
    else admission
  | .named _ caller =>
    if connection.phase = .naming then
      match caller with
      | .gateway => admission.move index connection .gateway
      | .site site =>
        match admission.peers.acquire site with
        | some peers => { admission with peers }.move index connection (.peer site)
        | none => admission.move index connection (.refused site)
      | .nobody => admission.move index connection (.closing false)
    else admission
  | .finish _ =>
    match connection.phase with
    | .closing _ => admission
    | .closed => admission
    | .gateway => (admission.giveBack connection).move index connection (.closing true)
    | _ => (admission.giveBack connection).move index connection (.closing false)
  | .release _ =>
    match connection.phase with
    | .closing _ => { admission with slots := admission.slots + 1 }.move index connection .closed
    | _ => admission
  | .declare _ => admission
  | .arrive _ => admission

def ListenerOp.index : ListenerOp → Option Nat
  | .speak index => some index
  | .handshaken index => some index
  | .named index _ => some index
  | .finish index => some index
  | .release index => some index
  | .declare _ => none
  | .arrive _ => none

def Admission.step (admission : Admission) (op : ListenerOp) : Admission :=
  match op with
  | .declare members => { admission with members }
  | .arrive ip => admission.admitFrom ip
  | op =>
    match op.index.bind fun index => admission.connections[index]?.map fun c => (index, c) with
    | some (index, connection) => admission.advance index connection op
    | none => admission

def Admission.after (maxPerPeer maxPerSource members : Nat) (ops : List ListenerOp) : Admission :=
  Run.run Admission.step (Admission.new maxPerPeer maxPerSource members) ops

/-! ### What a connection holds -/

namespace Connection

variable (connection : Connection)

/-- a slot of the listener -/
def slot : Nat :=
  match connection.phase with
  | .closed => 0
  | _ => 1

/-- a turn of the handshakes -/
def turn : Nat :=
  match connection.phase with
  | .silent => 1
  | .handshaking => 1
  | _ => 0

/-- what it counts against a source -/
def source (key : IpAddr) : Nat := connection.turn * (keys connection.ip).count key

/-- what it counts against a source while it has sent nothing -/
def quiet (key : IpAddr) : Nat :=
  match connection.phase with
  | .silent => (keys connection.ip).count key
  | _ => 0

/-- a slot across the peers -/
def peer : Nat :=
  match connection.phase with
  | .peer _ => 1
  | _ => 0

/-- a slot of a site -/
def of (site : String) : Nat :=
  match connection.phase with
  | .peer site' => if site' = site then 1 else 0
  | _ => 0

/-- a slot of the listener, as the local gateway -/
def gateway : Nat :=
  match connection.phase with
  | .gateway => 1
  | .closing gateway => if gateway then 1 else 0
  | _ => 0

/-- a slot of the listener, and nothing else, as somebody else -/
def lingering : Nat :=
  match connection.phase with
  | .naming => 1
  | .refused _ => 1
  | .closing gateway => if gateway then 0 else 1
  | _ => 0

/-- a slot of the listener, not as the local gateway -/
def outside : Nat := connection.slot - connection.gateway

theorem outside_add_gateway : connection.outside + connection.gateway = connection.slot := by
  unfold outside slot gateway
  cases connection.phase with
  | closing gateway => cases gateway <;> rfl
  | _ => rfl

theorem outside_eq :
    connection.outside = connection.turn + connection.peer + connection.lingering := by
  unfold outside slot gateway turn peer lingering
  cases connection.phase with
  | closing gateway => cases gateway <;> rfl
  | _ => rfl

end Connection

namespace Admission

variable (admission : Admission)

/-- The open connections that are not the local gateway's. -/
def outside : Nat := held Connection.outside admission.connections

def gateway : Nat := held Connection.gateway admission.connections

/-- The open connections that hold their slot only. -/
def lingering : Nat := held Connection.lingering admission.connections

def served (site : String) : Nat := held (Connection.of · site) admission.connections

/-- Whether a connection that comes now is shed at the total cap. -/
def shedsAtTotal : Bool := admission.sizeForMembers.slots = 0

/-- **The account of every counter**: what is left and what the connections hold is what there
is. -/
structure Accounted : Prop where
  slots : admission.slots + held Connection.slot admission.connections = admission.capacity
  handshakes :
    admission.handshakes + held Connection.turn admission.connections = maxHandshakes
  sources : ∀ key,
    admission.sources.pending key = held (Connection.source · key) admission.connections
  silent : ∀ key,
    admission.silent.pending key = held (Connection.quiet · key) admission.connections
  peers : admission.peers.total + held Connection.peer admission.connections
    + (localReserve + maxHandshakes) = admission.capacity
  sites : ∀ site, admission.peers.open site = admission.served site
  within : ∀ site, admission.peers.open site ≤ admission.peers.limit

end Admission

variable {admission admission' : Admission} {connection connection' : Connection} {index : Nat}

/-! ### The counters -/

theorem foldl_bump (ks : List IpAddr) (pending : IpAddr → Nat) (key : IpAddr) :
    ks.foldl bump pending key = pending key + ks.count key := by
  induction ks generalizing pending with
  | nil => rfl
  | cons k ks ih =>
    rw [List.foldl_cons, ih, List.count_cons, bump, Function.update_apply]
    grind

theorem foldl_unbump (ks : List IpAddr) (pending : IpAddr → Nat) (key : IpAddr) :
    ks.foldl unbump pending key = pending key - ks.count key := by
  induction ks generalizing pending with
  | nil => rfl
  | cons k ks ih =>
    rw [List.foldl_cons, ih, List.count_cons, unbump, Function.update_apply]
    grind

theorem SourceSlots.acquire_eq_some {slots slots' : SourceSlots} {ip : IpAddr}
    (h : slots.acquire ip = some slots') :
    slots' = { slots with pending := (keys ip).foldl bump slots.pending } := by
  unfold acquire at h
  dsimp only at h
  split_ifs at h
  exact (Option.some.inj h).symm

theorem PeerSlots.acquire_eq_some {slots slots' : PeerSlots} {site : String}
    (h : slots.acquire site = some slots') :
    0 < slots.total ∧ slots.open site < slots.limit ∧
      slots' = { slots with
        «open» := Function.update slots.open site (slots.open site + 1)
        total := slots.total - 1 } := by
  unfold acquire at h
  split_ifs at h with htt hlm
  exact ⟨Nat.pos_of_ne_zero htt, Nat.lt_of_not_le hlm, (Option.some.inj h).symm⟩

/-! ### Steps -/

/-- What the counters gained is what the connection gave back. -/
structure Balanced (admission : Admission) (connection : Connection) (admission' : Admission)
    (connection' : Connection) : Prop where
  capacity : admission'.capacity = admission.capacity
  slots : admission'.slots + connection'.slot = admission.slots + connection.slot
  handshakes : admission'.handshakes + connection'.turn = admission.handshakes + connection.turn
  sources : ∀ key, admission'.sources.pending key + connection.source key
    = admission.sources.pending key + connection'.source key
  silent : ∀ key, admission'.silent.pending key + connection.quiet key
    = admission.silent.pending key + connection'.quiet key
  peers : admission'.peers.total + connection'.peer = admission.peers.total + connection.peer
  sites : ∀ site, admission'.peers.open site + connection.of site
    = admission.peers.open site + connection'.of site
  within : ∀ site, admission'.peers.open site ≤ admission'.peers.limit

open Admission

open Connection

/-- **A balanced step of one connection keeps the account.** -/
theorem Balanced.accounted {phase : Phase}
    (h : Balanced admission connection admission' { connection with phase })
    (ha : admission.Accounted) (hin : admission.connections[index]? = some connection)
    (hconnections : admission'.connections = admission.connections) :
    (admission'.move index connection phase).Accounted := by
  have hset : ∀ w : Connection → Nat,
      held w (admission'.move index connection phase).connections + w connection
        = held w admission.connections + w { connection with phase } := by
    intro w
    unfold move
    rw [hconnections]
    exact held_set hin
  have hss : (admission'.move index connection phase).slots = admission'.slots := rfl
  have hhn : (admission'.move index connection phase).handshakes = admission'.handshakes :=
    rfl
  have hsr : (admission'.move index connection phase).sources = admission'.sources := rfl
  have hsl : (admission'.move index connection phase).silent = admission'.silent := rfl
  have hpr : (admission'.move index connection phase).peers = admission'.peers := rfl
  have hcap : (admission'.move index connection phase).capacity = admission.capacity :=
    h.capacity
  refine ⟨?_, ?_, fun key => ?_, fun key => ?_, ?_, fun site => ?_, h.within⟩
  · have := hset slot
    have := ha.slots
    have := h.slots
    omega
  · have := hset turn
    have := ha.handshakes
    have := h.handshakes
    omega
  · have := hset (source · key)
    have := ha.sources key
    have := h.sources key
    rw [hsr]
    omega
  · have := hset (quiet · key)
    have := ha.silent key
    have := h.silent key
    rw [hsl]
    omega
  · have := hset peer
    have := ha.peers
    have := h.peers
    rw [hpr]
    omega
  · have := hset (of · site)
    have := ha.sites site
    have := h.sites site
    rw [hpr]
    unfold served at *
    omega

/-- A phase in which a connection holds its slot only. -/
def Phase.isBare : Phase → Bool
  | .naming => true
  | .gateway => true
  | .refused _ => true
  | .closing _ => true
  | _ => false

theorem Connection.of_isBare (h : connection.phase.isBare = true) (key : IpAddr) (site : String) :
    connection.slot = 1 ∧ connection.turn = 0 ∧ connection.source key = 0 ∧
      connection.quiet key = 0 ∧ connection.peer = 0 ∧ connection.of site = 0 := by
  obtain ⟨ip, phase⟩ := connection
  have htr : ∀ n, 0 * n = 0 := zero_mul
  cases phase with
  | naming | gateway | refused site | closing gateway => exact ⟨rfl, rfl, htr _, rfl, rfl, rfl⟩
  | silent => cases h
  | handshaking => cases h
  | peer site => cases h
  | closed => cases h

open SourceSlots

section

variable (ha : admission.Accounted)
include ha

/-- **A connection gives back exactly what it holds but for its slot.** -/
theorem Admission.Accounted.giveBack (hin : admission.connections[index]? = some connection)
    (hopen : connection.phase ≠ .closed) (hbr : connection'.phase.isBare = true) :
    Balanced admission connection (admission.giveBack connection) connection' := by
  have hsr : ∀ key, connection.source key ≤ admission.sources.pending key := by
    intro key
    rw [ha.sources key]
    exact le_held (w := (source · key)) hin
  have hqt : ∀ key, connection.quiet key ≤ admission.silent.pending key := by
    intro key
    rw [ha.silent key]
    exact le_held (w := (quiet · key)) hin
  have hof : ∀ site, connection.of site ≤ admission.peers.open site := by
    intro site
    rw [ha.sites site]
    exact le_held (w := (of · site)) hin
  have hsl : connection'.slot = 1 := (connection'.of_isBare hbr (.v4 0) "").1
  have htr : connection'.turn = 0 := (connection'.of_isBare hbr (.v4 0) "").2.1
  have hpr : connection'.peer = 0 := (connection'.of_isBare hbr (.v4 0) "").2.2.2.2.1
  have hsr' : ∀ key, connection'.source key = 0 :=
    fun key => (connection'.of_isBare hbr key "").2.2.1
  have hqt' : ∀ key, connection'.quiet key = 0 :=
    fun key => (connection'.of_isBare hbr key "").2.2.2.1
  have hof' : ∀ site, connection'.of site = 0 :=
    fun site => (connection'.of_isBare hbr (.v4 0) site).2.2.2.2.2
  obtain ⟨ip, phase⟩ := connection
  refine ⟨?_, ?_, ?_, fun key => ?_, fun key => ?_, ?_, fun site => ?_, fun site => ?_⟩
  · cases phase <;> rfl
  · rw [hsl]
    cases phase with
    | closed => exact absurd rfl hopen
    | _ => rfl
  · rw [htr]
    cases phase <;> rfl
  · have hle := hsr key
    rw [hsr']
    cases phase with
    | silent | handshaking =>
      simp only [source, turn, one_mul] at hle ⊢
      simp only [giveBack, release, foldl_unbump]
      omega
    | _ => simp only [giveBack, source, turn, zero_mul]
  · have hle := hqt key
    rw [hqt']
    cases phase with
    | silent =>
      simp only [quiet] at hle ⊢
      simp only [giveBack, release, foldl_unbump]
      omega
    | _ => rfl
  · rw [hpr]
    cases phase <;> rfl
  · have hle := hof site
    rw [hof']
    cases phase with
    | peer site' =>
      simp only [of] at hle ⊢
      simp only [giveBack, PeerSlots.release, Function.update_apply]
      by_cases hst : site = site'
      · subst hst
        rw [if_pos rfl] at hle ⊢
        rw [if_pos rfl]
        omega
      · rw [if_neg hst, if_neg (Ne.symm hst)]
    | _ => rfl
  · have hwt := ha.within site
    cases phase with
    | peer site' =>
      simp only [giveBack, PeerSlots.release, Function.update_apply]
      split_ifs with hst
      · subst hst
        omega
      · exact hwt
    | _ => exact hwt

/-- The first byte gives back the silent slot. -/
theorem Admission.Accounted.speak {ip : IpAddr}
    (hin : admission.connections[index]? = some ⟨ip, .silent⟩) :
    Balanced admission ⟨ip, .silent⟩ { admission with silent := admission.silent.release ip }
      ⟨ip, .handshaking⟩ := by
  refine ⟨rfl, rfl, rfl, fun _ => rfl, fun key => ?_, rfl, fun _ => rfl, ha.within⟩
  have hle : (keys ip).count key ≤ admission.silent.pending key := by
    rw [ha.silent key]
    exact le_held (w := (quiet · key)) hin
  simp only [quiet, release, foldl_unbump]
  omega

theorem Admission.Accounted.peer {ip : IpAddr} {site : String} {peers : PeerSlots}
    (hpr : admission.peers.acquire site = some peers) :
    Balanced admission ⟨ip, .naming⟩ { admission with peers } ⟨ip, .peer site⟩ := by
  obtain ⟨htt, hlm, rfl⟩ := PeerSlots.acquire_eq_some hpr
  refine ⟨rfl, rfl, rfl, fun _ => rfl, fun _ => rfl, ?_, fun site' => ?_, fun site' => ?_⟩
  · simp only [Connection.peer]
    omega
  · simp only [Connection.of, Function.update_apply]
    by_cases hst : site' = site
    · rw [if_pos hst, if_pos hst.symm, hst]
    · rw [if_neg hst, if_neg (Ne.symm hst)]
  · simp only [Function.update_apply]
    split_ifs with hst
    · exact hlm
    · exact ha.within site'

theorem Admission.Accounted.release {ip : IpAddr} {gateway : Bool} :
    Balanced admission ⟨ip, .closing gateway⟩ { admission with slots := admission.slots + 1 }
      ⟨ip, .closed⟩ :=
  ⟨rfl, rfl, rfl, fun _ => rfl, fun _ => rfl, rfl, fun _ => rfl, ha.within⟩

theorem Admission.Accounted.sizeForMembers :
    admission.sizeForMembers.Accounted := by
  unfold Admission.sizeForMembers
  dsimp only
  split_ifs with hgr
  · have hsl := ha.slots
    have hpr := ha.peers
    refine ⟨?_, ha.handshakes, ha.sources, ha.silent, ?_, ha.sites, ha.within⟩ <;> dsimp only <;>
      omega
  · exact ha

theorem Admission.Accounted.admitFrom (ip : IpAddr) :
    (admission.admitFrom ip).Accounted := by
  have ha' : admission.sizeForMembers.Accounted := ha.sizeForMembers
  unfold Admission.admitFrom
  dsimp only
  generalize admission.sizeForMembers = admission at ha'
  split_ifs with hss hhn
  · exact ha'
  · exact ha'
  · rcases hsr : admission.sources.acquire ip with _ | sources
    · exact ha'
    rcases hsl : admission.silent.acquire ip with _ | silent
    · exact ha'
    obtain rfl := acquire_eq_some hsr
    obtain rfl := acquire_eq_some hsl
    obtain ⟨hasl, hah, hasr, hat, hap, hast, haw⟩ := ha'
    refine ⟨?_, ?_, fun key => ?_, fun key => ?_, ?_, fun site => ?_, haw⟩
    · simp only [held_append, held_cons, held_nil, Connection.slot]
      omega
    · simp only [held_append, held_cons, held_nil, Connection.turn]
      omega
    · simp only [held_append, held_cons, held_nil, foldl_bump, Connection.source, Connection.turn,
        hasr key, one_mul, add_zero]
    · simp only [held_append, held_cons, held_nil, foldl_bump, Connection.quiet, hat key,
        add_zero]
    · simp only [held_append, held_cons, held_nil, Connection.peer]
      omega
    · rw [hast site]
      simp only [Admission.served, held_append, held_cons, held_nil, Connection.of, add_zero]

theorem Admission.Accounted.advance (hin : admission.connections[index]? = some connection)
    (op : ListenerOp) :
    (admission.advance index connection op).Accounted := by
  -- a connection that gives back all but its slot
  have hbr : ∀ phase : Phase, phase.isBare = true → connection.phase ≠ .closed →
      ((admission.giveBack connection).move index connection phase).Accounted := by
    intro phase hph hopen
    have hbl : Balanced admission connection (admission.giveBack connection)
        { connection with phase } := ha.giveBack hin hopen hph
    apply hbl.accounted ha hin
    unfold Admission.giveBack
    split <;> rfl
  obtain ⟨ip, phase⟩ := connection
  cases op with
  | declare members => exact ha
  | arrive ip => exact ha
  | speak index =>
    simp only [Admission.advance]
    split_ifs with hph
    · obtain rfl : phase = .silent := hph
      exact (ha.speak hin).accounted ha hin rfl
    · exact ha
  | handshaken index =>
    simp only [Admission.advance]
    split_ifs with hph
    · obtain rfl : phase = .handshaking := hph
      exact hbr _ rfl nofun
    · exact ha
  | named index caller =>
    simp only [Admission.advance]
    split_ifs with hph
    · obtain rfl : phase = .naming := hph
      cases caller with
      | gateway => exact hbr _ rfl nofun
      | nobody => exact hbr _ rfl nofun
      | site site =>
        dsimp only
        rcases hpr : admission.peers.acquire site with _ | peers
        · exact hbr _ rfl nofun
        · exact (ha.peer hpr).accounted ha hin rfl
    · exact ha
  | finish index =>
    cases phase with
    | closing gateway => exact ha
    | closed => exact ha
    | gateway => exact hbr _ rfl nofun
    | silent => exact hbr _ rfl nofun
    | handshaking => exact hbr _ rfl nofun
    | naming => exact hbr _ rfl nofun
    | peer site => exact hbr _ rfl nofun
    | refused site => exact hbr _ rfl nofun
  | release index =>
    cases phase with
    | closing gateway => exact ha.release.accounted ha hin rfl
    | _ => exact ha

/-- **Every step keeps the account.** -/
theorem Admission.Accounted.step (op : ListenerOp) :
    (admission.step op).Accounted := by
  have hadv : ∀ index : Nat, op.index = some index →
      (match op.index.bind fun index => admission.connections[index]?.map fun c => (index, c) with
        | some (index, connection) => admission.advance index connection op
        | none => admission).Accounted := by
    intro index hop
    rw [hop, Option.bind_some]
    rcases hin : admission.connections[index]? with _ | connection
    · exact ha
    · exact ha.advance hin op
  cases op with
  | declare members => exact ⟨ha.1, ha.2, ha.3, ha.4, ha.5, ha.6, ha.7⟩
  | arrive ip => exact ha.admitFrom ip
  | speak index | handshaken index | named index caller | finish index | release index =>
    exact hadv index rfl

end

theorem accounted_new (maxPerPeer maxPerSource members : Nat) :
    (new maxPerPeer maxPerSource members).Accounted := by
  have hls : (least maxPerPeer maxPerSource members).Accounted :=
    ⟨rfl, rfl, fun _ => rfl, fun _ => rfl, rfl, fun _ => rfl, fun _ => zero_le _⟩
  exact hls.sizeForMembers

theorem accounted_after (maxPerPeer maxPerSource members : Nat) (ops : List ListenerOp) :
    (after maxPerPeer maxPerSource members ops).Accounted :=
  Run.run_invariant (fun _ op ha => ha.step op) (accounted_new maxPerPeer maxPerSource members)

/-! ### Limits -/

/-- What no step changes. -/
def Admission.limits (admission : Admission) : List Nat :=
  [admission.peers.limit, admission.perPeer, admission.sources.limit, admission.sources.limit48,
    admission.silent.limit, admission.silent.limit48]

theorem limits_sizeForMembers : admission.sizeForMembers.limits = admission.limits := by
  unfold sizeForMembers
  dsimp only
  split_ifs <;> rfl

/-- What only arrivals and declarations change besides. -/
def Admission.sizes (admission : Admission) : List Nat :=
  admission.capacity :: admission.members :: admission.limits

theorem sizes_admitFrom (ip : IpAddr) :
    (admission.admitFrom ip).sizes = admission.sizeForMembers.sizes := by
  unfold admitFrom
  dsimp only
  generalize admission.sizeForMembers = admission
  split_ifs
  · rfl
  · rfl
  · rcases hsr : admission.sources.acquire ip with _ | sources
    · rfl
    rcases hsl : admission.silent.acquire ip with _ | silent
    · rfl
    obtain rfl := acquire_eq_some hsr
    obtain rfl := acquire_eq_some hsl
    rfl

theorem sizes_giveBack : (admission.giveBack connection).sizes = admission.sizes := by
  unfold giveBack
  split <;> rfl

theorem sizes_advance (op : ListenerOp) :
    (admission.advance index connection op).sizes = admission.sizes := by
  cases op with
  | declare members => rfl
  | arrive ip => rfl
  | speak index =>
    simp only [advance]
    split_ifs <;> rfl
  | handshaken index =>
    simp only [advance]
    split_ifs
    · exact sizes_giveBack
    · rfl
  | named index caller =>
    simp only [advance]
    split_ifs
    · cases caller with
      | gateway => rfl
      | nobody => rfl
      | site site =>
        dsimp only
        rcases hpr : admission.peers.acquire site with _ | peers
        · rfl
        · obtain ⟨-, -, rfl⟩ := PeerSlots.acquire_eq_some hpr
          rfl
    · rfl
  | finish index =>
    simp only [advance]
    split
    · rfl
    · rfl
    · exact sizes_giveBack
    · exact sizes_giveBack
  | release index =>
    simp only [advance]
    split <;> rfl

theorem limits_step (op : ListenerOp) : (admission.step op).limits = admission.limits := by
  unfold step
  split
  · rfl
  · exact (congrArg (List.drop 2) (sizes_admitFrom _)).trans limits_sizeForMembers
  · split
    · exact congrArg (List.drop 2) (sizes_advance _)
    · rfl

theorem limits_after (maxPerPeer maxPerSource members : Nat) (ops : List ListenerOp) :
    (after maxPerPeer maxPerSource members ops).limits
      = (least maxPerPeer maxPerSource members).limits := by
  have hnew : (new maxPerPeer maxPerSource members).limits
      = (least maxPerPeer maxPerSource members).limits := limits_sizeForMembers
  exact Run.run_invariant
    (P := fun a : Admission => a.limits = (least maxPerPeer maxPerSource members).limits)
    (fun _ op h => (limits_step op).trans h) hnew

/-! ### The reserve -/

theorem Admission.outside_add_gateway (admission : Admission) :
    admission.outside + admission.gateway = held slot admission.connections := by
  unfold outside gateway
  rw [← held_add]
  congr 1
  funext connection
  exact connection.outside_add_gateway

theorem Admission.outside_eq (admission : Admission) :
    admission.outside = held turn admission.connections
      + held peer admission.connections + admission.lingering := by
  unfold outside lingering
  rw [← held_add, ← held_add]
  congr 1
  funext connection
  exact connection.outside_eq

/-- Those that hold a turn or a peer slot leave the reserve; only those that hold their slot alone
take of it. -/
theorem Admission.Accounted.outside_le (ha : admission.Accounted) :
    admission.outside + localReserve ≤ admission.capacity + admission.lingering := by
  have hot := admission.outside_eq
  have hhn := ha.handshakes
  have hpr := ha.peers
  omega

theorem slots_le_sizeForMembers : admission.slots ≤ admission.sizeForMembers.slots := by
  unfold sizeForMembers
  dsimp only
  split_ifs
  · exact Nat.le_add_right _ _
  · exact Nat.le_refl _

theorem Admission.Accounted.not_shedsAtTotal (ha : admission.Accounted)
    (h : admission.gateway + admission.lingering < localReserve) :
    admission.shedsAtTotal = false := by
  have hot := ha.outside_le
  have hsl := ha.slots
  have hopen := admission.outside_add_gateway
  have hgr : admission.slots ≤ admission.sizeForMembers.slots := slots_le_sizeForMembers
  have hlf : admission.sizeForMembers.slots ≠ 0 := by omega
  exact decide_eq_false hlf

/-- **The reserve is the gateway's but for those that linger.**  After every run, the connections
that are not the gateway's leave the reserve, apart from as many as hold their slot alone, and the
gateway is not shed at the total cap while it and these hold less than the reserve.  Always, a site
is served within its cap, and what is left of every counter and what the open connections hold of it
is what there is. -/
theorem reserve_kept_unless_lingering (maxPerPeer maxPerSource members : Nat)
    (ops : List ListenerOp) :
    let admission := Admission.after maxPerPeer maxPerSource members ops
    admission.outside + localReserve ≤ admission.capacity + admission.lingering ∧
      (admission.gateway + admission.lingering < localReserve → admission.shedsAtTotal = false) ∧
      (∀ site, admission.served site ≤ max maxPerPeer 1) ∧ admission.Accounted := by
  intro admission
  have ha : admission.Accounted := accounted_after maxPerPeer maxPerSource members ops
  have hlm := limits_after maxPerPeer maxPerSource members ops
  refine ⟨ha.outside_le, ha.not_shedsAtTotal, fun site => ?_, ha⟩
  have hlt : admission.peers.limit = max maxPerPeer 1 := (List.cons.inj hlm).1
  rw [← ha.sites site, ← hlt]
  exact ha.within site

/-! ### A site at its cap -/

/-- One more connection of a site, from an address, up to its answer. -/
def callOf (ip : IpAddr) (site : String) (index : Nat) : List ListenerOp :=
  [.arrive ip, .speak index, .handshaken index, .named index (.site site)]

/-- A site of cap one is served and refused, and the gateway, served beside them, is not shed. -/
theorem reserve_kept_unless_lingering_gateway :
    let admission := Admission.after 1 1 1 (callOf (.v4 1) "b" 0 ++ callOf (.v4 1) "b" 1 ++
      [.arrive (.v4 2), .speak 2, .handshaken 2, .named 2 .gateway])
    admission.gateway = 1 ∧ admission.lingering = 1 ∧ admission.shedsAtTotal = false :=
  ⟨by decide +kernel, by decide +kernel,
    (reserve_kept_unless_lingering 1 1 1 _).2.1 (by decide +kernel)⟩

/-- So many connections of a site, one after the other, that send no request. -/
def flood (ip : IpAddr) (site : String) : Nat → List ListenerOp
  | 0 => []
  | n + 1 => flood ip site n ++ callOf ip site n

/-- One is served, the others are refused. -/
def flooded (ip : IpAddr) (site : String) : Nat → List Connection
  | 0 => []
  | n + 1 => ⟨ip, .peer site⟩ :: List.replicate n ⟨ip, .refused site⟩

theorem length_flooded (ip : IpAddr) (site : String) (n : Nat) :
    (flooded ip site n).length = n := by
  cases n with
  | zero => rfl
  | succ n => rw [flooded, List.length_cons, List.length_replicate]

theorem step_last {op : ListenerOp} {before : List Connection}
    (hconnections : admission.connections = before ++ [connection])
    (hop : op.index = some before.length) :
    admission.step op = admission.advance before.length connection op := by
  have hin : admission.connections[before.length]? = some connection := by
    rw [hconnections, List.getElem?_append_right (Nat.le_refl _), Nat.sub_self]
    rfl
  cases op with
  | declare members => cases hop
  | arrive ip => cases hop
  | _ =>
    cases hop
    simp only [step, ListenerOp.index, Option.bind_some, hin, Option.map_some]

theorem connections_move_last {before : List Connection}
    (hconnections : admission.connections = before ++ [connection]) (phase : Phase) :
    (admission.move before.length connection phase).connections
      = before ++ [{ connection with phase }] := by
  unfold move
  rw [hconnections, List.set_append_right _ _ (Nat.le_refl _), Nat.sub_self]
  rfl

theorem SourceSlots.acquire_of_free {slots : SourceSlots} (ip : IpAddr)
    (hfr : ∀ key, slots.pending key = 0) (hlm : 0 < slots.limit)
    (hlm48 : 0 < slots.limit48) : (slots.acquire ip).isSome = true := by
  unfold acquire
  dsimp only
  rw [if_neg]
  · rfl
  · rw [Bool.or_eq_true, not_or]
    refine ⟨?_, ?_⟩
    · rw [hfr, decide_eq_true_iff]
      omega
    · cases (sourceKeys ip).2 with
      | none => exact Bool.false_ne_true
      | some wider =>
        rw [Option.any_some, hfr, decide_eq_true_iff]
        omega

theorem connections_admitFrom {ip : IpAddr} (hsz : admission.sizeForMembers = admission)
    (hss : 0 < admission.slots) (hhn : 0 < admission.handshakes)
    (hsr : (admission.sources.acquire ip).isSome = true)
    (hsl : (admission.silent.acquire ip).isSome = true) :
    (admission.admitFrom ip).connections = admission.connections ++ [⟨ip, .silent⟩] := by
  obtain ⟨sources, hsr⟩ := Option.isSome_iff_exists.mp hsr
  obtain ⟨silent, hsl⟩ := Option.isSome_iff_exists.mp hsl
  unfold admitFrom
  rw [hsz, if_neg (Nat.ne_of_gt hss), if_neg (Nat.ne_of_gt hhn), hsr, hsl]

/-- A listener of one declared member with the least cap, flooded by it. -/
structure Flooded (ip : IpAddr) (site : String) (n : Nat) (admission : Admission) : Prop where
  connections : admission.connections = flooded ip site n
  accounted : admission.Accounted
  sizes : admission.sizes = [maxConnections, 1, 1, 1, 1, 32, 8, 8]

section Flood

variable {ip : IpAddr} {site : String} {n : Nat}

theorem held_flooded (w : Connection → Nat) :
    held w (flooded ip site (n + 1)) = w ⟨ip, .peer site⟩ + n * w ⟨ip, .refused site⟩ := by
  rw [flooded, held_cons, held_replicate]

theorem held_flooded_slot : held slot (flooded ip site n) = n := by
  cases n with
  | zero => rfl
  | succ n =>
    rw [held_flooded]
    simp only [slot]
    omega

theorem held_flooded_of_zero {w : Connection → Nat} (hpr : w ⟨ip, .peer site⟩ = 0)
    (href : w ⟨ip, .refused site⟩ = 0) : held w (flooded ip site n) = 0 := by
  cases n with
  | zero => rfl
  | succ n => rw [held_flooded, hpr, href, Nat.mul_zero]

theorem Flooded.sizeForMembers (h : Flooded ip site n admission) :
    admission.sizeForMembers = admission := by
  obtain ⟨hcap, htl⟩ := List.cons.inj h.sizes
  obtain ⟨hmm, htl⟩ := List.cons.inj htl
  have hpr : admission.perPeer = 1 := (List.cons.inj (List.cons.inj htl).2).1
  unfold Admission.sizeForMembers
  rw [hmm, hpr, hcap]
  rfl

/-- The site's next connection comes as far as its handshake. -/
theorem Flooded.arrive (h : Flooded ip site n admission) (hn : n < maxConnections) :
    (admission.step (.arrive ip)).connections = flooded ip site n ++ [⟨ip, .silent⟩] ∧
      (admission.step (.arrive ip)).sizes = admission.sizes := by
  obtain ⟨hcap, htl⟩ := List.cons.inj h.sizes
  obtain ⟨hmm, hlm⟩ := List.cons.inj htl
  simp only [limits, List.cons.injEq] at hlm
  obtain ⟨-, -, hlt, hlt48, hqt, hqt48, -⟩ := hlm
  have ha := h.accounted
  have hss := ha.slots
  have hhn := ha.handshakes
  rw [h.connections, held_flooded_slot, hcap] at hss
  rw [h.connections, held_flooded_of_zero rfl rfl] at hhn
  have htr : 0 < admission.handshakes := by
    unfold maxHandshakes at hhn
    omega
  have hsr : ∀ key, admission.sources.pending key = 0 := by
    intro key
    rw [ha.sources, h.connections]
    exact held_flooded_of_zero (zero_mul _) (zero_mul _)
  have hsl : ∀ key, admission.silent.pending key = 0 := by
    intro key
    rw [ha.silent, h.connections]
    exact held_flooded_of_zero rfl rfl
  refine ⟨?_, ?_⟩
  · have hadm := connections_admitFrom h.sizeForMembers (by omega) htr
      (acquire_of_free ip hsr (by omega) (by omega))
      (acquire_of_free ip hsl (by omega) (by omega))
    rw [h.connections] at hadm
    exact hadm
  · show (admission.admitFrom ip).sizes = admission.sizes
    rw [sizes_admitFrom, h.sizeForMembers]

section

variable (hconnections : admission.connections = flooded ip site n ++ [connection])
include hconnections

theorem step_flooded {op : ListenerOp} (hop : op.index = some n) :
    admission.step op = admission.advance n connection op := by
  have hls : op.index = some (flooded ip site n).length := by rw [length_flooded, hop]
  rw [step_last hconnections hls, length_flooded]

theorem sizes_step_flooded (op : ListenerOp) (hop : op.index = some n) :
    (admission.step op).sizes = admission.sizes := by
  rw [step_flooded hconnections hop, sizes_advance]

theorem move_flooded (phase : Phase) : (admission.move n connection phase).connections
      = flooded ip site n ++ [{ connection with phase }] := by
  have hls := connections_move_last hconnections phase
  rw [length_flooded] at hls
  exact hls

end

/-- The first connection takes the site's only slot, and every later one is refused. -/
theorem connections_named (ha : admission.Accounted)
    (hsz : admission.sizes = [maxConnections, 1, 1, 1, 1, 32, 8, 8])
    (hconnections : admission.connections = flooded ip site n ++ [⟨ip, .naming⟩]) :
    (admission.step (.named n (.site site))).connections = flooded ip site (n + 1) := by
  simp only [sizes, limits, List.cons.injEq] at hsz
  obtain ⟨hcap, -, hlm, -⟩ := hsz
  have hopen := ha.sites site
  have htt := ha.peers
  rw [served, hconnections, held_append] at hopen
  rw [hconnections, held_append, hcap] at htt
  rw [step_flooded hconnections rfl]
  simp only [advance, if_pos]
  cases n with
  | zero =>
    have hlf : ¬ admission.peers.total = 0 := by
      simp only [flooded, held_nil, held_cons, peer, maxConnections, localReserve,
        maxHandshakes] at htt
      omega
    have hbl : ¬ admission.peers.open site ≥ admission.peers.limit := by
      rw [hopen, hlm]
      exact not_succ_le_zero 0
    have hfr : admission.peers.acquire site = some _ := (if_neg hlf).trans (if_neg hbl)
    rw [hfr]
    exact move_flooded hconnections (.peer site)
  | succ n =>
    have hfl : admission.peers.acquire site = none := by
      unfold PeerSlots.acquire
      rw [hopen, held_flooded, hlm]
      simp [of]
    rw [hfl]
    refine (move_flooded hconnections (.refused site)).trans ?_
    rw [flooded, flooded, List.cons_append, List.replicate_succ']

/-- **One more connection of the site.** -/
theorem Flooded.call (h : Flooded ip site n admission) (hn : n < maxConnections) :
    Flooded ip site (n + 1) (Run.run step admission (callOf ip site n)) := by
  obtain ⟨har, hsz⟩ := h.arrive hn
  have ha := h.accounted.step (.arrive ip)
  have hs := hsz.trans h.sizes
  rw [callOf, Run.run_cons, Run.run_cons, Run.run_cons, Run.run_cons, Run.run_nil]
  generalize admission.step (.arrive ip) = admission at har ha hs
  -- it speaks
  have hsp : (admission.step (.speak n)).connections
      = flooded ip site n ++ [⟨ip, .handshaking⟩] := by
    rw [step_flooded har rfl]
    show ({ admission with silent := admission.silent.release ip }.move n ⟨ip, .silent⟩
      .handshaking).connections = _
    exact move_flooded har .handshaking
  have ha := ha.step (.speak n)
  have hs := (sizes_step_flooded har (.speak n) rfl).trans hs
  generalize admission.step (.speak n) = admission at hsp ha hs
  -- its handshake succeeds
  have hsh : (admission.step (.handshaken n)).connections
      = flooded ip site n ++ [⟨ip, .naming⟩] := by
    rw [step_flooded hsp rfl]
    show ((admission.giveBack ⟨ip, .handshaking⟩).move n ⟨ip, .handshaking⟩ .naming).connections = _
    exact move_flooded hsp .naming
  have ha := ha.step (.handshaken n)
  have hs := (sizes_step_flooded hsp (.handshaken n) rfl).trans hs
  generalize admission.step (.handshaken n) = admission at hsh ha hs
  -- its certificate names the site
  refine ⟨connections_named ha hs hsh, ha.step _, ?_⟩
  exact (sizes_step_flooded hsh _ rfl).trans hs

theorem flooded_after :
    ∀ {n : Nat}, n ≤ maxConnections → Flooded ip site n (after 1 1 1 (flood ip site n))
  | 0, _ => by
    refine ⟨rfl, accounted_after 1 1 1 [], ?_⟩
    show (new 1 1 1).sizes = _
    decide
  | n + 1, hn => by
    have hpre : Flooded ip site n (after 1 1 1 (flood ip site n)) :=
      flooded_after (le_of_succ_le hn)
    rw [flood, after, Run.run_append]
    exact hpre.call hn

end Flood

/-- **Refused connections take the reserve.**  A site with a cap of one opens as many connections as
the listener has and sends no request: the first is served, the others are refused, no counter but
the total holds them back, and the gateway, which has none, is shed. -/
theorem refused_connections_take_the_reserve :
    let admission := Admission.after 1 1 1 (flood (.v4 1) "b" 256)
    admission.gateway = 0 ∧ admission.outside = admission.capacity ∧
      admission.capacity - localReserve < admission.outside ∧ admission.shedsAtTotal = true := by
  intro admission
  have h : Flooded (.v4 1) "b" 256 admission := flooded_after (Nat.le_refl 256)
  have hcp : admission.capacity = 256 := (List.cons.inj h.sizes).1
  have hsl := h.accounted.slots
  have hopen := admission.outside_add_gateway
  rw [h.connections, held_flooded_slot] at hsl hopen
  have hgt : admission.gateway = 0 := by
    rw [Admission.gateway, h.connections]
    exact held_flooded_of_zero rfl rfl
  have hot : admission.outside = 256 := by omega
  refine ⟨hgt, by rw [hot, hcp], by rw [hot, hcp]; decide, ?_⟩
  rw [Admission.shedsAtTotal, h.sizeForMembers, decide_eq_true_iff]
  omega

end PraxisGrid.Operator.Listener
