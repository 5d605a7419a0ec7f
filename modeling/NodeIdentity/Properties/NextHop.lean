import NodeIdentity.Library.Machine
import NodeIdentity.NidRouting

/-!
# Next hops at a gateway

A gateway asks its connection map before its routing tables, and a miss leaves
the default gateway in the map.  While that entry lives it decides where the
packets of the gateway itself go.  The planted default is computed here from
the events alone, which gives the exact condition for a packet to follow the
routing tables.
-/

namespace NodeIdentity

open NodeIdentity.Library

/-- A packet for the output thread, or what another thread does to a table
between two packets. -/
inductive NrEvent where
  | fromPH (now : Timeval) (header : NidHeader) (payload : List UInt8)
  | fromNR (now : Timeval) (datagram : List UInt8)
  | newCM (now : Timeval) (nid : NID) (ip : NID32)
  | delCM (now : Timeval) (nid : NID)
  | updateCM (now : Timeval) (config : Configuration)
  | newRT (now : Timeval) (nid : NID) (ip : NID32)
  | updateRT (now : Timeval) (config : Configuration)
  | addRegistry (now : Timeval) (nid : NID) (ip : NID32)
  | addDHT (now : Timeval) (nid : NID) (ip : NID32)

def nrTurn (role : GatewayRole) (source : NrSource) (now : Timeval)
    (datagram : List UInt8) (s : NrOutput) : NrTurn :=
  match role with
  | .gateway => threadNrOutputGw source now datagram s
  | .core => threadNrOutputCore source now datagram s

namespace NrEvent

def seconds : NrEvent → Nat
  | fromPH now _ _ => now.tvSec
  | fromNR now _ => now.tvSec
  | newCM now _ _ => now.tvSec
  | delCM now _ => now.tvSec
  | updateCM now _ => now.tvSec
  | newRT now _ _ => now.tvSec
  | updateRT now _ => now.tvSec
  | addRegistry now _ _ => now.tvSec
  | addDHT now _ _ => now.tvSec

/-- Another thread writes an entry for `nid` into the connection map. -/
def WritesCM (nid : NID) : NrEvent → Prop
  | newCM _ written _ => written = nid
  | updateCM _ config => config.nidgw = nid ∨ config.nidrvs = nid
  | _ => False

/-- Another thread changes what the routing table, the registry or the DHT
table says about `nid` or about its gateway. -/
def WritesRoute (nid nidgw : NID) : NrEvent → Prop
  | newRT _ written _ => written = nid
  | updateRT _ _ => True
  | addRegistry _ written _ => written = nid
  | addDHT _ written _ => written = nidgw
  | _ => False

def apply (role : GatewayRole) (s : NrOutput) :
    NrEvent → NrOutput × Option (NID32 × List UInt8)
  | fromPH now header payload =>
      let turn := nrTurn role .ph2nr now (frame header payload) s
      (turn.state, turn.sent)
  | fromNR now datagram =>
      let turn := nrTurn role .nr now datagram s
      (turn.state, turn.sent)
  | newCM now nid ip => ({ s with cm := newCMEntry nid ip now s.cm }, none)
  | delCM _ nid => ({ s with cm := delCMEntry nid s.cm }, none)
  | updateCM now config =>
      ({ s with cm := updateCMconf config now s.cm }, none)
  | newRT now nid ip => ({ s with rt := newRTEntry nid ip now s.rt }, none)
  | updateRT _ config => ({ s with rt := NodeIdentity.updateRT config s.rt }, none)
  | addRegistry _ nid ip =>
      ({ s with registry := NodeIdentity.addRegistry nid ip s.registry }, none)
  | addDHT now nid ip => ({ s with dht := addDHTEntry nid ip now s.dht }, none)

end NrEvent

/-- Runs of the output thread at a clock which does not go back. -/
def nrMachine (role : GatewayRole) :
    Machine (NrOutput × Nat) NrEvent (Option (NID32 × List UInt8)) :=
  (Machine.total (NrEvent.apply role)).timed NrEvent.seconds

/-- The locator the tables of a gateway have for a packet: the routing table
with its default, or, at a core gateway, the first of three tables which knows
one. -/
def routedHop (role : GatewayRole) (header : NidHeader) (now : Timeval)
    (s : NrOutput) : Option NID32 :=
  let route := getRTEntry header.destNID now s.rt
  match role with
  | .gateway => some route.dst
  | .core =>
      if route.found then some route.dst
      else if (getRegistry header.destNID s.registry).1 then
        some (getRegistry header.destNID s.registry).2
      else (getDHTEntry header.destNIDgw now s.dht).dst

/-- The datagram leaves for that locator, or is dropped if there is none. -/
def SentAsRouted (role : GatewayRole) (header : NidHeader)
    (payload : List UInt8) (now : Timeval) (s : NrOutput)
    (sent : Option (NID32 × List UInt8)) : Prop :=
  sent = (routedHop role header now s).map fun ip =>
    (ip, (frame header payload).take maxBufLen)

instance (role : GatewayRole) (header : NidHeader) (payload : List UInt8)
    (now : Timeval) (s : NrOutput) (sent : Option (NID32 × List UInt8)) :
    Decidable (SentAsRouted role header payload now s sent) :=
  inferInstanceAs (Decidable (_ = _))

theorem routeCore_sent (request : Option NID) (now : Timeval)
    (header : NidHeader) (packet : List UInt8) (s : NrOutput) :
    (routeCore request now header packet s).sent =
      (routedHop .core header now s).map fun ip => (ip, packet) := by
  simp only [routeCore, routedHop]
  split
  · rfl
  · split <;> rfl

theorem routeCore_cm (request : Option NID) (now : Timeval)
    (header : NidHeader) (packet : List UInt8) (s : NrOutput) :
    (routeCore request now header packet s).state.cm = s.cm := by
  simp only [routeCore]
  split
  · rfl
  · split <;> rfl

theorem nrTurn_ph2nr_cm (role : GatewayRole) (now : Timeval)
    (header : NidHeader) (payload : List UInt8) (s : NrOutput) :
    (nrTurn role .ph2nr now (frame header payload) s).state.cm =
      (getCMEntry header.destNID now s.cm s.queueTable).cm := by
  have read := s.header_read_frame header payload
  cases role with
  | gateway =>
      simp only [nrTurn, threadNrOutputGw, read]
      split <;> rfl
  | core =>
      simp only [nrTurn, threadNrOutputCore, read]
      split
      · rfl
      · exact routeCore_cm _ now _ _ _

theorem nrTurn_nr_cm (role : GatewayRole) (now : Timeval)
    (datagram : List UInt8) (s : NrOutput) :
    (nrTurn role .nr now datagram s).state.cm = s.cm := by
  cases role with
  | gateway => rfl
  | core => exact routeCore_cm none now _ _ (s.read datagram)

theorem nrTurn_sent_live (role : GatewayRole) {now : Timeval}
    {header : NidHeader} {s : NrOutput} {lease : Lease NID32}
    (live : s.cm.LiveEntry now header.destNID lease)
    (payload : List UInt8) :
    (nrTurn role .ph2nr now (frame header payload) s).sent =
      some (lease.value, (frame header payload).take maxBufLen) := by
  have read := s.header_read_frame header payload
  obtain ⟨found, dst, _⟩ := getCMEntry_live s.queueTable live
  cases role with
  | gateway =>
      simp only [nrTurn, threadNrOutputGw, read, NrOutput.packet_read,
        NrOutput.read_cm, NrOutput.read_queueTable]
      rw [if_pos found, dst]
  | core =>
      simp only [nrTurn, threadNrOutputCore, read, NrOutput.packet_read,
        NrOutput.read_cm, NrOutput.read_queueTable]
      rw [if_pos found, dst]

theorem nrTurn_sent_dead (role : GatewayRole) {now : Timeval}
    {header : NidHeader} {s : NrOutput}
    (dead : ∀ lease, ¬ s.cm.LiveEntry now header.destNID lease)
    (payload : List UInt8) :
    SentAsRouted role header payload now s
      (nrTurn role .ph2nr now (frame header payload) s).sent := by
  have read := s.header_read_frame header payload
  have missed :
      ¬ (getCMEntry header.destNID now s.cm s.queueTable).found = true := by
    rw [(getCMEntry_dead _ dead).1]
    exact Bool.false_ne_true
  cases role with
  | gateway =>
      simp only [nrTurn, threadNrOutputGw, read, NrOutput.packet_read,
        NrOutput.read_cm, NrOutput.read_queueTable]
      rw [if_neg missed]
      rfl
  | core =>
      simp only [nrTurn, threadNrOutputCore, read, NrOutput.packet_read,
        NrOutput.read_cm, NrOutput.read_queueTable]
      rw [if_neg missed, SentAsRouted, routeCore_sent]
      rfl

/-- The default gateway of the map, and the entry the last miss for a NID
planted unless it was deleted since. -/
structure Planted where
  gatewayIP : NID32
  entry : Option (Lease NID32)

namespace Planted

def live (planted : Planted) (now : Timeval) : Option (Lease NID32) :=
  planted.entry.filter fun lease => lease.Live rvsUpdateTimeout now.tvSec

def after (nid : NID) (planted : Planted) : NrEvent → Planted
  | .fromPH now header _ =>
      if header.destNID = nid ∧ planted.live now = none then
        { planted with entry := some ⟨planted.gatewayIP, now.tvSec⟩ }
      else planted
  | .delCM _ deleted =>
      if deleted = nid then { planted with entry := none } else planted
  | .updateCM _ config => ⟨config.gatewayIP, none⟩
  | _ => planted

theorem live_eq_some_iff {planted : Planted} {now : Timeval}
    {lease : Lease NID32} :
    planted.live now = some lease ↔
      planted.entry = some lease ∧ lease.Live rvsUpdateTimeout now.tvSec := by
  rw [live, Option.filter_eq_some_iff, decide_eq_true_iff]

end Planted

/-- What the packets and writes of a run have planted for a NID, in a map which
started without a live entry for it. -/
def plantedBy (nid : NID) (gatewayIP : NID32) (events : List NrEvent) :
    Planted :=
  events.foldl (Planted.after nid) ⟨gatewayIP, none⟩

/-- From `clock` on, the map serves a NID exactly the planted default. -/
structure Tracks (nid : NID) (planted : Planted) (cm : ConnMapper)
    (clock : Nat) : Prop where
  gateway : cm.cmGatewayIP = planted.gatewayIP
  live : ∀ now lease, clock ≤ now.tvSec →
    (cm.LiveEntry now nid lease ↔ planted.live now = some lease)

theorem Tracks.later {nid : NID} {planted : Planted} {cm : ConnMapper}
    {clock later : Nat} (tracks : Tracks nid planted cm clock)
    (order : clock ≤ later) : Tracks nid planted cm later :=
  ⟨tracks.gateway, fun now lease reached =>
    tracks.live now lease (order.trans reached)⟩

theorem Tracks.congr {nid : NID} {planted : Planted} {cm other : ConnMapper}
    {clock : Nat} (tracks : Tracks nid planted cm clock)
    (gateway : other.cmGatewayIP = cm.cmGatewayIP)
    (lease : other.leases nid = cm.leases nid) :
    Tracks nid planted other clock := by
  refine ⟨gateway.trans tracks.gateway, ?_⟩
  intro now held reached
  rw [ConnMapper.LiveEntry, lease]
  exact tracks.live now held reached

theorem Tracks.dropped {nid : NID} {planted : Planted} {cm : ConnMapper}
    {clock : Nat} (gateway : cm.cmGatewayIP = planted.gatewayIP)
    (dead : ∀ now lease, clock ≤ now.tvSec → ¬ cm.LiveEntry now nid lease)
    (none : planted.entry = none) : Tracks nid planted cm clock := by
  refine ⟨gateway, ?_⟩
  intro now lease reached
  constructor
  · intro live
    exact (dead now lease reached live).elim
  · intro live
    rw [Planted.live_eq_some_iff, none] at live
    cases live.1

theorem Tracks.getCMEntry {nid looked : NID} {planted : Planted}
    {cm : ConnMapper} {clock : Nat} (tracks : Tracks nid planted cm clock)
    {now : Timeval} (reached : clock ≤ now.tvSec) (queueTable : QueueTable) :
    Tracks nid
      (if looked = nid ∧ planted.live now = none then
        { planted with entry := some ⟨planted.gatewayIP, now.tvSec⟩ }
      else planted)
      (NodeIdentity.getCMEntry looked now cm queueTable).cm now.tvSec := by
  have gateway := getCMEntry_cmGatewayIP looked now cm queueTable
  by_cases same : looked = nid
  · subst same
    cases held : planted.live now with
    | some lease =>
        have live := (tracks.live now lease reached).mpr held
        rw [if_neg (by simp), (getCMEntry_live queueTable live).2.2]
        exact tracks.later reached
    | none =>
        have dead : ∀ lease, ¬ cm.LiveEntry now looked lease := by
          intro lease live
          have planted := (tracks.live now lease reached).mp live
          rw [held] at planted
          cases planted
        rw [if_pos ⟨rfl, rfl⟩]
        refine ⟨gateway.trans tracks.gateway, ?_⟩
        intro later lease _
        rw [ConnMapper.LiveEntry, (getCMEntry_dead _ dead).2.2.2,
          Function.update_self, tracks.gateway, Planted.live_eq_some_iff]
  · rw [if_neg fun both => same both.1]
    exact (tracks.later reached).congr gateway
      (getCMEntry_leases_of_ne (Ne.symm same) now cm queueTable)

theorem Tracks.after (role : GatewayRole) {nid : NID} {planted : Planted}
    {s : NrOutput} {clock : Nat} (tracks : Tracks nid planted s.cm clock)
    {event : NrEvent} (reached : clock ≤ event.seconds)
    (quiet : ¬ event.WritesCM nid) :
    Tracks nid (planted.after nid event) (event.apply role s).1.cm
      event.seconds := by
  cases event with
  | fromPH now header payload =>
      change Tracks nid _ (nrTurn role .ph2nr now _ s).state.cm now.tvSec
      rw [nrTurn_ph2nr_cm]
      exact tracks.getCMEntry reached s.queueTable
  | fromNR now datagram =>
      change Tracks nid planted (nrTurn role .nr now _ s).state.cm now.tvSec
      rw [nrTurn_nr_cm]
      exact tracks.later reached
  | newCM now written ip =>
      have other : nid ≠ written := fun same => quiet same.symm
      refine (tracks.later reached).congr rfl ?_
      exact (congrFun (leases_newCMEntry written ip now s.cm) nid).trans
        (LeaseTable.refresh_of_ne _ other ip now.tvSec)
  | delCM now deleted =>
      have drop := congrFun (leases_delCMEntry deleted s.cm) nid
      by_cases same : deleted = nid
      · subst same
        rw [Planted.after, if_pos rfl]
        refine Tracks.dropped tracks.gateway ?_ rfl
        intro later lease _ live
        rw [LeaseTable.drop_self] at drop
        cases drop.symm.trans live.1
      · rw [Planted.after, if_neg same]
        exact (tracks.later reached).congr rfl
          (drop.trans (LeaseTable.drop_of_ne _ (Ne.symm same)))
  | updateCM now config =>
      refine Tracks.dropped (updateCMconf_cmGatewayIP config now s.cm) ?_ rfl
      intro later lease order
      exact updateCMconf_dead (fun same => quiet (.inl same.symm))
        (fun same => quiet (.inr same.symm)) order lease
  | newRT => exact tracks.later reached
  | updateRT => exact tracks.later reached
  | addRegistry => exact tracks.later reached
  | addDHT => exact tracks.later reached

theorem tracks_of_run {role : GatewayRole} {nid : NID} {start s : NrOutput}
    {began clock : Nat} {events : List NrEvent}
    {outputs : List (Option (NID32 × List UInt8))}
    (dead : ∀ lease, ¬ start.cm.LiveEntry (.ofSec began) nid lease)
    (quiet : ∀ event ∈ events, ¬ event.WritesCM nid)
    (run : (nrMachine role).Run (start, began) events outputs (s, clock)) :
    Tracks nid (plantedBy nid start.cm.cmGatewayIP events) s.cm clock := by
  revert quiet
  apply run.timed_total_record
  · intro _
    refine Tracks.dropped rfl ?_ rfl
    intro now lease order live
    exact dead lease ⟨live.1, live.2.earlier order⟩
  · intro events outputs state clock event tracked order quiet
    have earlier := tracked fun event member =>
      quiet event (List.mem_append_left _ member)
    have after := earlier.after role order
      (quiet event (List.mem_append_right _ List.mem_cons_self))
    rw [plantedBy, List.foldl_append]
    exact after

/-- Every packet for a NID without a live entry at the start goes where the
routing tables say, as long as no other thread writes about that NID. -/
def NextHopConsistent (role : GatewayRole) : Prop :=
  ∀ (start s next : NrOutput) (began clock later : Nat)
    (events : List NrEvent) (outputs : List (Option (NID32 × List UInt8)))
    (now : Timeval) (header : NidHeader) (payload : List UInt8)
    (sent : Option (NID32 × List UInt8)),
    (∀ lease, ¬ start.cm.LiveEntry (.ofSec began) header.destNID lease) →
    (∀ event ∈ events, ¬ event.WritesCM header.destNID ∧
      ¬ event.WritesRoute header.destNID header.destNIDgw) →
    (nrMachine role).Run (start, began) events outputs (s, clock) →
    (nrMachine role).step (s, clock) (.fromPH now header payload) =
      some ((next, later), sent) →
    SentAsRouted role header payload now s sent

/-- A packet goes where the routing tables say exactly if no default planted
for its NID is still live, or if that default says the same. -/
theorem sentAsRouted_iff_planted {role : GatewayRole}
    {start s next : NrOutput} {began clock later : Nat}
    {events : List NrEvent} {outputs : List (Option (NID32 × List UInt8))}
    {now : Timeval} {header : NidHeader} {payload : List UInt8}
    {sent : Option (NID32 × List UInt8)}
    (dead : ∀ lease, ¬ start.cm.LiveEntry (.ofSec began) header.destNID lease)
    (quiet : ∀ event ∈ events, ¬ event.WritesCM header.destNID)
    (run : (nrMachine role).Run (start, began) events outputs (s, clock))
    (arrival : (nrMachine role).step (s, clock) (.fromPH now header payload) =
      some ((next, later), sent)) :
    SentAsRouted role header payload now s sent ↔
      ∀ lease,
        (plantedBy header.destNID start.cm.cmGatewayIP events).live now =
          some lease →
        routedHop role header now s = some lease.value := by
  have tracks := tracks_of_run dead quiet run
  obtain ⟨order, _, turn, _⟩ := Machine.timed_total_step_iff.mp arrival
  have turn : sent = (nrTurn role .ph2nr now (frame header payload) s).sent :=
    turn
  cases planted :
      (plantedBy header.destNID start.cm.cmGatewayIP events).live now with
  | none =>
      have missed : ∀ lease, ¬ s.cm.LiveEntry now header.destNID lease := by
        intro lease live
        rw [tracks.live now lease order, planted] at live
        cases live
      have routed := nrTurn_sent_dead role missed payload
      rw [← turn] at routed
      simp [routed]
  | some lease =>
      have live := (tracks.live now lease order).mpr planted
      have overridden := nrTurn_sent_live role live payload
      rw [turn, SentAsRouted, overridden]
      constructor
      · intro same other held
        cases held
        obtain ⟨ip, routed, pair⟩ := Option.map_eq_some_iff.mp same.symm
        cases pair
        exact routed
      · intro agrees
        rw [agrees lease rfl]
        rfl

section Example

private def peer : NID := NID.ofNat 9

private def gatewayConfig : Configuration :=
  .sample .gateway (NID.ofNat 1)

/-- The route to the peer is known, the connection map is empty. -/
private def routed : NrOutput :=
  { buf := Buffer.zero maxBufLen
    cm := initConnMapper gatewayConfig
    queueTable := initRvsQueueTable
    rt := newRTEntry peer (NID32.ofNat 90) (.ofSec 1000) (initRtable gatewayConfig)
    registry := initRegistryTable
    dht := initDhtable }

private def toPeer : NidHeader :=
  { type := .data
    srcNID := NID.ofNat 1
    destNID := peer
    srcNIDgw := NID.ofNat 2
    destNIDgw := NID.ofNat 2 }

private def packetAt (second : Nat) : NrEvent :=
  .fromPH (.ofSec second) toPeer []

private theorem routed_dead (began : Nat) (lease : Lease NID32) :
    ¬ routed.cm.LiveEntry (.ofSec began) toPeer.destNID lease := by
  intro live
  have empty : routed.cm.leases toPeer.destNID = none :=
    congrFun (leases_empty 20 (by decide)) _
  cases empty.symm.trans live.1

private theorem first_packet (role : GatewayRole) :
    (nrMachine role).Run (routed, 1000) [packetAt 1000]
      [((packetAt 1000).apply role routed).2]
      (((packetAt 1000).apply role routed).1, 1000) :=
  Machine.Run.nil.snoc (Machine.timed_total_step_iff.mpr ⟨le_rfl, rfl, rfl, rfl⟩)

/-- The second packet of the same second follows the planted default. -/
theorem not_nextHopConsistent :
    ¬ NextHopConsistent .gateway ∧ ¬ NextHopConsistent .core := by
  have diverted : ∀ role, ¬ SentAsRouted role toPeer [] (.ofSec 1000)
      ((packetAt 1000).apply role routed).1
      ((packetAt 1000).apply role ((packetAt 1000).apply role routed).1).2 := by
    intro role
    cases role with
    | gateway => decide +kernel
    | core => decide +kernel
  have refuted : ∀ role, ¬ NextHopConsistent role := by
    intro role consistent
    refine diverted role (consistent routed _ _ 1000 1000 1000 _ _ _ toPeer []
      _ (routed_dead 1000) ?_ (first_packet role)
      (Machine.timed_total_step_iff.mpr ⟨le_rfl, rfl, rfl, rfl⟩))
    intro event member
    cases List.mem_singleton.mp member
    exact ⟨id, id⟩
  exact ⟨refuted .gateway, refuted .core⟩

/-- Five seconds later the planted default is dead. -/
theorem sentAsRouted_of_planted_dead :
    SentAsRouted .core toPeer [] (.ofSec 1005)
      ((packetAt 1000).apply .core routed).1
      ((packetAt 1005).apply .core ((packetAt 1000).apply .core routed).1).2 := by
  refine (sentAsRouted_iff_planted (routed_dead 1000) ?_ (first_packet .core)
    (Machine.timed_total_step_iff.mpr ⟨by decide, rfl, rfl, rfl⟩)).mpr ?_
  · intro event member
    cases List.mem_singleton.mp member
    exact id
  · intro lease live
    have dead : (plantedBy peer (NID32.ofNat 20) [packetAt 1000]).live
        (.ofSec 1005) = none := by decide +kernel
    cases dead.symm.trans live

end Example

end NodeIdentity
