import NodeIdentity.Library.Descent
import NodeIdentity.Properties.HomeCore
import NodeIdentity.Properties.Renewal
import NodeIdentity.Properties.RoutingMap

/-!
# Packets for a registered node

A packet in transit between gateways which exchange control messages at the
same time.  Once a registration has reached the core of a node, the packets
for the node climb towards that core until they meet a gateway which has
learnt the node, and descend from there, whatever else the gateways handle
meanwhile and however long the packet waits in between.
-/

namespace NodeIdentity

open NodeIdentity.Library

/-- Gateways and the locators they are reached at. -/
structure GatewayDomain extends GatewayNet where
  gatewayAt : NID32 → Option NID
  gatewayAt_eq_some_iff : ∀ ip gw, gatewayAt ip = some gw ↔
    (role gw).isSome ∧ (config gw).locator = ip
  locator_ne_zero : ∀ gw, (role gw).isSome →
    (config gw).locator ≠ NID32.zero

/-- What a packet in transit meets at a gateway, besides its tables: the
buffers of the two threads and the tables only the output thread reaches. -/
structure TransitThreads where
  input : NrInput
  buf : Buffer maxBufLen
  queueTable : QueueTable
  dht : DhtMapping

def TransitThreads.output (tables : GatewayTables) (threads : TransitThreads) :
    NrOutput :=
  { buf := threads.buf
    cm := tables.cm
    queueTable := threads.queueTable
    rt := tables.rt
    registry := tables.registry
    dht := threads.dht }

def TransitThreads.learn (nid : NID) (ip : NID32) (now : Timeval)
    (threads : TransitThreads) : TransitThreads :=
  { threads with dht := addDHTEntry nid ip now threads.dht }

structure Relayed where
  tables : GatewayTables
  threads : TransitThreads
  sent : Option (NID32 × List UInt8)

/-- A gateway takes a datagram in, and its output thread routes it on unless
it is for the gateway itself. -/
def relay (role : GatewayRole) (config : Configuration) (now : Timeval)
    (arrival : List UInt8 × NID32) (tables : GatewayTables)
    (threads : TransitThreads) : Relayed :=
  let input := threadNrInputGw config.nid now (some arrival) threads.input
    tables.cm
  let tables := { tables with cm := input.cm }
  let threads := { threads with input := input.state }
  match input.nr with
  | none => ⟨tables, threads, none⟩
  | some packet =>
      let turn := nrTurn role .nr now packet (threads.output tables)
      { tables :=
          { tables with
            cm := turn.state.cm
            rt := turn.state.rt
            registry := turn.state.registry }
        threads :=
          { threads with
            buf := turn.state.buf
            queueTable := turn.state.queueTable
            dht := turn.state.dht }
        sent := turn.sent }

/-- A network of gateways and one packet on its way to a locator. -/
structure Transit where
  network : Network
  threads : NID → TransitThreads
  packet : Option (NID32 × List UInt8)

/-- The packet is relayed where it is, or something else happens: an event of
the control messages, the routing of other packets, an answer of the DHT. -/
inductive TransitEvent where
  | control (event : NetEvent)
  | learn (now : Timeval) (gw nid : NID) (ip : NID32)
  | forward (now : Timeval) (sender : NID32)

namespace TransitEvent

def seconds : TransitEvent → Nat
  | control event => event.seconds
  | learn now _ _ _ => now.tvSec
  | forward now _ => now.tvSec

def isForward : TransitEvent → Bool
  | forward _ _ => true
  | _ => false

end TransitEvent

def transitStep (net : GatewayDomain) (s : Transit) :
    TransitEvent → Option (Transit × Option Handled)
  | .control event => do
      let (network, output) ← netStep net.toGatewayNet s.network event
      return ({ s with network := network }, output)
  | .learn now gw nid ip =>
      let learnt := (s.threads gw).learn nid ip now
      some ({ s with threads := Function.update s.threads gw learnt }, none)
  | .forward now sender => do
      let (ip, datagram) ← s.packet
      let gw ← net.gatewayAt ip
      let role ← net.role gw
      let relayed := relay role (net.config gw) now (datagram, sender)
        (s.network.tables gw) (s.threads gw)
      let tables := Function.update s.network.tables gw relayed.tables
      return ({ network := { s.network with tables := tables }
                threads := Function.update s.threads gw relayed.threads
                packet := relayed.sent }, none)

def transitMachine (net : GatewayDomain) :
    Machine (Transit × Nat) TransitEvent (Option Handled) :=
  Machine.timed ⟨transitStep net⟩ TransitEvent.seconds

/-- A datagram which is not for the gateway itself costs the routing table an
expired route at most, and goes where the tables say. -/
theorem relay_frame {config : Configuration} {header : NidHeader}
    (foreign : header.destNID ≠ config.nid) (role : GatewayRole)
    (now : Timeval) (payload : List UInt8) (sender : NID32)
    (tables : GatewayTables) (threads : TransitThreads) :
    let relayed := relay role config now (frame header payload, sender) tables
      threads
    relayed.tables =
        { tables with rt := (getRTEntry header.destNID now tables.rt).rt } ∧
      (∀ nid, relayed.threads.dht.locator nid = threads.dht.locator nid) ∧
      relayed.sent =
        (routedHop role header now (threads.output tables)).map fun ip =>
          (ip, frame header (payload.take (maxBufLen - nhLen))) := by
  have read : nidHeaderCodec.decode
      (threads.input.buf.receive (frame header payload)).bytes = header :=
    threads.input.buf.decode_receive nidHeaderCodec (by decide) header payload
  have again : (frame header (payload.take (maxBufLen - nhLen))).take
      maxBufLen = frame header (payload.take (maxBufLen - nhLen)) := by
    rw [frame_take, List.take_take, Nat.min_self]
  simp only [relay, threadNrInputGw, NrInput.recvfrom, NrInput.header, read,
    if_neg foreign, Buffer.take_received, frame_take]
  cases role with
  | gateway =>
      simp only [nrTurn, threadNrOutputGw, NrOutput.header_read_frame,
        NrOutput.packet_read, again]
      exact ⟨rfl, fun _ => rfl, rfl⟩
  | core =>
      simp only [nrTurn, threadNrOutputCore, NrOutput.header_read_frame,
        NrOutput.packet_read, again]
      refine ⟨?_, ?_, routeCore_sent _ _ _ _ _⟩
      · simp only [routeCore]
        split
        · rfl
        · split <;> rfl
      · intro nid
        simp only [routeCore]
        split
        · rfl
        · split
          · rfl
          · exact getDHTEntry_locator _ nid now _

/-- Where a gateway without a route to the node sends a packet: up, or, at a
core, where the registry or the DHT table says. -/
def fallbackHop (role : GatewayRole) (header : NidHeader)
    (tables : GatewayTables) (dht : DhtMapping) : Option NID32 :=
  match role with
  | .gateway => some tables.rt.gatewayIP
  | .core =>
      let pointer := (getRegistry header.destNID tables.registry).2
      if pointer ≠ NID32.zero then some pointer
      else dht.locator header.destNIDgw

/-- The gateway has no route to the node of a packet, and its fallback leads
to `up`. -/
structure Bearing (net : GatewayDomain) (header : NidHeader)
    (role : GatewayRole) (up : NID) (tables : GatewayTables)
    (dht : DhtMapping) : Prop where
  unrouted : tables.rt.leases header.destNID = none
  leads : (fallbackHop role header tables dht).bind net.gatewayAt = some up

theorem getRTEntry_unrouted {nid : NID} {rt : RoutingTable}
    (unrouted : rt.leases nid = none) (now : Timeval) :
    getRTEntry nid now rt = ⟨false, rt.gatewayIP, rt⟩ := by
  have missing : hashLookup nid rt.rtable = none :=
    Option.map_eq_none_iff.mp unrouted
  simp only [getRTEntry, missing]

theorem routedHop_of_unrouted {role : GatewayRole} {header : NidHeader}
    {tables : GatewayTables}
    (unrouted : tables.rt.leases header.destNID = none) (now : Timeval)
    (threads : TransitThreads) :
    routedHop role header now (threads.output tables) =
      fallbackHop role header tables threads.dht := by
  cases role with
  | gateway =>
      simp only [routedHop, fallbackHop, TransitThreads.output,
        getRTEntry_unrouted unrouted]
  | core =>
      apply routedHop_of_unserved
      intro ip _ served
      obtain ⟨lease, held, _⟩ := served
      cases unrouted.symm.trans held

theorem GatewayTables.handle_core_pointer (config : Configuration)
    (now : Timeval) (nmsg : NidMsg) (tables : GatewayTables) (nid : NID) :
    (getRegistry nid (tables.handle .core config now nmsg).1.registry).2 =
      if nmsg.nid = nid then
        if nmsg.type = .redirectCore then nmsg.ip
        else if nmsg.type = .registry ∧ nmsg.srcNIDgw = config.nid then
          NID32.zero
        else (getRegistry nid tables.registry).2
      else (getRegistry nid tables.registry).2 := by
  let core : CoreState :=
    { nmsg := tables.nmsg
      output :=
        { buf := Buffer.zero maxBufLen
          cm := tables.cm
          queueTable := initRvsQueueTable
          rt := tables.rt
          registry := tables.registry
          dht := initDhtable } }
  exact core.control_pointer config now nmsg nid

theorem GatewayTables.handle_gatewayIP (role : GatewayRole)
    (config : Configuration) (now : Timeval) (nmsg : NidMsg)
    (tables : GatewayTables) :
    (tables.handle role config now nmsg).1.rt.gatewayIP =
      tables.rt.gatewayIP := by
  rw [handle_rt]
  split <;> rfl

namespace Bearing

variable {net : GatewayDomain} {header : NidHeader} {role : GatewayRole}
  {up : NID} {tables : GatewayTables} {dht : DhtMapping}

/-- A message which does not register the node, and does not name another
core than `up`, leaves the fallback where it leads. -/
theorem handle (bearing : Bearing net header role up tables dht)
    (config : Configuration) (now : Timeval) {nmsg : NidMsg}
    (other : registers header.destNID nmsg = false)
    (truthful : role = .core → nmsg.type = .redirectCore →
      nmsg.nid = header.destNID →
      nmsg.ip ≠ NID32.zero ∧ net.gatewayAt nmsg.ip = some up) :
    Bearing net header role up (tables.handle role config now nmsg).1 dht := by
  refine ⟨?_, ?_⟩
  · rw [GatewayTables.handle_leases_of_not_registers role config now other]
    exact bearing.unrouted
  · have leads := bearing.leads
    cases role with
    | gateway =>
        rw [fallbackHop, GatewayTables.handle_gatewayIP]
        exact leads
    | core =>
        simp only [fallbackHop, GatewayTables.handle_core_pointer] at leads ⊢
        split
        · next own =>
            split
            · next redirect =>
                obtain ⟨nonzero, named⟩ := truthful rfl redirect own
                rw [if_pos nonzero]
                exact named
            · have silent : ¬ (nmsg.type = .registry ∧
                  nmsg.srcNIDgw = config.nid) := by
                intro registry
                simp [registers, registry.1, own] at other
              rw [if_neg silent]
              exact leads
        · exact leads

theorem located (bearing : Bearing net header role up tables dht)
    {learnt : DhtMapping}
    (same : learnt.locator header.destNIDgw = dht.locator header.destNIDgw) :
    Bearing net header role up tables learnt := by
  refine ⟨bearing.unrouted, ?_⟩
  have leads := bearing.leads
  cases role with
  | gateway => exact leads
  | core =>
      rw [fallbackHop, same]
      exact leads

theorem lookup (bearing : Bearing net header role up tables dht) (nid : NID)
    (now : Timeval) :
    Bearing net header role up
      { tables with rt := (getRTEntry nid now tables.rt).rt } dht := by
  refine ⟨?_, ?_⟩
  · rcases getRTEntry_lease nid header.destNID now tables.rt with
      kept | ⟨lapsed, _⟩
    · exact kept.trans bearing.unrouted
    · exact lapsed
  · have leads := bearing.leads
    cases role with
    | gateway =>
        have same : (getRTEntry nid now tables.rt).rt.gatewayIP =
            tables.rt.gatewayIP := getRTEntry_gatewayIP nid now tables.rt
        rw [fallbackHop, same]
        exact leads
    | core => exact leads

theorem learn (bearing : Bearing net header role up tables dht) (nid : NID)
    {ip : NID32} (now : Timeval)
    (truthful : nid = header.destNIDgw → net.gatewayAt ip = some up) :
    Bearing net header role up tables (addDHTEntry nid ip now dht) := by
  refine ⟨bearing.unrouted, ?_⟩
  have leads := bearing.leads
  cases role with
  | gateway => exact leads
  | core =>
      by_cases own : nid = header.destNIDgw
      · have named := truthful own
        have nonzero : ip ≠ NID32.zero := by
          obtain ⟨known, rfl⟩ := (net.gatewayAt_eq_some_iff ip up).mp named
          exact net.locator_ne_zero up known
        simp only [fallbackHop] at leads ⊢
        split
        · next pointed =>
            rw [if_pos pointed] at leads
            exact leads
        · rw [← own, locator_addDHTEntry_self, if_pos nonzero]
          exact named
      · have located := locator_addDHTEntry_of_ne (Ne.symm own) ip now dht
        rw [fallbackHop, located]
        exact leads

end Bearing

/-- What a gateway of the chain tells another core about the node, it tells the
home core of the node: the node is at this core. -/
theorem redirected {nid : NID} {role : GatewayRole} {config : Configuration}
    {now : Timeval} {nmsg emitted : NidMsg} {tables : GatewayTables}
    (member : emitted ∈ (tables.handle role config now nmsg).2)
    (kind : emitted.type = .redirectCore) (about : emitted.nid = nid) :
    role = .core ∧ registers nid nmsg = true ∧
      emitted.destNID = nmsg.srcNIDgw ∧ emitted.ip = config.locator := by
  cases role with
  | gateway =>
      rw [GatewayTables.handle_gateway_emitted] at member
      split at member
      · cases List.mem_singleton.mp member
        cases kind
      · cases member
  | core =>
      rw [GatewayTables.handle_core_sends] at member
      split at member
      · next registry =>
          cases List.mem_singleton.mp member
          have same : nmsg.nid = nid := about
          refine ⟨rfl, ?_, rfl, rfl⟩
          simp [registers, registry.1, same]
      · cases member

theorem GatewayChain.isSome_role {net : GatewayNet} {gws : List NID}
    (chain : GatewayChain net gws) : ∀ gw ∈ gws, (net.role gw).isSome := by
  induction chain with
  | core role =>
      intro gw member
      cases List.mem_singleton.mp member
      rw [role]
      rfl
  | link role _ _ ih =>
      intro gw member
      rcases List.mem_cons.mp member with rfl | above
      · rw [role]
        rfl
      · exact ih gw above

/-- What decides the way of a packet: the node it is for, the rendezvous server
which registers the node, the chain which learns it, the gateways the packet
climbs over and where each of them leads. -/
structure Route where
  header : NidHeader
  rvs : Configuration
  ack : NidMsg
  gws : List NID
  climb : List NID
  up : NID → NID
  addressed : header.destNID = ack.nid

namespace Route

/-- What another core says about the node agrees with where its reader
leads. -/
def Truthful (net : GatewayDomain) (route : Route) (nmsg : NidMsg) : Prop :=
  nmsg.type = .redirectCore → nmsg.nid = route.header.destNID →
    nmsg.destNID ∈ route.climb → nmsg.destNID ∉ route.gws →
    nmsg.ip ≠ NID32.zero ∧ net.gatewayAt nmsg.ip = some (route.up nmsg.destNID)

/-- The node only renews its registration, and what is said about it is
true. -/
def Quiet (net : GatewayDomain) (route : Route) : TransitEvent → Prop
  | .control (.inject _ nmsg) =>
      (registers route.ack.nid nmsg = true →
        route.ack.RenewedBy route.rvs nmsg) ∧ route.Truthful net nmsg
  | .control _ => True
  | .learn _ gw nid ip =>
      nid = route.header.destNIDgw → gw ∈ route.climb → gw ∉ route.gws →
        net.gatewayAt ip = some (route.up gw)
  | .forward _ _ => True

theorem Quiet.renewsOnly {net : GatewayDomain} {route : Route}
    {event : NetEvent} (quiet : route.Quiet net (.control event)) :
    event.RenewsOnly route.rvs route.ack := by
  cases event with
  | inject => exact quiet.1
  | _ => trivial

/-- The chain has a core at its end, which the home core of the node leads to
if the packet climbs over it. -/
structure Chained (net : GatewayDomain) (route : Route) : Prop where
  chain : GatewayChain net.toGatewayNet route.gws
  distinct : route.gws.Nodup
  first : route.gws.head? = some route.rvs.nidgw
  homeward : route.ack.srcNIDgw ∈ route.climb →
    route.ack.srcNIDgw ∉ route.gws →
      route.gws.getLast? = some (route.up route.ack.srcNIDgw)

/-- The gateways of the chain renew the hop they have learnt, and the gateways
of the climb lead where they are to. -/
structure Open (net : GatewayDomain) (route : Route)
    (outputs : List (Option Handled)) (s : Transit) (clock : Nat) : Prop where
  renewing : Renewing net.toGatewayNet route.ack route.gws outputs s.network
    clock
  bearings : ∀ gw ∈ route.climb, gw ∉ route.gws → ∀ role,
    net.role gw = some role →
      Bearing net route.header role (route.up gw) (s.network.tables gw)
        (s.threads gw).dht
  truthful : ∀ nmsg ∈ s.network.inFlight, route.Truthful net nmsg

theorem Chained.last_of_core {net : GatewayDomain} {route : Route}
    (chained : Chained net route) {gw : NID} (member : gw ∈ route.gws)
    (isCore : net.role gw = some .core) : route.gws.getLast? = some gw := by
  obtain ⟨lower, upper, whole⟩ := List.append_of_mem member
  have chain := chained.chain
  rw [whole] at chain ⊢
  rcases chain.at with ⟨_, rfl⟩ | ⟨isGateway, _⟩
  · exact List.getLast?_concat
  · cases isCore.symm.trans isGateway

namespace Open

variable {net : GatewayDomain} {route : Route}
  {outputs : List (Option Handled)} {s next : Transit} {clock : Nat}

theorem tracked (way : Open net route outputs s clock) {nmsg : NidMsg}
    (member : nmsg ∈ s.network.inFlight)
    (registration : registers route.header.destNID nmsg = true) :
    nmsg.srcNIDgw = route.ack.srcNIDgw ∧ nmsg.destNID ∈ route.gws := by
  rw [route.addressed] at registration
  obtain ⟨home, risen⟩ := way.renewing.flight nmsg member registration
  exact ⟨home, risen.mem⟩

/-- What a gateway sends about the node is true when the message it handles is
on its way. -/
theorem truthful_emitted (way : Open net route outputs s clock)
    (chained : Chained net route) {taken emitted : NidMsg}
    (member : taken ∈ s.network.inFlight) {role : GatewayRole}
    (known : net.role taken.destNID = some role) {now : Timeval}
    (sent : emitted ∈ ((s.network.tables taken.destNID).handle role
      (net.config taken.destNID) now taken).2) : route.Truthful net emitted := by
  intro kind about climbed away
  obtain ⟨rfl, registration, home, locator⟩ := redirected sent kind about
  obtain ⟨same, inside⟩ := way.tracked member registration
  rw [home, same] at climbed away ⊢
  have core := chained.last_of_core inside known
  have leads := chained.homeward climbed away
  rw [core, Option.some.injEq] at leads
  have isSome : (net.role taken.destNID).isSome := known ▸ rfl
  rw [locator, ← leads]
  exact ⟨net.locator_ne_zero _ isSome,
    (net.gatewayAt_eq_some_iff _ _).mpr ⟨isSome, rfl⟩⟩

theorem control (way : Open net route outputs s clock)
    (chained : Chained net route) {event : NetEvent}
    {output : Option Handled} {network : Network}
    (order : clock ≤ event.seconds) (quiet : route.Quiet net (.control event))
    (stepped : netStep net.toGatewayNet s.network event =
      some (network, output)) :
    Open net route (outputs ++ [output]) { s with network := network }
      event.seconds := by
  refine ⟨way.renewing.step chained.chain chained.distinct chained.first order
    quiet.renewsOnly stepped, ?_, ?_⟩
  · intro gw member away role known
    have bearing := way.bearings gw member away role known
    cases event with
    | deliver now index =>
        obtain ⟨nmsg, found, none | here⟩ := netStep_deliver stepped
        · obtain ⟨_, _, rfl⟩ := none
          exact bearing
        · obtain ⟨other, tables, emitted, isRole, handled, _, rfl⟩ := here
          by_cases same : gw = nmsg.destNID
          · subst same
            cases known.symm.trans isRole
            have flying := List.mem_of_getElem? found
            have unregistered :
                registers route.header.destNID nmsg = false := by
              by_contra registration
              rw [Bool.not_eq_false] at registration
              exact away (way.tracked flying registration).2
            have kept := bearing.handle (net.config nmsg.destNID) now
              unregistered fun _ kind about =>
                way.truthful nmsg flying kind about member away
            rw [handled] at kept
            simp only [Function.update_self]
            exact kept
          · simp only [Function.update_of_ne same]
            exact bearing
    | lose =>
        cases stepped
        exact bearing
    | inject =>
        cases stepped
        exact bearing
    | lookup now looked nid =>
        cases stepped
        by_cases same : gw = looked
        · subst same
          simp only [Function.update_self]
          exact bearing.lookup nid now
        · simp only [Function.update_of_ne same]
          exact bearing
  · intro nmsg member
    cases event with
    | deliver now index =>
        obtain ⟨taken, found, none | here⟩ := netStep_deliver stepped
        · obtain ⟨_, _, rfl⟩ := none
          exact way.truthful nmsg (List.mem_of_mem_eraseIdx member)
        · obtain ⟨role, tables, emitted, known, handled, _, rfl⟩ := here
          rcases List.mem_append.mp member with before | sent
          · exact way.truthful nmsg (List.mem_of_mem_eraseIdx before)
          · have among : nmsg ∈ ((s.network.tables taken.destNID).handle role
                (net.config taken.destNID) now taken).2 :=
              (congrArg (nmsg ∈ ·.2) handled).mpr sent
            exact way.truthful_emitted chained (List.mem_of_getElem? found)
              known among
    | lose now index =>
        cases stepped
        exact way.truthful nmsg (List.mem_of_mem_eraseIdx member)
    | inject now injected =>
        cases stepped
        rcases List.mem_append.mp member with before | last
        · exact way.truthful nmsg before
        · cases List.mem_singleton.mp last
          exact quiet.2
    | lookup =>
        cases stepped
        exact way.truthful nmsg member

theorem learn (way : Open net route outputs s clock) {now : Timeval}
    (order : clock ≤ now.tvSec) {gw nid : NID} {ip : NID32}
    (quiet : route.Quiet net (.learn now gw nid ip)) :
    Open net route (outputs ++ [none])
      { s with
        threads := Function.update s.threads gw
          ((s.threads gw).learn nid ip now) } now.tvSec := by
  refine ⟨?_, ?_, way.truthful⟩
  · exact way.renewing.keep order rfl (fun _ member _ => .inl member)
      fun _ => .inl rfl
  · intro other member away role known
    have bearing := way.bearings other member away role known
    by_cases same : other = gw
    · subst same
      simp only [Function.update_self]
      exact bearing.learn nid now fun own => quiet own member away
    · simp only [Function.update_of_ne same]
      exact bearing

theorem forward (way : Open net route outputs s clock)
    (chained : Chained net route) {now : Timeval} (order : clock ≤ now.tvSec)
    {gw : NID} (foreign : route.header.destNID ≠ gw) (role : GatewayRole)
    (sender : NID32) (payload : List UInt8) :
    let relayed := relay role (net.config gw) now
      (frame route.header payload, sender) (s.network.tables gw) (s.threads gw)
    Open net route (outputs ++ [none])
      { network := { s.network with
          tables := Function.update s.network.tables gw relayed.tables }
        threads := Function.update s.threads gw relayed.threads
        packet := relayed.sent } now.tvSec := by
  have apart : route.header.destNID ≠ (net.config gw).nid := by
    rw [net.nid_config]
    exact foreign
  have spec := relay_frame apart role now payload sender
    (s.network.tables gw) (s.threads gw)
  dsimp only at spec ⊢
  -- Only the lemma about the relay is used, not its definition.
  generalize relay role (net.config gw) now (frame route.header payload, sender)
    (s.network.tables gw) (s.threads gw) = relayed at spec ⊢
  obtain ⟨tables, located, _⟩ := spec
  have quiet : route.Quiet net
      (.control (.lookup now gw route.header.destNID)) := trivial
  have inTime : clock ≤
      (NetEvent.lookup now gw route.header.destNID).seconds := order
  have looked := way.control chained inTime quiet rfl
  refine ⟨?_, ?_, looked.truthful⟩
  · rw [tables]
    exact looked.renewing
  · intro other member away isRole known
    have bearing := looked.bearings other member away isRole known
    rw [tables]
    by_cases same : other = gw
    · subst same
      simp only [Function.update_self] at bearing ⊢
      exact bearing.located (located _)
    · simp only [Function.update_of_ne same] at bearing ⊢
      exact bearing

end Open

/-- The gateway a packet visits behind `gw`, if the node is not next. -/
def next (route : Route) : NID → Option NID :=
  descent route.up route.gws

def address (net : GatewayDomain) (route : Route) (gw : NID) : NID32 :=
  match route.next gw with
  | some next => (net.config next).locator
  | none => route.ack.ip

theorem mem_hopsOf (net : GatewayDomain) {route : Route}
    (distinct : route.gws.Nodup) {gw : NID} (member : gw ∈ route.gws) :
    (gw, route.address net gw) ∈
      hopsOf net.toGatewayNet route.ack.ip route.gws := by
  obtain ⟨lower, upper, whole⟩ := List.append_of_mem member
  have hop : (gw, locatorAbove net.toGatewayNet route.ack.ip lower) ∈
      hopsOf net.toGatewayNet route.ack.ip route.gws := by
    rw [whole, hopsOf_append]
    exact List.mem_append_right _ List.mem_cons_self
  have next : route.next gw = below route.gws gw := if_pos member
  rcases List.eq_nil_or_concat lower with rfl | ⟨front, b, rfl⟩
  · have lowest : route.next gw = none := by
      rw [next, whole]
      rw [whole] at distinct
      exact below_first (List.nodup_cons.mp distinct).1
    rw [address, lowest]
    exact hop
  · rw [List.concat_eq_append] at whole hop
    have split : route.gws = front ++ b :: gw :: upper := by simp [whole]
    have lower : route.next gw = some b := by
      rw [next, split]
      rw [split] at distinct
      exact below_at distinct
    rw [locatorAbove_append] at hop
    rw [address, lower]
    exact hop

theorem routedHop_of_served_at (role : GatewayRole) {header : NidHeader}
    {now : Timeval} {s : NrOutput} {ip : NID32} (nonzero : ip ≠ NID32.zero)
    (served : s.rt.leases.Serves gatewayTimeout now.tvSec header.destNID ip) :
    routedHop role header now s = some ip := by
  cases role with
  | gateway => simp only [routedHop, getRTEntry_serves nonzero served]
  | core => exact routedHop_of_served nonzero served

def Complete (net : GatewayDomain) (route : Route)
    (outputs : List (Option Handled)) : Prop :=
  ∀ hop ∈ hopsOf net.toGatewayNet route.ack.ip route.gws,
    hop ∈ (writesFor route.ack.nid outputs).map RTWrite.hop

theorem Complete.snoc {net : GatewayDomain} {route : Route}
    {outputs : List (Option Handled)} (complete : Complete net route outputs)
    (output : Option Handled) : Complete net route (outputs ++ [output]) := by
  intro hop member
  rw [writesFor_snoc, List.map_append]
  exact List.mem_append_left _ (complete hop member)

theorem Open.sent {net : GatewayDomain} {route : Route}
    {outputs : List (Option Handled)} {s : Transit} {clock : Nat}
    (way : Open net route outputs s clock) (chained : Chained net route)
    (complete : Complete net route outputs)
    (nonzero : route.ack.ip ≠ NID32.zero) {now : Timeval}
    (order : clock ≤ now.tvSec)
    (fresh : Fresh (writesFor route.ack.nid outputs) now.tvSec)
    {gw : NID} {role : GatewayRole} (known : net.role gw = some role)
    (inside : gw ∈ route.climb ∨ gw ∈ route.gws)
    (foreign : route.header.destNID ≠ gw) (sender : NID32)
    (payload : List UInt8) :
    (relay role (net.config gw) now (frame route.header payload, sender)
      (s.network.tables gw) (s.threads gw)).sent =
        some (route.address net gw,
          frame route.header (payload.take (maxBufLen - nhLen))) := by
  have apart : route.header.destNID ≠ (net.config gw).nid := by
    rw [net.nid_config]
    exact foreign
  rw [(relay_frame apart role now payload sender (s.network.tables gw)
    (s.threads gw)).2.2]
  by_cases member : gw ∈ route.gws
  · have hop := mem_hopsOf net chained.distinct member
    have served := way.renewing.serves chained.distinct hop (complete _ hop)
      order fresh
    have locator := hopsOf_ne_zero nonzero
      (fun gw member => net.locator_ne_zero gw
        (chained.chain.isSome_role gw member)) hop
    rw [← route.addressed] at served
    rw [routedHop_of_served_at role locator served]
    rfl
  · have bearing := way.bearings gw (inside.resolve_right member) member role
      known
    obtain ⟨ip, hop, leads⟩ := Option.bind_eq_some_iff.mp bearing.leads
    have upward : route.next gw = some (route.up gw) :=
      descent_of_not_mem member
    have located := ((net.gatewayAt_eq_some_iff _ _).mp leads).2
    rw [routedHop_of_unrouted bearing.unrouted, hop, address, upward]
    simp only [Option.map_some, located]

/-- The locators a packet is sent to on its way over `path`, from the one its
sender chooses to the node. -/
def stations (net : GatewayDomain) (route : Route) (path : List NID) :
    List NID32 :=
  path.map (fun gw => (net.config gw).locator) ++ [route.ack.ip]

/-- What is left of the payload: the first relay cuts what its buffer does not
hold. -/
def cargo (payload : List UInt8) (hops : Nat) : List UInt8 :=
  if hops = 0 then payload else payload.take (maxBufLen - nhLen)

theorem cargo_take (payload : List UInt8) (hops : Nat) :
    (cargo payload hops).take (maxBufLen - nhLen) =
      cargo payload (hops + 1) := by
  simp only [cargo, Nat.add_one_ne_zero, if_false]
  split
  · rfl
  · rw [List.take_take, Nat.min_self]

theorem station_next {net : GatewayDomain} {route : Route} {path : List NID}
    {entry gw : NID} {fuel index : Nat}
    (walked : walk route.next fuel entry = some path)
    (here : path[index]? = some gw) :
    (route.stations net path)[index + 1]? = some (route.address net gw) := by
  have next := next_of_walk walked here
  have inside : index < path.length := (List.getElem?_eq_some_iff.mp here).1
  rw [address, next]
  cases after : path[index + 1]? with
  | some later =>
      have below := (List.getElem?_eq_some_iff.mp after).1
      rw [stations, List.getElem?_append_left (by simpa using below),
        List.getElem?_map, after]
      rfl
  | none =>
      have last : index + 1 = path.length := by
        have beyond := List.getElem?_eq_none_iff.mp after
        omega
      rw [stations, List.getElem?_append_right (by simp [last])]
      simp [last]

/-- The gateway at a station of the way, as long as the packet is not at the
node. -/
theorem gateway_of_station {net : GatewayDomain} {route : Route}
    {path : List NID} {index : Nat} {ip : NID32} {gw : NID}
    (node : net.gatewayAt route.ack.ip = none)
    (known : ∀ gw ∈ path, (net.role gw).isSome)
    (station : (route.stations net path)[index]? = some ip)
    (here : net.gatewayAt ip = some gw) : path[index]? = some gw := by
  rw [stations] at station
  by_cases inside : index < path.length
  · rw [List.getElem?_append_left (by simpa using inside), List.getElem?_map,
      Option.map_eq_some_iff] at station
    obtain ⟨passed, at_, rfl⟩ := station
    have own := (net.gatewayAt_eq_some_iff (net.config passed).locator passed).mpr
      ⟨known passed (List.mem_of_getElem? at_), rfl⟩
    cases own.symm.trans here
    exact at_
  · rw [List.getElem?_append_right (by simpa using inside)] at station
    have last := List.mem_singleton.mp (List.mem_of_getElem? station)
    rw [last, node] at here
    cases here

def Holds (net : GatewayDomain) (route : Route) (path : List NID)
    (payload : List UInt8) (hops : Nat) (s : Transit) : Prop :=
  ∃ ip, (route.stations net path)[hops]? = some ip ∧
    s.packet = some (ip, frame route.header (cargo payload hops))

end Route

def relays (events : List TransitEvent) : Nat :=
  events.countP TransitEvent.isForward

theorem relays_snoc (events : List TransitEvent) (event : TransitEvent) :
    relays (events ++ [event]) =
      relays events + if event.isForward then 1 else 0 := by
  rw [relays, List.countP_append, List.countP_singleton]
  rfl

theorem transitStep_control {net : GatewayDomain} {s next : Transit}
    {event : NetEvent} {output : Option Handled}
    (stepped : transitStep net s (.control event) = some (next, output)) :
    ∃ network, netStep net.toGatewayNet s.network event =
        some (network, output) ∧ next = { s with network := network } := by
  obtain ⟨⟨network, handled⟩, inner, outer⟩ := Option.bind_eq_some_iff.mp stepped
  cases outer
  exact ⟨network, inner, rfl⟩

theorem transitStep_forward {net : GatewayDomain} {s next : Transit}
    {now : Timeval} {sender : NID32} {output : Option Handled}
    (stepped : transitStep net s (.forward now sender) = some (next, output)) :
    ∃ ip datagram gw role, s.packet = some (ip, datagram) ∧
      net.gatewayAt ip = some gw ∧ net.role gw = some role ∧
      output = none ∧
      let relayed := relay role (net.config gw) now (datagram, sender)
        (s.network.tables gw) (s.threads gw)
      next =
        { network := { s.network with
            tables := Function.update s.network.tables gw relayed.tables }
          threads := Function.update s.threads gw relayed.threads
          packet := relayed.sent } := by
  obtain ⟨⟨ip, datagram⟩, held, stepped⟩ := Option.bind_eq_some_iff.mp stepped
  obtain ⟨gw, here, stepped⟩ := Option.bind_eq_some_iff.mp stepped
  obtain ⟨role, known, stepped⟩ := Option.bind_eq_some_iff.mp stepped
  cases stepped
  exact ⟨ip, datagram, gw, role, held, here, known, rfl, rfl⟩

theorem exists_forward {net : GatewayDomain} {s : Transit} {ip : NID32}
    {datagram : List UInt8} {gw : NID} {role : GatewayRole}
    (held : s.packet = some (ip, datagram))
    (here : net.gatewayAt ip = some gw) (known : net.role gw = some role)
    (now : Timeval) (sender : NID32) :
    ∃ next, transitStep net s (.forward now sender) = some (next, none) := by
  simp only [transitStep, held, here, known, Option.bind_eq_bind,
    Option.bind_some, Option.pure_def, Option.some.injEq, Prod.mk.injEq,
    and_true]
  exact ⟨_, rfl⟩

namespace Route

variable {net : GatewayDomain} {route : Route}
  {before outputs : List (Option Handled)} {path : List NID} {entry : NID}
  {fuel : Nat} {payload : List UInt8}

/-- The packet is not for a gateway, and walks over gateways only. -/
structure Travels (net : GatewayDomain) (route : Route) (path : List NID)
    (entry : NID) (fuel : Nat) : Prop where
  nonzero : route.ack.ip ≠ NID32.zero
  node : net.gatewayAt route.ack.ip = none
  foreign : net.role route.header.destNID = none
  walked : walk route.next fuel entry = some path
  inside : ∀ gw ∈ path, gw ∈ route.climb ∨ gw ∈ route.gws
  known : ∀ gw ∈ path, (net.role gw).isSome

/-- Whatever happens next, the way stays open, and only a relay moves the
packet, to its next station. -/
theorem Open.step {s next : Transit} {clock hops : Nat}
    {event : TransitEvent} {output : Option Handled}
    (way : Open net route outputs s clock)
    (held : Holds net route path payload hops s)
    (chained : Chained net route) (travels : Travels net route path entry fuel)
    (complete : Complete net route outputs)
    (order : clock ≤ event.seconds) (quiet : route.Quiet net event)
    (fresh : ∀ now sender, event = .forward now sender →
      Fresh (writesFor route.ack.nid outputs) now.tvSec)
    (stepped : transitStep net s event = some (next, output)) :
    Open net route (outputs ++ [output]) next event.seconds ∧
      Holds net route path payload
        (hops + if event.isForward then 1 else 0) next := by
  obtain ⟨ip, station, packet⟩ := held
  cases event with
  | control event =>
      obtain ⟨network, inner, rfl⟩ := transitStep_control stepped
      exact ⟨way.control chained order quiet inner, ip, station, packet⟩
  | learn now gw nid answer =>
      cases stepped
      exact ⟨way.learn order quiet, ip, station, packet⟩
  | forward now sender =>
      obtain ⟨at_, datagram, gw, role, same, here, isRole, rfl, rfl⟩ :=
        transitStep_forward stepped
      cases packet.symm.trans same
      have passed := gateway_of_station travels.node travels.known station here
      have apart : route.header.destNID ≠ gw := by
        intro own
        have none := travels.foreign
        rw [own, isRole] at none
        cases none
      have sent := way.sent chained complete travels.nonzero order
        (fresh now sender rfl) isRole
        (travels.inside gw (List.mem_of_getElem? passed)) apart sender
        (cargo payload hops)
      refine ⟨way.forward chained order apart role sender _,
        route.address net gw, station_next travels.walked passed, ?_⟩
      rw [cargo_take] at sent
      dsimp only
      exact sent

/-- The packet is where its relays have brought it, after any run in which
each relay finds the routes of the chain fresh. -/
theorem Open.run {start s : Transit} {began clock : Nat}
    {events : List TransitEvent}
    (way : Open net route before start began)
    (held : Holds net route path payload 0 start)
    (chained : Chained net route) (travels : Travels net route path entry fuel)
    (complete : Complete net route before)
    (quiet : ∀ event ∈ events, route.Quiet net event)
    (fresh : ∀ n now sender, events[n]? = some (.forward now sender) →
      Fresh (writesFor route.ack.nid (before ++ outputs.take n)) now.tvSec)
    (run : (transitMachine net).Run (start, began) events outputs (s, clock)) :
    Open net route (before ++ outputs) s clock ∧
      Complete net route (before ++ outputs) ∧
      Holds net route path payload (relays events) s := by
  generalize reached : (s, clock) = final at run
  induction run generalizing s clock with
  | nil =>
      cases reached
      rw [List.append_nil]
      exact ⟨way, complete, held⟩
  | @snoc events outputs state next event output earlier last ih =>
      subst reached
      obtain ⟨middle, time⟩ := state
      obtain ⟨order, stepped, rfl⟩ := Machine.timed_step_iff.mp last
      have even := earlier.length_eq
      obtain ⟨opened, written, holds⟩ := ih (fun event member =>
        quiet event (List.mem_append_left _ member)) (by
          intro n now sender here
          have early := (List.getElem?_eq_some_iff.mp here).1
          have later := fresh n now sender
            (by rw [List.getElem?_append_left early, here])
          rwa [List.take_append_of_le_length (by omega)] at later) rfl
      have current : ∀ now sender, event = .forward now sender →
          Fresh (writesFor route.ack.nid (before ++ outputs)) now.tvSec := by
        intro now sender same
        have here := fresh events.length now sender (by simp [same])
        rwa [even, List.take_left] at here
      rw [relays_snoc, ← List.append_assoc]
      obtain ⟨further, arrived⟩ := opened.step holds chained travels written
        order (quiet event (List.mem_append_right _ List.mem_cons_self))
        current stepped
      exact ⟨further, written.snoc output, arrived⟩

end Route

/-- Once a registration of a node has reached its core, a packet for the node
which enters anywhere below that core, or at a gateway whose fallbacks lead
there, reaches the node over a way that is fixed when it enters.  It visits no
gateway twice, and no order of the control messages, among them the renewals
of the registration, the other packets and its own relays takes it off its way
or stops it, if each relay finds the routes of the chain fresh. -/
theorem registered_node_reached {net : GatewayDomain} {rvs : Configuration}
    {ack : NidMsg} {gws : List NID} {core : NID} {start s : Network}
    {began clock : Nat} {events : List NetEvent}
    {outputs : List (Option Handled)}
    (chain : GatewayChain net.toGatewayNet gws) (distinct : gws.Nodup)
    (nonzero : ack.ip ≠ NID32.zero)
    (first : gws.head? = some rvs.nidgw) (last : gws.getLast? = some core)
    (renewable : ∀ gw ∈ gws, ∀ lease,
      (start.tables gw).rt.leases ack.nid = some lease → ¬ lease.Permanent)
    (sent : ∀ nmsg ∈ start.inFlight, registers ack.nid nmsg = true →
      ack.RenewedBy rvs nmsg)
    (renews : ∀ event ∈ events, event.RenewsOnly rvs ack)
    (run : (netMachine net.toGatewayNet).Run (start, began) events outputs
      (s, clock))
    (arrived : core ∈ (writesFor ack.nid outputs).map RTWrite.gw)
    (node : net.gatewayAt ack.ip = none) (host : net.role ack.nid = none)
    {header : NidHeader} (addressed : header.destNID = ack.nid)
    {entry : NID} {climb : List NID} {up : NID → NID}
    (ascends : List.IsChain (fun a b => up a = b) (entry :: climb))
    (top : (entry :: climb).getLast? = some core)
    (gateways : ∀ gw ∈ entry :: climb, (net.role gw).isSome)
    (homeward : ack.srcNIDgw ∈ entry :: climb → ack.srcNIDgw ∉ gws →
      up ack.srcNIDgw = core)
    (unknown : ∀ gw ∈ entry :: climb, gw ∉ gws →
      (start.tables gw).rt.leases ack.nid = none) :
    let route : Route := ⟨header, rvs, ack, gws, entry :: climb, up, addressed⟩
    ∃ way : List NID, way.head? = some entry ∧
      way.getLast? = some rvs.nidgw ∧ way.Nodup ∧
      (∀ gw ∈ way, gw ∈ entry :: climb ∨ gw ∈ gws) ∧
      ∀ (t u : Transit) (later : Nat) (payload : List UInt8)
        (traffic : List TransitEvent) (handled : List (Option Handled)),
        t.network = s →
        (∀ gw ∈ entry :: climb, gw ∉ gws → ∀ role, net.role gw = some role →
          (fallbackHop role header (s.tables gw) (t.threads gw).dht).bind
            net.gatewayAt = some (up gw)) →
        (∀ nmsg ∈ s.inFlight, route.Truthful net nmsg) →
        t.packet = some ((net.config entry).locator, frame header payload) →
        (∀ event ∈ traffic, route.Quiet net event) →
        (transitMachine net).Run (t, clock) traffic handled (u, later) →
        (∀ n now sender, traffic[n]? = some (.forward now sender) →
          Fresh (writesFor ack.nid (outputs ++ handled.take n)) now.tvSec) →
        relays traffic ≤ way.length ∧
          route.Holds net way payload (relays traffic) u ∧
          (relays traffic < way.length → ∀ now sender, later ≤ now.tvSec →
            ∃ next, (transitMachine net).step (u, later)
              (.forward now sender) = some (next, none)) := by
  intro route
  have initial : Renewing net.toGatewayNet ack gws [] start began := by
    refine ⟨?_, ?_, ?_, ?_⟩
    · intro nmsg member tracked
      have renewed := sent nmsg member tracked
      obtain ⟨_, _, home, rfl⟩ := id renewed
      exact ⟨home, .of_renewedBy renewed first⟩
    · intro write member
      cases member
    · intro write member
      cases member
    · intro hop member lease held permanent
      have inside : hop.1 ∈ gws := by
        rw [← map_fst_hopsOf net.toGatewayNet ack.ip gws]
        exact List.mem_map_of_mem member
      exact (renewable hop.1 inside lease held permanent).elim
  have renewing := Renewing.of_run chain distinct first initial renews run
  have chained : Route.Chained net route := by
    refine ⟨chain, distinct, first, ?_⟩
    intro climbed away
    have leads := homeward climbed away
    change gws.getLast? = some (up ack.srcNIDgw)
    rw [leads, last]
  have meets : core ∈ gws := List.mem_of_getLast? last
  obtain ⟨way, walked, ends, inside⟩ :=
    walk_descent up first distinct ascends top meets
  have known : ∀ gw ∈ way, (net.role gw).isSome := by
    intro gw member
    rcases inside gw member with climbed | learnt
    · exact gateways gw climbed
    · exact chain.isSome_role gw learnt
  obtain ⟨rest, begins⟩ := walk_head walked
  refine ⟨way, by rw [begins]; rfl, ends, nodup_of_walk walked, inside, ?_⟩
  intro t u later payload traffic handled network leads truthful packet quiet
    carried fresh
  subst network
  have opened : Route.Open net route outputs t clock := by
    refine ⟨renewing, ?_, truthful⟩
    intro gw member away role isRole
    refine ⟨?_, leads gw member away role isRole⟩
    rw [addressed]
    exact Renewing.unrouted_of_run chain distinct first initial renews run away
      (unknown gw member away)
  have entered : Route.Holds net route way payload 0 t := by
    refine ⟨(net.config entry).locator, ?_, packet⟩
    rw [begins]
    rfl
  have isNode : net.role route.header.destNID = none := by
    rw [route.addressed]
    exact host
  have travels : Route.Travels net route way entry _ :=
    ⟨nonzero, node, isNode, walked, inside, known⟩
  have complete : Route.Complete net route outputs :=
    renewing.complete distinct last arrived
  obtain ⟨_, _, holds⟩ := opened.run entered chained travels complete quiet
    fresh carried
  refine ⟨?_, holds, ?_⟩
  · obtain ⟨ip, station, _⟩ := holds
    have below := (List.getElem?_eq_some_iff.mp station).1
    rw [Route.stations, List.length_append, List.length_map,
      List.length_singleton] at below
    omega
  · intro before now sender order
    obtain ⟨ip, station, held⟩ := holds
    rw [Route.stations, List.getElem?_append_left (by simpa using before),
      List.getElem?_map, List.getElem?_eq_getElem before] at station
    cases station
    have some_role := known _ (List.getElem_mem before)
    obtain ⟨role, isRole⟩ := Option.isSome_iff_exists.mp some_role
    have here := (net.gatewayAt_eq_some_iff _ _).mpr ⟨some_role, rfl⟩
    obtain ⟨next, moved⟩ := exists_forward held here isRole now sender
    exact ⟨_, Machine.timed_step_iff.mpr ⟨order, moved, rfl⟩⟩

section Example

private def lowest : NID := NID.ofNat 11

private def topmost : NID := NID.ofNat 12

private def homeOfHost : NID := NID.ofNat 13

private def aside : NID := NID.ofNat 14

private def host : NID := NID.ofNat 5

private def places : List NID := [lowest, topmost, homeOfHost, aside]

private def roleOf (gw : NID) : Option GatewayRole :=
  if gw = lowest ∨ gw = aside then some .gateway
  else if gw = topmost ∨ gw = homeOfHost then some .core
  else none

private def locatorOf (gw : NID) : NID32 :=
  if gw = lowest then NID32.ofNat 110
  else if gw = topmost then NID32.ofNat 120
  else if gw = homeOfHost then NID32.ofNat 130
  else NID32.ofNat 140

private theorem isSome_roleOf {gw : NID} :
    (roleOf gw).isSome ↔ gw ∈ places := by
  simp only [roleOf, places, List.mem_cons, List.not_mem_nil, or_false]
  split
  · next below => simpa using by tauto
  · split
    · next core => simpa using by tauto
    · next below core => simpa using by tauto

/-- The host has moved below `topmost`, away from its home core; `aside` is
another gateway below the home core. -/
private def tree : GatewayDomain :=
  { role := roleOf
    config := fun gw =>
      { type := if gw = topmost ∨ gw = homeOfHost then .core else .gateway
        nid := gw
        nidgw := topmost
        nidrvs := NID.ofNat 3
        nidcore := topmost
        nidcorehome := topmost
        niddns := NID.ofNat 4
        gatewayIP := NID32.ofNat (if gw = aside then 130 else 120)
        rvsIP := NID32.ofNat 30
        locator := locatorOf gw }
    nid_config := fun _ => rfl
    gatewayAt := fun ip => places.find? fun gw => locatorOf gw = ip
    gatewayAt_eq_some_iff := by
      intro ip gw
      change _ ↔ (roleOf gw).isSome ∧ locatorOf gw = ip
      rw [isSome_roleOf]
      exact find?_address_iff (by decide +kernel)
    locator_ne_zero := by
      intro gw known
      have nonzero : (places.all fun gw =>
          decide (locatorOf gw ≠ NID32.zero)) = true := by
        decide +kernel
      have here := List.all_eq_true.mp nonzero gw (isSome_roleOf.mp known)
      exact of_decide_eq_true here }

private def server : Configuration :=
  { tree.config (NID.ofNat 3) with type := .rvs, nidgw := lowest }

private def hostAck : NidMsg :=
  { type := .rvsAck
    srcNID := NID.ofNat 3
    destNID := host
    srcNIDgw := homeOfHost
    destNIDgw := NID.zero
    nid := host
    ip := NID32.ofNat 50 }

private def untaught : Network :=
  { tables := fun gw =>
      { nmsg := Buffer.zero nmsgLen
        cm := initConnMapper (tree.config gw)
        rt := initRtable (tree.config gw)
        registry := initRegistryTable }
    inFlight := [threadRvs2gw server hostAck] }

/-- The registration passes both gateways of the chain, and the home core
learns of it. -/
private def lessons : List NetEvent :=
  [.deliver (.ofSec 100) 0, .deliver (.ofSec 101) 0, .deliver (.ofSec 101) 0]

private def toHost : NidHeader :=
  { type := .data
    srcNID := NID.ofNat 6
    destNID := host
    srcNIDgw := topmost
    destNIDgw := homeOfHost }

private def entered (network : Network) : Transit :=
  { network := network
    threads := fun _ =>
      { input := ⟨Buffer.zero maxBufLen, NID32.zero⟩
        buf := Buffer.zero maxBufLen
        queueTable := initRvsQueueTable
        dht := initDhtable }
    packet := some (NID32.ofNat 140, frame toHost [1, 2]) }

private def upTree (gw : NID) : NID := if gw = aside then homeOfHost else topmost

private def asideRoute : Route :=
  ⟨toHost, server, hostAck, [lowest, topmost], [aside, homeOfHost, topmost],
    upTree, rfl⟩

/-- The host renews its registration while the packet is on its way, and the
routes it first wrote are over before the packet arrives. -/
private def renewedTraffic : List TransitEvent :=
  [.forward (.ofSec 102) (NID32.ofNat 60),
    .control (.inject (.ofSec 103) (threadRvs2gw server hostAck)),
    .learn (.ofSec 103) homeOfHost homeOfHost (NID32.ofNat 120),
    .control (.deliver (.ofSec 104) 0),
    .forward (.ofSec 105) (NID32.ofNat 140),
    .control (.deliver (.ofSec 106) 0),
    .control (.deliver (.ofSec 106) 0),
    .forward (.ofSec 112) (NID32.ofNat 130),
    .forward (.ofSec 113) (NID32.ofNat 120)]

private theorem quiet_renewed :
    ∀ event ∈ renewedTraffic, asideRoute.Quiet tree event := by
  intro event member
  simp only [renewedTraffic, List.mem_cons, List.not_mem_nil, or_false]
    at member
  rcases member with rfl | rfl | rfl | rfl | rfl | rfl | rfl | rfl | rfl
  case inr.inl =>
    refine ⟨fun _ => ⟨hostAck, rfl, rfl, rfl⟩, ?_⟩
    intro redirect
    cases redirect
  case inr.inr.inl =>
    intro _ _ _
    decide +kernel
  all_goals trivial

private def freshAt (outputs handled : List (Option Handled)) (n : Nat) :
    Bool :=
  match renewedTraffic[n]? with
  | some (.forward now _) =>
      decide (Fresh (writesFor host (outputs ++ handled.take n)) now.tvSec)
  | _ => true

/-- Where the fallback of a gateway leads after the lessons. -/
private def fallback (role : GatewayRole) (s : Network) (gw : NID) :
    Option NID :=
  (fallbackHop role toHost (s.tables gw) ((entered s).threads gw).dht).bind
    tree.gatewayAt

private theorem renewed_run : ∃ outputs s handled u,
    (netMachine tree.toGatewayNet).Run (untaught, 100) lessons outputs
        (s, 101) ∧
      (transitMachine tree).Run (entered s, 101) renewedTraffic handled
        (u, 113) ∧
      topmost ∈ (writesFor host outputs).map RTWrite.gw ∧
      s.inFlight = [] ∧
      fallback .gateway s aside = some homeOfHost ∧
      fallback .core s homeOfHost = some topmost ∧
      ¬ Fresh (writesFor host outputs) 113 ∧
      ∀ n < 9, freshAt outputs handled n = true := by
  have evaluated : ((netMachine tree.toGatewayNet).exec (untaught, 100)
      lessons).any (fun first => decide (first.1.2 = 101 ∧
        topmost ∈ (writesFor host first.2).map RTWrite.gw ∧
        first.1.1.inFlight.isEmpty = true ∧
        fallback .gateway first.1.1 aside = some homeOfHost ∧
        fallback .core first.1.1 homeOfHost = some topmost ∧
        ¬ Fresh (writesFor host first.2) 113) &&
      ((transitMachine tree).exec (entered first.1.1, 101)
        renewedTraffic).any fun result => decide (result.1.2 = 113 ∧
          ∀ n < 9, freshAt first.2 result.2 n = true)) = true := by
    decide +kernel
  obtain ⟨outputs, ⟨s, clock⟩, first, checked⟩ :=
    Machine.exists_run_of_exec evaluated
  obtain ⟨checked, found⟩ := Bool.and_eq_true_iff.mp checked
  obtain ⟨early, arrived, empty, aside, home, lapsed⟩ :=
    of_decide_eq_true checked
  obtain ⟨handled, ⟨u, later⟩, rest, checked⟩ :=
    Machine.exists_run_of_exec found
  obtain ⟨late, fresh⟩ := of_decide_eq_true checked
  subst early late
  exact ⟨outputs, s, handled, u, first, rest, arrived,
    List.isEmpty_iff.mp empty, aside, home, lapsed, fresh⟩

/-- A packet which enters below the home core of the host passes that core,
the core the host has moved below and its gateway there.  The host renews its
registration meanwhile, and the routes written first are over when the packet
arrives. -/
theorem registered_node_reached_aside : ∃ outputs s handled u,
    (netMachine tree.toGatewayNet).Run (untaught, 100) lessons outputs
        (s, 101) ∧
      topmost ∈ (writesFor host outputs).map RTWrite.gw ∧
      (transitMachine tree).Run (entered s, 101) renewedTraffic handled
        (u, 113) ∧
      (∀ event ∈ renewedTraffic, asideRoute.Quiet tree event) ∧
      (∀ n now sender, renewedTraffic[n]? = some (.forward now sender) →
        Fresh (writesFor host (outputs ++ handled.take n)) now.tvSec) ∧
      ¬ Fresh (writesFor host outputs) 113 ∧
      u.packet = some (NID32.ofNat 50, frame toHost [1, 2]) := by
  obtain ⟨outputs, s, handled, u, first, run, arrived, empty, fromAside,
    fromHome, lapsed, checked⟩ := renewed_run
  have fresh : ∀ n now sender,
      renewedTraffic[n]? = some (.forward now sender) →
        Fresh (writesFor host (outputs ++ handled.take n)) now.tvSec := by
    intro n now sender here
    have inside := (List.getElem?_eq_some_iff.mp here).1
    have holds := checked n inside
    rw [freshAt, here] at holds
    exact of_decide_eq_true holds
  refine ⟨outputs, s, handled, u, first, arrived, run, quiet_renewed, fresh,
    lapsed, ?_⟩
  have chain : GatewayChain tree.toGatewayNet [lowest, topmost] :=
    .link (by decide +kernel) rfl (.core (by decide +kernel))
  have unknown : ∀ gw, (untaught.tables gw).rt.leases hostAck.nid = none :=
    fun _ => congrFun (leases_empty 30 thirty_pos) host
  have renewable : ∀ gw ∈ [lowest, topmost], ∀ lease,
      (untaught.tables gw).rt.leases hostAck.nid = some lease →
        ¬ lease.Permanent := by
    intro gw _ lease held
    cases (unknown gw).symm.trans held
  have sent : ∀ nmsg ∈ untaught.inFlight,
      registers hostAck.nid nmsg = true → hostAck.RenewedBy server nmsg := by
    intro nmsg member _
    cases List.mem_singleton.mp member
    exact ⟨hostAck, rfl, rfl, rfl⟩
  have renews : ∀ event ∈ lessons, event.RenewsOnly server hostAck := by
    simp only [lessons, List.forall_mem_cons]
    exact ⟨trivial, trivial, trivial, fun _ absent => by cases absent⟩
  have ascends : List.IsChain (fun a b => upTree a = b)
      [aside, homeOfHost, topmost] := by
    decide +kernel
  have gateways : ∀ gw ∈ [aside, homeOfHost, topmost],
      (tree.role gw).isSome := by
    simp only [List.forall_mem_cons]
    exact ⟨by decide +kernel, by decide +kernel, by decide +kernel,
      fun _ absent => by cases absent⟩
  have lowestFirst : [lowest, topmost].head? = some server.nidgw := rfl
  obtain ⟨way, _, _, distinct, inside, reaches⟩ :=
    registered_node_reached chain (by decide +kernel)
      (by decide +kernel : hostAck.ip ≠ NID32.zero) lowestFirst rfl renewable
      sent renews first arrived (by decide +kernel) (by decide +kernel)
      (rfl : toHost.destNID = hostAck.nid) ascends rfl gateways
      (fun _ _ => by decide +kernel) (fun gw _ _ => unknown gw)
  have leads : ∀ gw ∈ [aside, homeOfHost, topmost], gw ∉ [lowest, topmost] →
      ∀ role, tree.role gw = some role →
        fallback role s gw = some (upTree gw) := by
    simp only [List.forall_mem_cons]
    refine ⟨fun _ role known => ?_, fun _ role known => ?_, fun away => ?_,
      fun _ absent => by cases absent⟩
    · cases known.symm.trans
        (by decide +kernel : tree.role aside = some .gateway)
      exact fromAside
    · cases known.symm.trans
        (by decide +kernel : tree.role homeOfHost = some .core)
      exact fromHome
    · exact (away (by decide +kernel)).elim
  have truthful : ∀ nmsg ∈ s.inFlight, asideRoute.Truthful tree nmsg := by
    intro nmsg member
    rw [empty] at member
    cases member
  obtain ⟨short, ⟨ip, station, packet⟩, _⟩ :=
    reaches (entered s) u 113 [1, 2] renewedTraffic handled rfl leads truthful
      rfl quiet_renewed run fresh
  have subset : way ⊆ [aside, homeOfHost, topmost, lowest] := by
    intro gw member
    rcases inside gw member with climbed | learnt
    · exact List.mem_append_left [lowest] climbed
    · simp only [List.mem_cons, List.not_mem_nil, or_false] at learnt ⊢
      rcases learnt with rfl | rfl
      · exact .inr (.inr (.inr rfl))
      · exact .inr (.inr (.inl rfl))
  have long : way.length = 4 :=
    Nat.le_antisymm (distinct.length_le_of_subset subset) short
  have last : (asideRoute.stations tree way)[4]? = some (NID32.ofNat 50) := by
    rw [Route.stations, List.getElem?_append_right (by simp [long])]
    simp [long]
    rfl
  cases station.symm.trans last
  exact packet

end Example

end NodeIdentity
