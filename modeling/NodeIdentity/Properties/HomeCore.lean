import NodeIdentity.Library.History
import NodeIdentity.Properties.NextHop
import NodeIdentity.Properties.Registration

/-!
# What a core gateway knows about a node

A core gateway hears of a node in two ways: a registration from its own tree
goes to the routing table and ages there, the word of another core goes to the
registry and stays.  A packet is routed by the table first.  The last
registration and the last message of either kind are read off the events here,
which gives the exact condition for a packet to follow the newest one.
-/

namespace NodeIdentity

open NodeIdentity.Library

/-- The control thread and the output thread of a core gateway, with the
tables both reach. -/
structure CoreState where
  nmsg : NmsgBuffer
  output : NrOutput

namespace CoreState

/-- Nothing has been handled and every table is empty. -/
def initial (config : Configuration) : CoreState :=
  { nmsg := Buffer.zero nmsgLen
    output :=
      { buf := Buffer.zero maxBufLen
        cm := initConnMapper config
        queueTable := initRvsQueueTable
        rt := initRtable config
        registry := initRegistryTable
        dht := initDhtable } }

def tables (s : CoreState) : GatewayTables :=
  ⟨s.nmsg, s.output.cm, s.output.rt, s.output.registry⟩

/-- A control message is handled, with the messages this sends. -/
def control (config : Configuration) (now : Timeval) (nmsg : NidMsg)
    (s : CoreState) : CoreState × List NidMsg :=
  let (tables, emitted) := s.tables.handle .core config now nmsg
  (⟨tables.nmsg,
    { s.output with
      cm := tables.cm
      rt := tables.rt
      registry := tables.registry }⟩, emitted)

/-- A packet is routed, with the datagram this sends. -/
def packet (source : NrSource) (now : Timeval) (datagram : List UInt8)
    (s : CoreState) : CoreState × Option (NID32 × List UInt8) :=
  let turn := threadNrOutputCore source now datagram s.output
  ({ s with output := turn.state }, turn.sent)

def learn (now : Timeval) (nid : NID) (ip : NID32) (s : CoreState) : CoreState :=
  { s with output :=
    { s.output with dht := addDHTEntry nid ip now s.output.dht } }

/-- The locator the registry has for a node, zero if it has none. -/
def pointer (s : CoreState) (nid : NID) : NID32 :=
  (getRegistry nid s.output.registry).2

end CoreState

inductive CoreEvent where
  | control (now : Timeval) (nmsg : NidMsg)
  | packet (now : Timeval) (source : NrSource) (datagram : List UInt8)
  | learn (now : Timeval) (nid : NID) (ip : NID32)

namespace CoreEvent

def seconds : CoreEvent → Nat
  | control now _ => now.tvSec
  | packet now _ _ => now.tvSec
  | learn now _ _ => now.tvSec

def apply (config : Configuration) (s : CoreState) :
    CoreEvent → CoreState × Option (NID32 × List UInt8)
  | control now nmsg => ((s.control config now nmsg).1, none)
  | packet now source datagram => s.packet source now datagram
  | learn now nid ip => (s.learn now nid ip, none)

end CoreEvent

/-- Runs of a core gateway at a clock which does not go back. -/
def coreMachine (config : Configuration) :
    Machine (CoreState × Nat) CoreEvent (Option (NID32 × List UInt8)) :=
  (Machine.total (CoreEvent.apply config)).timed CoreEvent.seconds

namespace CoreState

theorem initial_noRoute (config : Configuration) (nid : NID) :
    (initial config).output.rt.leases nid = none :=
  congrFun (leases_empty 30 thirty_pos) nid

variable (config : Configuration) (now : Timeval) (nmsg : NidMsg)
  (s : CoreState)

theorem control_rt : (s.control config now nmsg).1.output.rt =
    if nmsg.type = .registry then newRTEntry nmsg.nid nmsg.ip now s.output.rt
    else s.output.rt :=
  GatewayTables.handle_rt .core config now nmsg s.tables

theorem control_emitted : (s.control config now nmsg).2 =
    if nmsg.type = .registry ∧ nmsg.srcNIDgw ≠ config.nid then
      [redirectCoreMsg config nmsg]
    else [] :=
  s.tables.handle_core_sends config now nmsg

/-- The registry follows the messages of other cores, and forgets what they
said when the node registers in the tree of its home core. -/
theorem control_pointer (nid : NID) :
    (s.control config now nmsg).1.pointer nid =
      if nmsg.nid = nid then
        if nmsg.type = .redirectCore then nmsg.ip
        else if nmsg.type = .registry ∧ nmsg.srcNIDgw = config.nid then
          NID32.zero
        else s.pointer nid
      else s.pointer nid := by
  have rewritten : ∀ ip, (getRegistry nid
      (addRegistry nmsg.nid ip s.output.registry)).2 =
        if nmsg.nid = nid then ip else s.pointer nid := by
    intro ip
    by_cases own : nmsg.nid = nid
    · subst own
      rw [if_pos rfl, getRegistry_addRegistry_self]
    · rw [if_neg own, getRegistry_addRegistry_of_ne (Ne.symm own)]
      rfl
  simp only [control, tables, GatewayTables.handle, threadControlGwCore,
    nmsg_receive_full]
  cases kind : nmsg.type with
  | redirectCore =>
      simp only [pointer, reduceCtorEq, if_true]
      exact rewritten nmsg.ip
  | registry =>
      simp only [pointer, threadGwCoreListener, reduceCtorEq, if_false, true_and]
      by_cases home : nmsg.srcNIDgw = config.nid
      · simp only [if_pos home]
        exact rewritten NID32.zero
      · simp only [if_neg home, ite_self]
  | _ => simp only [pointer, reduceCtorEq, if_false, false_and, ite_self]

/-- Routing a packet only looks up: nothing, a route, or a route and a core
gateway in the DHT table. -/
theorem packet_tables (source : NrSource) (datagram : List UInt8) :
    let output := (s.packet source now datagram).1.output
    output.registry = s.output.registry ∧
      (output.rt = s.output.rt ∨
        ∃ nid, output.rt = (getRTEntry nid now s.output.rt).rt) ∧
      (output.dht = s.output.dht ∨
        ∃ nid, output.dht = (getDHTEntry nid now s.output.dht).dht) := by
  have routed : ∀ request header packet before,
      let after := (routeCore request now header packet before).state
      after.registry = before.registry ∧
        (after.rt = before.rt ∨
          ∃ nid, after.rt = (getRTEntry nid now before.rt).rt) ∧
        (after.dht = before.dht ∨
          ∃ nid, after.dht = (getDHTEntry nid now before.dht).dht) := by
    intro request header packet before
    simp only [routeCore]
    split
    · exact ⟨rfl, .inr ⟨_, rfl⟩, .inl rfl⟩
    · split
      · exact ⟨rfl, .inr ⟨_, rfl⟩, .inl rfl⟩
      · exact ⟨rfl, .inr ⟨_, rfl⟩, .inr ⟨_, rfl⟩⟩
  simp only [packet, threadNrOutputCore]
  cases source with
  | nr => exact routed _ _ _ _
  | ph2nr =>
      simp only
      split
      · exact ⟨rfl, .inl rfl, .inl rfl⟩
      · exact routed _ _ _ _

theorem packet_pointer (source : NrSource) (datagram : List UInt8) (nid : NID) :
    (s.packet source now datagram).1.pointer nid = s.pointer nid := by
  rw [pointer, (s.packet_tables now source datagram).1]
  rfl

theorem packet_locator (source : NrSource) (datagram : List UInt8) (nid : NID) :
    (s.packet source now datagram).1.output.dht.locator nid =
      s.output.dht.locator nid := by
  rcases (s.packet_tables now source datagram).2.2 with kept | ⟨sought, lookup⟩
  · rw [kept]
  · rw [lookup, getDHTEntry_locator]

theorem packet_lease (source : NrSource) (datagram : List UInt8) (nid : NID) :
    (s.packet source now datagram).1.output.rt.leases nid =
        s.output.rt.leases nid ∨
      ((s.packet source now datagram).1.output.rt.leases nid = none ∧
        ∀ lease, s.output.rt.leases nid = some lease →
          ¬ lease.Live gatewayTimeout now.tvSec) := by
  rcases (s.packet_tables now source datagram).2.1 with kept | ⟨sought, lookup⟩
  · rw [kept]
    exact .inl rfl
  · rw [lookup]
    exact getRTEntry_lease sought nid now s.output.rt

end CoreState

theorem routedHop_of_served {header : NidHeader} {now : Timeval}
    {s : NrOutput} {ip : NID32} (nonzero : ip ≠ NID32.zero)
    (served : s.rt.leases.Serves gatewayTimeout now.tvSec header.destNID ip) :
    routedHop .core header now s = some ip := by
  simp only [routedHop, getRTEntry_serves nonzero served, if_true]

theorem routedHop_of_unserved {header : NidHeader} {now : Timeval}
    {s : NrOutput}
    (unserved : ∀ ip, ip ≠ NID32.zero →
      ¬ s.rt.leases.Serves gatewayTimeout now.tvSec header.destNID ip) :
    routedHop .core header now s =
      if (getRegistry header.destNID s.registry).2 ≠ NID32.zero then
        some (getRegistry header.destNID s.registry).2
      else s.dht.locator header.destNIDgw := by
  have missed : ¬ (getRTEntry header.destNID now s.rt).found = true := by
    intro found
    obtain ⟨ip, nonzero, served⟩ := getRTEntry_found_iff.mp found
    exact unserved ip nonzero served
  simp only [routedHop, if_neg missed, getRegistry_found_iff, getDHTEntry_dst]

theorem packet_sent (header : NidHeader) (payload : List UInt8) (now : Timeval)
    (s : CoreState) :
    (s.packet .nr now (frame header payload)).2 =
      (routedHop .core header now s.output).map fun ip =>
        (ip, (frame header payload).take maxBufLen) := by
  simp only [CoreState.packet, threadNrOutputCore, routeCore_sent,
    NrOutput.header_read_frame, NrOutput.packet_read]
  rfl

/-- What the last message about a node said. -/
inductive Newest where
  | registry (ip : NID32) (since : Nat) (home : NID)
  | redirectCore (ip : NID32)

/-- A registration of the node, or another core's word about it. -/
def newestOf (nid : NID) : CoreEvent → Option Newest
  | .control now nmsg =>
      if nmsg.nid = nid then
        match nmsg.type with
        | .registry => some (.registry nmsg.ip now.tvSec nmsg.srcNIDgw)
        | .redirectCore => some (.redirectCore nmsg.ip)
        | _ => none
      else none
  | _ => none

/-- A registration of the node in the core's own tree. -/
def registeredOf (nid : NID) : CoreEvent → Option (Lease NID32)
  | .control now nmsg =>
      if registers nid nmsg then some ⟨nmsg.ip, now.tvSec⟩ else none
  | _ => none

abbrev newest (nid : NID) (events : List CoreEvent) : Option Newest :=
  lastOf (newestOf nid) events

abbrev lastRegistered (nid : NID) (events : List CoreEvent) :
    Option (Lease NID32) :=
  lastOf (registeredOf nid) events

/-- A packet for the node goes where the newest message says.  Once a
registration with the home core has run out, no older message decides. -/
def FollowsNewest (config : Configuration) (header : NidHeader)
    (payload : List UInt8) (now : Timeval) (s : CoreState) :
    Option Newest → Prop
  | none => True
  | some (.redirectCore ip) =>
      (s.packet .nr now (frame header payload)).2 =
        some (ip, (frame header payload).take maxBufLen)
  | some (.registry ip since home) =>
      (now.tvSec < since + gatewayTimeout →
        (s.packet .nr now (frame header payload)).2 =
          some (ip, (frame header payload).take maxBufLen)) ∧
      (since + gatewayTimeout ≤ now.tvSec → home = config.nid →
        (s.packet .nr now (frame header payload)).2 =
          (s.output.dht.locator header.destNIDgw).map fun ip =>
            (ip, (frame header payload).take maxBufLen))

/-- The newest message names a locator, and if it is another core's, no
registration of the own tree which still lives names a different one. -/
def NewestDecides (nid : NID) (now : Timeval) (events : List CoreEvent) : Prop :=
  match newest nid events with
  | none => True
  | some (.redirectCore ip) =>
      ip ≠ NID32.zero ∧
        ∀ lease, lastRegistered nid events = some lease →
          now.tvSec < lease.since + gatewayTimeout →
            lease.value = NID32.zero ∨ lease.value = ip
  | some (.registry ip since _) =>
      now.tvSec < since + gatewayTimeout → ip ≠ NID32.zero

theorem lastRegistered_of_newest {nid : NID} {events : List CoreEvent}
    {ip : NID32} {since : Nat} {home : NID}
    (last : newest nid events = some (.registry ip since home)) :
    lastRegistered nid events = some ⟨ip, since⟩ := by
  induction events using List.reverseRecOn with
  | nil => simp [newest, lastOf] at last
  | append_singleton events event ih =>
      rw [newest, lastOf_snoc] at last
      rw [lastRegistered, lastOf_snoc]
      cases event with
      | packet now source datagram => exact ih last
      | learn now known locator => exact ih last
      | control now nmsg =>
          by_cases own : nmsg.nid = nid
          · cases kind : nmsg.type with
            | registry =>
                simp only [newestOf, own, kind, if_true, Option.some_or,
                  Option.some.injEq, Newest.registry.injEq] at last
                obtain ⟨rfl, rfl, -⟩ := last
                simp [registeredOf, registers, own, kind]
            | redirectCore => simp [newestOf, own, kind] at last
            | _ =>
                simp only [newestOf, own, kind, if_true, Option.none_or] at last
                simpa [registeredOf, registers, kind] using ih last
          · simp only [newestOf, if_neg own, Option.none_or] at last
            simpa [registeredOf, registers, own] using ih last

/-- The registry repeats the newest message of another core, and is silent
after a registration with the home core. -/
def PointerSays (config : Configuration) (nid : NID) (s : CoreState) :
    Option Newest → Prop
  | none => True
  | some (.redirectCore ip) => s.pointer nid = ip
  | some (.registry _ _ home) => home = config.nid → s.pointer nid = NID32.zero

/-- The routing table has the last registration, or has lost it because it
had run out. -/
structure CoreTracks (config : Configuration) (nid : NID)
    (events : List CoreEvent) (s : CoreState) (clock : Nat) : Prop where
  dated : 0 < clock
  route : s.output.rt.leases.Remembers gatewayTimeout clock nid
    (lastRegistered nid events)
  pointer : PointerSays config nid s (newest nid events)

namespace CoreTracks

variable {config : Configuration} {nid : NID} {events : List CoreEvent}
  {s next : CoreState} {clock later : Nat} {event : CoreEvent}

/-- An event which registers nothing leaves the route alone, unless it has run
out. -/
theorem route_kept (tracks : CoreTracks config nid events s clock)
    (order : clock ≤ later) (unregistered : registeredOf nid event = none)
    (kept : next.output.rt.leases nid = s.output.rt.leases nid ∨
      (next.output.rt.leases nid = none ∧
        ∀ lease, s.output.rt.leases nid = some lease →
          ¬ lease.Live gatewayTimeout later)) :
    next.output.rt.leases.Remembers gatewayTimeout later nid
      (lastRegistered nid (events ++ [event])) := by
  rw [lastRegistered, lastOf_snoc, unregistered, Option.none_or]
  exact tracks.route.pass order kept

theorem pointer_kept (tracks : CoreTracks config nid events s clock)
    (silent : newestOf nid event = none)
    (kept : next.pointer nid = s.pointer nid) :
    PointerSays config nid next (newest nid (events ++ [event])) := by
  have same : newest nid (events ++ [event]) = newest nid events := by
    rw [newest, lastOf_snoc, silent, Option.none_or]
  have pointed := tracks.pointer
  rw [same]
  cases last : newest nid events with
  | none => trivial
  | some message =>
      rw [last] at pointed
      cases message with
      | redirectCore ip => exact kept.trans pointed
      | registry ip since home => exact fun own => kept.trans (pointed own)

/-- What a control message, of whatever type and about whatever node, makes of
the registry. -/
theorem control_pointed (tracks : CoreTracks config nid events s clock)
    (now : Timeval) (nmsg : NidMsg) :
    PointerSays config nid (s.control config now nmsg).1
      (newest nid (events ++ [.control now nmsg])) := by
  by_cases own : nmsg.nid = nid
  · have after := s.control_pointer config now nmsg nid
    rw [if_pos own] at after
    cases kind : nmsg.type with
    | redirectCore =>
        rw [if_pos kind] at after
        simpa [newest, lastOf_snoc, newestOf, own, kind, PointerSays] using after
    | registry =>
        rw [if_neg (by simp [kind])] at after
        simp only [newest, lastOf_snoc, newestOf, own, kind, if_true,
          Option.some_or, PointerSays]
        intro home
        rw [after, if_pos ⟨kind, home⟩]
    | _ =>
        simp only [kind, reduceCtorEq, if_false, false_and] at after
        exact tracks.pointer_kept (by simp [newestOf, kind]) after
  · apply tracks.pointer_kept (by simp [newestOf, own])
    rw [s.control_pointer, if_neg own]

theorem control (tracks : CoreTracks config nid events s clock)
    {now : Timeval} (order : clock ≤ now.tvSec) (nmsg : NidMsg) :
    CoreTracks config nid (events ++ [.control now nmsg])
      (s.control config now nmsg).1 now.tvSec := by
  have dated : 0 < now.tvSec := Nat.lt_of_lt_of_le tracks.dated order
  refine ⟨dated, ?_, tracks.control_pointed now nmsg⟩
  by_cases registration : registers nid nmsg = true
  · have ⟨kind, own⟩ : nmsg.type = .registry ∧ nmsg.nid = nid := by
      simpa [registers] using registration
    rw [lastRegistered, lastOf_snoc, registeredOf, if_pos registration,
      s.control_rt, if_pos kind, leases_newRTEntry, own]
    exact tracks.route.refresh dated nmsg.ip
  · have unregistered : registeredOf nid (.control now nmsg) = none :=
      if_neg registration
    apply tracks.route_kept order unregistered
    left
    exact GatewayTables.handle_leases_of_not_registers .core config now
      (Bool.eq_false_iff.mpr registration) s.tables

theorem step (tracks : CoreTracks config nid events s clock)
    {output : Option (NID32 × List UInt8)}
    (stepped : (coreMachine config).step (s, clock) event =
      some ((next, later), output)) :
    CoreTracks config nid (events ++ [event]) next later := by
  obtain ⟨order, rfl, rfl, rfl⟩ := Machine.timed_total_step_iff.mp stepped
  have dated := Nat.lt_of_lt_of_le tracks.dated order
  cases event with
  | control now nmsg => exact tracks.control order nmsg
  | packet now source datagram =>
      exact ⟨dated,
        tracks.route_kept order rfl (s.packet_lease now source datagram nid),
        tracks.pointer_kept rfl (s.packet_pointer now source datagram nid)⟩
  | learn now known ip =>
      exact ⟨dated, tracks.route_kept order rfl (.inl rfl),
        tracks.pointer_kept rfl rfl⟩

theorem of_run {start final : CoreState}
    {outputs : List (Option (NID32 × List UInt8))}
    (noRoute : start.output.rt.leases nid = none) (dated : 0 < clock)
    (run : (coreMachine config).Run (start, clock) events outputs
      (final, later)) : CoreTracks config nid events final later := by
  generalize reached : (final, later) = state at run
  induction run generalizing final later with
  | nil =>
      cases reached
      exact ⟨dated, .of_none noRoute, trivial⟩
  | @snoc events _ state _ event _ _ stepped ih =>
      cases reached
      exact (ih rfl).step stepped

end CoreTracks

private theorem sent_to_iff {hop : Option NID32} {ip : NID32}
    {packet : List UInt8} :
    (hop.map fun locator => (locator, packet)) = some (ip, packet) ↔
      hop = some ip := by
  cases hop with
  | none => simp
  | some locator => simp

/-- A zero locator is never a destination. -/
theorem routedHop_ne_zero (header : NidHeader) (now : Timeval) (s : NrOutput) :
    routedHop .core header now s ≠ some NID32.zero := by
  intro zero
  by_cases served : ∃ ip, ip ≠ NID32.zero ∧
      s.rt.leases.Serves gatewayTimeout now.tvSec header.destNID ip
  · obtain ⟨ip, nonzero, served⟩ := served
    rw [routedHop_of_served nonzero served] at zero
    exact nonzero (Option.some.inj zero)
  · rw [routedHop_of_unserved fun ip nonzero here =>
      served ⟨ip, nonzero, here⟩] at zero
    split at zero
    · next nonzero => exact nonzero (Option.some.inj zero)
    · exact DhtMapping.locator_ne_zero zero rfl

/-- A core gateway forwards to the newest registration of a node. -/
def CoreFollowsNewest : Prop :=
  ∀ (config : Configuration) (start final : CoreState) (clock later : Nat)
    (events : List CoreEvent) (outputs : List (Option (NID32 × List UInt8)))
    (header : NidHeader) (payload : List UInt8) (now : Timeval),
    start.output.rt.leases header.destNID = none → 0 < clock →
    (∀ event ∈ events, ∀ ip since home,
      newestOf header.destNID event = some (.registry ip since home) →
        home = config.nid) →
    (coreMachine config).Run (start, clock) events outputs (final, later) →
    later ≤ now.tvSec →
    FollowsNewest config header payload now final
      (newest header.destNID events)

/-- It does so exactly if the newest message names a locator and no other
locator registered in its own tree is less than `GATEWAY_TIMEOUT` old. -/
theorem newest_followed_iff {config : Configuration} {start final : CoreState}
    {clock later : Nat} {events : List CoreEvent}
    {outputs : List (Option (NID32 × List UInt8))} {header : NidHeader}
    (payload : List UInt8) {now : Timeval}
    (noRoute : start.output.rt.leases header.destNID = none)
    (dated : 0 < clock)
    (run : (coreMachine config).Run (start, clock) events outputs
      (final, later))
    (order : later ≤ now.tvSec) :
    FollowsNewest config header payload now final
        (newest header.destNID events) ↔
      NewestDecides header.destNID now events := by
  have tracks := CoreTracks.of_run noRoute dated run
  have pointed := tracks.pointer
  have zero := routedHop_ne_zero header now final.output
  have unserved : (∀ lease, lastRegistered header.destNID events = some lease →
      now.tvSec < lease.since + gatewayTimeout → lease.value = NID32.zero) →
      routedHop .core header now final.output =
        if final.pointer header.destNID ≠ NID32.zero then
          some (final.pointer header.destNID)
        else final.output.dht.locator header.destNIDgw := by
    intro dead
    apply routedHop_of_unserved
    intro ip nonzero served
    obtain ⟨lease, known, alive, rfl⟩ := (tracks.route.serves_iff order).mp served
    exact nonzero (dead lease known alive)
  have served : ∀ lease, lastRegistered header.destNID events = some lease →
      now.tvSec < lease.since + gatewayTimeout → lease.value ≠ NID32.zero →
      routedHop .core header now final.output = some lease.value :=
    fun lease known alive nonzero => routedHop_of_served nonzero
      ((tracks.route.serves_iff order).mpr ⟨lease, known, alive, rfl⟩)
  unfold NewestDecides
  cases last : newest header.destNID events with
  | none => exact iff_of_true trivial trivial
  | some message =>
      rw [last] at pointed
      cases message with
      | redirectCore ip =>
          simp only [FollowsNewest, packet_sent, sent_to_iff]
          have named : final.pointer header.destNID = ip := pointed
          constructor
          · intro followed
            refine ⟨fun none => zero (none ▸ followed), ?_⟩
            intro lease known alive
            by_contra other
            obtain ⟨nonzero, different⟩ := not_or.mp other
            rw [served lease known alive nonzero] at followed
            exact different (Option.some.inj followed)
          · rintro ⟨nonzero, agrees⟩
            by_cases live : ∃ lease,
                lastRegistered header.destNID events = some lease ∧
                now.tvSec < lease.since + gatewayTimeout ∧ lease.value = ip
            · obtain ⟨lease, known, alive, rfl⟩ := live
              exact served lease known alive nonzero
            · rw [unserved, named, if_pos nonzero]
              intro lease known alive
              apply (agrees lease known alive).resolve_right
              exact fun same => live ⟨lease, known, alive, same⟩
      | registry ip since home =>
          simp only [FollowsNewest, packet_sent, sent_to_iff]
          have known := lastRegistered_of_newest last
          constructor
          · intro followed alive none
            exact zero (none ▸ followed.1 alive)
          · intro nonzero
            refine ⟨fun alive => served _ known alive (nonzero alive), ?_⟩
            intro expired own
            have silent : final.pointer header.destNID = NID32.zero :=
              pointed own
            rw [unserved, silent, if_neg (by simp)]
            intro lease here alive
            cases known.symm.trans here
            exact (Nat.not_lt.mpr expired alive).elim

section Example

private def homeCore : Configuration := .sample .core (NID.ofNat 7)

/-- A message about the node 5, whose home core is 7. -/
private def aboutFive (type : MsgType) (ip : NID32) : NidMsg :=
  { type := type
    srcNID := NID.ofNat 5
    destNID := homeCore.nid
    srcNIDgw := homeCore.nid
    destNIDgw := homeCore.nid
    nid := NID.ofNat 5
    ip := ip }

/-- It registers at home, and two seconds later elsewhere. -/
private def movedAway : List CoreEvent :=
  [.control (.ofSec 100) (aboutFive .registry (NID32.ofNat 50)),
    .control (.ofSec 102) (aboutFive .redirectCore (NID32.ofNat 70))]

private def toFive : NidHeader :=
  { type := .data
    srcNID := NID.ofNat 1
    destNID := NID.ofNat 5
    srcNIDgw := NID.ofNat 2
    destNIDgw := homeCore.nid }

private theorem movedAway_run (property : CoreState → Bool)
    (evaluated : ((coreMachine homeCore).exec
      (CoreState.initial homeCore, 100) movedAway).any
        (fun result => result.1.2 = 102 ∧ property result.1.1 = true) = true) :
    ∃ outputs final,
      (coreMachine homeCore).Run (CoreState.initial homeCore, 100) movedAway
        outputs (final, 102) ∧ property final = true := by
  obtain ⟨outputs, ⟨final, later⟩, run, holds⟩ :=
    Machine.exists_run_of_exec evaluated
  obtain ⟨clock, holds⟩ := of_decide_eq_true holds
  cases clock
  exact ⟨outputs, final, run, holds⟩

/-- While the registration lives it keeps the packets at home. -/
theorem not_coreFollowsNewest : ¬ CoreFollowsNewest := by
  intro follows
  obtain ⟨outputs, final, run, kept⟩ := movedAway_run
    (fun final => (final.packet .nr (.ofSec 103) (frame toFive [])).2 ≠
      some (NID32.ofNat 70, (frame toFive []).take maxBufLen))
    (by decide +kernel)
  have noRoute := CoreState.initial_noRoute homeCore toFive.destNID
  have home : ∀ event ∈ movedAway, ∀ ip since home,
      newestOf toFive.destNID event = some (.registry ip since home) →
        home = homeCore.nid := by
    intro event member ip since home registration
    simp only [movedAway, List.mem_cons, List.not_mem_nil, or_false] at member
    rcases member with rfl | rfl
    · cases registration
      rfl
    · cases registration
  have followed := follows homeCore _ final 100 102 movedAway outputs toFive []
    (.ofSec 103) noRoute (by decide) home run (by decide)
  exact of_decide_eq_true kept followed

/-- Ten seconds later it does not. -/
theorem newest_followed_expired : ∃ outputs final,
    (coreMachine homeCore).Run (CoreState.initial homeCore, 100) movedAway
        outputs (final, 102) ∧
      newest toFive.destNID movedAway =
        some (.redirectCore (NID32.ofNat 70)) ∧
      NewestDecides toFive.destNID (.ofSec 110) movedAway ∧
      FollowsNewest homeCore toFive [] (.ofSec 110) final
        (newest toFive.destNID movedAway) := by
  obtain ⟨outputs, final, run, _⟩ :=
    movedAway_run (fun _ => true) (by decide +kernel)
  have decides : NewestDecides toFive.destNID (.ofSec 110) movedAway := by
    refine ⟨by decide +kernel, ?_⟩
    intro lease known alive
    cases known
    exact absurd alive (by decide)
  exact ⟨outputs, final, run, rfl, decides, (newest_followed_iff []
    (CoreState.initial_noRoute homeCore toFive.destNID) (by decide) run
    (by decide)).mpr decides⟩

end Example

end NodeIdentity
