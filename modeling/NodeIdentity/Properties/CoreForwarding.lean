import NodeIdentity.Library.Walk
import NodeIdentity.Properties.HomeCore

/-!
# Forwarding between core gateways

Core gateways which hear registrations from their own trees, tell the home
cores of the registered nodes, and ask the DHT where other cores are.  A
packet from the network is followed from core to core, with the tables as they
stand.  A core leads to another one through its registry, which only the home
core of the node uses, or through the DHT, which gives all cores the same
answer; so a walk that does not end is caught after one visit to the core the
DHT names.
-/

namespace NodeIdentity

open NodeIdentity.Library

/-- Core gateways and what lies outside them: the home core each node is
configured with, and the locator the DHT has for a core. -/
structure CoreNet where
  core : NID → Bool
  config : NID → Configuration
  nid_config : ∀ gw, (config gw).nid = gw
  coreAt : NID32 → Option NID
  coreAt_eq_some_iff : ∀ ip gw,
    coreAt ip = some gw ↔ core gw = true ∧ (config gw).locator = ip
  home : NID → NID
  located : NID → NID32

/-- The messages in flight are on their way between cores. -/
structure CoreNetwork where
  cores : NID → CoreState
  inFlight : List NidMsg

inductive CoreNetEvent where
  | control (now : Timeval) (gw : NID) (nmsg : NidMsg)
  | deliver (now : Timeval) (index : Nat)
  | lose (index : Nat)
  | learn (now : Timeval) (gw nid : NID) (ip : NID32)
  | packet (now : Timeval) (gw : NID) (source : NrSource)
      (datagram : List UInt8)

namespace CoreNetwork

/-- A core handles a control message, and what it sends is in flight. -/
def handle (net : CoreNet) (now : Timeval) (gw : NID) (nmsg : NidMsg)
    (s : CoreNetwork) : CoreNetwork :=
  let (state, emitted) := (s.cores gw).control (net.config gw) now nmsg
  { cores := Function.update s.cores gw state
    inFlight := s.inFlight ++ emitted }

/-- A message for a node which is no core leaves the network of cores. -/
def apply (net : CoreNet) (s : CoreNetwork) : CoreNetEvent → CoreNetwork
  | .control now gw nmsg => s.handle net now gw nmsg
  | .deliver now index =>
      match s.inFlight[index]? with
      | some nmsg =>
          let s := { s with inFlight := s.inFlight.eraseIdx index }
          if net.core nmsg.destNID then s.handle net now nmsg.destNID nmsg
          else s
      | none => s
  | .lose index => { s with inFlight := s.inFlight.eraseIdx index }
  | .learn now gw nid ip =>
      let state := (s.cores gw).learn now nid ip
      { s with cores := Function.update s.cores gw state }
  | .packet now gw source datagram =>
      let (state, _) := (s.cores gw).packet source now datagram
      { s with cores := Function.update s.cores gw state }

end CoreNetwork

/-- The clock may stand anywhere: entries may have aged at any event. -/
def coreNetMachine (net : CoreNet) : Machine CoreNetwork CoreNetEvent Unit :=
  Machine.total fun s event => (s.apply net event, ())

def CoreNet.start (net : CoreNet) : CoreNetwork :=
  { cores := fun gw => CoreState.initial (net.config gw)
    inFlight := [] }

/-- What reaches a core: a registration comes from its own tree, with the
locator of a node or of a gateway below and naming the home core of the node
or no core at all; only cores send `REDIRECT_CORE`; the DHT answers a question
about a core with its entry for that core. -/
def CoreNet.Admits (net : CoreNet) : CoreNetEvent → Prop
  | .control _ gw nmsg =>
      net.core gw = true ∧ nmsg.type ≠ .redirectCore ∧
        (nmsg.type = .registry → net.coreAt nmsg.ip = none ∧
          (nmsg.srcNIDgw = net.home nmsg.nid ∨
            net.core nmsg.srcNIDgw = false))
  | .learn _ _ nid ip => ip = net.located nid
  | _ => True

/-- A core takes a datagram from the network in and routes it: where it is
sent, unless the core is its destination or drops it. -/
def CoreState.relay (config : Configuration) (now : Timeval) (sender : NID32)
    (input : NrInput) (datagram : List UInt8) (s : CoreState) :
    Option (NID32 × List UInt8) :=
  let turn := threadNrInputGw config.nid now (some (datagram, sender)) input
    s.output.cm
  turn.nr.bind fun packet => (s.packet .nr now packet).2

/-- The core a datagram visits next, and the datagram it gets there. -/
def CoreNetwork.visit (net : CoreNet) (now : Timeval) (sender : NID32)
    (inputs : NID → NrInput) (s : CoreNetwork) :
    NID × List UInt8 → Option (NID × List UInt8)
  | (gw, datagram) =>
      ((s.cores gw).relay (net.config gw) now sender (inputs gw) datagram).bind
        fun (ip, datagram) => (net.coreAt ip).map fun next => (next, datagram)

/-- The packet comes to an end, having visited every core at most once. -/
def CoreNetwork.Settles (net : CoreNet) (now : Timeval) (sender : NID32)
    (inputs : NID → NrInput) (header : NidHeader) (payload : List UInt8)
    (gw : NID) (s : CoreNetwork) : Prop :=
  ∃ fuel path,
    walk (s.visit net now sender inputs) fuel (gw, frame header payload) =
        some path ∧
      (path.map Prod.fst).Nodup

def CoreNetwork.nextCore (net : CoreNet) (now : Timeval) (header : NidHeader)
    (s : CoreNetwork) (gw : NID) : Option NID :=
  if header.destNID = gw then none
  else (routedHop .core header now (s.cores gw).output).bind net.coreAt

theorem visit_frame (net : CoreNet) (now : Timeval) (sender : NID32)
    (inputs : NID → NrInput) (s : CoreNetwork) (gw : NID) (header : NidHeader)
    (payload : List UInt8) :
    s.visit net now sender inputs (gw, frame header payload) =
      (s.nextCore net now header gw).map fun next =>
        (next, frame header (payload.take (maxBufLen - nhLen))) := by
  have read : nidHeaderCodec.decode
      ((inputs gw).buf.receive (frame header payload)).bytes = header :=
    (inputs gw).buf.decode_receive nidHeaderCodec (by decide) header payload
  have again : (frame header (payload.take (maxBufLen - nhLen))).take maxBufLen =
      frame header (payload.take (maxBufLen - nhLen)) := by
    rw [frame_take, List.take_take, Nat.min_self]
  simp only [CoreNetwork.visit, CoreState.relay, CoreNetwork.nextCore,
    threadNrInputGw, NrInput.recvfrom, NrInput.header, read, net.nid_config]
  by_cases own : header.destNID = gw
  · simp only [if_pos own, Option.bind_none, Option.map_none]
  · simp only [if_neg own, Buffer.take_received, frame_take, Option.bind_some,
      packet_sent, again, Option.bind_map, Option.map_bind]
    rfl

/-- Along the way only the payload changes, so the cores visited are those of
the walk by the header. -/
theorem walk_visit (net : CoreNet) (now : Timeval) (sender : NID32)
    (inputs : NID → NrInput) (s : CoreNetwork) (gw : NID) (header : NidHeader)
    (payload : List UInt8) (fuel : Nat) :
    (walk (s.visit net now sender inputs) fuel
      (gw, frame header payload)).map (List.map Prod.fst) =
        walk (s.nextCore net now header) fuel gw := by
  apply walk_image Prod.fst fun place => ∃ payload, place.2 = frame header payload
  · rintro ⟨core, datagram⟩ ⟨carried, rfl⟩
    rw [visit_frame, Option.map_map]
    exact Option.map_id'
  · rintro ⟨core, datagram⟩ ⟨next, forwarded⟩ ⟨carried, rfl⟩ moved
    rw [visit_frame] at moved
    obtain ⟨_, _, pair⟩ := Option.map_eq_some_iff.mp moved
    cases pair
    exact ⟨_, rfl⟩
  · exact ⟨payload, rfl⟩

theorem settles_iff (net : CoreNet) (now : Timeval) (sender : NID32)
    (inputs : NID → NrInput) (s : CoreNetwork) (gw : NID) (header : NidHeader)
    (payload : List UInt8) :
    s.Settles net now sender inputs header payload gw ↔
      ∃ fuel path, walk (s.nextCore net now header) fuel gw = some path ∧
        path.Nodup := by
  simp only [CoreNetwork.Settles,
    ← walk_visit net now sender inputs s gw header payload,
    Option.map_eq_some_iff]
  constructor
  · rintro ⟨fuel, path, walked, nodup⟩
    exact ⟨fuel, _, ⟨path, walked, rfl⟩, nodup⟩
  · rintro ⟨fuel, _, ⟨path, walked, rfl⟩, nodup⟩
    exact ⟨fuel, path, walked, nodup⟩

/-- No route leads to a core; the registry names another core, and only at
the home core of the node; the DHT table has the one answer of the DHT. -/
structure CoreGrounded (net : CoreNet) (gw : NID) (s : CoreState) : Prop where
  routes : ∀ nid lease, s.output.rt.leases nid = some lease →
    net.coreAt lease.value = none
  pointers : ∀ nid, net.core gw = true → s.pointer nid ≠ NID32.zero →
    gw = net.home nid ∧
      ∃ other, other ≠ gw ∧ net.coreAt (s.pointer nid) = some other
  learned : ∀ nid ip, s.output.dht.locator nid = some ip →
    ip = net.located nid

/-- The message tells the home core of a node about another core. -/
def CoreNet.Redirects (net : CoreNet) (nmsg : NidMsg) : Prop :=
  (nmsg.destNID = net.home nmsg.nid ∨ net.core nmsg.destNID = false) ∧
    ∃ other, other ≠ nmsg.destNID ∧ net.coreAt nmsg.ip = some other

structure Grounded (net : CoreNet) (s : CoreNetwork) : Prop where
  cores : ∀ gw, CoreGrounded net gw (s.cores gw)
  messages : ∀ nmsg ∈ s.inFlight,
    nmsg.type = .redirectCore ∧ net.Redirects nmsg

namespace CoreGrounded

variable {net : CoreNet} {gw : NID} {s : CoreState}

theorem initial (config : Configuration) :
    CoreGrounded net gw (CoreState.initial config) := by
  refine ⟨?_, ?_, ?_⟩
  · intro nid lease held
    cases (CoreState.initial_noRoute config nid).symm.trans held
  · intro nid _ nonzero
    exact (nonzero (getRegistry_initRegistryTable nid)).elim
  · intro nid ip known
    have empty : hashLookup nid initDhtable.dhtable = none :=
      ChainedTable.find_empty 30 thirty_pos nid
    simp [CoreState.initial, DhtMapping.locator, empty] at known

theorem control (grounded : CoreGrounded net gw s) (now : Timeval)
    {nmsg : NidMsg}
    (registry : nmsg.type = .registry → net.coreAt nmsg.ip = none)
    (redirect : nmsg.type = .redirectCore →
      nmsg.destNID = gw ∧ net.Redirects nmsg) :
    CoreGrounded net gw (s.control (net.config gw) now nmsg).1 := by
  refine ⟨?_, ?_, grounded.learned⟩
  · intro nid lease held
    rw [s.control_rt] at held
    split at held
    · next kind =>
        rw [leases_newRTEntry] at held
        rcases LeaseTable.refresh_eq_some held with before | ⟨-, rfl⟩
        · exact grounded.routes nid lease before
        · exact registry kind
    · exact grounded.routes nid lease held
  · intro nid core nonzero
    rw [s.control_pointer] at nonzero ⊢
    split at nonzero
    · next own =>
        subst own
        simp only [if_true]
        split at nonzero
        · next kind =>
            obtain ⟨rfl, home, named⟩ := redirect kind
            rw [if_pos kind]
            refine ⟨home.resolve_right fun outside => ?_, named⟩
            rw [core] at outside
            cases outside
        · next other =>
            rw [if_neg other]
            split at nonzero
            · exact (nonzero rfl).elim
            · next foreign =>
                rw [if_neg foreign]
                exact grounded.pointers nmsg.nid core nonzero
    · next other =>
        rw [if_neg other]
        exact grounded.pointers nid core nonzero

theorem packet (grounded : CoreGrounded net gw s) (now : Timeval)
    (source : NrSource) (datagram : List UInt8) :
    CoreGrounded net gw (s.packet source now datagram).1 := by
  refine ⟨?_, ?_, ?_⟩
  · intro nid lease held
    rcases s.packet_lease now source datagram nid with kept | ⟨lapsed, _⟩
    · exact grounded.routes nid lease (kept.symm.trans held)
    · cases lapsed.symm.trans held
  · intro nid core nonzero
    rw [s.packet_pointer] at nonzero ⊢
    exact grounded.pointers nid core nonzero
  · intro nid ip known
    rw [s.packet_locator] at known
    exact grounded.learned nid ip known

theorem learn (grounded : CoreGrounded net gw s) (now : Timeval) (nid : NID) :
    CoreGrounded net gw (s.learn now nid (net.located nid)) := by
  refine ⟨grounded.routes, grounded.pointers, ?_⟩
  intro other ip known
  rcases locator_addDHTEntry known with ⟨rfl, rfl⟩ | before
  · rfl
  · exact grounded.learned other ip before

end CoreGrounded

namespace Grounded

variable {net : CoreNet} {s next : CoreNetwork}

theorem update (grounded : Grounded net s) {gw : NID} {state : CoreState}
    (changed : CoreGrounded net gw state) :
    ∀ other, CoreGrounded net other (Function.update s.cores gw state other) :=
  (Function.forall_update_iff s.cores (CoreGrounded net)).mpr
    ⟨changed, fun other _ => grounded.cores other⟩

theorem handle (grounded : Grounded net s) (now : Timeval) {gw : NID}
    (core : net.core gw = true) {nmsg : NidMsg}
    (registry : nmsg.type = .registry → net.coreAt nmsg.ip = none ∧
      (nmsg.srcNIDgw = net.home nmsg.nid ∨ net.core nmsg.srcNIDgw = false))
    (redirect : nmsg.type = .redirectCore →
      nmsg.destNID = gw ∧ net.Redirects nmsg) :
    Grounded net (s.handle net now gw nmsg) := by
  refine ⟨?_, ?_⟩
  · apply grounded.update
    exact (grounded.cores gw).control now (fun kind => (registry kind).1) redirect
  · intro waiting member
    have split : waiting ∈ s.inFlight ++
        ((s.cores gw).control (net.config gw) now nmsg).2 := member
    rcases List.mem_append.mp split with before | emitted
    · exact grounded.messages waiting before
    · rw [CoreState.control_emitted, net.nid_config] at emitted
      split at emitted
      · next foreign =>
          cases List.mem_singleton.mp emitted
          refine ⟨rfl, (registry foreign.1).2, gw, Ne.symm foreign.2, ?_⟩
          exact (net.coreAt_eq_some_iff _ _).mpr ⟨core, rfl⟩
      · cases emitted

theorem step (grounded : Grounded net s) {event : CoreNetEvent} {output : Unit}
    (admitted : net.Admits event)
    (stepped : (coreNetMachine net).step s event = some (next, output)) :
    Grounded net next := by
  obtain ⟨rfl, -⟩ := Machine.total_step_iff.mp stepped
  cases event with
  | control now gw nmsg =>
      obtain ⟨core, kind, registry⟩ := admitted
      exact grounded.handle now core registry fun redirect =>
        (kind redirect).elim
  | deliver now index =>
      have rest : Grounded net
          { s with inFlight := s.inFlight.eraseIdx index } :=
        ⟨grounded.cores, fun waiting member =>
          grounded.messages waiting (List.mem_of_mem_eraseIdx member)⟩
      simp only [CoreNetwork.apply]
      cases found : s.inFlight[index]? with
      | none => exact grounded
      | some nmsg =>
          have member := List.mem_of_getElem? found
          obtain ⟨kind, redirects⟩ := grounded.messages nmsg member
          simp only
          by_cases core : net.core nmsg.destNID = true
          · rw [if_pos core]
            apply rest.handle now core
            · intro registry
              cases kind.symm.trans registry
            · exact fun _ => ⟨rfl, redirects⟩
          · rw [if_neg core]
            exact rest
  | lose index =>
      exact ⟨grounded.cores, fun waiting member =>
        grounded.messages waiting (List.mem_of_mem_eraseIdx member)⟩
  | learn now gw nid ip =>
      cases admitted
      exact ⟨grounded.update ((grounded.cores gw).learn now nid),
        grounded.messages⟩
  | packet now gw source datagram =>
      exact ⟨grounded.update ((grounded.cores gw).packet now source datagram),
        grounded.messages⟩

theorem of_run {events : List CoreNetEvent} {outputs : List Unit}
    (admitted : ∀ event ∈ events, net.Admits event)
    (run : (coreNetMachine net).Run net.start events outputs s) :
    Grounded net s := by
  apply run.invariant_among _ (fun holds here stepped => holds.step here stepped)
    admitted
  exact ⟨fun _ => .initial _, fun _ member => by cases member⟩

end Grounded

namespace CoreNetwork

/-- The packet is not for the core, which has no live route for it either. -/
def Unrouted (now : Timeval) (header : NidHeader) (s : CoreNetwork)
    (gw : NID) : Prop :=
  header.destNID ≠ gw ∧
    (getRTEntry header.destNID now (s.cores gw).output.rt).found = false

instance (now : Timeval) (header : NidHeader) (s : CoreNetwork) (gw : NID) :
    Decidable (s.Unrouted now header gw) :=
  inferInstanceAs (Decidable (_ ∧ _))

/-- Nor has its registry a locator, but its DHT table knows the core the
packet is addressed to. -/
def AsksDht (now : Timeval) (header : NidHeader) (s : CoreNetwork)
    (gw : NID) : Prop :=
  s.Unrouted now header gw ∧
    (s.cores gw).pointer header.destNID = NID32.zero ∧
    ((s.cores gw).output.dht.locator header.destNIDgw).isSome = true

instance (now : Timeval) (header : NidHeader) (s : CoreNetwork) (gw : NID) :
    Decidable (s.AsksDht now header gw) :=
  inferInstanceAs (Decidable (_ ∧ _))

/-- The core to which the registry of `gw` hands the packet on, or `gw`. -/
def handed (net : CoreNet) (now : Timeval) (header : NidHeader)
    (s : CoreNetwork) (gw : NID) : NID :=
  if s.Unrouted now header gw ∧
      (s.cores gw).pointer header.destNID ≠ NID32.zero then
    (net.coreAt ((s.cores gw).pointer header.destNID)).getD gw
  else gw

/-- The cores from `gw` to the one its registry hands the packet on to. -/
def trail (net : CoreNet) (now : Timeval) (header : NidHeader)
    (s : CoreNetwork) (gw : NID) : List NID :=
  if s.handed net now header gw = gw then [gw]
  else [gw, s.handed net now header gw]

end CoreNetwork

namespace Grounded

variable {net : CoreNet} {s : CoreNetwork} {now : Timeval}
  {header : NidHeader} {gw : NID}

theorem nextCore_of_routed (grounded : Grounded net s)
    (routed : ¬ s.Unrouted now header gw) :
    s.nextCore net now header gw = none := by
  by_cases own : header.destNID = gw
  · rw [CoreNetwork.nextCore, if_pos own]
  · rw [CoreNetwork.nextCore, if_neg own]
    have found : (getRTEntry header.destNID now
        (s.cores gw).output.rt).found = true := by
      by_contra missed
      exact routed ⟨own, Bool.eq_false_iff.mpr missed⟩
    obtain ⟨ip, nonzero, served⟩ := getRTEntry_found_iff.mp found
    obtain ⟨lease, held, _, value⟩ := id served
    rw [routedHop_of_served nonzero served, Option.bind_some, ← value]
    exact (grounded.cores gw).routes _ lease held

theorem nextCore_of_unrouted (unrouted : s.Unrouted now header gw) :
    s.nextCore net now header gw =
      if (s.cores gw).pointer header.destNID ≠ NID32.zero then
        net.coreAt ((s.cores gw).pointer header.destNID)
      else ((s.cores gw).output.dht.locator header.destNIDgw).bind
        net.coreAt := by
  have unserved : ∀ ip, ip ≠ NID32.zero →
      ¬ (s.cores gw).output.rt.leases.Serves gatewayTimeout now.tvSec
        header.destNID ip := by
    intro ip nonzero served
    have found := getRTEntry_found_iff.mpr ⟨ip, nonzero, served⟩
    rw [unrouted.2] at found
    cases found
  have hop : routedHop .core header now (s.cores gw).output =
      if (s.cores gw).pointer header.destNID ≠ NID32.zero then
        some ((s.cores gw).pointer header.destNID)
      else (s.cores gw).output.dht.locator header.destNIDgw :=
    routedHop_of_unserved unserved
  rw [CoreNetwork.nextCore, if_neg unrouted.1, hop]
  by_cases pointed : (s.cores gw).pointer header.destNID ≠ NID32.zero
  · rw [if_pos pointed, if_pos pointed, Option.bind_some]
  · rw [if_neg pointed, if_neg pointed]

theorem nextCore_of_asks (grounded : Grounded net s)
    (asks : s.AsksDht now header gw) :
    s.nextCore net now header gw =
      net.coreAt (net.located header.destNIDgw) := by
  obtain ⟨unrouted, silent, known⟩ := asks
  obtain ⟨ip, answer⟩ := Option.isSome_iff_exists.mp known
  rw [nextCore_of_unrouted unrouted, silent, if_neg (by simp), answer,
    Option.bind_some, (grounded.cores gw).learned _ ip answer]

variable (now) (header)

/-- The registry hands the packet on, if it does, to a core whose own registry
does not. -/
theorem handed_cases (grounded : Grounded net s) (core : net.core gw = true) :
    (s.handed net now header gw = gw ∧
        (s.Unrouted now header gw →
          (s.cores gw).pointer header.destNID = NID32.zero)) ∨
      (s.handed net now header gw ≠ gw ∧
        s.nextCore net now header gw = some (s.handed net now header gw) ∧
        net.core (s.handed net now header gw) = true ∧
        s.handed net now header (s.handed net now header gw) =
          s.handed net now header gw) := by
  by_cases used : s.Unrouted now header gw ∧
      (s.cores gw).pointer header.destNID ≠ NID32.zero
  · right
    obtain ⟨unrouted, nonzero⟩ := id used
    obtain ⟨home, other, different, named⟩ :=
      (grounded.cores gw).pointers header.destNID core nonzero
    have here : s.handed net now header gw = other := by
      rw [CoreNetwork.handed, if_pos used, named, Option.getD_some]
    have otherCore := ((net.coreAt_eq_some_iff _ _).mp named).1
    rw [here, nextCore_of_unrouted unrouted, if_pos nonzero]
    refine ⟨different, named, otherCore, ?_⟩
    rw [CoreNetwork.handed, if_neg]
    rintro ⟨_, pointed⟩
    have sameHome := ((grounded.cores other).pointers header.destNID otherCore
      pointed).1
    exact different (sameHome.trans home.symm)
  · left
    refine ⟨by rw [CoreNetwork.handed, if_neg used], fun unrouted => ?_⟩
    by_contra nonzero
    exact used ⟨unrouted, nonzero⟩

theorem handed_core (grounded : Grounded net s) (core : net.core gw = true) :
    net.core (s.handed net now header gw) = true := by
  rcases grounded.handed_cases now header core with ⟨same, _⟩ | ⟨_, _, handed, _⟩
  · rwa [same]
  · exact handed

theorem handed_handed (grounded : Grounded net s)
    (core : net.core gw = true) :
    s.handed net now header (s.handed net now header gw) =
      s.handed net now header gw := by
  rcases grounded.handed_cases now header core with ⟨same, _⟩ | ⟨_, _, _, again⟩
  · rw [same, same]
  · exact again

/-- Where the registry has nothing to add and the DHT is not asked, the packet
comes to an end. -/
theorem nextCore_of_not_asks (grounded : Grounded net s)
    (core : net.core gw = true) (asksNot :
      ¬ s.AsksDht now header (s.handed net now header gw)) :
    s.nextCore net now header (s.handed net now header gw) = none := by
  have there := grounded.handed_core now header core
  rcases grounded.handed_cases now header there with
    ⟨_, silent⟩ | ⟨moved, _, _, _⟩
  · by_cases unrouted :
        s.Unrouted now header (s.handed net now header gw)
    · rw [nextCore_of_unrouted unrouted, silent unrouted, if_neg (by simp)]
      have unknown : (s.cores (s.handed net now header gw)).output.dht.locator
          header.destNIDgw = none := by
        by_contra known
        exact asksNot ⟨unrouted, silent unrouted,
          Option.isSome_iff_ne_none.mpr known⟩
      rw [unknown, Option.bind_none]
    · exact grounded.nextCore_of_routed unrouted
  · exact (moved (grounded.handed_handed now header core)).elim

theorem trail_nodup (s : CoreNetwork) (net : CoreNet) (gw : NID) :
    (s.trail net now header gw).Nodup := by
  rw [CoreNetwork.trail]
  split
  · exact List.nodup_singleton gw
  · next moved =>
      rw [List.nodup_cons, List.mem_singleton]
      exact ⟨Ne.symm moved, List.nodup_singleton _⟩

theorem handed_of_mem_trail (grounded : Grounded net s)
    (core : net.core gw = true) {visited : NID}
    (member : visited ∈ s.trail net now header gw) :
    s.handed net now header visited = s.handed net now header gw := by
  rw [CoreNetwork.trail] at member
  split at member
  · rw [List.mem_singleton.mp member]
  · rcases List.mem_cons.mp member with rfl | last
    · rfl
    · rw [List.mem_singleton.mp last]
      exact grounded.handed_handed now header core

theorem walk_trail (grounded : Grounded net s) (core : net.core gw = true)
    {fuel : Nat} {path : List NID}
    (walked : walk (s.nextCore net now header) fuel
      (s.handed net now header gw) =
        some (s.handed net now header gw :: path)) :
    ∃ fuel, walk (s.nextCore net now header) fuel gw =
      some (s.trail net now header gw ++ path) := by
  rw [CoreNetwork.trail]
  rcases grounded.handed_cases now header core with
    ⟨same, _⟩ | ⟨moved, next, _, _⟩
  · rw [same] at walked
    rw [if_pos same]
    exact ⟨fuel, walked⟩
  · rw [if_neg moved]
    exact ⟨fuel + 1, by rw [walk_of_move next, walked]; rfl⟩

end Grounded

/-- The packet is led to a core which asks the DHT, and from the core the DHT
names to one which asks it again. -/
def CoreNetwork.LedInCircle (net : CoreNet) (now : Timeval)
    (header : NidHeader) (s : CoreNetwork) (gw : NID) : Prop :=
  s.AsksDht now header (s.handed net now header gw) ∧
    ∃ core, net.coreAt (net.located header.destNIDgw) = some core ∧
      s.AsksDht now header (s.handed net now header core)

namespace Grounded

variable {net : CoreNet} {s : CoreNetwork} {now : Timeval}
  {header : NidHeader} {gw : NID}

theorem not_ends_of_circle (grounded : Grounded net s)
    (core : net.core gw = true) (circle : s.LedInCircle net now header gw)
    (fuel : Nat) : walk (s.nextCore net now header) fuel gw = none := by
  obtain ⟨asks, named, located, asksAgain⟩ := circle
  have namedCore := ((net.coreAt_eq_some_iff _ _).mp located).1
  -- No core whose trail ends at one that asks the DHT ends the walk.
  apply walk_of_closed (S := {visited | net.core visited = true ∧
    s.AsksDht now header (s.handed net now header visited)}) _ ⟨core, asks⟩
  rintro visited ⟨visitedCore, asksThere⟩
  rcases grounded.handed_cases now header visitedCore with
    ⟨same, _⟩ | ⟨_, next, handedCore, again⟩
  · rw [same] at asksThere
    refine ⟨named, ⟨namedCore, asksAgain⟩, ?_⟩
    rw [grounded.nextCore_of_asks asksThere, located]
  · exact ⟨_, ⟨handedCore, by rwa [again]⟩, next⟩

theorem ends_of_not_circle (grounded : Grounded net s)
    (core : net.core gw = true) (noCircle : ¬ s.LedInCircle net now header gw) :
    ∃ fuel path, walk (s.nextCore net now header) fuel gw = some path ∧
      path.Nodup := by
  have ends : ∀ {visited}, net.core visited = true →
      s.nextCore net now header (s.handed net now header visited) = none →
      ∃ fuel, walk (s.nextCore net now header) fuel visited =
        some (s.trail net now header visited) := by
    intro visited visitedCore stop
    obtain ⟨fuel, walked⟩ := grounded.walk_trail now header visitedCore
      (walk_of_stop stop 0)
    rw [List.append_nil] at walked
    exact ⟨fuel, walked⟩
  by_cases asks : s.AsksDht now header (s.handed net now header gw)
  · have next := grounded.nextCore_of_asks asks
    cases located : net.coreAt (net.located header.destNIDgw) with
    | none =>
        obtain ⟨fuel, walked⟩ := ends core (next.trans located)
        exact ⟨fuel, _, walked, trail_nodup now header s net gw⟩
    | some named =>
        have namedCore := ((net.coreAt_eq_some_iff _ _).mp located).1
        have asksNot :
            ¬ s.AsksDht now header (s.handed net now header named) :=
          fun again => noCircle ⟨asks, named, located, again⟩
        obtain ⟨rest, walkedRest⟩ := ends namedCore
          (grounded.nextCore_of_not_asks now header namedCore asksNot)
        have fromHanded : walk (s.nextCore net now header) (rest + 1)
            (s.handed net now header gw) =
              some (s.handed net now header gw ::
                s.trail net now header named) := by
          rw [walk_of_move (next.trans located), walkedRest]
          rfl
        obtain ⟨fuel, walked⟩ :=
          grounded.walk_trail now header core fromHanded
        refine ⟨fuel, _, walked, ?_⟩
        refine List.nodup_append.mpr ⟨trail_nodup now header s net gw,
          trail_nodup now header s net named, ?_⟩
        -- The two trails end at different cores, one of which asks the DHT.
        rintro visited first other second rfl
        have here := grounded.handed_of_mem_trail now header core first
        have there := grounded.handed_of_mem_trail now header namedCore second
        rw [← there, here] at asksNot
        exact asksNot asks
  · obtain ⟨fuel, walked⟩ := ends core
      (grounded.nextCore_of_not_asks now header core asks)
    exact ⟨fuel, _, walked, trail_nodup now header s net gw⟩

end Grounded

/-- No packet visits a core twice, whatever the tables have come to hold. -/
def CoreForwardingTerminates : Prop :=
  ∀ (net : CoreNet) (events : List CoreNetEvent) (outputs : List Unit)
    (s : CoreNetwork),
    (∀ event ∈ events, net.Admits event) →
    (coreNetMachine net).Run net.start events outputs s →
    ∀ (now : Timeval) (sender : NID32) (inputs : NID → NrInput)
      (header : NidHeader) (payload : List UInt8) (gw : NID),
      net.core gw = true → s.Settles net now sender inputs header payload gw

/-- A packet visits no core twice and comes to an end, unless the DHT is asked
both where the packet arrives and where the DHT then leads it. -/
theorem forwarding_settles_iff {net : CoreNet} {events : List CoreNetEvent}
    {outputs : List Unit} {s : CoreNetwork}
    (admitted : ∀ event ∈ events, net.Admits event)
    (run : (coreNetMachine net).Run net.start events outputs s)
    (now : Timeval) (sender : NID32) (inputs : NID → NrInput)
    (header : NidHeader) (payload : List UInt8) {gw : NID}
    (core : net.core gw = true) :
    s.Settles net now sender inputs header payload gw ↔
      ¬ s.LedInCircle net now header gw := by
  have grounded := Grounded.of_run admitted run
  rw [settles_iff]
  constructor
  · rintro ⟨fuel, path, walked, _⟩ circle
    rw [grounded.not_ends_of_circle core circle] at walked
    cases walked
  · exact grounded.ends_of_not_circle core

section Example

/-- One core, which the DHT knows by its own locator. -/
private def loneCore : CoreNet :=
  { core := fun gw => gw = NID.ofNat 7
    config := fun gw => .sample .core gw
    nid_config := fun _ => rfl
    coreAt := fun ip => if ip = NID32.ofNat 10 then some (NID.ofNat 7) else none
    coreAt_eq_some_iff := by
      intro ip gw
      simp only [Option.ite_none_right_eq_some, Option.some.injEq,
        Configuration.sample, decide_eq_true_eq]
      exact ⟨fun both => ⟨both.2.symm, both.1.symm⟩,
        fun both => ⟨both.2.symm, both.1.symm⟩⟩
    home := fun _ => NID.ofNat 7
    located := fun _ => NID32.ofNat 10 }

private def learned : CoreNetEvent :=
  .learn (.ofSec 100) (NID.ofNat 7) (NID.ofNat 7) (NID32.ofNat 10)

/-- For a node of this core which has not registered. -/
private def toAbsent : NidHeader :=
  { type := .data
    srcNID := NID.ofNat 1
    destNID := NID.ofNat 5
    srcNIDgw := NID.ofNat 2
    destNIDgw := NID.ofNat 7 }

/-- The core asks the DHT for itself and sends the packet to itself. -/
theorem not_coreForwardingTerminates : ¬ CoreForwardingTerminates := by
  intro terminates
  have run : (coreNetMachine loneCore).Run loneCore.start [learned] [()]
      (loneCore.start.apply loneCore learned) :=
    Machine.Run.nil.snoc (Machine.total_step_iff.mpr ⟨rfl, rfl⟩)
  have admitted : ∀ event ∈ [learned], loneCore.Admits event := by
    intro event member
    cases List.mem_singleton.mp member
    rfl
  have core : loneCore.core (NID.ofNat 7) = true := by decide +kernel
  have circle : (loneCore.start.apply loneCore learned).LedInCircle loneCore
      (.ofSec 101) toAbsent (NID.ofNat 7) :=
    ⟨by decide +kernel, NID.ofNat 7, by decide +kernel, by decide +kernel⟩
  have settles := terminates loneCore [learned] [()] _ admitted run (.ofSec 101)
    NID32.zero (fun _ => ⟨Buffer.zero maxBufLen, NID32.zero⟩) toAbsent [] _ core
  obtain ⟨fuel, path, walked, _⟩ := (settles_iff ..).mp settles
  rw [(Grounded.of_run admitted run).not_ends_of_circle core circle] at walked
  cases walked

private def coreNids : List NID := [NID.ofNat 7, NID.ofNat 8, NID.ofNat 9]

private def coreLocator (gw : NID) : NID32 :=
  if gw = NID.ofNat 7 then NID32.ofNat 70
  else if gw = NID.ofNat 8 then NID32.ofNat 80
  else NID32.ofNat 90

/-- Three cores, of which 7 is the home of every node. -/
private def threeCores : CoreNet :=
  { core := fun gw => gw ∈ coreNids
    config := fun gw =>
      { Configuration.sample .core gw with locator := coreLocator gw }
    nid_config := fun _ => rfl
    coreAt := fun ip => coreNids.find? fun gw => coreLocator gw = ip
    coreAt_eq_some_iff := by
      intro ip gw
      rw [decide_eq_true_eq]
      exact find?_address_iff (by decide +kernel)
    home := fun _ => NID.ofNat 7
    located := coreLocator }

/-- The node 5 registers below core 8, which tells the home core; core 9 has
asked the DHT where the home core is. -/
private def visitor : List CoreNetEvent :=
  [.control (.ofSec 100) (NID.ofNat 8)
      { type := .registry
        srcNID := NID.ofNat 3
        destNID := NID.ofNat 8
        srcNIDgw := NID.ofNat 7
        destNIDgw := NID.zero
        nid := NID.ofNat 5
        ip := NID32.ofNat 50 },
    .deliver (.ofSec 101) 0,
    .learn (.ofSec 102) (NID.ofNat 9) (NID.ofNat 7) (NID32.ofNat 70)]

/-- From core 9 the packet goes to the home core, from there to the core below
which the node is, and leaves the cores. -/
theorem forwarding_settles_visitor : ∃ outputs s,
    (coreNetMachine threeCores).Run threeCores.start visitor outputs s ∧
      (∀ event ∈ visitor, threeCores.Admits event) ∧
      walk (s.nextCore threeCores (.ofSec 103) toAbsent) 3 (NID.ofNat 9) =
        some [NID.ofNat 9, NID.ofNat 7, NID.ofNat 8] ∧
      s.Settles threeCores (.ofSec 103) NID32.zero
        (fun _ => ⟨Buffer.zero maxBufLen, NID32.zero⟩) toAbsent []
          (NID.ofNat 9) := by
  have evaluated : ((coreNetMachine threeCores).exec threeCores.start
      visitor).any (fun result => decide
        (walk (result.1.nextCore threeCores (.ofSec 103) toAbsent) 3
            (NID.ofNat 9) =
          some [NID.ofNat 9, NID.ofNat 7, NID.ofNat 8] ∧
        ¬ result.1.AsksDht (.ofSec 103) toAbsent
          (result.1.handed threeCores (.ofSec 103) toAbsent
            (NID.ofNat 7)))) = true := by
    decide +kernel
  obtain ⟨outputs, s, run, checked⟩ := Machine.exists_run_of_exec evaluated
  obtain ⟨walked, asksNot⟩ := of_decide_eq_true checked
  have admitted : ∀ event ∈ visitor, threeCores.Admits event := by
    simp only [visitor, List.forall_mem_cons]
    refine ⟨⟨by decide +kernel, by simp, fun _ => ?_⟩, trivial, rfl, ?_⟩
    · exact ⟨by decide +kernel, .inl rfl⟩
    · intro event absent
      cases absent
  refine ⟨outputs, s, run, admitted, walked, (forwarding_settles_iff admitted
    run (.ofSec 103) NID32.zero _ toAbsent [] (by decide +kernel)).mpr ?_⟩
  rintro ⟨_, core, located, asks⟩
  have home : threeCores.coreAt (threeCores.located toAbsent.destNIDgw) =
      some (NID.ofNat 7) := by decide +kernel
  rw [home] at located
  cases located
  exact asksNot asks

end Example

end NodeIdentity
