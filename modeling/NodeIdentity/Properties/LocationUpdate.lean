import Mathlib.Logic.Relation
import NodeIdentity.Mobility
import NodeIdentity.PacketHandler
import NodeIdentity.Rvs
import NodeIdentity.Properties.NextHop
import NodeIdentity.Properties.Registration

/-!
# From a location update to the home core

A location update passes the packet handler and the routing threads of its
node, the rendezvous service and the gateways above it, and ends as a
registration at a core.  On this way nobody changes whose it is and which home
core it names, so what the core decides was settled where the update was
written: in two places, which do not write the same.
-/

namespace NodeIdentity

open NodeIdentity.Library

/-- A host reads a datagram and sends it on: an output thread from the packet
handler or from the input thread, or the input thread to the output thread. -/
inductive Forwards : List UInt8 → List UInt8 → Prop where
  | node {now : Timeval} {datagram packet : List UInt8} {s : NrOutput}
      {ip : NID32} :
      (threadNrOutput now datagram s).sent = some (ip, packet) →
      Forwards datagram packet
  | gateway {role : GatewayRole} {source : NrSource} {now : Timeval}
      {datagram packet : List UInt8} {s : NrOutput} {ip : NID32} :
      (nrTurn role source now datagram s).sent = some (ip, packet) →
      Forwards datagram packet
  | relay {nid : NID} {now : Timeval} {datagram packet : List UInt8}
      {sender : NID32} {s : NrInput} {cm : ConnMapper} :
      (threadNrInputGw nid now (some (datagram, sender)) s cm).nr =
        some packet →
      Forwards datagram packet

/-- The input thread of its destination hands a datagram to the packet
handler. -/
inductive TakenIn : List UInt8 → List UInt8 → Prop where
  | node {nid : NID} {now : Timeval} {datagram packet : List UInt8}
      {sender : NID32} {s : NrInput} {cm : ConnMapper} :
      (threadNrInput nid now (some (datagram, sender)) s cm).nr2ph =
        some packet →
      TakenIn datagram packet
  | gateway {nid : NID} {now : Timeval} {datagram packet : List UInt8}
      {sender : NID32} {s : NrInput} {cm : ConnMapper} :
      (threadNrInputGw nid now (some (datagram, sender)) s cm).nr2ph =
        some packet →
      TakenIn datagram packet

/-- From a channel of the packet handler on one host to the channel of the
control thread on another, whatever the threads on the way hold. -/
inductive Transported (source : PhSource) (nmsg : NidMsg) :
    List UInt8 → Prop where
  | mk {nm nm' : NidMapper} {ph : PhOutput} {sent : PhOutput.Frame}
      {arrived packet datagram : List UInt8} {ok : Bool}
      {buf : Buffer maxBufLen} :
      (threadPhOutput source (nidMsgCodec.encode nmsg) nm ph).2 = some sent →
      Relation.ReflTransGen Forwards (frame sent.header sent.payload) arrived →
      TakenIn arrived packet →
      (threadPhInput packet ok buf nm').ph2co = some datagram →
      Transported source nmsg datagram

theorem Forwards.eq_take {datagram packet : List UInt8}
    (forwards : Forwards datagram packet) :
    packet = datagram.take maxBufLen := by
  cases forwards with
  | node sent =>
      simp only [threadNrOutput, NrOutput.packet_read, Option.some.injEq,
        Prod.mk.injEq] at sent
      exact sent.2.symm
  | @gateway role source now _ _ s ip sent =>
      have routed : ∀ request header state,
          (routeCore request now header (datagram.take maxBufLen) state).sent =
            some (ip, packet) → packet = datagram.take maxBufLen := by
        intro request header state core
        rw [routeCore_sent] at core
        obtain ⟨_, _, pair⟩ := Option.map_eq_some_iff.mp core
        cases pair
        rfl
      cases role with
      | gateway =>
          cases source with
          | nr =>
              simp only [nrTurn, threadNrOutputGw, NrOutput.packet_read,
                Option.some.injEq, Prod.mk.injEq] at sent
              exact sent.2.symm
          | ph2nr =>
              simp only [nrTurn, threadNrOutputGw, NrOutput.packet_read] at sent
              split at sent
              · cases sent
                rfl
              · cases sent
                rfl
      | core =>
          cases source with
          | nr =>
              simp only [nrTurn, threadNrOutputCore, NrOutput.packet_read] at sent
              exact routed _ _ _ sent
          | ph2nr =>
              simp only [nrTurn, threadNrOutputCore, NrOutput.packet_read] at sent
              split at sent
              · cases sent
                rfl
              · exact routed _ _ _ sent
  | relay relayed =>
      simp only [threadNrInputGw, NrInput.recvfrom, Buffer.take_received]
        at relayed
      split at relayed
      · cases relayed
      · cases relayed
        rfl

theorem TakenIn.eq_take {datagram packet : List UInt8}
    (taken : TakenIn datagram packet) : packet = datagram.take maxBufLen := by
  cases taken with
  | node read =>
      simp only [threadNrInput, NrInput.recvfrom, Buffer.take_received] at read
      split at read
      · cases read
        rfl
      · cases read
  | gateway read =>
      simp only [threadNrInputGw, NrInput.recvfrom, Buffer.take_received] at read
      split at read
      · cases read
        rfl
      · cases read

theorem forwarded_short {datagram arrived : List UInt8}
    (short : datagram.length ≤ maxBufLen)
    (forwarded : Relation.ReflTransGen Forwards datagram arrived) :
    arrived = datagram := by
  induction forwarded with
  | refl => rfl
  | tail _ last ih =>
      subst ih
      rw [last.eq_take]
      exact List.take_of_length_le short

theorem threadPhOutput_control {source : PhSource} (control : source ≠ .nf2ph)
    (nmsg : NidMsg) (nm : NidMapper) (ph : PhOutput) :
    ∃ header, header.type = nmsg.type ∧
      (threadPhOutput source (nidMsgCodec.encode nmsg) nm ph).2 =
        some ⟨header, nidMsgCodec.encode nmsg⟩ := by
  obtain ⟨typed, type⟩ := nmsg_typed nmsg
  obtain ⟨header, own, out⟩ := threadPhOutput_typed control typed nm ph
  rw [nmsg_encode_take nmsg (by decide)] at out
  exact ⟨header, own.trans type, out⟩

theorem length_control_frame (header : NidHeader) (nmsg : NidMsg) :
    (frame header (nidMsgCodec.encode nmsg)).length ≤ maxBufLen := by
  have first : (nidHeaderCodec.encode header).length = nhLen :=
    nidHeaderCodec.length_encode header
  have second : (nidMsgCodec.encode nmsg).length = nmsgLen :=
    nidMsgCodec.length_encode nmsg
  rw [frame, List.length_append, first, second]
  decide

theorem Transported.eq_encode {source : PhSource} {nmsg : NidMsg}
    {datagram : List UInt8} (control : source ≠ .nf2ph)
    (transported : Transported source nmsg datagram) :
    datagram = nidMsgCodec.encode nmsg := by
  obtain ⟨output, forwarded, taken, input⟩ := transported
  obtain ⟨header, _, written⟩ := threadPhOutput_control control nmsg _ _
  cases output.symm.trans written
  have short := length_control_frame header nmsg
  have whole := taken.eq_take
  rw [forwarded_short short forwarded, List.take_of_length_le short] at whole
  subst whole
  obtain ⟨passed, dropped⟩ := threadPhInput_ph2co header
    (nidMsgCodec.encode nmsg) _ _ _
  by_cases kind : header.type.ForControl
  · rw [passed kind, nmsg_encode_take nmsg (by decide)] at input
    exact (Option.some.inj input).symm
  · rw [dropped kind] at input
    cases input

theorem transported_encode {source : PhSource} {nmsg : NidMsg}
    (control : source ≠ .nf2ph) (kind : nmsg.type.ForControl)
    (config : Configuration) :
    Transported source nmsg (nidMsgCodec.encode nmsg) := by
  obtain ⟨header, same, written⟩ := threadPhOutput_control control nmsg
    (initNidMapper true) (initPhOutput config)
  have short := length_control_frame header nmsg
  have uncut : frame header ((nidMsgCodec.encode nmsg).take
      (maxBufLen - nhLen)) = frame header (nidMsgCodec.encode nmsg) := by
    rw [← frame_take, List.take_of_length_le short]
  obtain ⟨_, read⟩ := threadNrInput_frame header.destNID (.ofSec 0) header
    (nidMsgCodec.encode nmsg) NID32.zero ⟨Buffer.zero maxBufLen, NID32.zero⟩
    (initConnMapper config)
  rw [if_pos rfl, uncut] at read
  have passed := (threadPhInput_ph2co header (nidMsgCodec.encode nmsg) true
    (Buffer.zero maxBufLen) (initNidMapper true)).1 (same ▸ kind)
  rw [nmsg_encode_take nmsg (by decide)] at passed
  exact ⟨written, .refl, .node read, passed⟩

/-- The two places which write an update. -/
inductive LocationUpdate where
  | periodic
  | handover
  deriving DecidableEq

def LocationUpdate.message (config : Configuration) : LocationUpdate → NidMsg
  | periodic => threadRvsUpdate config
  | handover => rvsUpdate config

/-- A registration which the update leads to reaches the control thread of a
gateway: the first one from the rendezvous node, further ones from the gateway
below. -/
inductive Registers (net : GatewayNet) (update : NidMsg) :
    NID → NidMsg → Prop where
  | rendezvous {config : Configuration} {datagram : List UInt8}
      {now later : Timeval} {buf : NmsgBuffer} {cm : ConnMapper}
      {request ack nmsg : NidMsg} {server : RvsServer} :
      Transported .rvs2ph update datagram →
      (threadControlRvs now datagram buf cm).co2rvs = some request →
      (threadRvsProxyRecv (rvsMsgCodec.decode
        (rvsMain later (rvsMsgCodec.encode (threadRvsProxySend request))
          server).2)).rvs2gwt = some ack →
      Transported .gwt2ph (threadRvs2gw config ack) (nidMsgCodec.encode nmsg) →
      Registers net update config.nidgw nmsg
  | gateway {gw : NID} {now : Timeval} {nmsg emitted next : NidMsg}
      {tables : GatewayTables} :
      Registers net update gw nmsg →
      emitted ∈ (tables.handle .gateway (net.config gw) now nmsg).2 →
      Transported .gwt2ph emitted (nidMsgCodec.encode next) →
      Registers net update (net.config gw).nidgw next

private theorem registry_eq {nmsg next : NidMsg}
    (transported : Transported .gwt2ph nmsg (nidMsgCodec.encode next)) :
    next = nmsg := by
  have same := congrArg nidMsgCodec.decode
    (transported.eq_encode (by decide))
  rwa [nidMsgCodec.decode_encode, nidMsgCodec.decode_encode] at same

/-- What the rendezvous service makes of an update: the acknowledgement keeps
the node and its home core. -/
theorem acknowledged {request ack : NidMsg} (update : request.type = .rvsUpdate)
    {now : Timeval} {server : RvsServer}
    (served : (threadRvsProxyRecv (rvsMsgCodec.decode
      (rvsMain now (rvsMsgCodec.encode (threadRvsProxySend request))
        server).2)).rvs2gwt = some ack) :
    ack.nid = request.nid ∧ ack.srcNIDgw = request.srcNIDgw := by
  have kind : (threadRvsProxySend request).type = .rvsUpdate := update
  rw [(rvsMain_full now _ server).1, rvsMsgCodec.decode_encode,
    RvsMsg.served, kind] at served
  simp only [threadRvsProxyRecv, if_true, Option.some.injEq] at served
  subst served
  exact ⟨rfl, rfl⟩

/-- Every registration of an update is about its node and names the home core
which the update names. -/
theorem Registers.carries {net : GatewayNet} {update : NidMsg}
    (kind : update.type = .rvsUpdate) {gw : NID} {nmsg : NidMsg}
    (registers : Registers net update gw nmsg) :
    nmsg.type = .registry ∧ nmsg.nid = update.nid ∧
      nmsg.srcNIDgw = update.srcNIDgw := by
  induction registers with
  | rendezvous sent control served passed =>
      cases sent.eq_encode (by decide)
      simp only [threadControlRvs, nmsg_receive_full, kind,
        Option.some.injEq] at control
      subst control
      obtain ⟨nid, home⟩ := acknowledged kind served
      cases registry_eq passed
      exact ⟨rfl, nid, home⟩
  | gateway _ emitted passed ih =>
      rw [GatewayTables.handle_gateway_emitted, if_pos ih.1] at emitted
      cases List.mem_singleton.mp emitted
      cases registry_eq passed
      exact ⟨rfl, ih.2⟩

theorem Registers.exists_rendezvous (net : GatewayNet) {update : NidMsg}
    (kind : update.type = .rvsUpdate) (config : Configuration) :
    ∃ nmsg, Registers net update config.nidgw nmsg := by
  have sent : Transported .rvs2ph update (nidMsgCodec.encode update) :=
    transported_encode (by decide) (by rw [kind]; trivial) config
  have control : (threadControlRvs (.ofSec 0) (nidMsgCodec.encode update)
      (Buffer.zero nmsgLen) (initConnMapper config)).co2rvs = some update := by
    simp only [threadControlRvs, nmsg_receive_full, kind]
  have proxied : (threadRvsProxySend update).type = .rvsUpdate := kind
  obtain ⟨ack, served⟩ : ∃ ack, (threadRvsProxyRecv (rvsMsgCodec.decode
      (rvsMain (.ofSec 0) (rvsMsgCodec.encode (threadRvsProxySend update))
        ⟨Buffer.zero rvsBufLen, initRvsTable⟩).2)).rvs2gwt = some ack := by
    rw [(rvsMain_full _ _ _).1, rvsMsgCodec.decode_encode, RvsMsg.served, proxied]
    exact ⟨_, rfl⟩
  exact ⟨_, .rendezvous sent control served
    (transported_encode (by decide) trivial config)⟩

/-- The home core forgets what other cores said; any other core tells the home
core, once, where the node is. -/
def DecidedFor (core : Configuration) (home nid : NID) (before : GatewayTables)
    (after : GatewayTables × List NidMsg) : Prop :=
  if core.nid = home then
    after.1.registry = addRegistry nid NID32.zero before.registry ∧
      after.2 = []
  else
    ∃ nmsg, after.2 = [nmsg] ∧ nmsg.type = .redirectCore ∧
      nmsg.destNID = home ∧ nmsg.destNIDgw = home ∧ nmsg.nid = nid ∧
      nmsg.ip = core.locator

/-- Every core decides for the home core of the node which moved. -/
def UpdatesDecided : Prop :=
  ∀ (net : GatewayNet) (node : Configuration) (update : LocationUpdate)
    (gw : NID) (nmsg : NidMsg) (now : Timeval) (tables : GatewayTables),
    net.role gw = some .core →
    Registers net (update.message node) gw nmsg →
    DecidedFor (net.config gw) node.nidcorehome node.nid tables
      (tables.handle .core (net.config gw) now nmsg)

private theorem decidedFor_iff {core : Configuration} {nmsg : NidMsg}
    (kind : nmsg.type = .registry) (home : NID) (now : Timeval)
    (tables : GatewayTables) :
    DecidedFor core home nmsg.nid tables (tables.handle .core core now nmsg) ↔
      nmsg.srcNIDgw = home := by
  rw [DecidedFor, GatewayTables.handle_core_registry now tables kind,
    GatewayTables.handle_core_sends]
  by_cases here : core.nid = home
  · subst here
    rw [if_pos rfl]
    by_cases named : nmsg.srcNIDgw = core.nid
    · simp [named]
    · simp [named, kind]
  · rw [if_neg here]
    by_cases own : nmsg.srcNIDgw = core.nid
    · simp [own, here]
    · rw [if_pos ⟨kind, own⟩]
      constructor
      · rintro ⟨sent, one, _, dest, _⟩
        cases (List.singleton_injective one)
        exact dest
      · rintro rfl
        exact ⟨_, rfl, rfl, rfl, rfl, rfl, rfl⟩

/-- It does so exactly for the periodic updates, and for those of a node which
has no home core. -/
theorem update_decided_iff {net : GatewayNet} {node : Configuration}
    {update : LocationUpdate} {gw : NID} {nmsg : NidMsg}
    (registers : Registers net (update.message node) gw nmsg) (now : Timeval)
    (tables : GatewayTables) :
    DecidedFor (net.config gw) node.nidcorehome node.nid tables
        (tables.handle .core (net.config gw) now nmsg) ↔
      update = .periodic ∨ node.nidcorehome = NID.zero := by
  cases update with
  | periodic =>
      obtain ⟨kind, own, home⟩ := registers.carries rfl
      have nid : node.nid = nmsg.nid := own.symm
      rw [nid, decidedFor_iff kind]
      exact iff_of_true home (.inl rfl)
  | handover =>
      obtain ⟨kind, own, home⟩ := registers.carries rfl
      have nid : node.nid = nmsg.nid := own.symm
      have unnamed : nmsg.srcNIDgw = NID.zero := home
      rw [nid, decidedFor_iff kind, unnamed]
      simp [eq_comm]

section Example

private theorem nid_sample (type : NodeType) (nid : NID) :
    (Configuration.sample type nid).nid = nid := rfl

private def homeNet : GatewayNet :=
  { role := fun gw => if gw = NID.ofNat 2 then some .core else none
    config := fun gw => .sample .core gw
    nid_config := nid_sample .core }

private def movingNode : Configuration := .sample .node (NID.ofNat 5)

private def homeTables : GatewayTables :=
  { nmsg := Buffer.zero nmsgLen
    cm := initConnMapper movingNode
    rt := initRtable movingNode
    registry := initRegistryTable }

/-- After a handover the home core sends a message to nobody. -/
theorem not_updatesDecided : ¬ UpdatesDecided := by
  intro decided
  obtain ⟨nmsg, registers⟩ := Registers.exists_rendezvous homeNet
    (rfl : (LocationUpdate.handover.message movingNode).type = .rvsUpdate)
    movingNode
  have here := decided homeNet movingNode .handover movingNode.nidgw nmsg
    (.ofSec 100) homeTables (by decide +kernel) registers
  obtain ⟨kind, own, home⟩ := registers.carries rfl
  have nid : movingNode.nid = nmsg.nid := own.symm
  rw [nid, decidedFor_iff kind] at here
  have unnamed : movingNode.nidcorehome = NID.zero := here.symm.trans home
  exact absurd unnamed (by decide +kernel)

/-- A periodic update of the same node is decided at home. -/
theorem update_decided_periodic : ∃ nmsg,
    Registers homeNet (LocationUpdate.periodic.message movingNode)
        movingNode.nidgw nmsg ∧
      DecidedFor (homeNet.config movingNode.nidgw) movingNode.nidcorehome
        movingNode.nid homeTables
        (homeTables.handle .core (homeNet.config movingNode.nidgw) (.ofSec 100)
          nmsg) := by
  obtain ⟨nmsg, registers⟩ := Registers.exists_rendezvous homeNet
    (rfl : (LocationUpdate.periodic.message movingNode).type = .rvsUpdate)
    movingNode
  exact ⟨nmsg, registers,
    (update_decided_iff registers (.ofSec 100) homeTables).mpr (.inl rfl)⟩

end Example

end NodeIdentity
