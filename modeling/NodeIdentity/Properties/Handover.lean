import NodeIdentity.Mobility
import NodeIdentity.Properties.StaticBindings

/-!
# Handover

A node which moved tells the peers in its connection map where it is now.  The
list of peers is exactly what a lookup would serve.  At the peer, frames and
redirections write the same entry, and the last one to arrive wins.
-/

namespace NodeIdentity

open NodeIdentity.Library

/-- A handover inside a domain addresses each live peer once, and nobody
else. -/
theorem handover_redirects_peers {config : Configuration}
    {now later : Timeval} {count : Nat} {cm : ConnMapper}
    (second : 1 ≤ count) :
    let turn := threadMobility config .intradomain now later true count cm
    (∀ nmsg ∈ turn.mo2ph, nmsg.type = .redirect ∧ nmsg.nid = config.nid ∧
      nmsg.srcNID = config.nid ∧ nmsg.ip = config.locator) ∧
    ∀ nid, (∀ queueTable,
      turn.mo2ph.filter (fun nmsg => nmsg.destNID = nid) =
        if (getCMEntry nid now cm queueTable).found then
          [redirectMsg config nid]
        else []) ∧
      (nid ∈ turn.mo2ph.map NidMsg.destNID ↔
        ∃ lease, cm.LiveEntry now nid lease) := by
  intro turn
  have written : turn.mo2ph =
      ((getAllConnections now cm).map Prod.fst).map (redirectMsg config) := by
    have handover : count + 1 ≥ 2 := Nat.succ_le_succ second
    simp only [turn, threadMobility, if_true, if_pos handover, List.map_map]
    rfl
  rw [written]
  refine ⟨?_, ?_⟩
  · intro nmsg member
    obtain ⟨peer, _, rfl⟩ := List.mem_map.mp member
    exact ⟨rfl, rfl, rfl, rfl⟩
  · intro nid
    constructor
    · intro queueTable
      have addressed : ((getAllConnections now cm).map Prod.fst).filter
          ((fun nmsg : NidMsg => decide (nmsg.destNID = nid)) ∘
            redirectMsg config) =
          List.replicate
            (((getAllConnections now cm).map Prod.fst).count nid) nid :=
        List.filter_eq nid
      rw [List.filter_map, addressed]
      by_cases live : ∃ lease, cm.LiveEntry now nid lease
      · have once := List.count_eq_one_of_mem (nodup_getAllConnections now cm)
          (mem_getAllConnections.mpr live)
        rw [once, if_pos (getCMEntry_found_iff.mpr live)]
        rfl
      · have absent := List.count_eq_zero_of_not_mem
          (fun member => live (mem_getAllConnections.mp member))
        rw [absent, if_neg fun found => live (getCMEntry_found_iff.mp found)]
        rfl
    · rw [List.map_map]
      exact (congrArg (nid ∈ ·) (List.map_id _)).to_iff.trans
        mem_getAllConnections

/-- The connection map sends packets for a NID to `ip`. -/
def MapsTo (cm : ConnMapper) (nid : NID) (ip : NID32) : Prop :=
  ∃ lease, cm.leases nid = some lease ∧ lease.value = ip

/-- What happens at a peer of a node which moves from `old` to its present
locator: it receives data frames of the node from both, redirections from the
present one, and data frames of others, and its threads take their turns. -/
inductive HandoverEvent (mobile peer : Configuration) (old : NID32) :
    NodeEvent → Prop where
  | before {now : Timeval} {header : NidHeader} {payload : List UInt8} :
      0 < now.tvSec → header.srcNID = mobile.nid →
      header.destNID = peer.nid → header.type = .data →
      HandoverEvent mobile peer old
        (.arrive now (some (frame header payload, old)))
  | after {now : Timeval} {header : NidHeader} {payload : List UInt8} :
      0 < now.tvSec → header.srcNID = mobile.nid →
      header.destNID = peer.nid → header.type = .data →
      HandoverEvent mobile peer old
        (.arrive now (some (frame header payload, mobile.locator)))
  | redirect {now : Timeval} {header : NidHeader} :
      0 < now.tvSec → header.srcNID = mobile.nid →
      header.destNID = peer.nid → header.type = .redirect →
      HandoverEvent mobile peer old
        (.arrive now (some (frame header
          (nidMsgCodec.encode (redirectMsg mobile peer.nid)), mobile.locator)))
  | other {now : Timeval} {header : NidHeader} {payload : List UInt8}
      {sender : NID32} :
      header.srcNID ≠ mobile.nid → header.type = .data →
      HandoverEvent mobile peer old
        (.arrive now (some (frame header payload, sender)))
  | handle (now : Timeval) (sent : Bool) :
      HandoverEvent mobile peer old (.handle now sent)
  | control {now : Timeval} :
      0 < now.tvSec → HandoverEvent mobile peer old (.control now)

def FromOld (mobile : Configuration) (old : NID32) : NodeEvent → Prop
  | .arrive _ (some (datagram, sender)) =>
      (nidHeaderCodec.decode datagram).srcNID = mobile.nid ∧ sender = old
  | _ => False

/-- A frame waiting for the packet handler: data, or a redirection. -/
def PeerFrame (mobile peer : Configuration) (datagram : List UInt8) : Prop :=
  ∃ header payload, datagram = frame header payload ∧
    (header.type = .data ∨ header.type = .redirect ∧
      payload = nidMsgCodec.encode (redirectMsg mobile peer.nid))

/-- Only the redirection ever waits for the control thread, and the node has
no static entry at the peer. -/
structure Redirected (mobile peer : Configuration) (s : NodeInput) : Prop where
  frames : ∀ datagram ∈ s.nr2ph, PeerFrame mobile peer datagram
  messages : ∀ datagram ∈ s.ph2co,
    datagram = nidMsgCodec.encode (redirectMsg mobile peer.nid)
  renewable : ∀ lease, s.cm.leases mobile.nid = some lease →
    ¬ lease.Permanent

theorem fromOld_frame_iff {mobile : Configuration} {old sender : NID32}
    {now : Timeval} {header : NidHeader} {payload : List UInt8} :
    FromOld mobile old (.arrive now (some (frame header payload, sender))) ↔
      header.srcNID = mobile.nid ∧ sender = old := by
  have read : nidHeaderCodec.decode (frame header payload) = header :=
    nidHeaderCodec.decode_append header payload
  rw [FromOld, read]

theorem mapsTo_congr {cm other : ConnMapper} {nid : NID}
    (same : other.leases nid = cm.leases nid) (ip : NID32) :
    MapsTo other nid ip ↔ MapsTo cm nid ip := by
  rw [MapsTo, same, MapsTo]

theorem mapsTo_newCMEntry_self {cm : ConnMapper} {nid : NID}
    (renewable : ∀ lease, cm.leases nid = some lease → ¬ lease.Permanent)
    (ip other : NID32) (now : Timeval) :
    MapsTo (newCMEntry nid ip now cm) nid other ↔ ip = other := by
  have lease := (congrFun (leases_newCMEntry nid ip now cm) nid).trans
    (LeaseTable.refresh_self _ renewable ip now.tvSec)
  simp [MapsTo, lease]

theorem renewable_newCMEntry {cm : ConnMapper} {nid : NID} {now : Timeval}
    (renewable : ∀ lease, cm.leases nid = some lease → ¬ lease.Permanent)
    (dated : 0 < now.tvSec) (ip : NID32) :
    ∀ lease, (newCMEntry nid ip now cm).leases nid = some lease →
      ¬ lease.Permanent := by
  intro lease held permanent
  rw [leases_newCMEntry, LeaseTable.refresh_self _ renewable] at held
  cases held
  exact Nat.ne_of_gt dated permanent

private theorem Redirected.taken_in {mobile peer : Configuration}
    {s : NodeInput} (redirected : Redirected mobile peer s) {now : Timeval}
    (dated : 0 < now.tvSec) {header : NidHeader} (payload : List UInt8)
    (source : header.srcNID = mobile.nid) (dest : header.destNID = peer.nid)
    (handed : PeerFrame mobile peer
      (frame header (payload.take (maxBufLen - nhLen))))
    (sender old : NID32) :
    let turn := threadNrInput peer.nid now (some (frame header payload, sender))
      s.nrInput s.cm
    Redirected mobile peer { s with
      nrInput := turn.state
      cm := turn.cm
      nr2ph := s.nr2ph ++ turn.nr2ph.toList } ∧
      (MapsTo turn.cm mobile.nid old ↔ sender = old) := by
  obtain ⟨cm, nr2ph⟩ := threadNrInput_frame peer.nid now header payload sender
    s.nrInput s.cm
  rw [if_pos dest, source] at cm
  rw [if_pos dest] at nr2ph
  simp only [cm, nr2ph]
  refine ⟨⟨?_, redirected.messages, ?_⟩,
    mapsTo_newCMEntry_self redirected.renewable sender old now⟩
  · intro datagram member
    rcases List.mem_append.mp member with waiting | new
    · exact redirected.frames datagram waiting
    · cases List.mem_singleton.mp new
      exact handed
  · exact renewable_newCMEntry redirected.renewable dated sender

private theorem Redirected.other {mobile peer : Configuration}
    {s : NodeInput} (redirected : Redirected mobile peer s) (now : Timeval)
    {header : NidHeader} (payload : List UInt8)
    (source : header.srcNID ≠ mobile.nid) (data : header.type = .data)
    (sender old : NID32) :
    let turn := threadNrInput peer.nid now (some (frame header payload, sender))
      s.nrInput s.cm
    Redirected mobile peer { s with
      nrInput := turn.state
      cm := turn.cm
      nr2ph := s.nr2ph ++ turn.nr2ph.toList } ∧
      (MapsTo turn.cm mobile.nid old ↔ MapsTo s.cm mobile.nid old) := by
  obtain ⟨cm, nr2ph⟩ := threadNrInput_frame peer.nid now header payload sender
    s.nrInput s.cm
  have lease : (threadNrInput peer.nid now
      (some (frame header payload, sender)) s.nrInput s.cm).cm.leases
        mobile.nid = s.cm.leases mobile.nid := by
    rw [cm]
    split
    · rw [leases_newCMEntry, LeaseTable.refresh_of_ne _ (Ne.symm source)]
    · rfl
  refine ⟨⟨?_, redirected.messages, ?_⟩, mapsTo_congr lease old⟩
  · intro datagram member
    rcases List.mem_append.mp member with waiting | new
    · exact redirected.frames datagram waiting
    · rw [nr2ph] at new
      split at new
      · cases List.mem_singleton.mp new
        exact ⟨header, _, rfl, .inl data⟩
      · cases new
  · rw [lease]
    exact redirected.renewable

private theorem Redirected.control {mobile peer : Configuration}
    {s next : NodeInput} {output : Unit} {now : Timeval}
    (redirected : Redirected mobile peer s) (dated : 0 < now.tvSec)
    (stepped : (nodeMachine peer).step s (.control now) = some (next, output))
    (old : NID32) :
    Redirected mobile peer next ∧
      (MapsTo next.cm mobile.nid old ↔ mobile.locator = old) := by
  have alive : s.running = true := by
    by_contra stopped
    simp [nodeMachine, nodeStep, stopped] at stepped
  simp only [nodeMachine, nodeStep, if_pos alive] at stepped
  cases queue : s.ph2co with
  | nil => simp [queue] at stepped
  | cons datagram rest =>
      simp only [queue] at stepped
      cases stepped
      have message := redirected.messages datagram (by simp [queue])
      subst message
      have written : (threadControl now
          (nidMsgCodec.encode (redirectMsg mobile peer.nid)) s.nmsg s.cm
            s.queueTable).cm =
            newCMEntry mobile.nid mobile.locator now s.cm := by
        simp only [threadControl, nmsg_receive_full]
        rfl
      simp only [written]
      refine ⟨⟨redirected.frames, ?_, ?_⟩,
        mapsTo_newCMEntry_self redirected.renewable mobile.locator old now⟩
      · intro waiting member
        exact redirected.messages waiting (by simp [queue, member])
      · exact renewable_newCMEntry redirected.renewable dated mobile.locator

theorem Redirected.step {mobile peer : Configuration} {old : NID32}
    {s next : NodeInput} {event : NodeEvent} {output : Unit}
    (redirected : Redirected mobile peer s)
    (moved : mobile.locator ≠ old)
    (admitted : HandoverEvent mobile peer old event)
    (stepped : (nodeMachine peer).step s event = some (next, output)) :
    Redirected mobile peer next ∧
      (¬ MapsTo s.cm mobile.nid old →
        (¬ MapsTo next.cm mobile.nid old ↔ ¬ FromOld mobile old event)) := by
  have alive : s.running = true := by
    by_contra stopped
    simp [nodeMachine, nodeStep, stopped] at stepped
  simp only [nodeMachine, nodeStep, if_pos alive] at stepped
  cases admitted with
  | @before now header payload dated source dest data =>
      cases stepped
      obtain ⟨kept, mapped⟩ := redirected.taken_in dated payload
        source dest ⟨header, _, rfl, .inl data⟩ old old
      refine ⟨kept, fun _ => ?_⟩
      rw [mapped, fromOld_frame_iff]
      simp [source]
  | @after now header payload dated source dest data =>
      cases stepped
      obtain ⟨kept, mapped⟩ := redirected.taken_in dated payload
        source dest ⟨header, _, rfl, .inl data⟩ mobile.locator old
      refine ⟨kept, fun _ => ?_⟩
      rw [mapped, fromOld_frame_iff]
      simp [moved]
  | @redirect now header dated source dest redirect =>
      cases stepped
      have whole : (nidMsgCodec.encode (redirectMsg mobile peer.nid)).take
          (maxBufLen - nhLen) =
            nidMsgCodec.encode (redirectMsg mobile peer.nid) :=
        nmsg_encode_take _ (by decide)
      obtain ⟨kept, mapped⟩ := redirected.taken_in dated _ source dest
        ⟨header, _, rfl, .inr ⟨redirect, whole⟩⟩ mobile.locator old
      refine ⟨kept, fun _ => ?_⟩
      rw [mapped, fromOld_frame_iff]
      simp [moved]
  | @other now header payload sender source data =>
      cases stepped
      obtain ⟨kept, mapped⟩ := redirected.other now payload source data sender
        old
      refine ⟨kept, fun safe => ?_⟩
      rw [mapped, fromOld_frame_iff]
      simp [safe, source]
  | handle now sent =>
      cases queue : s.nr2ph with
      | nil => simp [queue] at stepped
      | cons datagram rest =>
          simp only [queue] at stepped
          cases stepped
          refine ⟨⟨?_, ?_, redirected.renewable⟩, fun safe => iff_of_true safe id⟩
          · intro waiting member
            exact redirected.frames waiting (by simp [queue, member])
          · obtain ⟨header, payload, rfl, kind⟩ :=
              redirected.frames datagram (by simp [queue])
            intro message member
            obtain ⟨passed, dropped⟩ := threadPhInput_ph2co header payload sent
              s.phBuf s.nm
            rcases List.mem_append.mp member with before | new
            · exact redirected.messages message before
            · rcases kind with data | ⟨redirect, rfl⟩
              · rw [dropped (by simp [data, MsgType.ForControl])] at new
                cases new
              · rw [passed (by simp [redirect, MsgType.ForControl])] at new
                rw [List.mem_singleton.mp new]
                exact nmsg_encode_take _ (by decide)
  | @control now dated =>
      have turn : (nodeMachine peer).step s (.control now) =
          some (next, output) := by
        simp only [nodeMachine, nodeStep, if_pos alive]
        exact stepped
      obtain ⟨kept, mapped⟩ := redirected.control dated turn old
      refine ⟨kept, fun _ => iff_of_true ?_ id⟩
      rw [mapped]
      exact moved

/-- No frame and no message ever takes a handover back. -/
def HandoverKept : Prop :=
  ∀ (mobile peer : Configuration) (old : NID32)
    (start s applied final : NodeInput) (before after : List NodeEvent)
    (now : Timeval) (outputs more : List Unit),
    mobile.locator ≠ old → start.nr2ph = [] → start.ph2co = [] →
    (∀ lease, start.cm.leases mobile.nid = some lease →
      ¬ lease.Permanent) →
    0 < now.tvSec →
    (∀ event ∈ before ++ after, HandoverEvent mobile peer old event) →
    (nodeMachine peer).Run start before outputs s →
    (nodeMachine peer).step s (.control now) = some (applied, ()) →
    (nodeMachine peer).Run applied after more final →
    ∀ state, (nodeMachine peer).Visited applied after state →
      ¬ MapsTo state.cm mobile.nid old

/-- Once the peer has applied the redirection, its map sends packets for the
node to the old locator again exactly if a frame from there still arrives. -/
theorem handover_kept_iff {mobile peer : Configuration} {old : NID32}
    {start s applied final : NodeInput} {before after : List NodeEvent}
    {now : Timeval} {outputs more : List Unit}
    (moved : mobile.locator ≠ old) (noFrames : start.nr2ph = [])
    (noMessages : start.ph2co = [])
    (renewable : ∀ lease, start.cm.leases mobile.nid = some lease →
      ¬ lease.Permanent)
    (dated : 0 < now.tvSec)
    (admitted : ∀ event ∈ before ++ after, HandoverEvent mobile peer old event)
    (first : (nodeMachine peer).Run start before outputs s)
    (control : (nodeMachine peer).step s (.control now) = some (applied, ()))
    (rest : (nodeMachine peer).Run applied after more final) :
    (∀ state, (nodeMachine peer).Visited applied after state →
        ¬ MapsTo state.cm mobile.nid old) ↔
      ∀ event ∈ after, ¬ FromOld mobile old event := by
  have initial : Redirected mobile peer start := by
    refine ⟨?_, ?_, renewable⟩
    · intro datagram member
      rw [noFrames] at member
      cases member
    · intro datagram member
      rw [noMessages] at member
      cases member
  have reached : Redirected mobile peer s :=
    first.invariant_among initial
      (fun holds here stepped => (holds.step moved here stepped).1)
      (fun event member => admitted event (List.mem_append_left _ member))
  obtain ⟨kept, mapped⟩ := reached.control dated control old
  have safe : ¬ MapsTo applied.cm mobile.nid old := by
    rw [mapped]
    exact moved
  have exactly := rest.safe_iff_allowed_among kept safe
    (fun holds here stepped => (holds.step moved here stepped).1)
    (fun holds here admitted stepped =>
      (holds.step moved admitted stepped).2 here)
    (fun event member => admitted event (List.mem_append_right _ member))
  rw [exactly]
  constructor
  · intro allowed event member
    obtain ⟨state, taken⟩ := rest.taken_of_mem member
    exact allowed state event taken
  · intro allowed state event taken
    exact allowed event taken.mem

section Example

private def movedNode : Configuration :=
  { Configuration.sample .node (NID.ofNat 5) with locator := NID32.ofNat 60 }

private def oldLocator : NID32 := NID32.ofNat 50

private def peerNode : Configuration := .sample .node (NID.ofNat 1)

private def peerStart : NodeInput :=
  { running := true
    nrInput := ⟨Buffer.zero maxBufLen, NID32.zero⟩
    nr2ph := []
    phBuf := Buffer.zero maxBufLen
    nm := initNidMapper true
    ph2co := []
    nmsg := Buffer.zero nmsgLen
    cm := nodeConnMapper peerNode
    queueTable := initRvsQueueTable }

private def headerOf (type : MsgType) : NidHeader :=
  { type := type
    srcNID := movedNode.nid
    destNID := peerNode.nid
    srcNIDgw := NID.zero
    destNIDgw := NID.zero }

private def redirection : List NodeEvent :=
  [.arrive (.ofSec 100) (some (frame (headerOf .redirect)
      (nidMsgCodec.encode (redirectMsg movedNode peerNode.nid)),
        movedNode.locator)),
    .handle (.ofSec 100) true]

private def dataFrom (sender : NID32) : NodeEvent :=
  .arrive (.ofSec 101) (some (frame (headerOf .data) [], sender))

private theorem redirection_event {sender : NID32}
    (known : sender = oldLocator ∨ sender = movedNode.locator) :
    ∀ event ∈ redirection ++ [dataFrom sender],
      HandoverEvent movedNode peerNode oldLocator event := by
  intro event member
  simp only [redirection, List.cons_append, List.nil_append, List.mem_cons,
    List.not_mem_nil, or_false] at member
  rcases member with rfl | rfl | rfl
  · exact .redirect (by decide) rfl rfl rfl
  · exact .handle _ _
  · rcases known with rfl | rfl
    · exact .before (by decide) rfl rfl rfl
    · exact .after (by decide) rfl rfl rfl

private theorem peerStart_renewable (lease : Lease NID32)
    (held : peerStart.cm.leases movedNode.nid = some lease) :
    ¬ lease.Permanent := by
  have none : peerStart.cm.leases movedNode.nid = none := by decide +kernel
  cases none.symm.trans held

private theorem handover_of_exec (sender : NID32)
    (property : NodeInput × List Unit → Bool)
    (found : ((nodeMachine peerNode).exec peerStart redirection).any
      (fun first => ((nodeMachine peerNode).step first.1
        (.control (.ofSec 100))).any fun second =>
          ((nodeMachine peerNode).exec second.1 [dataFrom sender]).any
            property) = true) :
    ∃ outputs s applied more final,
      (nodeMachine peerNode).Run peerStart redirection outputs s ∧
      (nodeMachine peerNode).step s (.control (.ofSec 100)) =
        some (applied, ()) ∧
      (nodeMachine peerNode).Run applied [dataFrom sender] more final ∧
      property (final, more) = true := by
  obtain ⟨outputs, s, first, found⟩ := Machine.exists_run_of_exec found
  obtain ⟨⟨applied, _⟩, control, found⟩ := (Option.any_eq_true _ _).mp found
  obtain ⟨more, final, rest, holds⟩ := Machine.exists_run_of_exec found
  exact ⟨outputs, s, applied, more, final, first, control, rest, holds⟩

/-- A data frame which was on its way takes the handover back. -/
theorem not_handoverKept : ¬ HandoverKept := by
  intro kept
  obtain ⟨outputs, s, applied, more, final, first, control, rest, back⟩ :=
    handover_of_exec oldLocator
      (fun result => (result.1.cm.leases movedNode.nid).any
        fun lease => lease.value = oldLocator) (by decide +kernel)
  obtain ⟨lease, held, value⟩ := (Option.any_eq_true _ _).mp back
  refine kept movedNode peerNode oldLocator peerStart s applied final _ _ _
    outputs more (by decide +kernel) rfl rfl peerStart_renewable (by decide)
    (redirection_event (.inl rfl)) first control rest final
    ⟨_, [], more, (List.append_nil _).symm, rest⟩ ?_
  exact ⟨lease, held, of_decide_eq_true value⟩

/-- Frames from the new locator leave the handover in place. -/
theorem handover_kept_after_new : ∃ outputs s applied more final,
    (nodeMachine peerNode).Run peerStart redirection outputs s ∧
      (nodeMachine peerNode).step s (.control (.ofSec 100)) =
        some (applied, ()) ∧
      (nodeMachine peerNode).Run applied [dataFrom movedNode.locator] more
        final ∧
      (∀ event ∈ redirection ++ [dataFrom movedNode.locator],
        HandoverEvent movedNode peerNode oldLocator event) ∧
      (∀ event ∈ [dataFrom movedNode.locator],
        ¬ FromOld movedNode oldLocator event) ∧
      ¬ MapsTo final.cm movedNode.nid oldLocator := by
  obtain ⟨outputs, s, applied, more, final, first, control, rest, _⟩ :=
    handover_of_exec movedNode.locator (fun _ => true) (by decide +kernel)
  have admitted : ∀ event ∈ redirection ++ [dataFrom movedNode.locator],
      HandoverEvent movedNode peerNode oldLocator event :=
    redirection_event (.inr rfl)
  have noneOld : ∀ event ∈ [dataFrom movedNode.locator],
      ¬ FromOld movedNode oldLocator event := by
    intro event member
    cases List.mem_singleton.mp member
    rw [dataFrom, fromOld_frame_iff]
    exact fun both => absurd both.2 (by decide +kernel)
  have kept := (handover_kept_iff (by decide +kernel) rfl rfl
    peerStart_renewable (by decide) admitted first control rest).mpr noneOld
  exact ⟨outputs, s, applied, more, final, first, control, rest, admitted,
    noneOld, kept final ⟨_, [], more, (List.append_nil _).symm, rest⟩⟩

/-- Two live peers, one of them served statically. -/
theorem handover_redirects_two :
    (threadMobility movedNode .intradomain (.ofSec 104) (.ofSec 104) true 1
      (newCMEntry (NID.ofNat 9) (NID32.ofNat 90) (.ofSec 100)
        peerStart.cm)).mo2ph.filter (fun nmsg => nmsg.destNID = NID.ofNat 9) =
      [redirectMsg movedNode (NID.ofNat 9)] := by
  rw [((handover_redirects_peers le_rfl).2 (NID.ofNat 9)).1 initRvsQueueTable,
    if_pos (by decide +kernel)]

end Example

end NodeIdentity
