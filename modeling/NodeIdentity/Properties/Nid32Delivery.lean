import NodeIdentity.Nidd
import NodeIdentity.Properties.FqdnCache
import NodeIdentity.Properties.DataIdentity

/-!
# Delivery to 32-bit addresses

A name is answered with an address made of the last three bytes of its NID.
The DNS handler, the input thread and a new configuration all record a NID
under such an address, and whoever comes last decides where packets go.
-/

namespace NodeIdentity

open NodeIdentity.Library

/-- The threads which share the NID mapper.  `alive` ends with `exit`. -/
structure Nid32System where
  handler : DnsHandler
  phBuf : Buffer maxBufLen
  ph : PhOutput
  nm : NidMapper
  alive : Bool

/-- `accepted` is what `sendto` reports to the input thread, and `dhcp` the
part of a new configuration which these threads see. -/
inductive Nid32Event where
  | query (input : DnsInput)
  | frame (datagram : List UInt8) (accepted : Bool)
  | dhcp (config : Configuration)
  | output (source : PhSource) (datagram : List UInt8)

inductive Nid32Output where
  | queried (log : DnsLog) (resolution : Option Resolution)
  | heard (srcNID : NID)
  | updated (niddns : NID)
  | forwarded (sent : Option PhOutput.Frame)
  deriving DecidableEq

def nid32Step (s : Nid32System) : Nid32Event → Option (Nid32System × Nid32Output)
  | .query input =>
      if s.handler.running then
        (threadDnshandler input s.handler s.nm).map fun round =>
          ({ s with handler := round.state, nm := round.nm },
            .queried round.log round.resolution)
      else none
  | .frame datagram accepted =>
      let turn := threadPhInput datagram accepted s.phBuf s.nm
      some ({ s with phBuf := turn.buf, nm := turn.nm, alive := !turn.exits },
        .heard (nidHeaderCodec.decode turn.buf.bytes).srcNID)
  | .dhcp config =>
      some ({ s with ph := updatePH config s.ph, nm := updateNM config s.nm },
        .updated config.niddns)
  | .output source datagram =>
      let turn := threadPhOutput source datagram s.nm s.ph
      some ({ s with ph := turn.1 }, .forwarded turn.2)

def nid32Machine : Machine Nid32System Nid32Event Nid32Output :=
  { step := fun s event => if s.alive then nid32Step s event else none }

def nid32Start (config : Configuration) (get_dns : Bool) (buffer : DnsBuffer)
    (ansAns : NameBuffer) (phBuf : Buffer maxBufLen) : Nid32System :=
  let start := dnsStart buffer ansAns (mainNidMapper config get_dns)
  ⟨start.handler, phBuf, initPhOutput config, start.nm, true⟩

def textNid (text : NidsText) : Option NID := do
  let nid ← inetPton6 text.nid
  let _ ← inetPton6 text.nidr
  return nid

def DnsLog.recorded : DnsLog → Option NID
  | .hit _ text => textNid text
  | .success _ text => textNid text
  | _ => none

def Nid32Output.recorded : Nid32Output → Option NID
  | .queried log _ => log.recorded
  | .heard srcNID => some srcNID
  | .updated niddns => some niddns
  | .forwarded _ => none

/-- The NID last recorded among those which share an address. -/
def lastRecorded (nid32 : NID32) (outputs : List Nid32Output) : Option NID :=
  lastOf (fun output => output.recorded.filter (nid2nid32 · = nid32)) outputs

theorem lastRecorded_snoc (nid32 : NID32) (outputs : List Nid32Output)
    (output : Nid32Output) :
    lastRecorded nid32 (outputs ++ [output]) =
      (output.recorded.filter (nid2nid32 · = nid32)).or
        (lastRecorded nid32 outputs) :=
  lastOf_snoc _ outputs output

def destination (nid32 : NID32) (nm : NidMapper) : Option NID :=
  (getNMEntry32 nid32 nm).map NMEntry32.nid

/-- At every address but the one which is deleted, only a recorded NID
changes the destination. -/
def Records (nid : Option NID) (before after : NidMapper) : Prop :=
  ∀ nid32, nid32 ≠ NID32.zero →
    destination nid32 after =
      (nid.filter (nid2nid32 · = nid32)).or (destination nid32 before)

theorem records_refl (nm : NidMapper) : Records none nm nm := by
  intro nid32 _
  rfl

theorem records_newNMEntry (nid nidgw : NID) (nm : NidMapper) :
    Records (some nid) nm (newNMEntry nid nidgw nm) := by
  intro nid32 _
  rw [destination, getNMEntry32_newNMEntry, Option.filter_some]
  by_cases same : nid32 = nid2nid32 nid
  · simp [same]
  · simp [same, Ne.symm same, destination]

theorem Records.again {nid : NID} {before after : NidMapper}
    (records : Records (some nid) before after) (nidgw : NID) :
    Records (some nid) before
      (newNMEntry32 (nid2nid32 nid) nid nidgw after) := by
  intro nid32 nonzero
  by_cases same : nid32 = nid2nid32 nid
  · subst same
    simp [destination, getNMEntry32_newNMEntry32_self, Option.filter_some]
  · rw [destination, getNMEntry32_newNMEntry32_of_ne same]
    exact records nid32 nonzero

theorem records_updateNM (config : Configuration) (nm : NidMapper) :
    Records (some config.niddns) nm (updateNM config nm) := by
  intro nid32 nonzero
  rw [destination, getNMEntry32_updateNM, if_neg nonzero, Option.filter_some]
  by_cases same : nid32 = nid2nid32 config.niddns
  · simp [same]
  · simp [same, Ne.symm same, destination]

theorem resolveNids_records {text : NidsText} {nm : NidMapper}
    {resolved : Resolved} (result : resolveNids text nm = some resolved) :
    textNid text = some resolved.nid ∧
      Records (some resolved.nid) nm resolved.nm := by
  simp only [resolveNids, Option.bind_eq_bind, Option.bind_eq_some_iff] at result
  obtain ⟨nid, nidText, nidr, nidrText, result⟩ := result
  cases result
  constructor
  · simp only [textNid, nidText, nidrText]
    rfl
  · rw [dnsNid32_eq]
    exact (records_newNMEntry nid nidr nm).again nidr

theorem textNid_of_unresolved {text : NidsText} {nm : NidMapper}
    (failed : resolveNids text nm = none) : textNid text = none := by
  simp only [resolveNids, Option.bind_eq_bind] at failed
  simp only [textNid, Option.bind_eq_bind]
  cases nidText : inetPton6 text.nid with
  | none => rfl
  | some nid =>
      cases nidrText : inetPton6 text.nidr with
      | none => rfl
      | some nidr =>
          rw [nidText, nidrText] at failed
          cases failed

/-- A round records the NID of its text, and answers with no other. -/
structure RoundRecords (nm : NidMapper) (round : DnsRound) : Prop where
  recorded : Records round.log.recorded nm round.nm
  resolution : ∀ resolution, round.resolution = some resolution →
    round.log.recorded = some resolution.nid

theorem RoundRecords.of_nothing {nm : NidMapper} {round : DnsRound}
    (logged : round.log.recorded = none) (same : round.nm = nm)
    (unanswered : round.resolution = none) : RoundRecords nm round := by
  constructor
  · rw [logged, same]
    exact records_refl nm
  · intro resolution answered
    cases unanswered.symm.trans answered

theorem TextEffect.records {text : NidsText} {nm : NidMapper}
    {round : DnsRound} (effect : TextEffect text nm round)
    (logged : round.log.recorded = textNid text) : RoundRecords nm round := by
  cases effect with
  | unresolved failed _ same unanswered =>
      rw [textNid_of_unresolved failed] at logged
      exact .of_nothing logged same unanswered
  | resolved result changed answers =>
      obtain ⟨nid, records⟩ := resolveNids_records result
      rw [nid] at logged
      constructor
      · rw [logged, changed]
        exact records
      · intro resolution answered
        rw [logged, answers resolution answered]

theorem RoundEffect.records {s : DnsHandler} {nm : NidMapper}
    {round : DnsRound} (effect : RoundEffect s nm round) :
    RoundRecords nm round := by
  cases effect with
  | silent log _ same unanswered =>
      exact .of_nothing (by rw [log]; rfl) same unanswered
  | hit _ log _ _ text => exact text.records (by rw [log]; rfl)
  | success log _ text =>
      exact text.records (by rw [log]; rfl)
  | failure log _ _ same unanswered =>
      exact .of_nothing (by rw [log]; rfl) same unanswered

structure StepRecords (s next : Nid32System) (output : Nid32Output) : Prop where
  recorded : Records output.recorded s.nm next.nm
  resolution : ∀ log resolution, output = .queried log (some resolution) →
    output.recorded = some resolution.nid

theorem nid32Machine_step {s next : Nid32System} {event : Nid32Event}
    {output : Nid32Output}
    (stepped : nid32Machine.step s event = some (next, output)) :
    StepRecords s next output := by
  simp only [nid32Machine] at stepped
  split at stepped
  · cases event with
    | query input =>
        simp only [nid32Step] at stepped
        split at stepped
        · obtain ⟨round, result, pair⟩ := Option.map_eq_some_iff.mp stepped
          cases pair
          have records := (threadDnshandler_effect result).records
          refine ⟨records.recorded, ?_⟩
          intro log resolution answered
          injection answered with _ answer
          exact records.resolution resolution answer
        · cases stepped
    | frame datagram accepted =>
        cases stepped
        have state := threadPhInput_state datagram accepted s.phBuf s.nm
        refine ⟨?_, nofun⟩
        simp only [Nid32Output.recorded, state.1, state.2]
        exact records_newNMEntry _ _ s.nm
    | dhcp config =>
        cases stepped
        exact ⟨records_updateNM config s.nm, nofun⟩
    | output source datagram =>
        cases stepped
        exact ⟨records_refl s.nm, nofun⟩
  · cases stepped

theorem destination_of_run {start s : Nid32System}
    {events : List Nid32Event} {outputs : List Nid32Output}
    (run : nid32Machine.Run start events outputs s) {nid32 : NID32}
    (nonzero : nid32 ≠ NID32.zero) :
    destination nid32 s.nm =
      (lastRecorded nid32 outputs).or (destination nid32 start.nm) := by
  induction run with
  | nil => rfl
  | snoc _ last ih =>
      rw [(nid32Machine_step last).recorded nid32 nonzero, ih,
        lastRecorded_snoc, Option.or_assoc]

theorem recorded_of_run {start s : Nid32System} {events : List Nid32Event}
    {outputs : List Nid32Output}
    (run : nid32Machine.Run start events outputs s) {log : DnsLog}
    {resolution : Resolution}
    (answered : .queried log (some resolution) ∈ outputs) :
    log.recorded = some resolution.nid := by
  have recorded := run.outputs
    (fun output => ∀ log resolution, output = .queried log (some resolution) →
      output.recorded = some resolution.nid)
    (fun stepped => (nid32Machine_step stepped).resolution) _ answered
  exact recorded log resolution rfl

theorem nid2nid32_nonzero (nid : NID) : nid2nid32 nid ≠ NID32.zero := by
  intro equality
  have first : (nid2nid32 nid)[0] = NID32.zero[0] := by rw [equality]
  cases first

theorem nid2nid32_eq_iff {left right : NID} :
    nid2nid32 left = nid2nid32 right ↔ last24bit left = last24bit right := by
  constructor
  · intro same
    rw [last24bit_eq same, last24bit_eq rfl]
  · intro same
    rw [← dnsNid32_eq, ← dnsNid32_eq, dnsNid32, same, dnsNid32]

theorem forward_packet (packet : IpPacket) (nm : NidMapper) (ph : PhOutput) :
    (threadPhOutput .nf2ph packet.bytes nm ph).2.map
        (fun sent => sent.header.destNID) = destination packet.daddr nm := by
  simp only [threadPhOutput, phOutputData, daddr_read, destination]
  cases getNMEntry32 packet.daddr nm with
  | none => rfl
  | some entry => rfl

/-- A packet to the address a name was answered with goes to the NID of the
answer until another NID is given for the name. -/
def NoMisdelivery : Prop :=
  ∀ (config : Configuration) (get_dns : Bool) (buffer : DnsBuffer)
    (ansAns : NameBuffer) (phBuf : Buffer maxBufLen) (events : List Nid32Event)
    (before after : List Nid32Output) (s next : Nid32System) (log : DnsLog)
    (resolution : Resolution) (packet : IpPacket) (sent : PhOutput.Frame),
    nid32Machine.Run (nid32Start config get_dns buffer ansAns phBuf) events
      (before ++ .queried log (some resolution) :: after) s →
    resolution.queryType = typeA →
    (∀ log later, .queried log (some later) ∈ after →
      later.fqdn = resolution.fqdn → later.nid = resolution.nid) →
    packet.daddr = dnsNid32 resolution.nid →
    nid32Machine.step s (.output .nf2ph packet.bytes) =
      some (next, .forwarded (some sent)) →
    sent.header.destNID = resolution.nid

/-- A packet to the address of an answer is always forwarded, to the NID which
was last recorded under that address.  So it goes to the NID of the answer
until another one with the same last three bytes is recorded. -/
theorem forwarded_to_lastRecorded {config : Configuration} {get_dns : Bool}
    {buffer : DnsBuffer} {ansAns : NameBuffer} {phBuf : Buffer maxBufLen}
    {events : List Nid32Event} {before after : List Nid32Output}
    {s next : Nid32System} {log : DnsLog} {resolution : Resolution}
    {packet : IpPacket} {sent : Option PhOutput.Frame}
    (run : nid32Machine.Run (nid32Start config get_dns buffer ansAns phBuf)
      events (before ++ .queried log (some resolution) :: after) s)
    (addressed : packet.daddr = dnsNid32 resolution.nid)
    (forwarded : nid32Machine.step s (.output .nf2ph packet.bytes) =
      some (next, .forwarded sent)) :
    ∃ frame, sent = some frame ∧
      frame.header.destNID =
        (lastRecorded packet.daddr after).getD resolution.nid ∧
      ((∀ output ∈ after, ∀ nid, output.recorded = some nid →
          last24bit nid = last24bit resolution.nid → nid = resolution.nid) →
        frame.header.destNID = resolution.nid) := by
  rw [dnsNid32_eq] at addressed
  have answered := recorded_of_run run
    (List.mem_append_right before List.mem_cons_self)
  have nonzero : packet.daddr ≠ NID32.zero := by
    rw [addressed]
    exact nid2nid32_nonzero resolution.nid
  have known : destination packet.daddr s.nm =
      some ((lastRecorded packet.daddr after).getD resolution.nid) := by
    rw [destination_of_run run nonzero, lastRecorded, lastOf_append,
      lastOf_cons, Nid32Output.recorded, answered, Option.filter_some_pos
        (by simp [addressed]), lastRecorded]
    cases lastOf _ after with
    | none => rfl
    | some nid => rfl
  have turn : sent = (threadPhOutput .nf2ph packet.bytes s.nm s.ph).2 := by
    simp only [nid32Machine] at forwarded
    split at forwarded
    · cases forwarded
      rfl
    · cases forwarded
  have delivered := forward_packet packet s.nm s.ph
  rw [← turn, known] at delivered
  obtain ⟨frame, rfl, destNID⟩ := Option.map_eq_some_iff.mp delivered
  refine ⟨frame, rfl, destNID, ?_⟩
  intro alone
  rw [destNID]
  cases last : lastRecorded packet.daddr after with
  | none => rfl
  | some nid =>
      obtain ⟨output, member, recorded⟩ := exists_of_lastOf last
      obtain ⟨recorded, same⟩ := Option.filter_eq_some_iff.mp recorded
      have tail := of_decide_eq_true same
      rw [addressed, nid2nid32_eq_iff] at tail
      exact alone output member nid recorded tail

section Example

private def freshNode : Nid32System :=
  nid32Start (.sample .node (NID.ofNat 7)) true (Buffer.zero bufferLength)
    (Buffer.zero nameLen) (Buffer.zero maxBufLen)

private def toNidOne : IpPacket :=
  { bytes := List.replicate daddrOffset 0 ++ [1, 0, 0, 1]
    complete := by decide }

private theorem forwarded_of_exec (events : List Nid32Event)
    (holds : Resolution → List Nid32Output → PhOutput.Frame → Bool)
    (found : (nid32Machine.exec freshNode events).any (fun before =>
      match before.2 with
      | .queried _ (some resolution) :: after =>
          (nid32Machine.step before.1 (.output .nf2ph toNidOne.bytes)).any
            fun result =>
              match result.2 with
              | .forwarded (some sent) => holds resolution after sent
              | _ => false
      | _ => false) = true) :
    ∃ log resolution after s next sent,
      nid32Machine.Run freshNode events
        ([] ++ .queried log (some resolution) :: after) s ∧
      nid32Machine.step s (.output .nf2ph toNidOne.bytes) =
        some (next, .forwarded (some sent)) ∧
      holds resolution after sent = true := by
  obtain ⟨outputs, s, run, found⟩ := Machine.exists_run_of_exec found
  split at found
  · next log resolution after shape =>
      obtain ⟨⟨next, output⟩, stepped, found⟩ :=
        (Option.any_eq_true _ _).mp found
      split at found
      · next sent forwarded =>
          rw [show outputs = _ from shape] at run
          rw [show output = _ from forwarded] at stepped
          exact ⟨log, resolution, after, s, next, sent, run, stepped, found⟩
      · cases found
  · cases found

/-- Another name of another address does not redirect the first. -/
theorem forwarded_to_answer : ∃ log resolution after s next sent,
    nid32Machine.Run freshNode
        [.query (letterRound 102 49), .query (letterRound 103 50)]
        ([] ++ .queried log (some resolution) :: after) s ∧
      nid32Machine.step s (.output .nf2ph toNidOne.bytes) =
        some (next, .forwarded (some sent)) ∧
      sent.header.destNID = resolution.nid := by
  obtain ⟨log, resolution, after, s, next, sent, run, forwarded, holds⟩ :=
    forwarded_of_exec
      [.query (letterRound 102 49), .query (letterRound 103 50)]
      (fun resolution after _ =>
        toNidOne.daddr = dnsNid32 resolution.nid ∧
          lastRecorded toNidOne.daddr after = none)
      (by decide +kernel)
  obtain ⟨addressed, alone⟩ := of_decide_eq_true holds
  obtain ⟨frame, same, destNID, _⟩ :=
    forwarded_to_lastRecorded run addressed forwarded
  cases same
  rw [alone] at destNID
  exact ⟨log, resolution, after, s, next, sent, run, forwarded, destNID⟩

/-- A NID which agrees with that of the answer in the last three bytes. -/
private def namesake : NID := NID.ofNat (2 ^ 112 + 1)

/-- One frame of a namesake redirects the packets. -/
theorem not_noMisdelivery : ¬ NoMisdelivery := by
  intro delivery
  obtain ⟨log, resolution, after, s, next, sent, run, forwarded, holds⟩ :=
    forwarded_of_exec
      [.query (letterRound 102 49), .frame (frame
        { type := .data
          srcNID := namesake
          destNID := NID.ofNat 7
          srcNIDgw := NID.ofNat 8
          destNIDgw := NID.ofNat 8 } []) true]
      (fun resolution after sent =>
        resolution.queryType = typeA ∧
          toNidOne.daddr = dnsNid32 resolution.nid ∧
          after = [.heard namesake] ∧ sent.header.destNID ≠ resolution.nid)
      (by decide +kernel)
  obtain ⟨typed, addressed, rfl, wrong⟩ := of_decide_eq_true holds
  apply wrong
  apply delivery _ _ _ _ _ _ _ _ _ _ _ _ _ _ run typed _ addressed forwarded
  intro log later answered
  cases answered with
  | tail _ none => cases none

end Example

end NodeIdentity
