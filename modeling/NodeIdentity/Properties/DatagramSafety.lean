import NodeIdentity.Library.Machine
import NodeIdentity.PacketHandler

/-!
# Datagrams of any length

What the input threads do with a datagram from the network: the fields they
look at, in a buffer which still has what earlier datagrams left, and the
counts they hand to `write` and `sendto`.  None of them asks how long the
datagram is.
-/

namespace NodeIdentity

open NodeIdentity.Library

/-- A thread looks at a field of its buffer, or hands bytes of it to `write` or
`sendto`. -/
inductive Access where
  | field (offset width : Nat)
  | pass (offset : Nat) (count : Int)

namespace Access

def type : Access := field 0 4

def srcNID : Access := field 4 16

def destNID : Access := field 20 16

def srcNIDgw : Access := field 36 16

def protocol : Access := field (nhLen + protocolOffset) 1

/-- The bytes are among the first `length` of the buffer. -/
def Within (length : Nat) : Access → Prop
  | field offset width => offset + width ≤ length
  | pass offset count => 0 ≤ count ∧ offset + count ≤ length

def handedOn (bytes : List UInt8) : Access → Option (List UInt8)
  | field _ _ => none
  | pass offset count =>
      if 0 ≤ count then some ((bytes.drop offset).take count.toNat) else none

theorem handedOn_field (bytes : List UInt8) (offset width : Nat)
    (rest : List Access) :
    (field offset width :: rest).filterMap (handedOn bytes) =
      rest.filterMap (handedOn bytes) :=
  rfl

theorem handedOn_pass (bytes : List UInt8) (offset : Nat) (count : Int) :
    [pass offset count].filterMap (handedOn bytes) =
      (handedOn bytes (pass offset count)).toList := by
  cases handed : handedOn bytes (pass offset count) with
  | none => simp [handed]
  | some data => simp [handed]

end Access

theorem nidHeader_fields (bytes : List UInt8) :
    (nidHeaderCodec.decode bytes).type = msgTypeCodec.decode bytes ∧
      (nidHeaderCodec.decode bytes).srcNID = nidCodec.decode (bytes.drop 4) ∧
      (nidHeaderCodec.decode bytes).destNID =
        nidCodec.decode (bytes.drop 20) ∧
      (nidHeaderCodec.decode bytes).srcNIDgw =
        nidCodec.decode (bytes.drop 36) := by
  have dest : bytes.drop 20 = (bytes.drop 4).drop 16 := by
    rw [List.drop_drop]
  have gateway : bytes.drop 36 = ((bytes.drop 4).drop 16).drop 16 := by
    rw [List.drop_drop, List.drop_drop]
  rw [dest, gateway]
  exact ⟨rfl, rfl, rfl, rfl⟩

/-- The thread of a node, or of a gateway, which `routes`. -/
def nrInputTurn (routes : Bool) (nid : NID) (now : Timeval)
    (arrival : Option (List UInt8 × NID32)) (s : NrInput) (cm : ConnMapper) :
    NrInputTurn :=
  if routes then threadNrInputGw nid now arrival s cm
  else threadNrInput nid now arrival s cm

/-- What `recvfrom` returns. -/
def recvBytes : Option (List UInt8 × NID32) → Int
  | some (datagram, _) => Buffer.received maxBufLen datagram
  | none => -1

def nrInputAccesses (routes : Bool) (nid : NID)
    (arrival : Option (List UInt8 × NID32)) (s : NrInput) : List Access :=
  if (s.recvfrom arrival).1.header.destNID = nid then
    [.destNID, .srcNID, .pass 0 (recvBytes arrival)]
  else if routes then [.destNID, .pass 0 (recvBytes arrival)]
  else [.destNID]

def phInputAccesses (datagram : List UInt8) (buf : Buffer maxBufLen) :
    List Access :=
  let buf := buf.receive datagram
  let payload : Access :=
    .pass nhLen (Buffer.received maxBufLen datagram - nhLen)
  [.srcNID, .srcNIDgw, .type] ++
    match (nidHeaderCodec.decode buf.bytes).type with
    | .data =>
        match rawSocket ((buf.bytes.drop nhLen).getD protocolOffset 0) with
        | some _ => [.protocol, payload]
        | none => [.protocol]
    | .relocate => []
    | .unknown _ _ => []
    | _ => [payload]

theorem nrInputTurn_handedOn (routes : Bool) (nid : NID) (now : Timeval)
    (arrival : Option (List UInt8 × NID32)) (s : NrInput) (cm : ConnMapper) :
    let turn := nrInputTurn routes nid now arrival s cm
    turn.nr2ph.toList ++ turn.nr.toList =
      (nrInputAccesses routes nid arrival s).filterMap
        (Access.handedOn turn.state.buf.bytes) := by
  have packet : (s.recvfrom arrival).2 =
      Access.handedOn (s.recvfrom arrival).1.buf.bytes
        (.pass 0 (recvBytes arrival)) := by
    cases arrival with
    | none => rfl
    | some received => simp [NrInput.recvfrom, Access.handedOn, recvBytes]
  simp only [nrInputAccesses]
  cases received : s.recvfrom arrival with
  | mk next bytes =>
      rw [received] at packet
      simp only [nrInputTurn, threadNrInput, threadNrInputGw, received, packet]
      by_cases own : next.header.destNID = nid
      · cases routes with
        | false =>
            simp [own, Access.destNID, Access.srcNID, Access.handedOn_field,
              Access.handedOn_pass]
        | true =>
            simp [own, Access.destNID, Access.srcNID, Access.handedOn_field,
              Access.handedOn_pass]
      · cases routes with
        | false => simp [own, Access.destNID, Access.handedOn_field]
        | true =>
            simp [own, Access.destNID, Access.handedOn_field,
              Access.handedOn_pass]

theorem threadPhInput_handedOn (datagram : List UInt8) (sent : Bool)
    (buf : Buffer maxBufLen) (nm : NidMapper) :
    let turn := threadPhInput datagram sent buf nm
    (turn.raw.map Prod.snd).toList ++ turn.ph2co.toList =
      (phInputAccesses datagram buf).filterMap
        (Access.handedOn turn.buf.bytes) := by
  intro turn
  have buffer : turn.buf = buf.receive datagram :=
    (threadPhInput_state datagram sent buf nm).1
  have payload : Access.handedOn (buf.receive datagram).bytes
      (.pass nhLen (Buffer.received maxBufLen datagram - nhLen)) =
        if nhLen ≤ Buffer.received maxBufLen datagram then
          some (((buf.receive datagram).bytes.drop nhLen).take
            (Buffer.received maxBufLen datagram - nhLen))
        else none := by
    simp only [Access.handedOn, Int.sub_nonneg, Int.ofNat_le,
      ← Int.toNat_sub]
  rw [buffer]
  simp only [turn, threadPhInput, phInputAccesses, List.cons_append,
    List.nil_append, Access.srcNID, Access.srcNIDgw, Access.type,
    Access.handedOn_field]
  cases (nidHeaderCodec.decode (buf.receive datagram).bytes).type with
  | data =>
      cases rawSocket (((buf.receive datagram).bytes.drop nhLen).getD
          protocolOffset 0) with
      | none => rfl
      | some socket =>
          simp only [Access.protocol, Access.handedOn_field,
            Access.handedOn_pass, payload]
          by_cases headed : nhLen ≤ Buffer.received maxBufLen datagram
          · simp only [if_pos headed]
            rfl
          · simp only [if_neg headed]
            rfl
  | relocate | unknown => rfl
  | _ =>
      simp only [Access.handedOn_pass, payload]
      rfl

/-- A datagram on its way to `thread_ph_input`: as it came from the network, and
as it was written to `sp_nr2ph`. -/
structure Handed where
  datagram : List UInt8
  bytes : List UInt8

/-- Both input threads and the queue between them.  `running` ends with an
`exit`. -/
structure InputThreads where
  running : Bool
  nrInput : NrInput
  cm : ConnMapper
  nr2ph : List Handed
  phBuf : Buffer maxBufLen
  nm : NidMapper

/-- A turn of the first thread, with what `recvfrom` reports, and one of the
second, where `sent` tells whether the raw socket takes a packet which has an IP
header. -/
inductive InputEvent where
  | arrive (now : Timeval) (arrival : Option (List UInt8 × NID32))
  | handle (sent : Bool)

/-- A turn, by the length of the datagram it is about. -/
structure DatagramTurn where
  length : Nat
  accesses : List Access
  exits : Bool

/-- `sizeof(struct iphdr)`. -/
def ipHdrLen : Nat := 20

/-- Whether the raw socket takes the payload of a frame.  The sockets have
`IP_HDRINCL` set, and refuse what is shorter than an IP header. -/
def sendtoRaw (bytes : List UInt8) (sent : Bool) : Bool :=
  decide (nhLen + ipHdrLen ≤ bytes.length) && sent

def inputStep (routes : Bool) (nid : NID) (s : InputThreads)
    (event : InputEvent) : Option (InputThreads × DatagramTurn) :=
  if s.running then
    match event with
    | .arrive now arrival =>
        let turn := nrInputTurn routes nid now arrival s.nrInput s.cm
        let datagram := (arrival.map Prod.fst).getD []
        some ({ s with
          nrInput := turn.state
          cm := turn.cm
          nr2ph := s.nr2ph ++
            (turn.nr2ph.map fun bytes => ⟨datagram, bytes⟩).toList },
          ⟨datagram.length, nrInputAccesses routes nid arrival s.nrInput,
            false⟩)
    | .handle sent =>
        match s.nr2ph with
        | handed :: rest =>
            let turn := threadPhInput handed.bytes
              (sendtoRaw handed.bytes sent) s.phBuf s.nm
            some ({ s with
              running := !turn.exits
              nr2ph := rest
              phBuf := turn.buf
              nm := turn.nm },
              ⟨handed.datagram.length, phInputAccesses handed.bytes s.phBuf,
                turn.exits⟩)
        | [] => none
  else none

def inputMachine (routes : Bool) (nid : NID) :
    Machine InputThreads InputEvent DatagramTurn :=
  ⟨inputStep routes nid⟩

/-- All accesses are to bytes of the datagram, and the process does not end for
one which is shorter than a header. -/
structure DatagramTurn.Safe (handled : DatagramTurn) : Prop where
  within : ∀ access ∈ handled.accesses, access.Within handled.length
  goesOn : handled.exits = true → nhLen ≤ handled.length

theorem DatagramTurn.safe_running_iff {length : Nat} {accesses : List Access} :
    DatagramTurn.Safe ⟨length, accesses, false⟩ ↔
      ∀ access ∈ accesses, access.Within length := by
  constructor
  · intro safe
    exact safe.within
  · intro within
    refine ⟨within, ?_⟩
    intro exits
    cases exits

/-- The header reaches to `srcNIDgw`, which ends at 52, a data frame has the
protocol of its packet, and a control frame has a whole header. -/
structure FieldsComplete (datagram : List UInt8) : Prop where
  srcNIDgw : 52 ≤ datagram.length
  protocol : msgTypeCodec.decode datagram = .data →
    nhLen + protocolOffset < datagram.length
  header : (msgTypeCodec.decode datagram).ForControl →
    nhLen ≤ datagram.length

/-- What a turn needs: a datagram which reaches to `destNID`, which ends at 36,
and for `thread_ph_input` the fields it looks at. -/
def LongEnough (s : InputThreads) : InputEvent → Prop
  | .arrive _ arrival =>
      ∃ datagram sender, arrival = some (datagram, sender) ∧
        36 ≤ datagram.length
  | .handle _ => ∀ handed ∈ s.nr2ph.head?, FieldsComplete handed.datagram

theorem nrInput_safe_iff (routes : Bool) (nid : NID)
    (arrival : Option (List UInt8 × NID32)) (s : NrInput) :
    (∀ access ∈ nrInputAccesses routes nid arrival s,
      access.Within ((arrival.map Prod.fst).getD []).length) ↔
        ∃ datagram sender, arrival = some (datagram, sender) ∧
          36 ≤ datagram.length := by
  have looks : .destNID ∈ nrInputAccesses routes nid arrival s := by
    unfold nrInputAccesses
    split
    · exact List.mem_cons_self
    · split <;> exact List.mem_cons_self
  constructor
  · intro within
    have dest := within _ looks
    cases arrival with
    | none => simp [Access.destNID, Access.Within] at dest
    | some received => exact ⟨received.1, received.2, rfl, dest⟩
  · rintro ⟨datagram, sender, rfl, long⟩ access member
    have dest : Access.destNID.Within datagram.length := long
    have source : Access.srcNID.Within datagram.length := by
      simp only [Access.srcNID, Access.Within]
      omega
    have packet : (Access.pass 0
        (recvBytes (some (datagram, sender)))).Within datagram.length := by
      simp only [recvBytes, Access.Within, Buffer.received]
      omega
    have known : access = .destNID ∨ access = .srcNID ∨
        access = .pass 0 (recvBytes (some (datagram, sender))) := by
      unfold nrInputAccesses at member
      split at member
      · simpa using member
      · split at member
        · simp only [List.mem_cons, List.not_mem_nil, or_false] at member
          exact member.imp_right .inr
        · exact .inl (List.mem_singleton.mp member)
    rcases known with rfl | rfl | rfl
    · exact dest
    · exact source
    · exact packet

theorem threadPhInput_take (datagram : List UInt8) (sent : Bool)
    (buf : Buffer maxBufLen) (nm : NidMapper) :
    threadPhInput (datagram.take maxBufLen) sent buf nm =
      threadPhInput datagram sent buf nm := by
  simp only [threadPhInput, Buffer.receive_take, Buffer.received_take]

theorem phInputAccesses_take (datagram : List UInt8) (buf : Buffer maxBufLen) :
    phInputAccesses (datagram.take maxBufLen) buf =
      phInputAccesses datagram buf := by
  simp only [phInputAccesses, Buffer.receive_take, Buffer.received_take]

theorem receive_type {datagram : List UInt8}
    (typed : msgTypeCodec.width ≤ datagram.length) (buf : Buffer maxBufLen) :
    (nidHeaderCodec.decode (buf.receive datagram).bytes).type =
      msgTypeCodec.decode datagram :=
  buf.decode_receive_of_prefixed msgTypeCodec_prefixed (by decide) typed

theorem payload_within_iff (datagram : List UInt8) :
    (Access.pass nhLen
      (Buffer.received maxBufLen datagram - nhLen)).Within datagram.length ↔
        nhLen ≤ datagram.length := by
  have room : nhLen ≤ maxBufLen := by decide
  simp only [Access.Within, Buffer.received]
  omega

theorem fieldsComplete_iff {datagram : List UInt8}
    (long : 52 ≤ datagram.length) :
    FieldsComplete datagram ↔
      (msgTypeCodec.decode datagram = .data →
        nhLen + protocolOffset < datagram.length) ∧
      ((msgTypeCodec.decode datagram).ForControl →
        nhLen ≤ datagram.length) := by
  constructor
  · intro fields
    exact ⟨fields.protocol, fields.header⟩
  · intro needs
    exact ⟨long, needs.1, needs.2⟩

theorem phInput_within_iff {datagram : List UInt8}
    (long : 52 ≤ datagram.length) (buf : Buffer maxBufLen) :
    (∀ access ∈ phInputAccesses datagram buf,
      access.Within datagram.length) ↔ FieldsComplete datagram := by
  have header : ∀ access ∈ [Access.srcNID, .srcNIDgw, .type],
      access.Within datagram.length := by
    simp only [List.mem_cons, List.not_mem_nil, or_false, forall_eq_or_imp,
      forall_eq, Access.Within, Access.srcNID, Access.srcNIDgw, Access.type]
    omega
  have type := receive_type ((by decide : msgTypeCodec.width ≤ 52).trans long) buf
  simp only [phInputAccesses, type, List.forall_mem_append]
  rw [and_iff_right header, fieldsComplete_iff long]
  cases msgTypeCodec.decode datagram with
  | data =>
      simp only [MsgType.ForControl, forall_const, false_imp_iff, and_true]
      cases rawSocket (((buf.receive datagram).bytes.drop nhLen).getD
          protocolOffset 0) with
      | none =>
          rw [List.forall_mem_singleton]
          exact Iff.rfl
      | some socket =>
          rw [List.forall_mem_cons, List.forall_mem_singleton,
            payload_within_iff]
          -- the protocol lies behind the header
          constructor
          · intro both
            exact both.1
          · intro inside
            exact ⟨inside, (Nat.le_add_right _ _).trans inside.le⟩
  | relocate | unknown => simp [MsgType.ForControl]
  | _ =>
      rw [List.forall_mem_singleton, payload_within_iff]
      simp [MsgType.ForControl]

theorem threadPhInput_goesOn {datagram : List UInt8} (long : 52 ≤ datagram.length)
    {sent : Bool} {buf : Buffer maxBufLen} {nm : NidMapper}
    (exits : (threadPhInput datagram sent buf nm).exits = true) :
    msgTypeCodec.decode datagram = .data := by
  have type := receive_type ((by decide : msgTypeCodec.width ≤ 52).trans long) buf
  simp only [threadPhInput, type] at exits
  cases kind : msgTypeCodec.decode datagram with
  | data => rfl
  | _ => simp [kind] at exits

theorem phInput_safe_iff (datagram : List UInt8) (sent : Bool)
    (buf : Buffer maxBufLen) (nm : NidMapper) :
    DatagramTurn.Safe ⟨datagram.length, phInputAccesses datagram buf,
        (threadPhInput datagram sent buf nm).exits⟩ ↔
      FieldsComplete datagram := by
  constructor
  · intro safe
    have long : 52 ≤ datagram.length := by
      apply safe.within .srcNIDgw
      simp [phInputAccesses]
    exact (phInput_within_iff long buf).mp safe.within
  · intro complete
    have long := complete.srcNIDgw
    refine ⟨(phInput_within_iff long buf).mpr complete, ?_⟩
    intro exits
    have protocol := complete.protocol (threadPhInput_goesOn long exits)
    exact (Nat.le_add_right _ _).trans protocol.le

theorem threadPhInput_independent {datagram : List UInt8}
    (complete : FieldsComplete datagram) (sent : Bool)
    (buf other : Buffer maxBufLen) (nm : NidMapper) :
    let turn := threadPhInput datagram sent buf nm
    let again := threadPhInput datagram sent other nm
    turn.nm = again.nm ∧ turn.raw = again.raw ∧ turn.ph2co = again.ph2co ∧
      turn.exits = again.exits := by
  have long := complete.srcNIDgw
  have typed : msgTypeCodec.width ≤ datagram.length :=
    (by decide : msgTypeCodec.width ≤ 52).trans long
  have source : ∀ buf : Buffer maxBufLen,
      (nidHeaderCodec.decode (buf.receive datagram).bytes).srcNID =
        nidCodec.decode (datagram.drop 4) := by
    intro buf
    rw [(nidHeader_fields _).2.1]
    exact buf.decode_drop_receive (FixedCodec.bytes_prefixed 16) (by decide)
      ((by decide : 4 + 16 ≤ 52).trans long)
  have gateway : ∀ buf : Buffer maxBufLen,
      (nidHeaderCodec.decode (buf.receive datagram).bytes).srcNIDgw =
        nidCodec.decode (datagram.drop 36) := by
    intro buf
    rw [(nidHeader_fields _).2.2.2]
    exact buf.decode_drop_receive (FixedCodec.bytes_prefixed 16) (by decide)
      long
  have payload : ∀ buf : Buffer maxBufLen,
      ((buf.receive datagram).bytes.drop nhLen).take
          (Buffer.received maxBufLen datagram - nhLen) =
        (datagram.take maxBufLen).drop nhLen := by
    intro buf
    rw [← List.drop_take, Buffer.take_received]
  simp only [threadPhInput, receive_type typed, source, gateway, payload]
  cases kind : msgTypeCodec.decode datagram with
  | data =>
      have byte : ∀ buf : Buffer maxBufLen,
          ((buf.receive datagram).bytes.drop nhLen).getD protocolOffset 0 =
            datagram.getD (nhLen + protocolOffset) 0 := by
        intro buf
        rw [List.getD_eq_getElem?_getD, List.getElem?_drop,
          buf.getElem?_receive (complete.protocol kind) (by decide),
          List.getD_eq_getElem?_getD]
      simp only [byte]
      split
      · split <;> exact ⟨rfl, rfl, rfl, rfl⟩
      · exact ⟨rfl, rfl, rfl, rfl⟩
  | _ => exact ⟨rfl, rfl, rfl, rfl⟩

/-- What is written to `sp_nr2ph` is the datagram, as far as the buffers have
room. -/
def HandedWhole (s : InputThreads) : Prop :=
  ∀ handed ∈ s.nr2ph, handed.bytes = handed.datagram.take maxBufLen

theorem nrInputTurn_nr2ph {routes : Bool} {nid : NID} {now : Timeval}
    {arrival : Option (List UInt8 × NID32)} {s : NrInput} {cm : ConnMapper}
    {bytes : List UInt8}
    (written : (nrInputTurn routes nid now arrival s cm).nr2ph = some bytes) :
    bytes = ((arrival.map Prod.fst).getD []).take maxBufLen := by
  have packet : (s.recvfrom arrival).2 = some bytes := by
    cases routes with
    | false =>
        simp only [nrInputTurn, threadNrInput, Bool.false_eq_true,
          if_false] at written
        split at written
        · exact written
        · cases written
    | true =>
        simp only [nrInputTurn, threadNrInputGw, if_true] at written
        split at written
        · exact written
        · cases written
  cases arrival with
  | none => cases packet
  | some received =>
      cases packet
      exact s.buf.take_received received.1

theorem inputStep_handedWhole {routes : Bool} {nid : NID}
    {s next : InputThreads} {event : InputEvent} {handled : DatagramTurn}
    (whole : HandedWhole s)
    (stepped : (inputMachine routes nid).step s event = some (next, handled)) :
    HandedWhole next := by
  simp only [inputMachine, inputStep] at stepped
  split at stepped
  · cases event with
    | arrive now arrival =>
        cases stepped
        intro handed member
        rcases List.mem_append.mp member with old | new
        · exact whole handed old
        · rw [Option.mem_toList, Option.map_eq_some_iff] at new
          obtain ⟨bytes, written, rfl⟩ := new
          exact nrInputTurn_nr2ph written
    | handle sent =>
        simp only at stepped
        split at stepped
        · next first rest queued =>
            cases stepped
            intro handed member
            apply whole
            rw [queued]
            exact List.mem_cons_of_mem _ member
        · cases stepped
  · cases stepped

theorem inputStep_safe_iff {routes : Bool} {nid : NID}
    {s next : InputThreads} {event : InputEvent} {handled : DatagramTurn}
    (whole : HandedWhole s)
    (stepped : (inputMachine routes nid).step s event = some (next, handled)) :
    handled.Safe ↔ LongEnough s event := by
  simp only [inputMachine, inputStep] at stepped
  split at stepped
  · cases event with
    | arrive now arrival =>
        cases stepped
        rw [LongEnough, DatagramTurn.safe_running_iff]
        exact nrInput_safe_iff routes nid arrival s.nrInput
    | handle sent =>
        simp only at stepped
        split at stepped
        · next first rest queued =>
            cases stepped
            have bytes : first.bytes = first.datagram.take maxBufLen := by
              apply whole
              rw [queued]
              exact List.mem_cons_self
            simp only [LongEnough, queued, List.head?_cons, Option.mem_some_iff,
              forall_eq']
            rw [bytes, threadPhInput_take, phInputAccesses_take]
            exact phInput_safe_iff first.datagram _ s.phBuf s.nm
        · cases stepped
  · cases stepped

/-- The network is quiet when the threads start, whatever their buffers hold. -/
structure InputThreads.Started (s : InputThreads) : Prop where
  quiet : s.nr2ph = []

/-- Every turn of a run is safe exactly if every datagram is long enough for the
turn it is given to. -/
theorem datagrams_safe_iff {routes : Bool} {nid : NID}
    {start final : InputThreads} {events : List InputEvent}
    {outputs : List DatagramTurn} (started : start.Started)
    (run : (inputMachine routes nid).Run start events outputs final) :
    (∀ handled ∈ outputs, handled.Safe) ↔
      ∀ s event, (inputMachine routes nid).Taken start events s event →
        LongEnough s event := by
  have initial : HandedWhole start := by
    intro handed member
    rw [started.quiet] at member
    cases member
  exact run.outputs_iff_allowed_of_invariant initial inputStep_handedWhole
    inputStep_safe_iff

section Example

private def targetNID : NID := NID.ofNat (0x3ffe * 2 ^ 112 + 5)

private def targetFrame : List UInt8 :=
  frame
    { type := .data
      srcNID := NID.ofNat 7
      destNID := targetNID
      srcNIDgw := NID.ofNat 4
      destNIDgw := NID.ofNat 4 }
    [0x45, 0, 0, 20, 0, 0, 0, 0, 64, 6, 0, 0, 1, 0, 0, 7, 1, 0, 0, 5]

private def targetStart : InputThreads :=
  { running := true
    nrInput := ⟨Buffer.zero maxBufLen, NID32.zero⟩
    cm := initConnMapper (.sample .node targetNID)
    nr2ph := []
    phBuf := Buffer.zero maxBufLen
    nm := initNidMapper true }

private def frameArrives : List InputEvent :=
  [.arrive (.ofSec 100) (some (targetFrame, NID32.ofNat 10))]

/-- The packet of a data frame is sent.  The empty datagram behind it is taken
for a data frame too, and the process ends. -/
theorem not_datagrams_safe :
    ¬ ∀ routes nid start final events outputs, InputThreads.Started start →
      (inputMachine routes nid).Run start events outputs final →
        ∀ handled ∈ outputs, DatagramTurn.Safe handled := by
  intro safe
  have ends : ((inputMachine false targetNID).exec targetStart
      (frameArrives ++ [.handle true,
        .arrive (.ofSec 101) (some ([], NID32.ofNat 66)), .handle true])).any
      (fun result => result.2.any fun handled =>
        handled.exits && decide (handled.length = 0)) = true := by
    decide +kernel
  obtain ⟨outputs, final, run, found⟩ := Machine.exists_run_of_exec ends
  obtain ⟨handled, member, short⟩ := List.any_eq_true.mp found
  rw [Bool.and_eq_true, decide_eq_true_eq] at short
  have long := (safe false targetNID targetStart final _ outputs ⟨rfl⟩ run
    handled member).goesOn short.1
  rw [short.2] at long
  exact absurd long (by decide)

/-- The data frame alone is received as it should be. -/
theorem datagrams_safe_frame : ∃ outputs final,
    (inputMachine false targetNID).Run targetStart frameArrives outputs
        final ∧
      ∀ handled ∈ outputs, handled.Safe := by
  have defined : ((inputMachine false targetNID).exec targetStart
      frameArrives).any (fun _ => true) = true := by decide +kernel
  obtain ⟨outputs, final, run, _⟩ := Machine.exists_run_of_exec defined
  refine ⟨outputs, final, run, (datagrams_safe_iff ⟨rfl⟩ run).mpr ?_⟩
  intro s event taken
  cases List.mem_singleton.mp taken.mem
  exact ⟨targetFrame, NID32.ofNat 10, rfl, by decide⟩

end Example

end NodeIdentity
