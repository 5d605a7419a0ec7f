import Mathlib.Data.List.InsertIdx
import NodeIdentity.Properties.DataIdentity

/-!
# Bindings learned from frames

Any number of senders, each running `thread_ph_output`, and one receiver which
records the gateway of every sender it hears from.  The receiver believes the
header, so a binding is as true as the header was when the frame was sent.
-/

namespace NodeIdentity

open NodeIdentity.Library

/-- A binding of the NID mapper. -/
structure Binding where
  nid : NID
  nidgw : NID
  deriving DecidableEq

structure FrameNet where
  senders : NID → PhSender
  inFlight : List PhOutput.Frame
  phBuf : Buffer maxBufLen
  nm : NidMapper

/-- `receive` is a turn of `thread_ph_input` on a frame which has arrived;
`accepted` is what `sendto` reports for its packet. -/
inductive FrameEvent where
  | send (sender : NID) (event : PhEvent)
  | receive (index : Nat) (accepted : Bool)
  | lose (index : Nat)

inductive FrameOutput where
  | nothing
  | sent (sender : NID) (sent : Sent)
  | recorded (binding : Binding)

def frameStep (s : FrameNet) : FrameEvent → Option (FrameNet × FrameOutput)
  | .send sender event =>
      let (next, output) := (s.senders sender).apply event
      let senders := Function.update s.senders sender next
      match output with
      | some sent =>
          some ({ s with
            senders := senders
            inFlight := s.inFlight ++ [sent.frame] }, .sent sender sent)
      | none => some ({ s with senders := senders }, .nothing)
  | .receive index accepted => do
      let arrived ← s.inFlight[index]?
      let turn := threadPhInput (frame arrived.header arrived.payload) accepted
        s.phBuf s.nm
      let nh_pt := nidHeaderCodec.decode turn.buf.bytes
      return ({ s with
        inFlight := s.inFlight.eraseIdx index
        phBuf := turn.buf
        nm := turn.nm }, .recorded ⟨nh_pt.srcNID, nh_pt.srcNIDgw⟩)
  | .lose index =>
      some ({ s with inFlight := s.inFlight.eraseIdx index }, .nothing)

def frameMachine : Machine FrameNet FrameEvent FrameOutput := ⟨frameStep⟩

/-- Every sender starts with its own configuration, and no frame is on its way. -/
structure FrameNet.Initial (config : NID → Configuration) (s : FrameNet) :
    Prop where
  own : ∀ nid, (config nid).nid = nid
  senders : ∀ nid, (s.senders nid).ph = initPhOutput (config nid)
  inFlight : s.inFlight = []

/-- The gateway core of a node, as it is configured there. -/
def coreOf (config : NID → Configuration) (nid : NID) : NID :=
  if (config nid).type = .core then nid else (config nid).nidcore

def emissionsOf (sender : NID) (outputs : List FrameOutput) : List Emission :=
  outputs.filterMap fun output =>
    match output with
    | .sent from_nid sent => if from_nid = sender then some sent.emission else none
    | _ => none

/-- A frame which was sent, with what its sender had emitted before. -/
structure Sending where
  sender : NID
  earlier : List Emission
  sent : Sent

/-- The outputs so far and the frames on their way, after one more event. -/
def followFrames (log : List FrameOutput × List Sending) :
    FrameEvent × FrameOutput → List FrameOutput × List Sending
  | (.send _ _, .sent sender sent) =>
      (log.1 ++ [.sent sender sent],
        log.2 ++ [⟨sender, emissionsOf sender log.1, sent⟩])
  | (.send _ _, output) => (log.1 ++ [output], log.2)
  | (.receive index _, output) => (log.1 ++ [output], log.2.eraseIdx index)
  | (.lose index, output) => (log.1 ++ [output], log.2.eraseIdx index)

/-- The frames on their way after a run, each with where it was sent. -/
def onTheirWay (events : List FrameEvent) (outputs : List FrameOutput) :
    List Sending :=
  ((events.zip outputs).foldl followFrames ([], [])).2

/-- The condition for a binding to be true, by the branch which sent the frame:
a packet takes the source from an earlier control message, a control message
takes the gateway from an earlier frame, and a message of the gateway talker
brings both. -/
def TrueBinding (core : NID → NID) (sending : Sending) : Prop :=
  match sending.sent.emission with
  | .data nidcore => nidcore = core (leftSource sending.sender sending.earlier)
  | .control nmsg => leftGateway sending.earlier = core nmsg.srcNID
  | .talker nmsg => nmsg.srcNIDgw = core nmsg.srcNID

def PhOutput.Frame.binding (frame : PhOutput.Frame) : Binding :=
  ⟨frame.header.srcNID, frame.header.srcNIDgw⟩

/-- The header of a frame says what its emission set or earlier emissions of
its sender left. -/
structure Sending.Consistent (sending : Sending) : Prop where
  nid : sending.sent.frame.header.srcNID =
    sending.sent.emission.source.getD
      (leftSource sending.sender sending.earlier)
  nidgw : sending.sent.frame.header.srcNIDgw =
    sending.sent.emission.gateway.getD (leftGateway sending.earlier)

theorem Sending.Consistent.trueBinding_iff {core : NID → NID}
    {sending : Sending} (consistent : sending.Consistent) :
    sending.sent.frame.binding.nidgw = core sending.sent.frame.binding.nid ↔
      TrueBinding core sending := by
  rw [PhOutput.Frame.binding, consistent.nid, consistent.nidgw, TrueBinding]
  cases sending.sent.emission with
  | data nidcore => exact Iff.rfl
  | control nmsg => exact Iff.rfl
  | talker nmsg => exact Iff.rfl

/-- What holds of the senders and of the frames on their way. -/
structure Traced (outputs : List FrameOutput) (flight : List Sending)
    (s : FrameNet) : Prop where
  left : ∀ nid, HeaderLeft nid (emissionsOf nid outputs) (s.senders nid).ph.nh
  frames : s.inFlight = flight.map fun sending => sending.sent.frame
  consistent : ∀ sending ∈ flight, sending.Consistent

theorem emissionsOf_append (nid : NID) (outputs more : List FrameOutput) :
    emissionsOf nid (outputs ++ more) =
      emissionsOf nid outputs ++ emissionsOf nid more :=
  List.filterMap_append

theorem threadPhInput_frame (header : NidHeader) (payload : List UInt8)
    (accepted : Bool) (buf : Buffer maxBufLen) (nm : NidMapper) :
    nidHeaderCodec.decode
        (threadPhInput (frame header payload) accepted buf nm).buf.bytes =
          header ∧
      (threadPhInput (frame header payload) accepted buf nm).nm =
        newNMEntry header.srcNID header.srcNIDgw nm := by
  have read := buf.decode_receive nidHeaderCodec (by decide) header payload
  have state := threadPhInput_state (frame header payload) accepted buf nm
  have header_eq : nidHeaderCodec.decode
      (buf.receive (frame header payload)).bytes = header := read
  rw [header_eq] at state
  rw [state.1, state.2]
  exact ⟨header_eq, rfl⟩

private theorem emissionsOf_output (sender nid : NID) (output : Option Sent) :
    emissionsOf nid [match output with
        | some sent => FrameOutput.sent sender sent
        | none => .nothing] =
      if sender = nid then emissions [output] else [] := by
  cases output with
  | none => simp [emissionsOf, emissions]
  | some sent =>
      by_cases same : sender = nid
      · simp [emissionsOf, emissions, same]
      · simp [emissionsOf, same]

private theorem Traced.left_send {outputs : List FrameOutput}
    {flight : List Sending} {s : FrameNet} (traced : Traced outputs flight s)
    (sender : NID) (event : PhEvent) (nid : NID) :
    let turn := (s.senders sender).apply event
    HeaderLeft nid
      (emissionsOf nid (outputs ++ [match turn.2 with
        | some sent => FrameOutput.sent sender sent
        | none => .nothing]))
      (Function.update s.senders sender turn.1 nid).ph.nh := by
  intro turn
  rw [emissionsOf_append, emissionsOf_output]
  by_cases same : sender = nid
  · subst same
    rw [if_pos rfl, Function.update_self]
    exact (traced.left sender).apply event
  · rw [if_neg same, Function.update_of_ne (Ne.symm same), List.append_nil]
    exact traced.left nid

private theorem Traced.sent_consistent {outputs : List FrameOutput}
    {flight : List Sending} {s : FrameNet} (traced : Traced outputs flight s)
    {sender : NID} {event : PhEvent} {sent : Sent}
    (output : ((s.senders sender).apply event).2 = some sent) :
    Sending.Consistent ⟨sender, emissionsOf sender outputs, sent⟩ := by
  have step := (s.senders sender).apply_nh event
  rw [output] at step
  cases step with
  | sent _ source gateway =>
      rw [(traced.left sender).source] at source
      rw [(traced.left sender).gateway] at gateway
      exact ⟨source, gateway⟩

private theorem Traced.left_quiet {outputs : List FrameOutput}
    {flight : List Sending} {s : FrameNet} (traced : Traced outputs flight s)
    {output : FrameOutput} (quiet : ∀ nid, emissionsOf nid [output] = [])
    (nid : NID) :
    HeaderLeft nid (emissionsOf nid (outputs ++ [output]))
      (s.senders nid).ph.nh := by
  rw [emissionsOf_append, quiet, List.append_nil]
  exact traced.left nid

private theorem Traced.erase {outputs : List FrameOutput}
    {flight : List Sending} {s next : FrameNet}
    (traced : Traced outputs flight s) {output : FrameOutput}
    (quiet : ∀ nid, emissionsOf nid [output] = []) {index : Nat}
    (senders : next.senders = s.senders)
    (inFlight : next.inFlight = s.inFlight.eraseIdx index) :
    Traced (outputs ++ [output]) (flight.eraseIdx index) next := by
  refine ⟨?_, ?_, ?_⟩
  · rw [senders]
    exact traced.left_quiet quiet
  · rw [inFlight, traced.frames, List.eraseIdx_map]
  · intro sending remaining
    exact traced.consistent sending (List.mem_of_mem_eraseIdx remaining)

theorem Traced.step {log : List FrameOutput × List Sending} {s next : FrameNet}
    {event : FrameEvent} {output : FrameOutput}
    (traced : Traced log.1 log.2 s)
    (stepped : frameStep s event = some (next, output)) :
    Traced (followFrames log (event, output)).1
      (followFrames log (event, output)).2 next := by
  cases event with
  | send sender event =>
      have left := traced.left_send sender event
      cases produced : ((s.senders sender).apply event).2 with
      | none =>
          simp only [frameStep, produced, Option.some.injEq,
            Prod.mk.injEq] at stepped
          obtain ⟨rfl, rfl⟩ := stepped
          simp only [produced] at left
          exact ⟨left, traced.frames, traced.consistent⟩
      | some sent =>
          simp only [frameStep, produced, Option.some.injEq,
            Prod.mk.injEq] at stepped
          obtain ⟨rfl, rfl⟩ := stepped
          simp only [produced] at left
          refine ⟨left, ?_, ?_⟩
          · simp only [followFrames, List.map_append, List.map_cons,
              List.map_nil, traced.frames]
          · intro sending member
            rcases List.mem_append.mp member with before | last
            · exact traced.consistent sending before
            · cases List.mem_singleton.mp last
              exact traced.sent_consistent produced
  | receive index accepted =>
      cases found : s.inFlight[index]? with
      | none => simp [frameStep, found] at stepped
      | some arrived =>
          simp only [frameStep, found, Option.bind_eq_bind, Option.bind_some,
            Option.pure_def, Option.some.injEq, Prod.mk.injEq] at stepped
          obtain ⟨rfl, rfl⟩ := stepped
          exact traced.erase (fun _ => rfl) rfl rfl
  | lose index =>
      obtain ⟨rfl, rfl⟩ := Prod.ext_iff.mp (Option.some.inj stepped)
      exact traced.erase (fun _ => rfl) rfl rfl

theorem followFrames_outputs (log : List FrameOutput × List Sending)
    (step : FrameEvent × FrameOutput) :
    (followFrames log step).1 = log.1 ++ [step.2] := by
  obtain ⟨event, output⟩ := step
  cases event with
  | send sender event => cases output <;> rfl
  | receive index accepted => rfl
  | lose index => rfl

private theorem followed_of_run {config : NID → Configuration}
    {start s : FrameNet} {events : List FrameEvent}
    {outputs : List FrameOutput} (initial : start.Initial config)
    (run : frameMachine.Run start events outputs s) :
    let log := (events.zip outputs).foldl followFrames ([], [])
    log.1 = outputs ∧ Traced log.1 log.2 s := by
  induction run with
  | nil =>
      refine ⟨rfl, ?_, initial.inFlight, nofun⟩
      intro nid
      rw [initial.senders nid]
      exact ⟨initial.own nid, rfl⟩
  | snoc earlier last ih =>
      obtain ⟨logged, traced⟩ := ih
      rw [List.zip_append earlier.length_eq, List.foldl_append]
      refine ⟨?_, traced.step last⟩
      exact (followFrames_outputs _ _).trans (congrArg (· ++ [_]) logged)

theorem traced_of_run {config : NID → Configuration} {start s : FrameNet}
    {events : List FrameEvent} {outputs : List FrameOutput}
    (initial : start.Initial config)
    (run : frameMachine.Run start events outputs s) :
    Traced outputs (onTheirWay events outputs) s := by
  obtain ⟨logged, traced⟩ := followed_of_run initial run
  rw [logged] at traced
  exact traced

/-- Every binding recorded from a frame names the gateway core of its node. -/
def BindingsTrue (config : NID → Configuration) : Prop :=
  ∀ (start s next : FrameNet) (events : List FrameEvent)
    (outputs : List FrameOutput) (index : Nat) (accepted : Bool)
    (binding : Binding),
    start.Initial config → frameMachine.Run start events outputs s →
    frameMachine.step s (.receive index accepted) =
      some (next, .recorded binding) →
    binding.nidgw = coreOf config binding.nid

/-- A binding is recorded from the frame which has arrived, and it is true
exactly if the branch which sent that frame found the right fields in place. -/
theorem recorded_true_iff {config : NID → Configuration}
    {start s next : FrameNet} {events : List FrameEvent}
    {outputs : List FrameOutput} {index : Nat} {accepted : Bool}
    {binding : Binding} (initial : start.Initial config)
    (run : frameMachine.Run start events outputs s)
    (received : frameMachine.step s (.receive index accepted) =
      some (next, .recorded binding)) :
    ∃ sending, (onTheirWay events outputs)[index]? = some sending ∧
      binding = sending.sent.frame.binding ∧
      (binding.nidgw = coreOf config binding.nid ↔
        TrueBinding (coreOf config) sending) := by
  have traced := traced_of_run initial run
  cases found : s.inFlight[index]? with
  | none => simp [frameMachine, frameStep, found] at received
  | some arrived =>
      simp only [frameMachine, frameStep, found, Option.bind_eq_bind,
        Option.bind_some, Option.pure_def, Option.some.injEq, Prod.mk.injEq,
        (threadPhInput_frame arrived.header arrived.payload accepted s.phBuf
          s.nm).1, FrameOutput.recorded.injEq] at received
      obtain ⟨_, rfl⟩ := received
      rw [traced.frames, List.getElem?_map, Option.map_eq_some_iff] at found
      obtain ⟨sending, here, rfl⟩ := found
      have consistent :=
        traced.consistent sending (List.mem_of_getElem? here)
      exact ⟨sending, here, rfl, consistent.trueBinding_iff⟩

section Example

private def nodeOf (nid : NID) : Configuration :=
  .sample (if nid = NID.ofNat 2 then .core else .node) nid

private def quietNet : FrameNet :=
  { senders := fun nid => ⟨initPhOutput (nodeOf nid), initNidMapper true⟩
    inFlight := []
    phBuf := Buffer.zero maxBufLen
    nm := initNidMapper true }

private theorem quietNet_initial : quietNet.Initial nodeOf :=
  ⟨fun _ => rfl, fun _ => rfl, rfl⟩

private def update : FrameEvent :=
  .send (NID.ofNat 5) (.rvs (threadRvsUpdate (nodeOf (NID.ofNat 5))))

/-- A core announces where a node of another tree is. -/
private def announcement : NidMsg :=
  { type := .redirectCore
    srcNID := NID.ofNat 2
    destNID := NID.ofNat 7
    srcNIDgw := NID.ofNat 2
    destNIDgw := NID.ofNat 7
    nid := NID.ofNat 5
    ip := NID32.ofNat 10 }

/-- Behind the update of a node, the announcement of a core. -/
private def twoFrames : List FrameEvent :=
  [update, .send (NID.ofNat 2) (.talker announcement)]

private def records (binding : Binding) : FrameOutput → Bool
  | .recorded learnt => learnt = binding
  | _ => false

private theorem received_of_exec (events : List FrameEvent) (index : Nat)
    (binding : Binding)
    (heard : (frameMachine.exec quietNet events).any (fun before =>
      (frameMachine.step before.1 (.receive index true)).any fun after =>
        records binding after.2) = true) :
    ∃ outputs s next, frameMachine.Run quietNet events outputs s ∧
      frameMachine.step s (.receive index true) =
        some (next, .recorded binding) := by
  obtain ⟨outputs, s, run, found⟩ := Machine.exists_run_of_exec heard
  obtain ⟨⟨next, output⟩, stepped, recorded⟩ :=
    (Option.any_eq_true _ _).mp found
  refine ⟨outputs, s, next, run, ?_⟩
  cases output with
  | recorded learnt =>
      rw [← of_decide_eq_true recorded]
      exact stepped
  | nothing => cases recorded
  | sent sender sent => cases recorded

/-- The update of a node carries the zeros of the buffer as its gateway. -/
theorem not_bindingsTrue : ¬ BindingsTrue nodeOf := by
  intro truth
  obtain ⟨outputs, s, next, run, received⟩ :=
    received_of_exec twoFrames 0 ⟨NID.ofNat 5, NID.zero⟩ (by decide +kernel)
  have wrong := truth _ _ _ _ _ _ _ _ quietNet_initial run received
  exact absurd wrong (by decide +kernel)

/-- The announcement is recorded as it is, from the second of the frames. -/
theorem recorded_true_announcement :
    ∃ outputs s next, frameMachine.Run quietNet twoFrames outputs s ∧
      frameMachine.step s (.receive 1 true) =
        some (next, .recorded ⟨NID.ofNat 2, NID.ofNat 2⟩) ∧
      ∃ sending, (onTheirWay twoFrames outputs)[1]? = some sending ∧
        TrueBinding (coreOf nodeOf) sending := by
  obtain ⟨outputs, s, next, run, received⟩ :=
    received_of_exec twoFrames 1 ⟨NID.ofNat 2, NID.ofNat 2⟩
      (by decide +kernel)
  obtain ⟨sending, here, _, truth⟩ :=
    recorded_true_iff quietNet_initial run received
  exact ⟨outputs, s, next, run, received, sending, here,
    truth.mp (by decide +kernel)⟩

end Example

end NodeIdentity
