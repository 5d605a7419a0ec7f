import NodeIdentity.Properties.RendezvousFlow
import NodeIdentity.Properties.RendezvousService

/-!
# The rendezvous host

The daemon and the server run on the same host and talk to each other over two
sockets, whose datagrams the kernel may drop, and which take those of other
hosts as well.  Seen from outside, the host is a service which handles one
request after another and remembers the updates: what it sends for the requests
of its nodes are the answers of such a service, in the order in which the
requests arrived.
-/

namespace NodeIdentity

open NodeIdentity.Library

/-- `asked` counts the datagrams the server has read, and `replies` wait for
`thread_rvs_proxy_recv`.  The clock is that of the server. -/
structure RvsHost where
  daemon : DaemonState
  server : RvsServer
  clock : Nat
  asked : Nat
  replies : List (List UInt8)

/-- The daemon moves without its server, the server serves the next request,
the daemon receives the next reply, or the kernel drops one of these.  Neither
of them looks at the sender of a datagram: the server may get one from another
host, whose answer goes there, and the daemon may find another record in its
`rvs_msg`, of which a short datagram changes the first bytes only. -/
inductive RvsHostEvent where
  | thread (event : DaemonEvent)
  | serve (now : Timeval)
  | receive
  | dropRequest
  | dropReply
  | foreignRequest (now : Timeval) (datagram : List UInt8)
  | foreignReply (rvs_msg : RvsMsg)

def Input.isReply : Input → Bool
  | .reply _ => true
  | _ => false

namespace RvsHostEvent

def OfDaemon : DaemonEvent → Prop
  | .input _ input => input.isReply = false
  | .read _ _ _ => True
  | .write _ => True

instance : DecidablePred OfDaemon := fun event => by
  cases event with
  | input thread input =>
      exact inferInstanceAs (Decidable (input.isReply = false))
  | read => exact isTrue trivial
  | write => exact isTrue trivial

def Drops : RvsHostEvent → Prop
  | dropRequest => True
  | dropReply => True
  | _ => False

def WellFormed : RvsHostEvent → Prop
  | thread event => event.Admits Input.WellFormed
  | _ => True

/-- No other host sends a registration in place of the server. -/
def Spared : RvsHostEvent → Prop
  | foreignReply rvs_msg => rvs_msg.type ≠ .registry
  | _ => True

/-- The requests for a host among the datagrams of the network. -/
def requests (nid : NID) : RvsHostEvent → List NidMsg
  | thread event =>
      event.entering (ownControl nid MsgType.IsRequest id)
  | _ => []

def foreignRequests : RvsHostEvent → List (Timeval × List UInt8)
  | foreignRequest now datagram => [(now, datagram)]
  | _ => []

def foreignReplies : RvsHostEvent → List NidMsg
  | foreignReply rvs_msg => [(threadRvsProxyRecv rvs_msg).rvs2ph]
  | _ => []

end RvsHostEvent

section Rvs

variable (options : MainOptions) (capacity : Pipe → Nat)

def rvsHost : Machine RvsHost RvsHostEvent Unit :=
  { step := fun h event =>
      match event with
      | .thread event =>
          if RvsHostEvent.OfDaemon event then
            ((daemon options .rvs capacity).step h.daemon event).map
              fun moved => ({ h with daemon := moved.1 }, ())
          else none
      | .serve now =>
          match (h.daemon.queue .rvs)[h.asked]? with
          | some parcel =>
              if h.clock ≤ now.tvSec then
                let served := rvsMain now parcel.bytes h.server
                some ({ h with
                  server := served.1
                  clock := now.tvSec
                  asked := h.asked + 1
                  replies := h.replies ++ [served.2] }, ())
              else none
          | none => none
      | .receive =>
          match h.replies with
          | reply :: rest =>
              ((daemon options .rvs capacity).step h.daemon
                (.input .rvsProxyRecv (.reply (rvsMsgCodec.decode reply)))).map
                  fun moved =>
                    ({ h with
                      daemon := moved.1
                      replies := rest }, ())
          | [] => none
      | .dropRequest =>
          if h.asked < (h.daemon.queue .rvs).length then
            some ({ h with asked := h.asked + 1 }, ())
          else none
      | .dropReply =>
          match h.replies with
          | _ :: rest => some ({ h with replies := rest }, ())
          | [] => none
      | .foreignRequest now datagram =>
          if h.clock ≤ now.tvSec then
            some ({ h with
              server := (rvsMain now datagram h.server).1
              clock := now.tvSec }, ())
          else none
      | .foreignReply rvs_msg =>
          ((daemon options .rvs capacity).step h.daemon
            (.input .rvsProxyRecv (.reply rvs_msg))).map
              fun moved => ({ h with daemon := moved.1 }, ()) }

def bootHost (memory : Memory) (buf : Buffer rvsBufLen) (began : Nat) :
    RvsHost :=
  { daemon := bootState memory
    server := ⟨buf, initRvsTable⟩
    clock := began
    asked := 0
    replies := [] }

def RvsHost.Drained (h : RvsHost) : Prop :=
  (NodeIdentity.daemon options .rvs capacity).Drained h.daemon ∧
    h.asked = (h.daemon.queue .rvs).length ∧ h.replies = []

end Rvs

/-- The answer to a request, by the requests handled before it. -/
def RvsRequest.answer (earlier : List RvsRequest) (request : RvsRequest) :
    NidMsg :=
  { type := if request.nmsg.type = .rvsUpdate then .rvsAck else .rvsResponse
    srcNID := request.nmsg.destNID
    destNID := request.nmsg.srcNID
    srcNIDgw := request.nmsg.srcNIDgw
    destNIDgw := request.nmsg.destNIDgw
    nid := request.nmsg.nid
    ip :=
      if request.nmsg.type = .rvsUpdate then request.nmsg.ip
      else registered request.nmsg.nid request.now earlier }

/-- A request as the server has it; a short datagram leaves some of an earlier
one. -/
def HeardAs (query : Timeval × List UInt8) (request : RvsRequest) : Prop :=
  request.now = query.1 ∧ (rvsMsgCodec.width ≤ query.2.length →
    request.nmsg = (rvsMsgCodec.decode query.2).nmsg)

/-- Requests of the daemon stand on the left, those of other hosts on the
right. -/
abbrev RvsLog : Type := List (RvsRequest ⊕ RvsRequest)

def RvsLog.all (handled : RvsLog) : List RvsRequest :=
  handled.map (Sum.elim id id)

/-- The answers to the daemon when requests are handled one after another. -/
def answersFrom (earlier : List RvsRequest) : RvsLog → List NidMsg
  | [] => []
  | .inl request :: rest =>
      request.answer earlier :: answersFrom (earlier ++ [request]) rest
  | .inr request :: rest => answersFrom (earlier ++ [request]) rest

theorem answersFrom_append (earlier : List RvsRequest)
    (first second : RvsLog) :
    answersFrom earlier (first ++ second) = answersFrom earlier first ++
      answersFrom (earlier ++ first.all) second := by
  induction first generalizing earlier with
  | nil => simp [answersFrom, RvsLog.all]
  | cons request rest ih =>
      cases request <;>
        simp only [List.cons_append, answersFrom, ih, RvsLog.all,
          List.map_cons, Sum.elim_inl, Sum.elim_inr, id, List.append_assoc,
          List.nil_append]

theorem handle_answer {s : RvsServer} {clock : Nat}
    {earlier : List RvsRequest} (answers : Answers s.rvsTable clock earlier)
    {request : RvsRequest} (order : clock ≤ request.now.tvSec)
    (asks : request.nmsg.type.IsRequest) :
    (s.handle request).2.rvs2ph = request.answer earlier := by
  rw [(s.handle_eq request).1]
  rcases asks with update | get
  · have kind : (threadRvsProxySend request.nmsg).type = .rvsUpdate := update
    simp only [RvsMsg.served, kind, threadRvsProxyRecv, RvsRequest.answer,
      if_pos update]
    rfl
  · have kind : (threadRvsProxySend request.nmsg).type = .rvsGet := get
    have other : request.nmsg.type ≠ .rvsUpdate := by
      rw [get]
      decide
    have ip := answers request.nmsg.nid request.now order
    simp only [RvsMsg.served, kind, threadRvsProxyRecv, RvsRequest.answer,
      if_neg other, ← ip]
    rfl

theorem answer_isAnswer (earlier : List RvsRequest) (request : RvsRequest) :
    (request.answer earlier).type.IsAnswer := by
  unfold RvsRequest.answer
  split
  · exact .inl rfl
  · exact .inr rfl

theorem exists_heardAs (now : Timeval) (datagram : List UInt8)
    (s : RvsServer) : ∃ request : RvsRequest, HeardAs (now, datagram) request ∧
      (rvsMain now datagram s).1.rvsTable =
        (s.handle request).1.rvsTable := by
  have table : (rvsMain now datagram s).1.rvsTable =
      (rvsMsgCodec.decode (s.buf.receive
        (datagram.take (rvsBufLen - 1))).bytes).tableAfter now s.rvsTable := by
    rw [rvsMain, RvsMsg.tableAfter]
    split <;> simp_all
  refine ⟨⟨now, (rvsMsgCodec.decode (s.buf.receive
    (datagram.take (rvsBufLen - 1))).bytes).nmsg⟩, ⟨rfl, fun whole => ?_⟩, ?_⟩
  · have inside : rvsMsgCodec.width ≤ rvsBufLen - 1 := by decide
    have read : rvsMsgCodec.decode (datagram.take (rvsBufLen - 1)) =
        rvsMsgCodec.decode datagram := by
      rw [← rvsMsgCodec_prefixed, List.take_take, Nat.min_eq_left inside,
        rvsMsgCodec_prefixed]
    have long : rvsMsgCodec.width ≤ (datagram.take (rvsBufLen - 1)).length := by
      rw [List.length_take]
      exact Nat.le_min.mpr ⟨inside, whole⟩
    rw [s.buf.decode_receive_of_prefixed rvsMsgCodec_prefixed (by decide) long,
      read]
  · rw [table, (s.handle_eq _).2]
    rfl

/-- What a service has done by the time its clock shows. -/
structure Serves (handled : List RvsRequest) (s : RvsServer) (clock : Nat) :
    Prop where
  answers : Answers s.rvsTable clock handled
  past : ∀ request ∈ handled, request.now.tvSec ≤ clock
  ordered : handled.Pairwise fun a b => a.now.tvSec ≤ b.now.tvSec

theorem Serves.handle {handled : List RvsRequest} {s next : RvsServer}
    {clock : Nat} (serves : Serves handled s clock) {request : RvsRequest}
    (order : clock ≤ request.now.tvSec)
    (table : next.rvsTable = (s.handle request).1.rvsTable) :
    Serves (handled ++ [request]) next request.now.tvSec := by
  constructor
  · rw [table, (s.handle_eq request).2]
    exact serves.answers.handle order
  · intro other member
    rcases List.mem_append.mp member with earlier | last
    · exact (serves.past other earlier).trans order
    · cases List.mem_singleton.mp last
      exact le_rfl
  · apply List.pairwise_append.mpr
    refine ⟨serves.ordered, List.pairwise_singleton _ _, ?_⟩
    intro earlier before later last
    cases List.mem_singleton.mp last
    exact (serves.past earlier before).trans order

/-- Part of a list, and all of it where nothing has been dropped. -/
def KeptOf {α : Type} (events : List RvsHostEvent) (part whole : List α) :
    Prop :=
  part.Sublist whole ∧ ((∀ event ∈ events, ¬ event.Drops) → part = whole)

namespace KeptOf

variable {α : Type} {events : List RvsHostEvent} {part whole : List α}

theorem later (kept : KeptOf events part whole) (event : RvsHostEvent) :
    KeptOf (events ++ [event]) part whole :=
  ⟨kept.1, fun none => kept.2 fun earlier member =>
    none earlier (List.mem_append_left _ member)⟩

theorem snoc (kept : KeptOf events part whole) (last : List α) :
    KeptOf events (part ++ last) (whole ++ last) :=
  ⟨kept.1.append (List.Sublist.refl last), fun none => by rw [kept.2 none]⟩

theorem dropped (fewer : part.Sublist whole) {event : RvsHostEvent}
    (drops : event.Drops) : KeptOf (events ++ [event]) part whole :=
  ⟨fewer, fun none =>
    (none event (List.mem_append_right _ List.mem_cons_self) drops).elim⟩

end KeptOf

/-- What `thread_rvs_proxy_recv` makes of a datagram of the server. -/
def replyOf (reply : List UInt8) : NidMsg :=
  (threadRvsProxyRecv (rvsMsgCodec.decode reply)).rvs2ph

theorem type_replyOf (reply : List UInt8) :
    (replyOf reply).type = (rvsMsgCodec.decode reply).type :=
  rfl

section Rvs

variable (options : MainOptions) (capacity : Pipe → Nat) (memory : Memory)
  (buf : Buffer rvsBufLen) (began : Nat)

/-- A run of the host is a run of the daemon, and requests which the server has
handled, which see each other's messages.  Messages of the server stand on the
left of what the daemon has taken. -/
structure HostTrace (events : List RvsHostEvent) (h : RvsHost)
    (made : List DaemonEvent) (moves : List DaemonMove) (handled : RvsLog)
    (taken : List (NidMsg ⊕ NidMsg)) : Prop where
  daemon : (daemon options .rvs capacity).machine.Run (bootState memory) made
    moves h.daemon
  formed : ∀ event ∈ made, event.Admits (Input.Served fun _ => True)
  spared : (∀ event ∈ events, event.Spared) →
    ∀ event ∈ made, event.Admits (Input.Served (· ≠ .registry))
  arrived : made.flatMap (ThreadNetwork.Event.entering
      (ownControl memory.config.nid MsgType.IsRequest id)) =
    events.flatMap (RvsHostEvent.requests memory.config.nid)
  serves : Serves handled.all h.server h.clock
  heard : List.Forall₂ HeardAs (events.flatMap RvsHostEvent.foreignRequests)
    (handled.filterMap Sum.getRight?)
  within : h.asked ≤ (h.daemon.queue .rvs).length
  read : KeptOf events ((handled.filterMap Sum.getLeft?).map RvsRequest.nmsg)
    (((h.daemon.queue .rvs).take h.asked).flatMap Parcel.asked)
  answers : ∀ reply ∈ h.replies, (rvsMsgCodec.decode reply).type.IsAnswer
  replies : made.flatMap (ThreadNetwork.Event.entering Input.replies) =
    taken.map (Sum.elim id id)
  foreign : taken.filterMap Sum.getRight? =
    events.flatMap RvsHostEvent.foreignReplies
  own : KeptOf events
    (taken.filterMap Sum.getLeft? ++ h.replies.map replyOf)
    (answersFrom [] handled)

variable {memory buf began} {events : List RvsHostEvent} {h next : RvsHost}
  {made : List DaemonEvent} {moves : List DaemonMove} {handled : RvsLog}
  {taken : List (NidMsg ⊕ NidMsg)}

theorem HostTrace.boot :
    HostTrace options capacity memory []
      (bootHost memory buf began) [] [] [] [] where
  daemon := .nil
  formed := fun _ absent => nomatch absent
  spared := fun _ _ absent => nomatch absent
  arrived := rfl
  serves :=
    { answers := answers_of_run .nil
      past := fun _ absent => nomatch absent
      ordered := .nil }
  heard := .nil
  within := Nat.zero_le _
  read := ⟨List.Sublist.refl [], fun _ => rfl⟩
  answers := fun _ absent => nomatch absent
  replies := rfl
  foreign := rfl
  own := ⟨List.Sublist.refl [], fun _ => rfl⟩

theorem take_asked {s next : DaemonState} {event : DaemonEvent}
    {move : DaemonMove} {asked : Nat}
    (stepped : (daemon options .rvs capacity).step s event = some (next, move))
    (within : asked ≤ (s.queue .rvs).length) :
    (next.queue .rvs).take asked = (s.queue .rvs).take asked ∧
      asked ≤ (next.queue .rvs).length := by
  have unread : ∀ memory thread,
      (daemon options .rvs capacity).reads memory thread .rvs = false :=
    exit_unread options capacity rfl
  obtain ⟨more, grown⟩ := ThreadNetwork.queue_grows unread stepped
  rw [← grown]
  refine ⟨List.take_append_of_le_length within, ?_⟩
  rw [List.length_append]
  omega

section Trace

variable (trace : HostTrace options capacity memory events h made
  moves handled taken)
include trace

theorem HostTrace.move {event : DaemonEvent} {outer : RvsHostEvent}
    {state : DaemonState} {move : DaemonMove} {more : List (NidMsg ⊕ NidMsg)}
    {rest : List (List UInt8)}
    (stepped : (NodeIdentity.daemon options .rvs capacity).step h.daemon event =
      some (state, move))
    (formed : event.Admits (Input.Served fun _ => True))
    (spared : outer.Spared → event.Admits (Input.Served (· ≠ .registry)))
    (requests : event.entering
      (ownControl memory.config.nid MsgType.IsRequest id) =
        outer.requests memory.config.nid)
    (nearby : outer.foreignRequests = [])
    (replies : event.entering Input.replies = more.map (Sum.elim id id))
    (foreign : more.filterMap Sum.getRight? = outer.foreignReplies)
    (own : more.filterMap Sum.getLeft? ++ rest.map replyOf =
      h.replies.map replyOf)
    (waiting : ∀ reply ∈ rest, reply ∈ h.replies) :
    HostTrace options capacity memory (events ++ [outer])
      { h with
        daemon := state
        replies := rest } (made ++ [event]) (moves ++ [move]) handled
      (taken ++ more) := by
  obtain ⟨same, within⟩ := take_asked options capacity stepped trace.within
  constructor
  · exact trace.daemon.snoc stepped
  · exact List.forall_mem_append.mpr
      ⟨trace.formed, List.forall_mem_singleton.mpr formed⟩
  · intro all
    obtain ⟨before, last⟩ := List.forall_mem_append.mp all
    have here := spared (List.forall_mem_singleton.mp last)
    exact List.forall_mem_append.mpr
      ⟨trace.spared before, List.forall_mem_singleton.mpr here⟩
  · rw [List.flatMap_append, List.flatMap_append, trace.arrived,
      List.flatMap_singleton, List.flatMap_singleton, requests]
  · exact trace.serves
  · rw [List.flatMap_append, List.flatMap_singleton, nearby, List.append_nil]
    exact trace.heard
  · exact within
  · rw [same]
    exact trace.read.later _
  · exact fun reply member => trace.answers reply (waiting reply member)
  · rw [List.flatMap_append, List.flatMap_singleton, trace.replies, replies,
      List.map_append]
  · rw [List.filterMap_append, List.flatMap_append, List.flatMap_singleton,
      trace.foreign, foreign]
  · rw [List.filterMap_append, List.append_assoc, own]
    exact trace.own.later _

theorem HostTrace.thread {event : DaemonEvent} {state : DaemonState}
    {move : DaemonMove} (formed : event.Admits Input.WellFormed)
    (own : RvsHostEvent.OfDaemon event)
    (stepped : (NodeIdentity.daemon options .rvs capacity).step h.daemon event =
      some (state, move)) :
    HostTrace options capacity memory (events ++ [.thread event])
      { h with daemon := state } (made ++ [event]) (moves ++ [move]) handled
      taken := by
  have quiet : event.entering Input.replies =
      ([] : List (NidMsg ⊕ NidMsg)).map (Sum.elim id id) := by
    cases event with
    | input thread input =>
        cases input with
        | reply rvs_msg => cases own
        | _ => rfl
    | _ => rfl
  have admitted : ∀ allowed, event.Admits (Input.Served allowed) := by
    intro allowed
    cases event with
    | input thread input =>
        cases input with
        | reply rvs_msg => cases own
        | _ => exact formed
    | _ => trivial
  have moved : HostTrace options capacity memory (events ++ [.thread event]) _ _
      _ _ _ :=
    trace.move options capacity stepped (admitted _) (fun _ => admitted _) rfl
      rfl quiet rfl (List.nil_append _) (fun _ member => member)
  rwa [List.append_nil] at moved

theorem HostTrace.receive {reply : List UInt8} {rest : List (List UInt8)}
    {state : DaemonState} {move : DaemonMove}
    (front : h.replies = reply :: rest)
    (stepped : (NodeIdentity.daemon options .rvs capacity).step h.daemon
      (.input .rvsProxyRecv (.reply (rvsMsgCodec.decode reply))) =
        some (state, move)) :
    HostTrace options capacity memory (events ++ [.receive])
      { h with
        daemon := state
        replies := rest }
      (made ++ [.input .rvsProxyRecv (.reply (rvsMsgCodec.decode reply))])
      (moves ++ [move]) handled (taken ++ [.inl (replyOf reply)]) := by
  have answer := trace.answers reply (front ▸ List.mem_cons_self)
  apply trace.move options capacity stepped trivial
  · intro _ registry
    rw [registry] at answer
    rcases answer with ack | response
    · cases ack
    · cases response
  · rfl
  · rfl
  · rfl
  · rfl
  · rw [front]
    rfl
  · intro other member
    rw [front]
    exact List.mem_cons_of_mem _ member

theorem HostTrace.foreignReply {rvs_msg : RvsMsg} {state : DaemonState}
    {move : DaemonMove}
    (stepped : (NodeIdentity.daemon options .rvs capacity).step h.daemon
      (.input .rvsProxyRecv (.reply rvs_msg)) = some (state, move)) :
    HostTrace options capacity memory
      (events ++ [.foreignReply rvs_msg]) { h with daemon := state }
      (made ++ [.input .rvsProxyRecv (.reply rvs_msg)]) (moves ++ [move])
      handled (taken ++ [.inr (threadRvsProxyRecv rvs_msg).rvs2ph]) :=
  trace.move options capacity stepped trivial (fun spared => spared) rfl rfl
    rfl rfl rfl (fun _ member => member)

theorem HostTrace.serve {now : Timeval} {parcel : Parcel}
    (front : (h.daemon.queue .rvs)[h.asked]? = some parcel)
    (order : h.clock ≤ now.tvSec) :
    ∃ request, HostTrace options capacity memory
      (events ++ [.serve now])
      { h with
        server := (rvsMain now parcel.bytes h.server).1
        clock := now.tvSec
        asked := h.asked + 1
        replies := h.replies ++ [(rvsMain now parcel.bytes h.server).2] }
      made moves (handled ++ [.inl request]) taken := by
  have fit : h.daemon.Fit (fun other => other.config = memory.config)
      (rvsFits fun _ => True) :=
    (rvs_keeps options capacity _ memory.config).run
      (ThreadNetwork.fit_of_empty rfl ⟨fun _ => rfl, fun _ => rfl⟩)
      trace.formed trace.daemon
  obtain ⟨nmsg, full, asks⟩ :=
    fit.queue .rvs parcel (List.mem_of_getElem? front)
  have inside := (List.getElem?_eq_some_iff.mp front).1
  have handles : h.server.handle ⟨now, nmsg⟩ =
      ((rvsMain now parcel.bytes h.server).1, threadRvsProxyRecv
        (rvsMsgCodec.decode (rvsMain now parcel.bytes h.server).2)) := by
    rw [full]
    rfl
  have answer : replyOf (rvsMain now parcel.bytes h.server).2 =
      RvsRequest.answer handled.all ⟨now, nmsg⟩ := by
    have served : (h.server.handle ⟨now, nmsg⟩).2.rvs2ph = _ :=
      handle_answer trace.serves.answers order asks
    rwa [handles] at served
  have log : RvsLog.all (handled ++ [.inl ⟨now, nmsg⟩]) =
      handled.all ++ [⟨now, nmsg⟩] := List.map_append
  refine ⟨⟨now, nmsg⟩, ?_⟩
  constructor
  · exact trace.daemon
  · exact trace.formed
  · exact fun all => trace.spared (List.forall_mem_append.mp all).1
  · rw [List.flatMap_append, trace.arrived]
    exact (List.append_nil _).symm
  · have table : (rvsMain now parcel.bytes h.server).1.rvsTable =
        (h.server.handle ⟨now, nmsg⟩).1.rvsTable := by
      rw [handles]
    rw [log]
    exact trace.serves.handle order table
  · rw [List.flatMap_append, List.filterMap_append]
    exact (List.append_nil _).symm ▸ (List.append_nil _).symm ▸ trace.heard
  · exact inside
  · have read : parcel.asked = [nmsg] := by
      rw [Parcel.asked, full, rvsMsgCodec.decode_encode]
      rfl
    rw [List.take_add_one, front, List.filterMap_append, List.map_append,
      List.flatMap_append]
    simp only [Option.toList_some, List.flatMap_singleton, read]
    exact (trace.read.snoc _).later _
  · intro reply member
    rcases List.mem_append.mp member with earlier | last
    · exact trace.answers reply earlier
    · cases List.mem_singleton.mp last
      rw [← type_replyOf, answer]
      exact answer_isAnswer _ _
  · exact trace.replies
  · rw [List.flatMap_append, trace.foreign]
    exact (List.append_nil _).symm
  · rw [List.map_append, ← List.append_assoc, answersFrom_append,
      List.nil_append, List.map_singleton, answer]
    exact (trace.own.snoc _).later _

theorem HostTrace.foreignRequest {now : Timeval} {datagram : List UInt8}
    (order : h.clock ≤ now.tvSec) :
    ∃ request, HostTrace options capacity memory
      (events ++ [.foreignRequest now datagram])
      { h with
        server := (rvsMain now datagram h.server).1
        clock := now.tvSec } made moves (handled ++ [.inr request]) taken := by
  obtain ⟨request, heard, table⟩ := exists_heardAs now datagram h.server
  have log : RvsLog.all (handled ++ [.inr request]) =
      handled.all ++ [request] := List.map_append
  refine ⟨request, ?_⟩
  constructor
  · exact trace.daemon
  · exact trace.formed
  · exact fun all => trace.spared (List.forall_mem_append.mp all).1
  · rw [List.flatMap_append, trace.arrived]
    exact (List.append_nil _).symm
  · have time : request.now = now := heard.1
    have serves := trace.serves.handle (time ▸ order) table
    rw [log]
    rwa [time] at serves
  · rw [List.flatMap_append, List.filterMap_append]
    exact List.rel_append trace.heard (.cons heard .nil)
  · exact trace.within
  · rw [List.filterMap_append]
    exact (List.append_nil _).symm ▸ trace.read.later _
  · exact trace.answers
  · exact trace.replies
  · rw [List.flatMap_append, trace.foreign]
    exact (List.append_nil _).symm
  · rw [answersFrom_append]
    exact (List.append_nil _).symm ▸ trace.own.later _

theorem HostTrace.drop {event : RvsHostEvent} (drops : event.Drops)
    {asked : Nat} {replies : List (List UInt8)}
    (within : asked ≤ (h.daemon.queue .rvs).length) (later : h.asked ≤ asked)
    (fewer : replies.Sublist h.replies) :
    HostTrace options capacity memory (events ++ [event])
      { h with
        asked := asked
        replies := replies } made moves handled taken := by
  have silent : event.requests memory.config.nid = [] ∧
      event.foreignRequests = [] ∧ event.foreignReplies = [] := by
    cases event with
    | dropRequest | dropReply => exact ⟨rfl, rfl, rfl⟩
    | _ => exact drops.elim
  obtain ⟨requests, queries, answers⟩ := silent
  constructor
  · exact trace.daemon
  · exact trace.formed
  · exact fun all => trace.spared (List.forall_mem_append.mp all).1
  · rw [List.flatMap_append, trace.arrived, List.flatMap_singleton, requests,
      List.append_nil]
  · exact trace.serves
  · rw [List.flatMap_append, List.flatMap_singleton, queries, List.append_nil]
    exact trace.heard
  · exact within
  · apply KeptOf.dropped _ drops
    have more : ((h.daemon.queue .rvs).take h.asked).Sublist
        ((h.daemon.queue .rvs).take asked) :=
      (List.take_prefix_take_left later).sublist
    exact trace.read.1.trans (more.flatMap _)
  · exact fun reply member => trace.answers reply (fewer.subset member)
  · exact trace.replies
  · rw [List.flatMap_append, List.flatMap_singleton, trace.foreign, answers,
      List.append_nil]
  · apply KeptOf.dropped _ drops
    exact ((List.Sublist.refl _).append (fewer.map replyOf)).trans trace.own.1

theorem HostTrace.step {event : RvsHostEvent} (formed : event.WellFormed)
    (stepped : (rvsHost options capacity).step h event = some (next, ())) :
    ∃ made moves handled taken,
      HostTrace options capacity memory (events ++ [event]) next made
        moves handled taken := by
  cases event with
  | thread event =>
      simp only [rvsHost] at stepped
      split at stepped
      · next own =>
          obtain ⟨⟨state, move⟩, moved, same⟩ :=
            Option.map_eq_some_iff.mp stepped
          cases same
          exact ⟨_, _, _, _, trace.thread options capacity formed own moved⟩
      · cases stepped
  | serve now =>
      simp only [rvsHost] at stepped
      split at stepped
      · next parcel front =>
          split at stepped
          · next order =>
              cases stepped
              obtain ⟨request, served⟩ :=
                trace.serve options capacity front order
              exact ⟨_, _, _, _, served⟩
          · cases stepped
      · cases stepped
  | receive =>
      simp only [rvsHost] at stepped
      split at stepped
      · next reply rest front =>
          obtain ⟨⟨state, move⟩, moved, same⟩ :=
            Option.map_eq_some_iff.mp stepped
          cases same
          exact ⟨_, _, _, _, trace.receive options capacity front moved⟩
      · cases stepped
  | dropRequest =>
      simp only [rvsHost] at stepped
      split at stepped
      · next within =>
          cases stepped
          have drops : RvsHostEvent.dropRequest.Drops := trivial
          exact ⟨_, _, _, _, trace.drop options capacity drops within
            (Nat.le_succ _) (List.Sublist.refl _)⟩
      · cases stepped
  | dropReply =>
      simp only [rvsHost] at stepped
      split at stepped
      · next reply rest front =>
          cases stepped
          have fewer : rest.Sublist h.replies := by
            rw [front]
            exact List.sublist_cons_self _ _
          have drops : RvsHostEvent.dropReply.Drops := trivial
          exact ⟨_, _, _, _, trace.drop options capacity drops trace.within
            (Nat.le_refl _) fewer⟩
      · cases stepped
  | foreignRequest now datagram =>
      simp only [rvsHost] at stepped
      split at stepped
      · next order =>
          cases stepped
          obtain ⟨request, served⟩ :=
            trace.foreignRequest options capacity order
          exact ⟨_, _, _, _, served⟩
      · cases stepped
  | foreignReply rvs_msg =>
      obtain ⟨⟨state, move⟩, moved, same⟩ := Option.map_eq_some_iff.mp stepped
      cases same
      exact ⟨_, _, _, _, trace.foreignReply options capacity moved⟩

end Trace

theorem hostTrace_of_run {outputs : List Unit}
    (formed : ∀ event ∈ events, event.WellFormed)
    (run : (rvsHost options capacity).Run (bootHost memory buf began) events
      outputs h) :
    ∃ made moves handled taken,
      HostTrace options capacity memory events h made moves handled taken := by
  induction run with
  | nil => exact ⟨_, _, _, _, .boot options capacity⟩
  | snoc _ last ih =>
      obtain ⟨_, _, _, _, trace⟩ := ih fun event member =>
        formed event (List.mem_append_left _ member)
      have here := formed _ (List.mem_append_right _ List.mem_cons_self)
      exact trace.step options capacity here last

/-- What a rendezvous host has done: requests it has handled, and messages
which came back to the daemon. -/
structure HostServed (config : Configuration) (events : List RvsHostEvent)
    (h : RvsHost) (handled : RvsLog) (taken : List (NidMsg ⊕ NidMsg)) :
    Prop where
  arrived : ((handled.filterMap Sum.getLeft?).map RvsRequest.nmsg).Sublist
    (events.flatMap (RvsHostEvent.requests config.nid))
  heard : List.Forall₂ HeardAs (events.flatMap RvsHostEvent.foreignRequests)
    (handled.filterMap Sum.getRight?)
  ordered : handled.all.Pairwise fun a b => a.now.tvSec ≤ b.now.tvSec
  answers : (taken.filterMap Sum.getLeft?).Sublist (answersFrom [] handled)
  foreign : taken.filterMap Sum.getRight? =
    events.flatMap RvsHostEvent.foreignReplies
  sent : (h.daemon.queue .udp).flatMap
      (Parcel.framedControl MsgType.IsAnswer id) <+:
    (taken.map (Sum.elim id id)).filter fun nmsg => nmsg.type.IsAnswer
  announced : (∀ event ∈ events, event.Spared) →
    (h.daemon.queue .udp).flatMap
        (Parcel.framedControl MsgType.IsRegistry id) <+:
      registrationsFor config (taken.map (Sum.elim id id))

/-- Nothing is missing of it. -/
structure HostDone (config : Configuration) (events : List RvsHostEvent)
    (h : RvsHost) (handled : RvsLog) (taken : List (NidMsg ⊕ NidMsg)) :
    Prop where
  arrived : (handled.filterMap Sum.getLeft?).map RvsRequest.nmsg =
    events.flatMap (RvsHostEvent.requests config.nid)
  answers : taken.filterMap Sum.getLeft? = answersFrom [] handled
  sent : (h.daemon.queue .udp).flatMap
      (Parcel.framedControl MsgType.IsAnswer id) =
    (taken.map (Sum.elim id id)).filter fun nmsg => nmsg.type.IsAnswer
  announced : (∀ event ∈ events, event.Spared) →
    (h.daemon.queue .udp).flatMap
        (Parcel.framedControl MsgType.IsRegistry id) =
      registrationsFor config (taken.map (Sum.elim id id))

end Rvs

section Example

private def meeting : Configuration :=
  .sample .rvs (NID.ofNat 3)

private def bare : MainOptions := ⟨false, false, false⟩

private def updateMsg : NidMsg :=
  { type := .rvsUpdate
    srcNID := NID.ofNat 9
    destNID := NID.ofNat 3
    srcNIDgw := NID.ofNat 5
    destNIDgw := NID.zero
    nid := NID.ofNat 9
    ip := NID32.ofNat 90 }

private def updateHeader : NidHeader :=
  { type := .rvsUpdate
    srcNID := NID.ofNat 9
    destNID := NID.ofNat 3
    srcNIDgw := NID.ofNat 5
    destNIDgw := NID.zero }

private def noon : Moment := ⟨.ofSec 100, true, .refused⟩

/-- Another host asks for the node first, and sends an answer to it. -/
private def strange : RvsMsg :=
  { type := .rvsGet
    srcNID := NID.ofNat 9
    destNID := NID.ofNat 3
    srcNIDgw := NID.ofNat 5
    destNIDgw := NID.zero
    nid := NID.ofNat 9
    ip := NID32.zero }

private def visit : List RvsHostEvent :=
  [.foreignRequest (.ofSec 100) (rvsMsgCodec.encode strange),
    .thread (.input .nrInput (.arrival (.ofSec 100) (some (frame updateHeader
      (nidMsgCodec.encode updateMsg), NID32.ofNat 90)))),
    .thread (.write .nrInput), .thread (.read .phInput .nr2ph noon),
    .thread (.write .phInput), .thread (.read .controlRvs .ph2co noon),
    .thread (.write .controlRvs), .thread (.read .rvsProxySend .co2rvs noon),
    .thread (.write .rvsProxySend), .serve (.ofSec 100), .receive,
    .thread (.write .rvsProxyRecv), .thread (.write .rvsProxyRecv),
    .thread (.read .phOutput .rvs2ph noon), .thread (.write .phOutput),
    .thread (.read .rvs2gw .rvs2gwt noon), .thread (.write .rvs2gw),
    .thread (.read .nrOutput .ph2nr noon), .thread (.write .nrOutput),
    .thread (.read .phOutput .gwt2ph noon), .thread (.write .phOutput),
    .thread (.read .nrOutput .ph2nr noon), .thread (.write .nrOutput),
    .foreignReply { strange with type := .rvsResponse },
    .thread (.write .rvsProxyRecv), .thread (.read .phOutput .rvs2ph noon),
    .thread (.write .phOutput), .thread (.read .nrOutput .ph2nr noon),
    .thread (.write .nrOutput)]

private def started : RvsHost :=
  bootHost (mainMemory meeting bare) (Buffer.zero rvsBufLen) 100

end Example

end NodeIdentity
