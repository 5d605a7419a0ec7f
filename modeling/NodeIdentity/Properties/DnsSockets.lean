import NodeIdentity.Library.Descriptors
import NodeIdentity.Properties.DnsService

/-!
# Sockets of the DNS handler

Every round opens a socket for the clients, and one for the name server if the
name is not in the table.  They are closed behind the loop, where the variables
know of the last ones only.
-/

namespace NodeIdentity

open NodeIdentity.Library

/-- The handler with `sd` and `dnssd`; `none` is -1. -/
structure DnsSockets (limit : Nat) where
  handler : DnsHandler
  nm : NidMapper
  sd : Option Nat
  dnssd : Option Nat
  descriptors : Descriptors limit

variable {limit : Nat}

/-- What `socket` returns, and the descriptors open then. -/
def socket (descriptors : Descriptors limit) :
    Option Nat × Descriptors limit :=
  match descriptors.allocate with
  | none => (none, descriptors)
  | some (descriptor, next) => (some descriptor, next)

def DnsSockets.leave (s : DnsSockets limit) : DnsSockets limit :=
  { s with
    descriptors := (s.sd.toList ++ s.dnssd.toList).foldl Descriptors.close
      s.descriptors }

/-- The part of a round in which no socket is opened. -/
def serveRound (input : DnsInput) (s : DnsSockets limit) :
    Option (DnsSockets limit × DnsLog) :=
  (threadDnshandler input s.handler s.nm).map fun round =>
    let next := { s with handler := round.state, nm := round.nm }
    (if round.state.running then next else next.leave, round.log)

/-- A round with the sockets it opens.  Without a socket nothing is received
from it. -/
def socketsRound (input : DnsInput) (s : DnsSockets limit) :
    Option (DnsSockets limit × DnsLog) :=
  let (sd, descriptors) := socket s.descriptors
  let s := { s with sd := sd, descriptors := descriptors }
  let input := { input with query := sd.bind fun _ => input.query }
  match serverQuery input s.handler with
  | none => serveRound input s
  | some _ =>
      let (dnssd, descriptors) := socket s.descriptors
      let s := { s with dnssd := dnssd, descriptors := descriptors }
      serveRound { input with response := dnssd.bind fun _ => input.response } s

/-- Rounds with their sockets, until the handler leaves its loop. -/
def socketsMachine (limit : Nat) :
    Machine (DnsSockets limit) DnsInput DnsLog :=
  { step := fun s input =>
      if s.handler.running then socketsRound input s else none }

/-- The handler when it enters its loop, with the descriptors the rest of the
process holds. -/
def socketsStart (start : DnsSystem) (descriptors : Descriptors limit) :
    DnsSockets limit :=
  ⟨start.handler, start.nm, none, none, descriptors⟩

/-- However many rounds there have been, the handler holds no more sockets than
some number when it starts the next one. -/
def SocketsBounded : Prop :=
  ∃ bound, ∀ (limit : Nat) (descriptors : Descriptors limit)
    (buffer : DnsBuffer) (ansAns : NameBuffer) (nm : NidMapper)
    (inputs : List DnsInput) (log : List DnsLog) (s : DnsSockets limit),
    (socketsMachine limit).Run
      (socketsStart (dnsStart buffer ansAns nm) descriptors) inputs log s →
    s.handler.running = true →
      s.descriptors.held.length ≤ descriptors.held.length + bound

def DnsLog.fresh : DnsLog → Bool
  | .success _ _ => true
  | .failure _ => true
  | _ => false

def freshRounds (log : List DnsLog) : Nat := log.countP DnsLog.fresh

section Log

variable {input : DnsInput} {fqdn response : List UInt8} {queryType : Nat}
  {ref : TextRef} {s : DnsHandler} {nm : NidMapper} {round : DnsRound}

theorem dnsHit_log (result : dnsHit input fqdn queryType ref s nm = some round) :
    ∃ text, round.log = .hit fqdn text := by
  rw [dnsHit] at result
  cases resolved : resolveNids (getNids (s.deref ref)) nm with
  | none =>
      simp only [resolved] at result
      cases result
      exact ⟨_, rfl⟩
  | some nids =>
      simp only [resolved, Option.bind_eq_bind, Option.bind_eq_some_iff]
        at result
      obtain ⟨buffer, _, ended⟩ := result
      split at ended
      · cases ended
        exact ⟨_, rfl⟩
      · cases ended
        exact ⟨_, rfl⟩

theorem dnsMiss_fresh
    (result : dnsMiss input fqdn queryType response s nm = some round) :
    round.log.fresh = true := by
  simp only [dnsMiss, Option.bind_eq_bind, Option.bind_eq_some_iff] at result
  obtain ⟨⟨answer, success⟩, _, result⟩ := result
  cases success with
  | true =>
      simp only [if_true] at result
      cases resolved : resolveNids (getNids answer.answerAns) nm with
      | none =>
          simp only [resolved] at result
          cases result
          rfl
      | some nids =>
          simp only [resolved, Option.bind_eq_some_iff] at result
          obtain ⟨buffer, _, ended⟩ := result
          split at ended
          · cases ended
            rfl
          · cases ended
            rfl
  | false =>
      simp only [Bool.false_eq_true, if_false] at result
      split at result
      · cases result
        rfl
      · cases result
        rfl

/-- A round after which the loop goes on has received a query, and a response
if it has asked for one. -/
theorem fresh_of_running
    (result : threadDnshandler input s nm = some round)
    (running : round.state.running = true) :
    input.query.isSome ∧
      (serverQuery input s).isSome = round.log.fresh ∧
      (round.log.fresh = true → input.response.isSome) := by
  cases asked : input.query with
  | none =>
      simp only [threadDnshandler, asked] at result
      cases result
      cases running
  | some query =>
      simp only [threadDnshandler, serverQuery, asked, Option.bind_eq_bind,
        Option.bind_some, Option.bind_eq_some_iff] at result ⊢
      obtain ⟨⟨buffer, fqdn, queryType⟩, modified, result⟩ := result
      simp only [modified, Option.bind_some]
      cases known : getNIDsbyName fqdn s.fqdnTable with
      | some ref =>
          simp only [known] at result
          obtain ⟨text, logged⟩ := dnsHit_log result
          simp [logged, DnsLog.fresh]
      | none =>
          simp only [known] at result
          cases answered : input.response with
          | none =>
              simp only [answered] at result
              cases result
              cases running
          | some response =>
              simp only [answered] at result
              simp [dnsMiss_fresh result]

end Log

theorem socket_eq_some {descriptors next : Descriptors limit} {descriptor : Nat}
    (opened : socket descriptors = (some descriptor, next)) :
    next.held = descriptor :: descriptors.held := by
  rw [socket] at opened
  split at opened
  · cases opened
  · next allocated =>
      cases opened
      exact Descriptors.held_allocate allocated

theorem serveRound_eq_some {input : DnsInput} {s next : DnsSockets limit}
    {entry : DnsLog} (served : serveRound input s = some (next, entry))
    (running : next.handler.running = true) :
    ∃ round, threadDnshandler input s.handler s.nm = some round ∧
      round.state.running = true ∧ entry = round.log ∧
      next = { s with handler := round.state, nm := round.nm } := by
  obtain ⟨round, result, pair⟩ := Option.map_eq_some_iff.mp served
  obtain ⟨state, logged⟩ := Prod.mk.inj pair
  by_cases continued : round.state.running = true
  · rw [if_pos continued] at state
    exact ⟨round, result, continued, logged.symm, state.symm⟩
  · rw [if_neg continued] at state
    rw [← state] at running
    exact (continued running).elim

theorem freshRounds_singleton (entry : DnsLog) :
    freshRounds [entry] = if entry.fresh then 1 else 0 := by
  rw [freshRounds, List.countP_singleton]

theorem freshRounds_snoc (log : List DnsLog) (entry : DnsLog) :
    freshRounds (log ++ [entry]) = freshRounds log + freshRounds [entry] := by
  rw [freshRounds, List.countP_append]
  rfl

theorem socketsRound_held {s next : DnsSockets limit} {input : DnsInput}
    {entry : DnsLog} (served : socketsRound input s = some (next, entry))
    (running : next.handler.running = true) :
    next.descriptors.held.length =
      s.descriptors.held.length + 1 + freshRounds [entry] := by
  rw [socketsRound] at served
  cases first : socket s.descriptors with
  | mk sd descriptors =>
      simp only [first] at served
      cases server : serverQuery
          { input with query := sd.bind fun _ => input.query } s.handler with
      | none =>
          simp only [server] at served
          obtain ⟨round, result, continued, rfl, rfl⟩ :=
            serveRound_eq_some served running
          obtain ⟨received, asked, _⟩ := fresh_of_running result continued
          obtain ⟨descriptor, rfl⟩ :=
            Option.isSome_iff_exists.mp (Option.isSome_of_isSome_bind received)
          rw [server, Option.isSome_none] at asked
          rw [socket_eq_some first, freshRounds_singleton, ← asked,
            List.length_cons]
          rfl
      | some sent =>
          cases second : socket descriptors with
          | mk dnssd last =>
              simp only [server, second] at served
              obtain ⟨round, result, continued, rfl, rfl⟩ :=
                serveRound_eq_some served running
              obtain ⟨received, asked, answered⟩ :=
                fresh_of_running result continued
              have fresh : round.log.fresh = true :=
                asked.symm.trans (congrArg Option.isSome server)
              obtain ⟨descriptor, rfl⟩ := Option.isSome_iff_exists.mp
                (Option.isSome_of_isSome_bind received)
              obtain ⟨descriptor', rfl⟩ := Option.isSome_iff_exists.mp
                (Option.isSome_of_isSome_bind (answered fresh))
              rw [socket_eq_some second, socket_eq_some first,
                freshRounds_singleton, if_pos fresh, List.length_cons,
                List.length_cons]

theorem socketsMachine_step {s next : DnsSockets limit} {input : DnsInput}
    {entry : DnsLog}
    (stepped : (socketsMachine limit).step s input = some (next, entry)) :
    s.handler.running = true ∧ socketsRound input s = some (next, entry) := by
  simp only [socketsMachine] at stepped
  split at stepped
  · next running => exact ⟨running, stepped⟩
  · cases stepped

theorem held_of_run {start s : DnsSockets limit} {inputs : List DnsInput}
    {log : List DnsLog} (run : (socketsMachine limit).Run start inputs log s)
    (running : s.handler.running = true) :
    s.descriptors.held.length =
      start.descriptors.held.length + inputs.length + freshRounds log := by
  induction run with
  | nil => rfl
  | snoc _ last ih =>
      obtain ⟨before, served⟩ := socketsMachine_step last
      rw [socketsRound_held served running, ih before, freshRounds_snoc,
        List.length_append, List.length_singleton]
      omega

/-- The handler does not hold more than `bound` sockets at the start of a round
exactly as long as there have been no more than `bound` queries, those counted
twice for which the name server has been asked. -/
theorem held_le_iff {descriptors : Descriptors limit} {start : DnsSystem}
    {inputs : List DnsInput} {log : List DnsLog} {s : DnsSockets limit}
    (run : (socketsMachine limit).Run (socketsStart start descriptors) inputs
      log s)
    (running : s.handler.running = true) (bound : Nat) :
    s.descriptors.held.length ≤ descriptors.held.length + bound ↔
      inputs.length + freshRounds log ≤ bound := by
  have held := held_of_run run running
  rw [socketsStart] at held
  dsimp only at held
  omega

theorem rounds_le_limit {start s : DnsSockets limit} {inputs : List DnsInput}
    {log : List DnsLog} (run : (socketsMachine limit).Run start inputs log s)
    (running : s.handler.running = true) :
    start.descriptors.held.length + inputs.length + freshRounds log ≤
      limit := by
  rw [← held_of_run run running]
  exact s.descriptors.length_le

theorem exists_socket {descriptors : Descriptors limit}
    (room : descriptors.held.length < limit) :
    ∃ descriptor next, socket descriptors = (some descriptor, next) ∧
      next.held.length = descriptors.held.length + 1 := by
  obtain ⟨descriptor, next, allocated⟩ := Descriptors.exists_allocate room
  have opened : socket descriptors = (some descriptor, next) := by
    rw [socket]
    split
    · next full => cases full.symm.trans allocated
    · next same =>
        cases same.symm.trans allocated
        rfl
  refine ⟨descriptor, next, opened, ?_⟩
  rw [socket_eq_some opened, List.length_cons]

theorem exists_step {s : DnsSockets limit} {input : DnsInput} {round : DnsRound}
    (running : s.handler.running = true)
    (room : s.descriptors.held.length + 2 ≤ limit)
    (result : threadDnshandler input s.handler s.nm = some round)
    (continued : round.state.running = true) :
    ∃ next, (socketsMachine limit).step s input = some (next, round.log) ∧
      next.handler = round.state ∧ next.nm = round.nm := by
  obtain ⟨sd, descriptors, first, length⟩ :=
    exists_socket (show s.descriptors.held.length < limit by omega)
  obtain ⟨dnssd, last, second, _⟩ :=
    exists_socket (show descriptors.held.length < limit by omega)
  simp only [socketsMachine, running, if_true, socketsRound, first,
    Option.bind_some]
  cases serverQuery input s.handler with
  | none =>
      simp only [serveRound, result, continued, Option.map_some, if_true]
      exact ⟨_, rfl, rfl, rfl⟩
  | some sent =>
      simp only [second, Option.bind_some, serveRound, result, continued,
        Option.map_some, if_true]
      exact ⟨_, rfl, rfl, rfl⟩

/-- The name of one letter is in the table, and its text is proper. -/
structure Knows (s : DnsHandler) (letter : UInt8) : Prop where
  running : s.running = true
  known : ∃ ref, getNIDsbyName [1, letter] s.fqdnTable = some ref
  text : (getNids s.ansAns).Proper

theorem Knows.round {s : DnsHandler} (knows : Knows s 102) (nm : NidMapper)
    (digit : UInt8) :
    ∃ round, threadDnshandler (letterRound 102 digit) s nm = some round ∧
      Knows round.state 102 := by
  obtain ⟨running, ⟨ref, known⟩, text⟩ := knows
  have found := Buffer.prefix_receive s.buffer
    (show [1, 102, 0] <+: (letterQuery 102).drop dnshdrLen from
      ⟨htons typeA ++ htons 1, rfl⟩) (by decide)
  have named : DnsBuffer.queryName (s.buffer.receive (letterQuery 102)) =
      some [1, 102] :=
    DnsBuffer.queryName_eq_some_iff.mpr
      ⟨by decide, by decide, Buffer.slice_eq_iff_prefix.mpr found⟩
  obtain ⟨buffer, modified, named', _⟩ := modifyDnsQuery_eq named
  generalize Buffer.word16 _ = queryType at modified
  have same : DnsHandler.deref { s with buffer := buffer } ref = s.ansAns := by
    cases ref
    rfl
  obtain ⟨round, result, continued⟩ := (continues_dnsHit_iff
    (letterRound 102 digit) [1, 102] queryType ref { s with buffer := buffer }
      nm rfl running named').mpr (by rw [same]; exact text)
  have whole : threadDnshandler (letterRound 102 digit) s nm = some round := by
    simp only [threadDnshandler, letterRound, modified, known,
      Option.bind_eq_bind, Option.bind_some]
    exact result
  obtain ⟨_, logged⟩ := dnsHit_log result
  have effect := threadDnshandler_effect whole
  cases effect with
  | silent other => cases logged.symm.trans other
  | success other => cases logged.symm.trans other
  | failure other => cases logged.symm.trans other
  | hit _ _ ansAns table _ =>
      refine ⟨round, whole, continued, ⟨ref, ?_⟩, ?_⟩
      · rw [table]
        exact known
      · rw [ansAns]
        exact text

theorem exists_first_round : ∃ round,
    threadDnshandler (letterRound 102 49) freshDns.handler freshDns.nm =
      some round ∧ Knows round.state 102 := by
  have found : (threadDnshandler (letterRound 102 49) freshDns.handler
      freshDns.nm).any (fun round => round.state.running &&
        (getNIDsbyName [1, 102] round.state.fqdnTable).isSome &&
        (inetPton6 (getNids round.state.ansAns).nid).isSome &&
        (inetPton6 (getNids round.state.ansAns).nidr).isSome) = true := by
    decide +kernel
  obtain ⟨round, result, found⟩ := (Option.any_eq_true _ _).mp found
  simp only [Bool.and_eq_true] at found
  obtain ⟨⟨⟨running, known⟩, nid⟩, nidr⟩ := found
  exact ⟨round, result, running, Option.isSome_iff_exists.mp known, nid, nidr⟩

theorem exists_long_run (count : Nat) {descriptors : Descriptors limit}
    (room : descriptors.held.length + 2 * count + 2 ≤ limit) :
    ∃ inputs log s, (socketsMachine limit).Run
        (socketsStart freshDns descriptors) inputs log s ∧
      inputs.length = count + 1 ∧ Knows s.handler 102 ∧
      s.descriptors.held.length ≤
        descriptors.held.length + 2 * (count + 1) := by
  have extend : ∀ {inputs log} {s : DnsSockets limit} {round : DnsRound},
      (socketsMachine limit).Run (socketsStart freshDns descriptors) inputs
        log s →
      s.handler.running = true →
      s.descriptors.held.length + 2 ≤ limit →
      threadDnshandler (letterRound 102 49) s.handler s.nm = some round →
      Knows round.state 102 →
      ∃ next entry, (socketsMachine limit).Run
          (socketsStart freshDns descriptors) (inputs ++ [letterRound 102 49])
          (log ++ [entry]) next ∧ Knows next.handler 102 ∧
        next.descriptors.held.length ≤ s.descriptors.held.length + 2 := by
    intro inputs log s round run running room result knows
    obtain ⟨next, stepped, handler, _⟩ :=
      exists_step running room result knows.running
    rw [← handler] at knows
    refine ⟨next, _, run.snoc stepped, knows, ?_⟩
    rw [socketsRound_held (socketsMachine_step stepped).2 knows.running,
      freshRounds_singleton]
    split
    · exact le_rfl
    · exact Nat.le_succ _
  induction count with
  | zero =>
      obtain ⟨round, result, knows⟩ := exists_first_round
      obtain ⟨next, entry, run, knows, held⟩ :=
        extend .nil rfl room result knows
      exact ⟨_, _, next, run, rfl, knows, held⟩
  | succ count ih =>
      obtain ⟨inputs, log, s, run, length, knows, held⟩ := ih (by omega)
      obtain ⟨round, result, knows'⟩ := knows.round s.nm 49
      obtain ⟨next, entry, run', knows', held'⟩ :=
        extend run knows.running (by omega) result knows'
      refine ⟨_, _, next, run', ?_, knows', by omega⟩
      rw [List.length_append, List.length_singleton, length]

/-- The descriptors of a process which has opened nothing. -/
def noDescriptors (limit : Nat) : Descriptors limit where
  held := []
  nodup := List.nodup_nil
  below := fun _ member => (List.not_mem_nil member).elim

/-- Three rounds, of which the first asks the name server. -/
theorem held_letter : ∃ log s, (socketsMachine 8).Run
      (socketsStart freshDns (noDescriptors 8))
      (List.replicate 3 (letterRound 102 49)) log s ∧
    s.handler.running = true ∧
    (s.descriptors.held.length ≤ 0 + 4 ↔ 3 + freshRounds log ≤ 4) := by
  obtain ⟨log, s, run, found⟩ := Machine.exists_run_of_exec
    (show ((socketsMachine 8).exec (socketsStart freshDns (noDescriptors 8))
      (List.replicate 3 (letterRound 102 49))).any
        (fun result => result.1.handler.running) = true from by decide +kernel)
  exact ⟨log, s, run, found, held_le_iff run found 4⟩

/-- With enough descriptors, any number of sockets is held in the end. -/
theorem not_socketsBounded : ¬ SocketsBounded := by
  intro bounded
  obtain ⟨bound, bounded⟩ := bounded
  obtain ⟨inputs, log, s, run, length, knows, _⟩ := exists_long_run bound
    (show (noDescriptors (2 * bound + 2)).held.length + 2 * bound + 2 ≤
      2 * bound + 2 by simp [noDescriptors])
  have held := bounded _ _ _ _ _ _ _ _ run knows.running
  rw [held_of_run run knows.running, length] at held
  change 0 + (bound + 1) + _ ≤ 0 + bound at held
  omega

end NodeIdentity
