import NodeIdentity.Library.Machine
import NodeIdentity.Rvs
import NodeIdentity.Rvsc

/-!
# The rendezvous service

The server between its two proxies: a request goes out through
`thread_rvs_proxy_send` and its answer comes back through
`thread_rvs_proxy_recv`.  The answers depend on the history of updates only,
not on how the table stores them or on who asked before.
-/

namespace NodeIdentity

open NodeIdentity.Library

/-- A message for the service and the time at which the server handles it. -/
structure RvsRequest where
  now : Timeval
  nmsg : NidMsg

def RvsServer.handle (s : RvsServer) (request : RvsRequest) :
    RvsServer × RvsProxyTurn :=
  let rvs_msg := threadRvsProxySend request.nmsg
  let served := rvsMain request.now (rvsMsgCodec.encode rvs_msg) s
  (served.1, threadRvsProxyRecv (rvsMsgCodec.decode served.2))

/-- Runs of the service at a clock which does not go back. -/
def rvsService : Machine (RvsServer × Nat) RvsRequest RvsProxyTurn :=
  (Machine.total RvsServer.handle).timed fun request => request.now.tvSec

def RvsRequest.updates (nid : NID) (request : RvsRequest) : Bool :=
  request.nmsg.type = .rvsUpdate ∧ request.nmsg.nid = nid

def lastUpdate (nid : NID) (requests : List RvsRequest) : Option RvsRequest :=
  (requests.filter (·.updates nid)).getLast?

/-- The locator the last update brought, for the time it is good for. -/
def registered (nid : NID) (now : Timeval) (requests : List RvsRequest) :
    NID32 :=
  match lastUpdate nid requests with
  | some update =>
      if now.tvSec < update.now.tvSec + rvsTimeout then update.nmsg.ip
      else NID32.zero
  | none => NID32.zero

theorem lastUpdate_snoc (nid : NID) (requests : List RvsRequest)
    (request : RvsRequest) :
    lastUpdate nid (requests ++ [request]) =
      if request.updates nid then some request
      else lastUpdate nid requests := by
  rw [lastUpdate, List.filter_append]
  by_cases updates : request.updates nid = true
  · rw [if_pos updates, List.filter_cons_of_pos updates, List.filter_nil,
      List.getLast?_concat]
  · rw [if_neg updates, List.filter_cons_of_neg updates, List.filter_nil,
      List.append_nil]
    rfl

theorem getEntry_addEntry_self (nid : NID) (ip : NID32) (now later : Timeval)
    (table : HashTable ConnEntry) :
    (getEntry nid later (addEntry nid ip now table)).1 =
      if later.tvSec < now.tvSec + rvsTimeout then ip else NID32.zero := by
  simp only [getEntry, addEntry, hashInsert, hashLookup,
    ChainedTable.find_insert_self]
  split <;> rfl

/-- The answer for a NID depends on its own entry only. -/
theorem getEntry_congr {nid : NID} {table other : HashTable ConnEntry}
    (same : hashLookup nid other = hashLookup nid table) (now : Timeval) :
    (getEntry nid now other).1 = (getEntry nid now table).1 := by
  unfold getEntry
  rw [same]
  cases hashLookup nid table with
  | none => rfl
  | some ce =>
      simp only
      split <;> rfl

theorem getEntry_addEntry_of_ne {nid other : NID} (different : other ≠ nid)
    (ip : NID32) (now later : Timeval) (table : HashTable ConnEntry) :
    (getEntry other later (addEntry nid ip now table)).1 =
      (getEntry other later table).1 :=
  getEntry_congr
    (ChainedTable.find_insert_of_ne table different ⟨ip, now.tvSec⟩) later

/-- A lookup may delete an entry, but only one which is over for good. -/
theorem getEntry_getEntry {now later : Timeval}
    (order : now.tvSec ≤ later.tvSec) (nid other : NID)
    (table : HashTable ConnEntry) :
    (getEntry other later (getEntry nid now table).2).1 =
      (getEntry other later table).1 := by
  cases lookup : hashLookup nid table with
  | none =>
      have same : (getEntry nid now table).2 = table := by
        simp only [getEntry, lookup]
      rw [same]
  | some ce =>
      by_cases current : ce.tstamp + rvsTimeout > now.tvSec
      · have same : (getEntry nid now table).2 = table := by
          simp only [getEntry, lookup, if_pos current]
        rw [same]
      · have deleted : (getEntry nid now table).2 = (hashDel nid table).2 := by
          simp only [getEntry, lookup, if_neg current]
        rw [deleted]
        by_cases same : other = nid
        · subst same
          have gone : hashLookup other (hashDel other table).2 = none :=
            ChainedTable.find_erase_self table other
          have expired : ¬ ce.tstamp + rvsTimeout > later.tvSec := by omega
          simp only [getEntry, gone, lookup, if_neg expired]
        · exact getEntry_congr (ChainedTable.find_erase_of_ne table same) later

theorem RvsServer.handle_eq (s : RvsServer) (request : RvsRequest) :
    (s.handle request).2 = threadRvsProxyRecv
        ((threadRvsProxySend request.nmsg).served request.now s.rvsTable) ∧
      (s.handle request).1.rvsTable =
        (threadRvsProxySend request.nmsg).tableAfter request.now s.rvsTable := by
  obtain ⟨reply, table⟩ :=
    rvsMain_full request.now (threadRvsProxySend request.nmsg) s
  refine ⟨?_, table⟩
  simp only [RvsServer.handle, reply, FixedCodec.decode_encode]

/-- The table answers for the history from `clock` on. -/
def Answers (table : HashTable ConnEntry) (clock : Nat)
    (requests : List RvsRequest) : Prop :=
  ∀ nid now, clock ≤ now.tvSec →
    (getEntry nid now table).1 = registered nid now requests

theorem Answers.handle {table : HashTable ConnEntry} {clock : Nat}
    {requests : List RvsRequest} (answers : Answers table clock requests)
    {request : RvsRequest} (order : clock ≤ request.now.tvSec) :
    Answers ((threadRvsProxySend request.nmsg).tableAfter request.now table)
      request.now.tvSec (requests ++ [request]) := by
  intro nid later reached
  have before := answers nid later (order.trans reached)
  have kept (other : ¬ request.updates nid = true) :
      registered nid later (requests ++ [request]) =
        registered nid later requests := by
    rw [registered, lastUpdate_snoc, if_neg other]
    rfl
  have noUpdate (kind : request.nmsg.type ≠ .rvsUpdate) :
      ¬ request.updates nid = true := by
    simp [RvsRequest.updates, kind]
  unfold RvsMsg.tableAfter
  cases kind : (threadRvsProxySend request.nmsg).type with
  | rvsUpdate =>
      have update : request.nmsg.type = .rvsUpdate := kind
      by_cases same : nid = request.nmsg.nid
      · subst same
        have updates : request.updates request.nmsg.nid = true := by
          simp [RvsRequest.updates, update]
        rw [registered, lastUpdate_snoc, if_pos updates]
        exact getEntry_addEntry_self _ _ _ _ table
      · rw [kept (by simp [RvsRequest.updates, Ne.symm same]), ← before]
        exact getEntry_addEntry_of_ne same _ _ _ table
  | rvsGet =>
      have get : request.nmsg.type = .rvsGet := kind
      rw [kept (noUpdate (by rw [get]; exact nofun)), ← before]
      exact getEntry_getEntry reached _ nid table
  | _ =>
      have other := kind
      rw [kept (noUpdate (by
        intro update
        exact nomatch kind.symm.trans update))]
      exact before

theorem answers_of_run {buf : Buffer rvsBufLen} {s : RvsServer}
    {began clock : Nat} {requests : List RvsRequest}
    {outputs : List RvsProxyTurn}
    (run : rvsService.Run (⟨buf, initRvsTable⟩, began) requests outputs
      (s, clock)) :
    Answers s.rvsTable clock requests := by
  apply run.timed_total_record
  · intro nid now _
    have empty : hashLookup nid initRvsTable = none :=
      ChainedTable.find_empty 100 (by decide) nid
    simp only [getEntry, empty]
    rfl
  · intro requests outputs state clock request answers order
    rw [(state.handle_eq request).2]
    exact answers.handle order

/-- Whatever was handled before, a request is answered with the locator of the
last update which is still good, and an update is acknowledged. -/
theorem rvsService_answer {buf : Buffer rvsBufLen} {s next : RvsServer}
    {began clock later : Nat} {requests : List RvsRequest}
    {outputs : List RvsProxyTurn} {request : RvsRequest}
    {output : RvsProxyTurn}
    (run : rvsService.Run (⟨buf, initRvsTable⟩, began) requests outputs
      (s, clock))
    (handled : rvsService.step (s, clock) request =
      some ((next, later), output)) :
    (request.nmsg.type = .rvsGet →
      output =
        { rvs2ph :=
            { type := .rvsResponse
              srcNID := request.nmsg.destNID
              destNID := request.nmsg.srcNID
              srcNIDgw := request.nmsg.srcNIDgw
              destNIDgw := request.nmsg.destNIDgw
              nid := request.nmsg.nid
              ip := registered request.nmsg.nid request.now requests }
          rvs2gwt := none }) ∧
    (request.nmsg.type = .rvsUpdate →
      let ack : NidMsg :=
        { type := .rvsAck
          srcNID := request.nmsg.destNID
          destNID := request.nmsg.srcNID
          srcNIDgw := request.nmsg.srcNIDgw
          destNIDgw := request.nmsg.destNIDgw
          nid := request.nmsg.nid
          ip := request.nmsg.ip }
      output = { rvs2ph := ack, rvs2gwt := some ack }) := by
  have answers := answers_of_run run
  obtain ⟨order, _, served, _⟩ := Machine.timed_total_step_iff.mp handled
  rw [(s.handle_eq request).1] at served
  constructor
  · intro get
    have kind : (threadRvsProxySend request.nmsg).type = .rvsGet := get
    have ip := answers request.nmsg.nid request.now order
    rw [served, ← ip]
    simp only [RvsMsg.served, kind]
    rfl
  · intro update
    have kind : (threadRvsProxySend request.nmsg).type = .rvsUpdate := update
    rw [served]
    simp only [RvsMsg.served, kind]
    rfl

section Example

private def nodeFive : NidMsg :=
  { type := .rvsUpdate
    srcNID := NID.ofNat 5
    destNID := NID.ofNat 3
    srcNIDgw := NID.ofNat 2
    destNIDgw := NID.zero
    nid := NID.ofNat 5
    ip := NID32.ofNat 50 }

private def announced : RvsRequest := ⟨.ofSec 100, nodeFive⟩

private def lookup : RvsRequest :=
  ⟨.ofSec 109, { nodeFive with type := .rvsGet, srcNID := NID.ofNat 6 }⟩

private def emptyServer : RvsServer := ⟨Buffer.zero rvsBufLen, initRvsTable⟩

theorem rvsService_answer_lookup :
    ((emptyServer.handle announced).1.handle lookup).2.rvs2ph.ip =
      NID32.ofNat 50 := by
  have run : rvsService.Run (emptyServer, 100) [announced]
      [(emptyServer.handle announced).2] ((emptyServer.handle announced).1, 100) :=
    Machine.Run.nil.snoc
      (Machine.timed_total_step_iff.mpr ⟨le_rfl, rfl, rfl, rfl⟩)
  have handled : rvsService.step ((emptyServer.handle announced).1, 100) lookup =
      some ((((emptyServer.handle announced).1.handle lookup).1, 109),
        ((emptyServer.handle announced).1.handle lookup).2) :=
    Machine.timed_total_step_iff.mpr ⟨by decide, rfl, rfl, rfl⟩
  have answer := (rvsService_answer run handled).1 rfl
  rw [answer]
  decide +kernel

end Example

end NodeIdentity
