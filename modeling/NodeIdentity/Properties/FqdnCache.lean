import NodeIdentity.Library.History
import NodeIdentity.Library.Machine
import NodeIdentity.DnsHandler

/-!
# The cache of resolved names

The table of names remembers where the text of an answer was, not the text.
All its entries point to one array, and every response of the name server
clears and fills that array, for whatever name it is.
-/

namespace NodeIdentity

open NodeIdentity.Library

structure DnsSystem where
  handler : DnsHandler
  nm : NidMapper

def dnsMachine : Machine DnsSystem DnsInput DnsLog :=
  { step := fun s input =>
      if s.handler.running then
        (threadDnshandler input s.handler s.nm).map fun round =>
          (⟨round.state, round.nm⟩, round.log)
      else none }

/-- The handler when it enters its loop; its arrays may hold anything. -/
def dnsStart (buffer : DnsBuffer) (ansAns : NameBuffer) (nm : NidMapper) :
    DnsSystem :=
  ⟨{ buffer := buffer
     ansAns := ansAns
     fqdnTable := initFqdnTable
     running := true }, nm⟩

def DnsLog.answer (fqdn : List UInt8) : DnsLog → Option NidsText
  | .success name text => if name = fqdn then some text else none
  | _ => none

/-- What a response for any name left: a text, if it was successful. -/
def DnsLog.response : DnsLog → Option (Option NidsText)
  | .success _ text => some (some text)
  | .failure _ => some none
  | _ => none

/-- The text of the last successful response for a name. -/
def lastAnswer (fqdn : List UInt8) (log : List DnsLog) : Option NidsText :=
  lastOf (DnsLog.answer fqdn) log

/-- The text of the last response for any name, if it was successful. -/
def lastReceived (log : List DnsLog) : Option NidsText :=
  (lastOf DnsLog.response log).join

theorem lastAnswer_snoc (fqdn : List UInt8) (log : List DnsLog)
    (entry : DnsLog) :
    lastAnswer fqdn (log ++ [entry]) =
      (entry.answer fqdn).or (lastAnswer fqdn log) :=
  lastOf_snoc _ log entry

theorem lastReceived_snoc (log : List DnsLog) (entry : DnsLog) :
    lastReceived (log ++ [entry]) =
      entry.response.getD (lastReceived log) := by
  rw [lastReceived, lastOf_snoc, lastReceived]
  cases entry.response with
  | none => rfl
  | some text => rfl

/-- What the variables of the handler know of the history.  Only a running
handler has seen nothing but proper texts. -/
structure Remembers (s : DnsHandler) (log : List DnsLog) : Prop where
  table : ∀ fqdn, (getNIDsbyName fqdn s.fqdnTable).isSome =
    (lastAnswer fqdn log).isSome
  array : ∀ fqdn, (lastAnswer fqdn log).isSome →
    getNids s.ansAns = (lastReceived log).getD noText
  addresses : ∀ fqdn text, lastAnswer fqdn log = some text → text ≠ noText

theorem getNIDsbyName_newFQDNTEntry (fqdn other : List UInt8)
    (ref : TextRef) (table : FqdnHashTable TextRef) :
    getNIDsbyName other (newFQDNTEntry fqdn ref table) =
      if fqdn = other then some ref else getNIDsbyName other table := by
  by_cases same : fqdn = other
  · subst same
    rw [if_pos rfl]
    exact ChainedTable.find_insert_self table fqdn ref
  · rw [if_neg same]
    exact ChainedTable.find_insert_of_ne table (Ne.symm same) ref

theorem Remembers.round {s : DnsHandler} {log : List DnsLog}
    (remembers : Remembers s log) {nm : NidMapper} {round : DnsRound}
    (effect : RoundEffect s nm round) (running : round.state.running = true) :
    Remembers round.state (log ++ [round.log]) := by
  cases effect with
  | silent _ stopped =>
      rw [stopped] at running
      cases running
  | hit _ logged ansAns table _ =>
      rw [logged]
      refine ⟨?_, ?_, ?_⟩
      · intro fqdn
        rw [table, lastAnswer_snoc]
        exact remembers.table fqdn
      · intro fqdn
        rw [ansAns, lastAnswer_snoc, lastReceived_snoc]
        exact remembers.array fqdn
      · intro fqdn text
        rw [lastAnswer_snoc]
        exact remembers.addresses fqdn text
  | @success fqdn logged table text =>
      have addresses : getNids round.state.ansAns ≠ noText := by
        intro empty
        cases text with
        | unresolved _ stopped => cases stopped.symm.trans running
        | resolved result =>
            rw [empty, resolveNids_noText] at result
            cases result
      rw [logged]
      refine ⟨?_, ?_, ?_⟩
      · intro other
        rw [table, getNIDsbyName_newFQDNTEntry, lastAnswer_snoc]
        by_cases same : fqdn = other
        · simp [same, DnsLog.answer]
        · simpa [same, DnsLog.answer] using remembers.table other
      · intro other _
        rw [lastReceived_snoc]
        rfl
      · intro other text answered
        rw [lastAnswer_snoc] at answered
        by_cases same : fqdn = other
        · rw [DnsLog.answer, if_pos same, Option.some_or] at answered
          rw [← Option.some.inj answered]
          exact addresses
        · rw [DnsLog.answer, if_neg same, Option.none_or] at answered
          exact remembers.addresses other text answered
  | failure logged cleared table =>
      rw [logged]
      refine ⟨?_, ?_, ?_⟩
      · intro other
        rw [table, lastAnswer_snoc]
        exact remembers.table other
      · intro other _
        rw [lastReceived_snoc]
        exact cleared
      · intro other text
        rw [lastAnswer_snoc]
        exact remembers.addresses other text

theorem dnsMachine_step {s next : DnsSystem} {input : DnsInput}
    {entry : DnsLog} (stepped : dnsMachine.step s input = some (next, entry)) :
    s.handler.running = true ∧ ∃ round, RoundEffect s.handler s.nm round ∧
      next.handler = round.state ∧ entry = round.log := by
  simp only [dnsMachine] at stepped
  split at stepped
  · next running =>
      obtain ⟨round, result, pair⟩ := Option.map_eq_some_iff.mp stepped
      cases pair
      exact ⟨running, round, threadDnshandler_effect result, rfl, rfl⟩
  · cases stepped

theorem remembers_of_run {buffer : DnsBuffer} {ansAns : NameBuffer}
    {nm : NidMapper} {inputs : List DnsInput} {log : List DnsLog}
    {s : DnsSystem}
    (run : dnsMachine.Run (dnsStart buffer ansAns nm) inputs log s)
    (running : s.handler.running = true) : Remembers s.handler log := by
  induction run with
  | nil =>
      refine ⟨?_, ?_, ?_⟩
      · intro fqdn
        have empty : getNIDsbyName fqdn initFqdnTable = none :=
          ChainedTable.find_empty 100 (by decide) fqdn
        simp only [dnsStart, empty]
        rfl
      · intro fqdn answered
        cases answered
      · intro fqdn text answered
        cases answered
  | snoc _ last ih =>
      obtain ⟨before, round, effect, next, rfl⟩ := dnsMachine_step last
      rw [next] at running ⊢
      exact (ih before).round effect running

/-- A query for the address of a name of one letter. -/
def letterQuery (letter : UInt8) : List UInt8 :=
  List.replicate dnshdrLen 0 ++ [1, letter, 0] ++ htons typeA ++ htons 1

def digitNid (digit : UInt8) : List UInt8 :=
  (List.replicate 7 [48, 48, 48, 48, colon]).flatten ++ [48, 48, 48, digit]

/-- A successful response for a name of one letter: the question, a text
record with a NID and its gateway, and a name server. -/
def letterResponse (letter digit : UInt8) : List UInt8 :=
  let text := digitNid digit ++ [44] ++ digitNid digit
  let record (type : Nat) (data : List UInt8) : List UInt8 :=
    [192, 12] ++ htons type ++ htons 1 ++ [0, 0, 0, 60] ++
      htons data.length ++ data
  List.replicate dnshdrLen 0 ++ [1, letter, 0] ++ htons typeTXT ++ htons 1 ++
    record typeTXT (79 :: text) ++ record 2 [1, 0]

def letterRound (letter digit : UInt8) : DnsInput :=
  ⟨some (letterQuery letter), some (letterResponse letter digit), true⟩

def freshDns : DnsSystem :=
  dnsStart (Buffer.zero bufferLength) (Buffer.zero nameLen) (initNidMapper true)

end NodeIdentity
