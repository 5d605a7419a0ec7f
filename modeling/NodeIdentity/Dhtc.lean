import NodeIdentity.ConnectionTable

/-!
# DHT mapping table

The table functions of `dhtc.c` and the request queue of `dht_queue_table.c`.
A failed lookup writes the NID to `sp_dht`, unless a request for it is locked,
and leaves the destination of the caller untouched.
-/

namespace NodeIdentity

open NodeIdentity.Library

/-- The lifetime, in seconds, with which a locator is published. -/
def dhtTtl : Nat := 10

def dhtQueue (nid : NID) (now : Timeval) (dht_queue_table : HashTable QueueEntry) :
    HashTable QueueEntry :=
  lockNID nid now dht_queue_table

def dhtUnqueue (nid : NID) (dht_queue_table : HashTable QueueEntry) :
    HashTable QueueEntry :=
  unlockNID nid dht_queue_table

def isDhtQueued (nid : NID) (now : Timeval)
    (dht_queue_table : HashTable QueueEntry) : Bool × HashTable QueueEntry :=
  isLocked nid now dht_queue_table

structure DhtMapping where
  dhtable : HashTable ConnEntry
  dhtQueueTable : HashTable QueueEntry

def initDhtable : DhtMapping :=
  { dhtable := constructHashTable 30 thirty_pos
    dhtQueueTable := constructHashTable 10 ten_pos }

def addDHTEntry (nid : NID) (ip : NID32) (now : Timeval) (dht : DhtMapping) :
    DhtMapping :=
  { dht with dhtable := (hashInsert nid ⟨ip, now.tvSec⟩ dht.dhtable).2 }

/-- The result of `getDHTEntry`: the locator when it returns 1, the tables, and
the datagram written to `sp_dht`. -/
structure DhtAnswer where
  dst : Option NID32
  dht : DhtMapping
  request : Option NID

/-- The end of `getDHTEntry`, after a lookup without a locator. -/
def requestDHTEntry (nid : NID) (now : Timeval) (dht : DhtMapping) : DhtAnswer :=
  let (queued, table) := isDhtQueued nid now dht.dhtQueueTable
  if queued then ⟨none, { dht with dhtQueueTable := table }, none⟩
  else ⟨none, { dht with dhtQueueTable := dhtQueue nid now table }, some nid⟩

def getDHTEntry (nid : NID) (now : Timeval) (dht : DhtMapping) : DhtAnswer :=
  match hashLookup nid dht.dhtable with
  | some ce =>
      if ce.ip ≠ NID32.zero then ⟨some ce.ip, dht, none⟩
      else requestDHTEntry nid now dht
  | none => requestDHTEntry nid now dht

/-- The locator the table has for a NID. -/
def DhtMapping.locator (dht : DhtMapping) (nid : NID) : Option NID32 :=
  match hashLookup nid dht.dhtable with
  | some ce => if ce.ip ≠ NID32.zero then some ce.ip else none
  | none => none

theorem DhtMapping.locator_ne_zero {dht : DhtMapping} {nid : NID} {ip : NID32}
    (known : dht.locator nid = some ip) : ip ≠ NID32.zero := by
  unfold DhtMapping.locator at known
  cases lookup : hashLookup nid dht.dhtable with
  | none => simp [lookup] at known
  | some ce =>
      simp only [lookup, ne_eq, Option.ite_none_right_eq_some,
        Option.some.injEq] at known
      obtain ⟨nonzero, rfl⟩ := known
      exact nonzero

theorem requestDHTEntry_dst (nid : NID) (now : Timeval) (dht : DhtMapping) :
    (requestDHTEntry nid now dht).dst = none := by
  simp only [requestDHTEntry]
  split <;> rfl

theorem getDHTEntry_dst (nid : NID) (now : Timeval) (dht : DhtMapping) :
    (getDHTEntry nid now dht).dst = dht.locator nid := by
  unfold getDHTEntry DhtMapping.locator
  cases hashLookup nid dht.dhtable with
  | none => exact requestDHTEntry_dst nid now dht
  | some ce =>
      by_cases zero : ce.ip = NID32.zero
      · simp [zero, requestDHTEntry_dst]
      · simp [zero]

/-- A lookup only touches the request queue. -/
theorem getDHTEntry_locator (sought nid : NID) (now : Timeval)
    (dht : DhtMapping) :
    (getDHTEntry sought now dht).dht.locator nid = dht.locator nid := by
  have requested :
      (requestDHTEntry sought now dht).dht.dhtable = dht.dhtable := by
    simp only [requestDHTEntry]
    split <;> rfl
  have kept : (getDHTEntry sought now dht).dht.dhtable = dht.dhtable := by
    unfold getDHTEntry
    cases hashLookup sought dht.dhtable with
    | none => exact requested
    | some ce =>
        simp only
        split
        · rfl
        · exact requested
  rw [DhtMapping.locator, DhtMapping.locator, kept]

theorem locator_addDHTEntry_self (nid : NID) (ip : NID32) (now : Timeval)
    (dht : DhtMapping) :
    (addDHTEntry nid ip now dht).locator nid =
      if ip ≠ NID32.zero then some ip else none := by
  simp only [DhtMapping.locator, addDHTEntry, hashLookup, hashInsert,
    ChainedTable.find_insert_self]

theorem locator_addDHTEntry_of_ne {nid other : NID} (different : other ≠ nid)
    (ip : NID32) (now : Timeval) (dht : DhtMapping) :
    (addDHTEntry nid ip now dht).locator other = dht.locator other := by
  simp only [DhtMapping.locator, addDHTEntry, hashLookup, hashInsert,
    ChainedTable.find_insert_of_ne _ different]

theorem getDHTEntry_eq_request {nid : NID} {now : Timeval} {dht : DhtMapping}
    (unknown : dht.locator nid = none) :
    getDHTEntry nid now dht = requestDHTEntry nid now dht := by
  unfold getDHTEntry
  unfold DhtMapping.locator at unknown
  cases known : hashLookup nid dht.dhtable with
  | none => rfl
  | some ce =>
      by_cases zero : ce.ip = NID32.zero
      · simp only [zero, ne_eq, not_true_eq_false, if_false]
      · simp [known, zero] at unknown

theorem requestDHTEntry_spec (nid : NID) (now : Timeval) (dht : DhtMapping) :
    ((requestDHTEntry nid now dht).request = none ↔
        (isDhtQueued nid now dht.dhtQueueTable).1 = true) ∧
      ((requestDHTEntry nid now dht).request = some nid →
        hashLookup nid (requestDHTEntry nid now dht).dht.dhtQueueTable =
          some ⟨nid, now⟩) := by
  simp only [requestDHTEntry]
  cases queued : (isDhtQueued nid now dht.dhtQueueTable).1 with
  | true => simp
  | false =>
      simp only [Bool.false_eq_true, if_false]
      refine ⟨by simp, fun _ => ?_⟩
      exact ChainedTable.find_insert_self _ nid _

theorem locator_addDHTEntry {nid other : NID} {ip found : NID32}
    {now : Timeval} {dht : DhtMapping}
    (known : (addDHTEntry nid ip now dht).locator other = some found) :
    (other = nid ∧ found = ip) ∨ dht.locator other = some found := by
  by_cases same : other = nid
  · subst same
    rw [locator_addDHTEntry_self] at known
    obtain ⟨_, given⟩ := Option.ite_none_right_eq_some.mp known
    cases given
    exact .inl ⟨rfl, rfl⟩
  · rw [locator_addDHTEntry_of_ne same] at known
    exact .inr known

end NodeIdentity
