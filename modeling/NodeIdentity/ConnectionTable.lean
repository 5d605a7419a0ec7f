import NodeIdentity.Hash
import NodeIdentity.Library.LeaseTable

/-!
# Tables of connection entries and of pending requests

The connection map and the routing table fill their tables with the same two
functions, and the two request queues lock a NID in the same way.  Each pair
is one definition here and the modules of the source instantiate it.  The
leases of a table are its abstract content: every operation is the
operation of `LeaseTable` on them.
-/

namespace NodeIdentity

open NodeIdentity.Library

/-- The body of `newCMEntry` and `newRTEntry`: a static entry is kept, any
other entry gets the locator and the current time. -/
def newConnEntry (nid : NID) (ip : NID32) (now : Timeval)
    (table : HashTable ConnEntry) : HashTable ConnEntry :=
  match hashLookup nid table with
  | some ce =>
      if ce.tstamp = 0 then table
      else (hashInsert nid ⟨ip, now.tvSec⟩ table).2
  | none => (hashInsert nid ⟨ip, now.tvSec⟩ table).2

/-- The body of `staticCMEntry` and `staticRTEntry`: a known entry keeps its
time stamp and only changes its locator. -/
def staticConnEntry (nid : NID) (ip : NID32) (table : HashTable ConnEntry) :
    HashTable ConnEntry :=
  match hashLookup nid table with
  | some ce => (hashInsert nid { ce with ip := ip } table).2
  | none => (hashInsert nid ⟨ip, 0⟩ table).2

def ConnEntry.lease (ce : ConnEntry) : Lease NID32 := ⟨ce.ip, ce.tstamp⟩

def leases (table : HashTable ConnEntry) : LeaseTable NID NID32 :=
  fun nid => (table.find nid).map ConnEntry.lease

theorem leases_of_find {table : HashTable ConnEntry} {nid : NID}
    {known : Option ConnEntry} (found : hashLookup nid table = known) :
    leases table nid = known.map ConnEntry.lease :=
  congrArg (Option.map ConnEntry.lease) found

theorem leases_insert (table : HashTable ConnEntry) (nid : NID)
    (ce : ConnEntry) :
    leases (table.insert nid ce) =
      Function.update (leases table) nid (some ce.lease) := by
  funext other
  by_cases same : other = nid
  · subst same
    simp [leases]
  · simp [leases, ChainedTable.find_insert_of_ne _ same, same]

theorem leases_erase (table : HashTable ConnEntry) (nid : NID) :
    leases (table.erase nid) = (leases table).drop nid := by
  funext other
  by_cases same : other = nid
  · subst same
    simp [leases, LeaseTable.drop_self]
  · rw [LeaseTable.drop_of_ne _ same]
    simp [leases, ChainedTable.find_erase_of_ne _ same]

theorem leases_empty (size : Nat) (size_pos : 0 < size) :
    leases (constructHashTable size size_pos) = fun _ => none := by
  funext nid
  simp [leases, constructHashTable]

theorem leases_newConnEntry (nid : NID) (ip : NID32) (now : Timeval)
    (table : HashTable ConnEntry) :
    leases (newConnEntry nid ip now table) =
      (leases table).refresh nid ip now.tvSec := by
  unfold newConnEntry LeaseTable.refresh
  cases known : hashLookup nid table with
  | none =>
      rw [leases_of_find known]
      exact leases_insert table nid _
  | some ce =>
      have lease : leases table nid = some ce.lease := leases_of_find known
      rw [lease]
      by_cases static : ce.tstamp = 0
      · have permanent : ce.lease.Permanent := static
        simp only [if_pos static, LeaseTable.renewed, if_pos permanent]
        rw [← lease, Function.update_eq_self]
      · have renewable : ¬ ce.lease.Permanent := static
        simp only [if_neg static, LeaseTable.renewed, if_neg renewable]
        exact leases_insert table nid _

theorem leases_staticConnEntry (nid : NID) (ip : NID32)
    (table : HashTable ConnEntry) :
    leases (staticConnEntry nid ip table) = (leases table).install nid ip := by
  unfold staticConnEntry LeaseTable.install
  cases known : hashLookup nid table with
  | none =>
      rw [leases_of_find known]
      exact leases_insert table nid _
  | some ce =>
      rw [leases_of_find known]
      exact leases_insert table nid _

/-- `rvsq_entry` and `dhtq_entry`. -/
structure QueueEntry where
  nid : NID
  tstamp : Timeval
  deriving DecidableEq

/-- In microseconds, the unit of `tv_usec`. -/
def lockTime : Nat := 150000

def lockNID (nid : NID) (now : Timeval) (table : HashTable QueueEntry) :
    HashTable QueueEntry :=
  (hashInsert nid ⟨nid, now⟩ table).2

def unlockNID (nid : NID) (table : HashTable QueueEntry) :
    HashTable QueueEntry :=
  (hashDel nid table).2

/-- The body of `isQueued` and `is_dht_queued`.  Only the microseconds of the
two clock readings are compared. -/
def isLocked (nid : NID) (now : Timeval) (table : HashTable QueueEntry) :
    Bool × HashTable QueueEntry :=
  match hashLookup nid table with
  | some re =>
      if re.tstamp.tvUsec.val + lockTime < now.tvUsec.val then
        (false, unlockNID nid table)
      else (decide (nid = re.nid), table)
  | none => (false, table)

theorem isLocked_congr {nid : NID} {now : Timeval}
    {table other : HashTable QueueEntry}
    (same : hashLookup nid table = hashLookup nid other) :
    (isLocked nid now table).1 = (isLocked nid now other).1 := by
  unfold isLocked
  rw [same]
  cases hashLookup nid other with
  | none => rfl
  | some re =>
      simp only
      split <;> rfl

theorem isLocked_table_of_ne {nid other : NID} (different : other ≠ nid)
    (now : Timeval) (table : HashTable QueueEntry) :
    hashLookup other (isLocked nid now table).2 = hashLookup other table := by
  unfold isLocked
  cases hashLookup nid table with
  | none => rfl
  | some re =>
      simp only
      split
      · exact ChainedTable.find_erase_of_ne table different
      · rfl

end NodeIdentity
