import Mathlib.Data.List.Induction
import NodeIdentity.ConnectionMapper
import NodeIdentity.Dhtc

/-!
# Request locks

A lock is read back by the microseconds of two clock readings, without their
seconds.  Within a second that is the time passed; across seconds it is not,
and a lock taken late in a second is never seen to lapse.
-/

namespace NodeIdentity

open NodeIdentity.Library

def Timeval.micros (time : Timeval) : Nat :=
  time.tvSec * 1000000 + time.tvUsec.val

/-- The two queues of pending requests. -/
inductive RequestQueue where
  | rvs
  | dht
  deriving DecidableEq

inductive QueueCall where
  | queue (nid : NID) (now : Timeval)
  | unqueue (nid : NID)
  | isQueued (nid : NID) (now : Timeval)

def QueueCall.nid : QueueCall → NID
  | queue nid _ => nid
  | unqueue nid => nid
  | isQueued nid _ => nid

namespace RequestQueue

def queue : RequestQueue → NID → Timeval → QueueTable → QueueTable
  | rvs => NodeIdentity.queue
  | dht => dhtQueue

def unqueue : RequestQueue → NID → QueueTable → QueueTable
  | rvs => NodeIdentity.unqueue
  | dht => dhtUnqueue

def isQueued : RequestQueue → NID → Timeval → QueueTable → Bool × QueueTable
  | rvs => NodeIdentity.isQueued
  | dht => isDhtQueued

def apply (kind : RequestQueue) (table : QueueTable) : QueueCall → QueueTable
  | .queue nid now => kind.queue nid now table
  | .unqueue nid => kind.unqueue nid table
  | .isQueued nid now => (kind.isQueued nid now table).2

/-- The table some calls after `nid` was put in it. -/
def queuedSince (kind : RequestQueue) (nid : NID) (taken : Timeval)
    (start : QueueTable) (since : List QueueCall) : QueueTable :=
  since.foldl kind.apply (kind.queue nid taken start)

/-- The lookup which consults the queue asks for `nid`, when it has no fresh
answer for it. -/
def Requests (kind : RequestQueue) (nid : NID) (now : Timeval)
    (table : QueueTable) : Prop :=
  match kind with
  | rvs => ∀ cm : ConnMapper, cm.serves rvsProactive nid now = false →
      (getCMEntry nid now cm table).request = some nid
  | dht => ∀ mapping : DhtMapping, mapping.dhtQueueTable = table →
      mapping.locator nid = none →
      (getDHTEntry nid now mapping).request = some nid

end RequestQueue

/-- A lock taken at `taken` is in force at `now` for `LOCK_TIME` and no longer,
and after that the NID is requested again. -/
structure LastsLockTime (kind : RequestQueue) (nid : NID) (taken now : Timeval)
    (table : QueueTable) : Prop where
  queued : (kind.isQueued nid now table).1 = true ↔
    now.micros - taken.micros ≤ lockTime
  requests : lockTime < now.micros - taken.micros → kind.Requests nid now table

/-- The lock is not over, or the microseconds alone show that it is. -/
def LapseShown (taken now : Timeval) : Prop :=
  now.micros - taken.micros ≤ lockTime ∨
    taken.tvUsec.val + lockTime < now.tvUsec.val

theorem RequestQueue.isQueued_eq (kind : RequestQueue) (nid : NID)
    (now : Timeval) (table : QueueTable) :
    kind.isQueued nid now table = isLocked nid now table := by
  cases kind with
  | rvs => rfl
  | dht => rfl

theorem RequestQueue.lookup_apply (kind : RequestQueue) {nid : NID}
    (table : QueueTable) {call : QueueCall} (other : call.nid ≠ nid) :
    hashLookup nid (kind.apply table call) = hashLookup nid table := by
  cases call with
  | queue locked now =>
      have inserted : hashLookup nid (lockNID locked now table) =
          hashLookup nid table :=
        ChainedTable.find_insert_of_ne table (Ne.symm other) _
      cases kind with
      | rvs => exact inserted
      | dht => exact inserted
  | unqueue gone =>
      have erased : hashLookup nid (unlockNID gone table) =
          hashLookup nid table :=
        ChainedTable.find_erase_of_ne table (Ne.symm other)
      cases kind with
      | rvs => exact erased
      | dht => exact erased
  | isQueued asked now =>
      have kept := isLocked_table_of_ne (Ne.symm other) now table
      rw [← kind.isQueued_eq] at kept
      exact kept

theorem RequestQueue.lookup_queuedSince (kind : RequestQueue) (nid : NID)
    (taken : Timeval) (start : QueueTable) {since : List QueueCall}
    (others : ∀ call ∈ since, call.nid ≠ nid) :
    hashLookup nid (kind.queuedSince nid taken start since) =
      some ⟨nid, taken⟩ := by
  induction since using List.reverseRecOn with
  | nil =>
      have inserted : hashLookup nid (lockNID nid taken start) =
          some ⟨nid, taken⟩ := ChainedTable.find_insert_self start nid _
      cases kind with
      | rvs => exact inserted
      | dht => exact inserted
  | append_singleton since call ih =>
      have last : call.nid ≠ nid := others call (by simp)
      rw [RequestQueue.queuedSince, List.foldl_concat, kind.lookup_apply _ last]
      apply ih
      intro earlier member
      exact others earlier (List.mem_append_left _ member)

theorem isLocked_iff {nid : NID} {taken : Timeval} {table : QueueTable}
    (held : hashLookup nid table = some ⟨nid, taken⟩) (now : Timeval) :
    (isLocked nid now table).1 = true ↔
      now.tvUsec.val ≤ taken.tvUsec.val + lockTime := by
  rw [isLocked, held]
  by_cases lapsed : taken.tvUsec.val + lockTime < now.tvUsec.val
  · simp [lapsed]
  · simp only [lapsed, if_false, decide_true, true_iff]
    exact Nat.le_of_not_lt lapsed

/-- The last `LOCK_TIME` of a second has no successor with larger
microseconds: a lock taken there stands at every later time. -/
theorem isLocked_of_late {nid : NID} {taken : Timeval} {table : QueueTable}
    (held : hashLookup nid table = some ⟨nid, taken⟩)
    (late : 1000000 ≤ taken.tvUsec.val + lockTime) (now : Timeval) :
    (isLocked nid now table).1 = true := by
  rw [isLocked_iff held]
  exact (now.tvUsec.isLt.trans_le late).le

theorem lapseShown_iff {taken now : Timeval}
    (order : taken.micros ≤ now.micros) :
    (now.tvUsec.val ≤ taken.tvUsec.val + lockTime ↔
        now.micros - taken.micros ≤ lockTime) ↔
      LapseShown taken now := by
  have seconds : taken.tvSec ≤ now.tvSec := by
    have bound := taken.tvUsec.isLt
    have bound' := now.tvUsec.isLt
    simp only [Timeval.micros] at order
    omega
  have inTime : now.micros - taken.micros ≤ lockTime →
      now.tvUsec.val ≤ taken.tvUsec.val + lockTime := by
    intro recent
    simp only [Timeval.micros] at recent order
    omega
  constructor
  · intro agrees
    by_cases shown : taken.tvUsec.val + lockTime < now.tvUsec.val
    · exact .inr shown
    · exact .inl (agrees.mp (Nat.le_of_not_lt shown))
  · rintro (recent | shown)
    · exact iff_of_true (inTime recent) recent
    · have lapsed := Nat.not_le.mpr shown
      exact iff_of_false lapsed fun recent => lapsed (inTime recent)

theorem RequestQueue.requests_of_not_queued {kind : RequestQueue} {nid : NID}
    {now : Timeval} {table : QueueTable}
    (lapsed : (kind.isQueued nid now table).1 = false) :
    kind.Requests nid now table := by
  cases kind with
  | rvs =>
      intro cm stale
      have unlocked : (NodeIdentity.isQueued nid now table).1 = false := lapsed
      rw [getCMEntry_request, needsResolution, stale, unlocked]
      simp
  | dht =>
      intro mapping same unknown
      subst same
      have unlocked : (isDhtQueued nid now mapping.dhtQueueTable).1 = false :=
        lapsed
      rw [getDHTEntry_eq_request unknown]
      simp [requestDHTEntry, unlocked]

/-- A lock lasts its time exactly if no second passes over its end: when more
than `LOCK_TIME` is over, the microseconds of the clock must have moved on by
more than that. -/
theorem lastsLockTime_iff (kind : RequestQueue) (nid : NID)
    (taken now : Timeval) (start : QueueTable) (since : List QueueCall)
    (order : taken.micros ≤ now.micros)
    (others : ∀ call ∈ since, call.nid ≠ nid) :
    LastsLockTime kind nid taken now (kind.queuedSince nid taken start since) ↔
      LapseShown taken now := by
  have held := kind.lookup_queuedSince nid taken start others
  have reading := isLocked_iff held now
  rw [← kind.isQueued_eq] at reading
  rw [← lapseShown_iff order, ← reading]
  constructor
  · intro lasts
    exact lasts.queued
  · intro queued
    refine ⟨queued, fun expired => ?_⟩
    apply RequestQueue.requests_of_not_queued
    rw [← Bool.not_eq_true, queued]
    exact Nat.not_le.mpr expired

def LocksLastLockTime : Prop :=
  ∀ (kind : RequestQueue) (nid : NID) (taken now : Timeval)
    (start : QueueTable) (since : List QueueCall),
    taken.micros ≤ now.micros → (∀ call ∈ since, call.nid ≠ nid) →
      LastsLockTime kind nid taken now (kind.queuedSince nid taken start since)

section Example

private def lateLock : Timeval := ⟨100, ⟨900000, by decide⟩⟩

/-- A hundred seconds later the NID is still locked. -/
theorem not_locksLastLockTime : ¬ LocksLastLockTime := by
  intro lasting
  have nothing : ∀ call ∈ ([] : List QueueCall), call.nid ≠ NID.ofNat 9 := by
    simp
  have lasts := lasting .dht (NID.ofNat 9) lateLock (.ofSec 200)
    initRvsQueueTable [] (by decide) nothing
  have held := RequestQueue.lookup_queuedSince .dht (NID.ofNat 9) lateLock
    initRvsQueueTable nothing
  have queued := isLocked_of_late held (by decide) (.ofSec 200)
  rw [← RequestQueue.isQueued_eq .dht, lasts.queued] at queued
  exact absurd queued (by decide)

/-- A lock taken early in a second is seen to lapse in the same second. -/
theorem lastsLockTime_early :
    LastsLockTime .rvs (NID.ofNat 9) (.ofSec 100) ⟨100, 150001⟩
      (RequestQueue.queuedSince .rvs (NID.ofNat 9) (.ofSec 100)
        initRvsQueueTable [.queue (NID.ofNat 8) (.ofSec 100)]) := by
  apply (lastsLockTime_iff .rvs (NID.ofNat 9) (.ofSec 100) ⟨100, 150001⟩
    initRvsQueueTable [.queue (NID.ofNat 8) (.ofSec 100)] (by decide) ?_).mpr
  · exact .inr (by decide)
  · intro call member
    cases List.mem_singleton.mp member
    decide

end Example

end NodeIdentity
