import Mathlib.Data.List.Induction
import NodeIdentity.Library.History
import NodeIdentity.Dhtc

/-!
# Age of DHT locators

An entry of the DHT table has a time stamp like those of the other tables, but
`getDHTEntry` does not read it.  So a locator is served for as long as no other
one arrives, and it is not asked for again.
-/

namespace NodeIdentity

open NodeIdentity.Library

inductive DhtCall where
  | addDHT (now : Timeval) (nid : NID) (ip : NID32)
  | getDHT (now : Timeval) (nid : NID)
  | unqueue (nid : NID)

namespace DhtMapping

def apply (dht : DhtMapping) : DhtCall → DhtMapping
  | .addDHT now nid ip => addDHTEntry nid ip now dht
  | .getDHT now nid => (getDHTEntry nid now dht).dht
  | .unqueue nid =>
      { dht with dhtQueueTable := dhtUnqueue nid dht.dhtQueueTable }

def after (calls : List DhtCall) : DhtMapping :=
  calls.foldl apply initDhtable

end DhtMapping

def DhtCall.addedFor (nid : NID) : DhtCall → Option (Lease NID32)
  | addDHT now added ip => if added = nid then some ⟨ip, now.tvSec⟩ else none
  | getDHT _ _ => none
  | unqueue _ => none

def lastAdded (nid : NID) (calls : List DhtCall) : Option (Lease NID32) :=
  lastOf (DhtCall.addedFor nid) calls

/-- A lookup at `now` gives a locator which was stored less than its lifetime
ago, and asks for a new one if the last one is older.  While a request is
locked it is not repeated. -/
structure LooksUpFresh (before : List DhtCall) (now : Timeval) (nid : NID)
    (dht : DhtMapping) : Prop where
  stored : ∀ ip, (getDHTEntry nid now dht).dst = some ip →
    ∃ moment, .addDHT moment nid ip ∈ before ∧
      now.tvSec < moment.tvSec + dhtTtl
  requested : ∀ lease, lastAdded nid before = some lease →
    lease.since + dhtTtl ≤ now.tvSec →
      (getDHTEntry nid now dht).dst = none ∧
      ((getDHTEntry nid now dht).request = none ↔
        (isDhtQueued nid now dht.dhtQueueTable).1 = true) ∧
      ((getDHTEntry nid now dht).request = some nid →
        hashLookup nid (getDHTEntry nid now dht).dht.dhtQueueTable =
          some ⟨nid, now⟩)

def LocatorsFresh (calls : List DhtCall) : Prop :=
  ∀ before now nid after, calls = before ++ .getDHT now nid :: after →
    LooksUpFresh before now nid (DhtMapping.after before)

/-- No lookup comes later than the lifetime of the last locator, unless that
is the zero locator, which is none. -/
def LookedUpInTime (calls : List DhtCall) : Prop :=
  ∀ before now nid after, calls = before ++ .getDHT now nid :: after →
    ∀ lease, lastAdded nid before = some lease →
      lease.value ≠ NID32.zero → now.tvSec < lease.since + dhtTtl

theorem locator_after (nid : NID) (calls : List DhtCall) :
    (DhtMapping.after calls).locator nid =
      (lastAdded nid calls).bind fun lease =>
        if lease.value ≠ NID32.zero then some lease.value else none := by
  induction calls using List.reverseRecOn with
  | nil =>
      have empty : hashLookup nid (DhtMapping.after []).dhtable = none :=
        ChainedTable.find_empty 30 thirty_pos nid
      rw [DhtMapping.locator, empty]
      rfl
  | append_singleton calls call ih =>
      rw [DhtMapping.after, List.foldl_concat, ← DhtMapping.after, lastAdded,
        lastOf_snoc, ← lastAdded]
      cases call with
      | addDHT now added ip =>
          by_cases same : added = nid
          · subst same
            rw [DhtCall.addedFor, if_pos rfl]
            exact locator_addDHTEntry_self added ip now _
          · rw [DhtCall.addedFor, if_neg same, Option.none_or, ← ih]
            exact locator_addDHTEntry_of_ne (Ne.symm same) ip now _
      | getDHT now sought =>
          rw [DhtCall.addedFor, Option.none_or, ← ih]
          exact getDHTEntry_locator sought nid now _
      | unqueue gone =>
          rw [DhtCall.addedFor, Option.none_or, ← ih]
          rfl

theorem looksUpFresh_iff (before : List DhtCall) (now : Timeval) (nid : NID) :
    LooksUpFresh before now nid (DhtMapping.after before) ↔
      ∀ lease, lastAdded nid before = some lease →
        lease.value ≠ NID32.zero → now.tvSec < lease.since + dhtTtl := by
  have answer := getDHTEntry_dst nid now (DhtMapping.after before)
  rw [locator_after] at answer
  constructor
  · intro fresh lease last nonzero
    by_contra late
    have missed := (fresh.requested lease last (Nat.le_of_not_lt late)).1
    simp [answer, last, nonzero] at missed
  · intro inTime
    constructor
    · intro ip given
      rw [answer] at given
      obtain ⟨lease, last, value⟩ := Option.bind_eq_some_iff.mp given
      obtain ⟨nonzero, same⟩ := Option.ite_none_right_eq_some.mp value
      cases same
      obtain ⟨call, member, added⟩ := exists_of_lastOf last
      cases call with
      | addDHT moment other locator =>
          obtain ⟨rfl, whole⟩ := Option.ite_none_right_eq_some.mp added
          cases whole
          exact ⟨moment, member, inTime _ last nonzero⟩
      | getDHT => cases added
      | unqueue => cases added
    · intro lease last late
      have zero : ¬ lease.value ≠ NID32.zero := fun nonzero =>
        Nat.not_lt.mpr late (inTime lease last nonzero)
      have unknown : (DhtMapping.after before).locator nid = none := by
        rw [locator_after, last]
        exact if_neg zero
      rw [getDHTEntry_eq_request unknown]
      exact ⟨requestDHTEntry_dst nid now _, requestDHTEntry_spec nid now _⟩

/-- The locators given out are fresh exactly if none is asked for after its
lifetime: nothing in the table limits the age of an entry. -/
theorem locatorsFresh_iff (calls : List DhtCall) :
    LocatorsFresh calls ↔ LookedUpInTime calls := by
  constructor
  · intro fresh before now nid after whole
    exact (looksUpFresh_iff before now nid).mp (fresh before now nid after whole)
  · intro inTime before now nid after whole
    exact (looksUpFresh_iff before now nid).mpr
      (inTime before now nid after whole)

section Example

/-- A locator stored at 100 is still served at 110. -/
theorem not_locatorsFresh : ¬ ∀ calls, LocatorsFresh calls := by
  intro always
  have fresh := always
    [.addDHT (.ofSec 100) (NID.ofNat 9) (NID32.ofNat 90),
      .getDHT (.ofSec 110) (NID.ofNat 9)]
    [.addDHT (.ofSec 100) (NID.ofNat 9) (NID32.ofNat 90)] (.ofSec 110)
    (NID.ofNat 9) [] rfl
  have missed := (fresh.requested ⟨NID32.ofNat 90, 100⟩ (by decide +kernel)
    (by decide)).1
  revert missed
  decide +kernel

end Example

end NodeIdentity
