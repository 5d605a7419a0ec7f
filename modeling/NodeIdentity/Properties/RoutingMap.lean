import NodeIdentity.RoutingTable
import NodeIdentity.Properties.ConnectionMap

/-!
# The routing table as a timed map

What `getRTEntry` answers for a NID is the locator installed for it, or what
was stored for it last while that is recent.  A zero locator is no answer, and
lookups only remove what they would not answer with.
-/

namespace NodeIdentity

open NodeIdentity.Library

/-- What the caller of `getRTEntry` sees. -/
structure RTReply where
  found : Bool
  dst : NID32
  deriving DecidableEq

inductive RTCall where
  | newRT (now : Timeval) (nid : NID) (ip : NID32)
  | getRT (now : Timeval) (nid : NID)

namespace RTCall

def seconds : RTCall → Nat
  | newRT now _ _ => now.tvSec
  | getRT now _ => now.tvSec

def nid : RTCall → NID
  | newRT _ nid _ => nid
  | getRT _ nid => nid

end RTCall

/-- A call which was made: `newRTEntry` stores its locator, or refuses to
change a static entry. -/
inductive RTRecord where
  | stored (nid : NID) (ip : NID32) (since : Nat)
  | refused (nid : NID)
  | looked (nid : NID) (reply : RTReply)
  deriving DecidableEq

namespace RoutingTable

def reply (rt : RoutingTable) (nid : NID) (now : Timeval) : RTReply :=
  let answer := getRTEntry nid now rt
  ⟨answer.found, answer.dst⟩

def apply (rt : RoutingTable) : RTCall → RoutingTable × RTRecord
  | .newRT now nid ip =>
      (newRTEntry nid ip now rt,
        match hashLookup nid rt.rtable with
        | some ce =>
            if ce.tstamp = 0 then .refused nid else .stored nid ip now.tvSec
        | none => .stored nid ip now.tvSec)
  | .getRT now nid =>
      ((getRTEntry nid now rt).rt, .looked nid (rt.reply nid now))

def installed (config : Configuration) (statics : List (NID × NID32)) :
    RoutingTable :=
  statics.foldl (fun rt entry => staticRTEntry entry.1 entry.2 rt)
    (initRtable config)

end RoutingTable

def rtMachine : Machine (RoutingTable × Nat) RTCall RTRecord :=
  (Machine.total RoutingTable.apply).timed RTCall.seconds

def RTRecord.storedFor (nid : NID) : RTRecord → Option (Lease NID32)
  | stored written ip since => if written = nid then some ⟨ip, since⟩ else none
  | refused _ => none
  | looked _ _ => none

def lastStored (nid : NID) (records : List RTRecord) : Option (Lease NID32) :=
  lastOf (RTRecord.storedFor nid) records

@[simp] theorem leases_staticRTEntry (nid : NID) (ip : NID32)
    (rt : RoutingTable) :
    (staticRTEntry nid ip rt).leases = rt.leases.install nid ip :=
  leases_staticConnEntry nid ip rt.rtable

theorem getRTEntry_gatewayIP (nid : NID) (now : Timeval) (rt : RoutingTable) :
    (getRTEntry nid now rt).rt.gatewayIP = rt.gatewayIP := by
  unfold getRTEntry
  cases hashLookup nid rt.rtable with
  | none => rfl
  | some ce =>
      simp only
      split
      · split <;> rfl
      · rfl

namespace RoutingTable

theorem reply_found_iff {rt : RoutingTable} {nid : NID} {now : Timeval}
    {ip : NID32} :
    rt.reply nid now = ⟨true, ip⟩ ↔
      ip ≠ NID32.zero ∧ rt.leases.Serves gatewayTimeout now.tvSec nid ip := by
  constructor
  · intro replied
    have found : (getRTEntry nid now rt).found = true :=
      congrArg RTReply.found replied
    obtain ⟨given, nonzero, served⟩ := getRTEntry_found_iff.mp found
    have same : given = ip := by
      have dst : (getRTEntry nid now rt).dst = ip := congrArg RTReply.dst replied
      rwa [getRTEntry_serves nonzero served] at dst
    subst same
    exact ⟨nonzero, served⟩
  · rintro ⟨nonzero, served⟩
    rw [reply, getRTEntry_serves nonzero served]

theorem reply_of_not_found {rt : RoutingTable} {nid : NID} {now : Timeval}
    (missed : ∀ ip, rt.reply nid now ≠ ⟨true, ip⟩) :
    rt.reply nid now = ⟨false, rt.gatewayIP⟩ := by
  unfold reply getRTEntry at missed ⊢
  cases known : hashLookup nid rt.rtable with
  | none => rfl
  | some ce =>
      simp only [known] at missed ⊢
      split at missed
      · split at missed
        · exact (missed ce.ip rfl).elim
        · next current zero => simp only [if_pos current, if_neg zero]
      · next expired => simp only [if_neg expired]

theorem reply_congr {rt other : RoutingTable} {nid : NID} {now : Timeval}
    (gateway : rt.gatewayIP = other.gatewayIP)
    (served : ∀ ip, rt.leases.Serves gatewayTimeout now.tvSec nid ip ↔
      other.leases.Serves gatewayTimeout now.tvSec nid ip) :
    rt.reply nid now = other.reply nid now := by
  by_cases answered : ∃ ip, rt.reply nid now = ⟨true, ip⟩
  · obtain ⟨ip, replied⟩ := answered
    obtain ⟨nonzero, serves⟩ := reply_found_iff.mp replied
    rw [replied]
    exact (reply_found_iff.mpr ⟨nonzero, (served ip).mp serves⟩).symm
  · have missed : ∀ ip, rt.reply nid now ≠ ⟨true, ip⟩ :=
      fun ip replied => answered ⟨ip, replied⟩
    have missedToo : ∀ ip, other.reply nid now ≠ ⟨true, ip⟩ := by
      intro ip replied
      obtain ⟨nonzero, serves⟩ := reply_found_iff.mp replied
      exact missed ip (reply_found_iff.mpr ⟨nonzero, (served ip).mpr serves⟩)
    rw [reply_of_not_found missed, reply_of_not_found missedToo, gateway]

theorem apply_gatewayIP (rt : RoutingTable) (call : RTCall) :
    (rt.apply call).1.gatewayIP = rt.gatewayIP := by
  cases call with
  | newRT => rfl
  | getRT now nid => exact getRTEntry_gatewayIP nid now rt

theorem apply_permanent {rt : RoutingTable} {nid : NID} {lease : Lease NID32}
    (held : rt.leases nid = some lease) (permanent : lease.Permanent)
    (call : RTCall) : (rt.apply call).1.leases nid = some lease := by
  cases call with
  | newRT now written ip =>
      change (newRTEntry written ip now rt).leases nid = some lease
      rw [leases_newRTEntry]
      exact LeaseTable.refresh_permanent _ _ held permanent ip now.tvSec
  | getRT now sought =>
      rcases getRTEntry_lease sought nid now rt with kept | ⟨_, lapsed⟩
      · exact kept.trans held
      · exact (lapsed lease held (.inl permanent)).elim

theorem apply_of_ne {rt : RoutingTable} {nid : NID} {call : RTCall}
    (different : call.nid ≠ nid) :
    (rt.apply call).1.leases nid = rt.leases nid := by
  cases call with
  | newRT now written ip =>
      exact (congrFun (leases_newRTEntry written ip now rt) nid).trans
        (LeaseTable.refresh_of_ne _ (Ne.symm different) ip now.tvSec)
  | getRT now sought =>
      rcases getRTEntry_leases sought now rt with kept | ⟨_, dropped⟩
      · exact congrFun kept nid
      · exact (congrFun dropped nid).trans
          (LeaseTable.drop_of_ne _ (Ne.symm different))

/-- `newRTEntry` refuses exactly to change a static entry. -/
theorem newRT_record {rt : RoutingTable} {nid : NID}
    (now : Timeval) (ip : NID32) :
    (∀ lease, rt.leases nid = some lease → lease.Permanent →
      (rt.apply (.newRT now nid ip)).2 = .refused nid) ∧
    ((∀ lease, rt.leases nid = some lease → ¬ lease.Permanent) →
      (rt.apply (.newRT now nid ip)).2 = .stored nid ip now.tvSec) := by
  simp only [apply]
  cases known : hashLookup nid rt.rtable with
  | none =>
      have absent : rt.leases nid = none := leases_of_find known
      simp [absent]
  | some ce =>
      rw [leases_of_rtable_some known]
      constructor
      · intro lease held permanent
        cases held
        exact if_pos permanent
      · intro renewable
        exact if_neg (renewable _ rfl)

theorem storedFor_of_ne {rt : RoutingTable} {nid : NID} {call : RTCall}
    (different : call.nid ≠ nid) :
    (rt.apply call).2.storedFor nid = none := by
  cases call with
  | getRT now sought => rfl
  | newRT now written ip =>
      have other : RTRecord.storedFor nid (.stored written ip now.tvSec) = none :=
        if_neg different
      simp only [apply]
      split
      · split
        · rfl
        · exact other
      · exact other

theorem storedFor_permanent {rt : RoutingTable} {nid : NID}
    {lease : Lease NID32} (held : rt.leases nid = some lease)
    (permanent : lease.Permanent) (call : RTCall) :
    (rt.apply call).2.storedFor nid = none := by
  by_cases own : call.nid = nid
  · cases call with
    | getRT now sought => rfl
    | newRT now written ip =>
        change written = nid at own
        subst own
        rw [(newRT_record now ip).1 lease held permanent]
        rfl
  · exact storedFor_of_ne own

end RoutingTable

theorem leases_rtInstalled (config : Configuration)
    (statics : List (NID × NID32)) (nid : NID) :
    (RoutingTable.installed config statics).leases nid =
      (staticIP statics nid).map fun ip => ⟨ip, 0⟩ := by
  have empty : (initRtable config).leases = fun _ => none :=
    leases_empty 30 thirty_pos
  have installs : statics.foldl (fun table entry =>
        table.install entry.1 entry.2) (initRtable config).leases =
      (RoutingTable.installed config statics).leases :=
    List.foldl_hom RoutingTable.leases
      fun rt entry => (leases_staticRTEntry entry.1 entry.2 rt).symm
  rw [← installs, empty]
  exact LeaseTable.foldl_install statics nid

theorem gatewayIP_rtInstalled (config : Configuration)
    (statics : List (NID × NID32)) :
    (RoutingTable.installed config statics).gatewayIP = config.gatewayIP := by
  induction statics using List.reverseRecOn with
  | nil => rfl
  | append_singleton statics entry ih =>
      rw [RoutingTable.installed, List.foldl_concat]
      exact ih

/-- A static NID has its entry and nothing was stored for it; any other NID
has what was stored for it last, until that is too old. -/
structure RTSpecified (statics : List (NID × NID32)) (gatewayIP : NID32)
    (records : List RTRecord) (clock : Nat) (rt : RoutingTable) : Prop where
  gateway : rt.gatewayIP = gatewayIP
  fixed : ∀ nid ip, staticIP statics nid = some ip →
    rt.leases nid = some ⟨ip, 0⟩ ∧ lastStored nid records = none
  learned : ∀ nid, staticIP statics nid = none →
    rt.leases.Remembers gatewayTimeout clock nid (lastStored nid records)

theorem lastStored_snoc (nid : NID) (records : List RTRecord)
    (record : RTRecord) :
    lastStored nid (records ++ [record]) =
      (record.storedFor nid).or (lastStored nid records) :=
  lastOf_snoc _ _ _

namespace RTSpecified

variable {statics : List (NID × NID32)} {gatewayIP : NID32}
  {records : List RTRecord} {clock : Nat} {rt : RoutingTable}

theorem apply (specified : RTSpecified statics gatewayIP records clock rt)
    {call : RTCall} (positive : 0 < call.seconds)
    (order : clock ≤ call.seconds) :
    RTSpecified statics gatewayIP (records ++ [(rt.apply call).2])
      call.seconds (rt.apply call).1 := by
  refine ⟨(rt.apply_gatewayIP call).trans specified.gateway, ?_, ?_⟩
  · intro nid ip static
    obtain ⟨held, nothing⟩ := specified.fixed nid ip static
    have permanent : (⟨ip, 0⟩ : Lease NID32).Permanent := rfl
    refine ⟨RoutingTable.apply_permanent held permanent call, ?_⟩
    rw [lastStored_snoc, nothing, Option.or_none]
    exact RoutingTable.storedFor_permanent held permanent call
  · intro nid dynamic
    have remembers := specified.learned nid dynamic
    rw [lastStored_snoc]
    cases call with
    | getRT now sought =>
        exact remembers.pass order (getRTEntry_lease sought nid now rt)
    | newRT now written ip =>
        by_cases same : written = nid
        · subst same
          rw [(RoutingTable.newRT_record now ip).2 remembers.held_renewable,
            RTRecord.storedFor, if_pos rfl]
          change (newRTEntry written ip now rt).leases.Remembers _ _ _ _
          rw [leases_newRTEntry]
          exact remembers.refresh positive ip
        · have other : (RTCall.newRT now written ip).nid ≠ nid := same
          rw [RoutingTable.storedFor_of_ne other, Option.none_or]
          exact remembers.pass order (.inl (RoutingTable.apply_of_ne other))

end RTSpecified

theorem rtSpecified_of_run {config : Configuration}
    {statics : List (NID × NID32)} {began clock : Nat} {calls : List RTCall}
    {records : List RTRecord} {rt : RoutingTable} (positive : 0 < began)
    (run : rtMachine.Run (RoutingTable.installed config statics, began) calls
      records (rt, clock)) :
    RTSpecified statics config.gatewayIP records clock rt ∧ 0 < clock := by
  apply run.timed_total_record
  · refine ⟨⟨gatewayIP_rtInstalled config statics, ?_, ?_⟩, positive⟩
    · intro nid ip static
      rw [leases_rtInstalled, static]
      exact ⟨rfl, rfl⟩
    · intro nid dynamic
      apply LeaseTable.Remembers.of_none
      rw [leases_rtInstalled, dynamic, Option.map_none]
  · intro calls records state clock call holds order
    obtain ⟨specified, dated⟩ := holds
    have later := Nat.lt_of_lt_of_le dated order
    exact ⟨specified.apply later order, later⟩

theorem RoutingTable.reply_apply {rt : RoutingTable} {nid : NID}
    {now : Timeval} {call : RTCall}
    (harmless : call.nid ≠ nid ∨
      ∃ moment sought, call = .getRT moment sought ∧
        moment.tvSec ≤ now.tvSec) :
    (rt.apply call).1.reply nid now = rt.reply nid now := by
  apply reply_congr (rt.apply_gatewayIP call)
  intro ip
  rcases harmless with different | ⟨moment, sought, rfl, order⟩
  · rw [LeaseTable.Serves, apply_of_ne different]
    exact Iff.rfl
  · change (getRTEntry sought moment rt).rt.leases.Serves _ _ _ _ ↔ _
    rcases getRTEntry_lease sought nid moment rt with kept | ⟨gone, lapsed⟩
    · rw [LeaseTable.Serves, kept]
      exact Iff.rfl
    · constructor
      · rintro ⟨lease, held, _⟩
        cases gone.symm.trans held
      · rintro ⟨lease, held, live, _⟩
        exact (lapsed lease held (live.earlier order)).elim

/-- The routing table is a timed map: a static NID has the locator installed
for it, any other NID the one stored last while it is recent; a zero locator,
like everything else, is a miss. -/
theorem getRTEntry_meets_spec {config : Configuration}
    {statics : List (NID × NID32)} {began clock : Nat} {calls : List RTCall}
    {records : List RTRecord} {rt : RoutingTable} (positive : 0 < began)
    (run : rtMachine.Run (RoutingTable.installed config statics, began) calls
      records (rt, clock)) (nid : NID) (now : Timeval)
    (order : clock ≤ now.tvSec) :
    (∀ ip, rt.reply nid now = ⟨true, ip⟩ ↔
      (staticIP statics nid = some ip ∧ ip ≠ NID32.zero) ∨
      ∃ since, lastStored nid records = some ⟨ip, since⟩ ∧
        ip ≠ NID32.zero ∧ now.tvSec < since + gatewayTimeout) ∧
    ((∀ ip, rt.reply nid now ≠ ⟨true, ip⟩) →
      rt.reply nid now = ⟨false, config.gatewayIP⟩) ∧
    (∀ call : RTCall,
      (call.nid ≠ nid ∨ ∃ moment sought, call = .getRT moment sought ∧
        moment.tvSec ≤ now.tvSec) →
      (rt.apply call).1.reply nid now = rt.reply nid now) ∧
    ∀ ip, (rt.apply (.newRT now nid ip)).2 =
      if (staticIP statics nid).isSome then .refused nid
      else .stored nid ip now.tvSec := by
  obtain ⟨specified, _⟩ := rtSpecified_of_run positive run
  refine ⟨?_, ?_, fun call harmless => RoutingTable.reply_apply harmless, ?_⟩
  · intro ip
    rw [RoutingTable.reply_found_iff]
    cases static : staticIP statics nid with
    | some fixed =>
        obtain ⟨held, nothing⟩ := specified.fixed nid fixed static
        rw [nothing]
        constructor
        · rintro ⟨nonzero, lease, known, _, rfl⟩
          cases held.symm.trans known
          exact .inl ⟨rfl, nonzero⟩
        · rintro (⟨same, nonzero⟩ | ⟨since, impossible, _⟩)
          · cases same
            exact ⟨nonzero, _, held, .inl rfl, rfl⟩
          · cases impossible
    | none =>
        rw [(specified.learned nid static).serves_iff order]
        constructor
        · rintro ⟨nonzero, lease, last, recent, rfl⟩
          exact .inr ⟨lease.since, last, nonzero, recent⟩
        · rintro (⟨impossible, _⟩ | ⟨since, last, nonzero, recent⟩)
          · cases impossible
          · exact ⟨nonzero, _, last, recent, rfl⟩
  · intro missed
    rw [RoutingTable.reply_of_not_found missed, specified.gateway]
  · intro ip
    cases static : staticIP statics nid with
    | some fixed =>
        obtain ⟨held, _⟩ := specified.fixed nid fixed static
        exact (RoutingTable.newRT_record now ip).1 _ held rfl
    | none =>
        have remembers := specified.learned nid static
        exact (RoutingTable.newRT_record now ip).2 remembers.held_renewable

section Example

private def routeConfig : Configuration := .sample .gateway (NID.ofNat 1)

private def routeStatics : List (NID × NID32) :=
  [(routeConfig.nidrvs, routeConfig.rvsIP),
    (routeConfig.nidgw, routeConfig.gatewayIP)]

private def routeLearned : RoutingTable × RTRecord :=
  (RoutingTable.installed routeConfig routeStatics).apply
    (.newRT (.ofSec 100) (NID.ofNat 9) (NID32.ofNat 90))

/-- What was learned serves for ten seconds, the rendezvous server always. -/
theorem getRTEntry_meets_spec_learned :
    routeLearned.1.reply (NID.ofNat 9) (.ofSec 109) =
        ⟨true, NID32.ofNat 90⟩ ∧
      routeLearned.1.reply (NID.ofNat 9) (.ofSec 110) =
        ⟨false, routeConfig.gatewayIP⟩ ∧
      routeLearned.1.reply routeConfig.nidrvs (.ofSec 110) =
        ⟨true, routeConfig.rvsIP⟩ := by
  have run : rtMachine.Run
      (RoutingTable.installed routeConfig routeStatics, 100)
      [.newRT (.ofSec 100) (NID.ofNat 9) (NID32.ofNat 90)]
      [routeLearned.2] (routeLearned.1, 100) :=
    Machine.Run.nil.snoc
      (Machine.timed_total_step_iff.mpr ⟨le_rfl, rfl, rfl, rfl⟩)
  have stored : lastStored (NID.ofNat 9) [routeLearned.2] =
      some ⟨NID32.ofNat 90, 100⟩ := by decide +kernel
  have dynamic : staticIP routeStatics (NID.ofNat 9) = none := by
    decide +kernel
  have early := getRTEntry_meets_spec (by decide) run (NID.ofNat 9)
    (.ofSec 109) (by decide)
  have late := getRTEntry_meets_spec (by decide) run (NID.ofNat 9)
    (.ofSec 110) (by decide)
  have fixed := getRTEntry_meets_spec (by decide) run routeConfig.nidrvs
    (.ofSec 110) (by decide)
  refine ⟨(early.1 _).mpr (.inr ⟨100, stored, by decide, by decide⟩), ?_, ?_⟩
  · apply late.2.1
    intro ip replied
    rcases (late.1 ip).mp replied with ⟨static, _⟩ | ⟨since, last, _, recent⟩
    · cases dynamic.symm.trans static
    · cases stored.symm.trans last
      exact absurd recent (by decide)
  · exact (fixed.1 _).mpr (.inl ⟨by decide +kernel, by decide⟩)

end Example

end NodeIdentity
