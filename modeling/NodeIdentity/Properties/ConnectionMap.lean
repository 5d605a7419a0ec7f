import Mathlib.Data.List.Induction
import NodeIdentity.Library.History
import NodeIdentity.Library.Machine
import NodeIdentity.ConnectionMapper

/-!
# The connection map as a timed map

What `getCMEntry` answers is determined by the calls about its NID alone: the
static entry while nobody deleted it, else the last write since the last
deletion while it is recent.  A miss is a write itself, of the default gateway.
-/

namespace NodeIdentity

open NodeIdentity.Library

/-- What the caller of `getCMEntry` and the reader of `sp_cm2rvs` see. -/
structure CMReply where
  found : Bool
  dst : NID32
  request : Option NID
  deriving DecidableEq

def CMAnswer.reply (answer : CMAnswer) : CMReply :=
  ⟨answer.found, answer.dst, answer.request⟩

/-- The reply a lease calls for: a permanent one is served, a recent one is
served and, in its last second, refreshed unless somebody did so already. -/
def leaseReply (nid : NID) (now : Timeval) (gatewayIP : NID32) (queued : Bool) :
    Option (Lease NID32) → CMReply
  | some lease =>
      if lease.Permanent then ⟨true, lease.value, none⟩
      else if now.tvSec < lease.since + rvsUpdateTimeout then
        ⟨true, lease.value,
          if lease.since + rvsProactive ≤ now.tvSec ∧ queued = false then
            some nid
          else none⟩
      else ⟨false, gatewayIP, some nid⟩
  | none => ⟨false, gatewayIP, some nid⟩

theorem getCMEntry_reply (nid : NID) (now : Timeval) (cm : ConnMapper)
    (queueTable : QueueTable) :
    (getCMEntry nid now cm queueTable).reply =
      leaseReply nid now cm.cmGatewayIP (isQueued nid now queueTable).1
        (cm.leases nid) := by
  have emitted := getCMEntry_request nid now cm queueTable
  by_cases live : ∃ lease, cm.LiveEntry now nid lease
  · obtain ⟨lease, held, serving⟩ := live
    obtain ⟨found, dst, _⟩ := getCMEntry_live queueTable ⟨held, serving⟩
    rw [CMAnswer.reply, found, dst, emitted, held]
    simp only [needsResolution, ConnMapper.serves, held, Option.any_some,
      Lease.Live, leaseReply]
    by_cases permanent : lease.Permanent
    · simp [permanent]
    · have before : now.tvSec < lease.since + rvsUpdateTimeout :=
        serving.resolve_left permanent
      cases (isQueued nid now queueTable).1 with
      | true => simp [permanent, before]
      | false => simp [permanent, before]
  · have dead : ∀ lease, ¬ cm.LiveEntry now nid lease :=
      fun lease here => live ⟨lease, here⟩
    obtain ⟨found, dst, request, _⟩ := getCMEntry_dead queueTable dead
    rw [CMAnswer.reply, found, dst, request]
    cases held : cm.leases nid with
    | none => rfl
    | some lease =>
        have lapsed : ¬ lease.Live rvsUpdateTimeout now.tvSec :=
          fun serving => dead lease ⟨held, serving⟩
        obtain ⟨renewable, expired⟩ := not_or.mp lapsed
        rw [leaseReply, if_neg renewable, if_neg expired]

/-- The functions other threads call; `unqueue` belongs to the queue which a
lookup consults. -/
inductive CMCall where
  | newCM (now : Timeval) (nid : NID) (ip : NID32)
  | delCM (now : Timeval) (nid : NID)
  | getCM (now : Timeval) (nid : NID)
  | unqueue (now : Timeval) (nid : NID)

namespace CMCall

def seconds : CMCall → Nat
  | newCM now _ _ => now.tvSec
  | delCM now _ => now.tvSec
  | getCM now _ => now.tvSec
  | unqueue now _ => now.tvSec

def nid : CMCall → NID
  | newCM _ nid _ => nid
  | delCM _ nid => nid
  | getCM _ nid => nid
  | unqueue _ nid => nid

end CMCall

/-- A call which was made, with the reply of a lookup. -/
inductive CMRecord where
  | wrote (nid : NID) (ip : NID32) (since : Nat)
  | deleted (nid : NID)
  | looked (nid : NID) (since : Nat) (reply : CMReply)
  | unqueued (nid : NID)
  deriving DecidableEq

structure CMSystem where
  cm : ConnMapper
  queueTable : QueueTable

namespace CMSystem

def apply (s : CMSystem) : CMCall → CMSystem × CMRecord
  | .newCM now nid ip =>
      ({ s with cm := newCMEntry nid ip now s.cm }, .wrote nid ip now.tvSec)
  | .delCM _ nid => ({ s with cm := delCMEntry nid s.cm }, .deleted nid)
  | .getCM now nid =>
      let answer := getCMEntry nid now s.cm s.queueTable
      (⟨answer.cm, answer.queueTable⟩, .looked nid now.tvSec answer.reply)
  | .unqueue _ nid =>
      ({ s with queueTable := NodeIdentity.unqueue nid s.queueTable },
        .unqueued nid)

def reply (s : CMSystem) (nid : NID) (now : Timeval) : CMReply :=
  (getCMEntry nid now s.cm s.queueTable).reply

/-- The map with its static entries and an empty queue. -/
def installed (config : Configuration) (statics : List (NID × NID32)) :
    CMSystem :=
  { cm := statics.foldl (fun cm entry => staticCMEntry entry.1 entry.2 cm)
      (initConnMapper config)
    queueTable := initRvsQueueTable }

end CMSystem

def cmMachine : Machine (CMSystem × Nat) CMCall CMRecord :=
  (Machine.total CMSystem.apply).timed CMCall.seconds

def staticIP (statics : List (NID × NID32)) (nid : NID) : Option NID32 :=
  lastOf (fun entry => if entry.1 = nid then some entry.2 else none) statics

/-- What a record says about the last write for a NID: a lookup which failed
has written the default gateway, and a deletion takes the write back. -/
def CMRecord.write (gatewayIP : NID32) (nid : NID) :
    CMRecord → Option (Option (Lease NID32))
  | wrote written ip since =>
      if written = nid then some (some ⟨ip, since⟩) else none
  | deleted gone => if gone = nid then some none else none
  | looked sought since reply =>
      if sought = nid ∧ reply.found = false then some (some ⟨gatewayIP, since⟩)
      else none
  | unqueued _ => none

/-- The last write for a NID since its last deletion. -/
def lastWrite (gatewayIP : NID32) (nid : NID) (records : List CMRecord) :
    Option (Lease NID32) :=
  (lastOf (CMRecord.write gatewayIP nid) records).join

theorem lastWrite_snoc (gatewayIP : NID32) (nid : NID)
    (records : List CMRecord) (record : CMRecord) :
    lastWrite gatewayIP nid (records ++ [record]) =
      (record.write gatewayIP nid).getD (lastWrite gatewayIP nid records) := by
  rw [lastWrite, lastOf_snoc, lastWrite]
  cases record.write gatewayIP nid with
  | none => rfl
  | some write => rfl

def specifiedLease (statics : List (NID × NID32)) (gatewayIP : NID32)
    (nid : NID) (records : List CMRecord) : Option (Lease NID32) :=
  match staticIP statics nid with
  | some ip =>
      if .deleted nid ∈ records then lastWrite gatewayIP nid records
      else some ⟨ip, 0⟩
  | none => lastWrite gatewayIP nid records

theorem leases_installed (config : Configuration)
    (statics : List (NID × NID32)) (nid : NID) :
    (CMSystem.installed config statics).cm.leases nid =
      (staticIP statics nid).map fun ip => ⟨ip, 0⟩ := by
  have empty : (initConnMapper config).leases = fun _ => none :=
    leases_empty 20 twenty_pos
  have installs : statics.foldl (fun table entry =>
        table.install entry.1 entry.2) (initConnMapper config).leases =
      (CMSystem.installed config statics).cm.leases :=
    List.foldl_hom ConnMapper.leases
      fun cm entry => (leases_staticCMEntry entry.1 entry.2 cm).symm
  rw [← installs, empty]
  exact LeaseTable.foldl_install statics nid

theorem specifiedLease_of_fixed {statics : List (NID × NID32)}
    {gatewayIP ip : NID32} {nid : NID} {records : List CMRecord}
    (static : staticIP statics nid = some ip)
    (kept : .deleted nid ∉ records) :
    specifiedLease statics gatewayIP nid records = some ⟨ip, 0⟩ := by
  simp only [specifiedLease, static, if_neg kept]

theorem specifiedLease_of_free {statics : List (NID × NID32)}
    {gatewayIP : NID32} {nid : NID} {records : List CMRecord}
    (free : staticIP statics nid = none ∨ .deleted nid ∈ records) :
    specifiedLease statics gatewayIP nid records =
      lastWrite gatewayIP nid records := by
  unfold specifiedLease
  rcases free with none | gone
  · rw [none]
  · cases staticIP statics nid with
    | none => rfl
    | some ip => exact if_pos gone

namespace CMSystem

theorem apply_permanent {s : CMSystem} {nid : NID} {lease : Lease NID32}
    (held : s.cm.leases nid = some lease) (permanent : lease.Permanent)
    {call : CMCall} (kept : (s.apply call).2 ≠ .deleted nid) :
    (s.apply call).1.cm.leases nid = some lease := by
  cases call with
  | newCM now written ip =>
      change (newCMEntry written ip now s.cm).leases nid = some lease
      rw [leases_newCMEntry]
      exact LeaseTable.refresh_permanent _ _ held permanent ip now.tvSec
  | delCM now gone =>
      change (delCMEntry gone s.cm).leases nid = some lease
      have different : nid ≠ gone := by
        intro same
        exact kept (by rw [same]; rfl)
      rw [leases_delCMEntry, LeaseTable.drop_of_ne _ different, held]
  | getCM now sought =>
      change (getCMEntry sought now s.cm s.queueTable).cm.leases nid = some lease
      by_cases same : nid = sought
      · subst same
        have live : s.cm.LiveEntry now nid lease := ⟨held, .inl permanent⟩
        rw [(getCMEntry_live s.queueTable live).2.2, held]
      · rw [getCMEntry_leases_of_ne same, held]
  | unqueue now gone => exact held

theorem apply_deleted {s : CMSystem} {nid : NID} {call : CMCall}
    (gone : (s.apply call).2 = .deleted nid) :
    (s.apply call).1.cm.leases nid = none := by
  cases call with
  | delCM now deleted =>
      cases gone
      change (delCMEntry nid s.cm).leases nid = none
      rw [leases_delCMEntry, LeaseTable.drop_self]
  | newCM => cases gone
  | getCM => cases gone
  | unqueue => cases gone

theorem apply_renewable {s : CMSystem} {nid : NID}
    (renewable : ∀ lease, s.cm.leases nid = some lease → ¬ lease.Permanent)
    (call : CMCall) :
    (s.apply call).1.cm.leases nid =
      ((s.apply call).2.write s.cm.cmGatewayIP nid).getD (s.cm.leases nid) := by
  cases call with
  | newCM now written ip =>
      change (newCMEntry written ip now s.cm).leases nid =
        (CMRecord.write _ nid (.wrote written ip now.tvSec)).getD _
      rw [leases_newCMEntry]
      by_cases same : written = nid
      · subst same
        rw [LeaseTable.refresh_self _ renewable, CMRecord.write, if_pos rfl]
        rfl
      · rw [LeaseTable.refresh_of_ne _ (Ne.symm same), CMRecord.write,
          if_neg same]
        rfl
  | delCM now gone =>
      change (delCMEntry gone s.cm).leases nid =
        (CMRecord.write _ nid (.deleted gone)).getD _
      rw [leases_delCMEntry]
      by_cases same : gone = nid
      · subst same
        rw [LeaseTable.drop_self, CMRecord.write, if_pos rfl]
        rfl
      · rw [LeaseTable.drop_of_ne _ (Ne.symm same), CMRecord.write,
          if_neg same]
        rfl
  | getCM now sought =>
      change (getCMEntry sought now s.cm s.queueTable).cm.leases nid =
        (CMRecord.write _ nid (.looked sought now.tvSec
          (getCMEntry sought now s.cm s.queueTable).reply)).getD _
      by_cases same : sought = nid
      · subst same
        by_cases live : ∃ lease, s.cm.LiveEntry now sought lease
        · obtain ⟨lease, here⟩ := live
          obtain ⟨found, _, kept⟩ := getCMEntry_live s.queueTable here
          rw [kept, CMRecord.write, CMAnswer.reply, found, if_neg (by simp)]
          rfl
        · have dead : ∀ lease, ¬ s.cm.LiveEntry now sought lease :=
            fun lease here => live ⟨lease, here⟩
          obtain ⟨found, _, _, planted⟩ :=
            getCMEntry_dead s.queueTable dead
          rw [planted, CMRecord.write, CMAnswer.reply, found, if_pos ⟨rfl, rfl⟩,
            Function.update_self]
          rfl
      · rw [getCMEntry_leases_of_ne (Ne.symm same), CMRecord.write,
          if_neg fun both => same both.1]
        rfl
  | unqueue now gone => rfl

theorem apply_cmGatewayIP (s : CMSystem) (call : CMCall) :
    (s.apply call).1.cm.cmGatewayIP = s.cm.cmGatewayIP := by
  cases call with
  | newCM => rfl
  | delCM => rfl
  | getCM now nid => exact getCMEntry_cmGatewayIP nid now s.cm s.queueTable
  | unqueue => rfl

end CMSystem

/-- The map holds the specified lease of every NID, and every write happened
at a positive time, so that it is not taken for a static entry. -/
structure Specified (statics : List (NID × NID32)) (gatewayIP : NID32)
    (records : List CMRecord) (s : CMSystem) : Prop where
  gateway : s.cm.cmGatewayIP = gatewayIP
  leases : ∀ nid,
    s.cm.leases nid = specifiedLease statics gatewayIP nid records
  dated : ∀ nid lease,
    lastWrite gatewayIP nid records = some lease → ¬ lease.Permanent

theorem CMRecord.write_since {gatewayIP : NID32} {nid : NID} {s : CMSystem}
    {call : CMCall} {lease : Lease NID32}
    (write : (s.apply call).2.write gatewayIP nid = some (some lease)) :
    lease.since = call.seconds := by
  cases call with
  | newCM now written ip =>
      obtain ⟨_, same⟩ := Option.ite_none_right_eq_some.mp write
      cases same
      rfl
  | delCM now gone =>
      obtain ⟨_, same⟩ := Option.ite_none_right_eq_some.mp write
      cases same
  | getCM now sought =>
      obtain ⟨_, same⟩ := Option.ite_none_right_eq_some.mp write
      cases same
      rfl
  | unqueue now gone => cases write

theorem Specified.apply {statics : List (NID × NID32)} {gatewayIP : NID32}
    {records : List CMRecord} {s : CMSystem}
    (specified : Specified statics gatewayIP records s) {call : CMCall}
    (positive : 0 < call.seconds) :
    Specified statics gatewayIP (records ++ [(s.apply call).2])
      (s.apply call).1 := by
  refine ⟨(s.apply_cmGatewayIP call).trans specified.gateway, ?_, ?_⟩
  · intro nid
    by_cases fixed : ∃ ip, staticIP statics nid = some ip ∧
        .deleted nid ∉ records ++ [(s.apply call).2]
    · obtain ⟨ip, static, kept⟩ := fixed
      rw [specifiedLease_of_fixed static kept]
      rw [List.mem_append, not_or] at kept
      have held := (specified.leases nid).trans
        (specifiedLease_of_fixed static kept.1)
      refine CMSystem.apply_permanent held rfl ?_
      exact fun same => kept.2 (List.mem_singleton.mpr same.symm)
    · have free : staticIP statics nid = none ∨
          .deleted nid ∈ records ++ [(s.apply call).2] := by
        cases static : staticIP statics nid with
        | none => exact .inl rfl
        | some ip => exact .inr (by_contra fun kept => fixed ⟨ip, static, kept⟩)
      rw [specifiedLease_of_free free, lastWrite_snoc]
      by_cases gone : (s.apply call).2 = .deleted nid
      · rw [CMSystem.apply_deleted gone, gone, CMRecord.write, if_pos rfl]
        rfl
      · have before : staticIP statics nid = none ∨ .deleted nid ∈ records := by
          simpa [Ne.symm gone] using free
        have held := (specified.leases nid).trans (specifiedLease_of_free before)
        rw [CMSystem.apply_renewable, specified.gateway, held]
        rw [held]
        exact specified.dated nid
  · intro nid lease
    rw [lastWrite_snoc]
    cases write : (s.apply call).2.write gatewayIP nid with
    | none => exact specified.dated nid lease
    | some written =>
        intro same
        cases same
        intro permanent
        rw [Lease.Permanent, CMRecord.write_since write] at permanent
        exact Nat.ne_of_gt positive permanent

theorem cmGatewayIP_installed (config : Configuration)
    (statics : List (NID × NID32)) :
    (CMSystem.installed config statics).cm.cmGatewayIP = config.gatewayIP := by
  induction statics using List.reverseRecOn with
  | nil => rfl
  | append_singleton statics entry ih =>
      rw [CMSystem.installed, List.foldl_concat]
      exact ih

theorem specified_of_run {config : Configuration}
    {statics : List (NID × NID32)} {began clock : Nat} {calls : List CMCall}
    {records : List CMRecord} {s : CMSystem} (positive : 0 < began)
    (run : cmMachine.Run (CMSystem.installed config statics, began) calls
      records (s, clock)) :
    Specified statics config.gatewayIP records s ∧ 0 < clock := by
  apply run.timed_total_record
  · refine ⟨⟨cmGatewayIP_installed config statics, ?_, ?_⟩, positive⟩
    · intro nid
      rw [leases_installed]
      cases static : staticIP statics nid with
      | none =>
          rw [specifiedLease_of_free (.inl static)]
          rfl
      | some ip => exact (specifiedLease_of_fixed static (by simp)).symm
    · intro nid lease write
      cases write
  · intro calls records state clock call holds order
    obtain ⟨specified, dated⟩ := holds
    have later := Nat.lt_of_lt_of_le dated order
    exact ⟨specified.apply later, later⟩

theorem CMSystem.reply_apply_of_ne {s : CMSystem} {nid : NID} (now : Timeval)
    {call : CMCall} (different : call.nid ≠ nid) :
    (s.apply call).1.reply nid now = s.reply nid now := by
  have lease : (s.apply call).1.cm.leases nid = s.cm.leases nid := by
    cases call with
    | newCM moment written ip =>
        exact (congrFun (leases_newCMEntry written ip moment s.cm) nid).trans
          (LeaseTable.refresh_of_ne _ (Ne.symm different) ip moment.tvSec)
    | delCM moment gone =>
        exact (congrFun (leases_delCMEntry gone s.cm) nid).trans
          (LeaseTable.drop_of_ne _ (Ne.symm different))
    | getCM moment sought =>
        exact getCMEntry_leases_of_ne (Ne.symm different) moment s.cm s.queueTable
    | unqueue => rfl
  have waiting : hashLookup nid (s.apply call).1.queueTable =
      hashLookup nid s.queueTable := by
    cases call with
    | newCM => rfl
    | delCM => rfl
    | getCM moment sought =>
        exact getCMEntry_queueTable_of_ne (Ne.symm different) moment s.cm
          s.queueTable
    | unqueue moment gone =>
        exact ChainedTable.find_erase_of_ne s.queueTable (Ne.symm different)
  have queued : (isQueued nid now (s.apply call).1.queueTable).1 =
      (isQueued nid now s.queueTable).1 := isLocked_congr waiting
  rw [CMSystem.reply, getCMEntry_reply, CMSystem.reply, getCMEntry_reply, lease,
    queued, s.apply_cmGatewayIP call]

/-- The connection map is a timed map: static entries stand until they are
deleted, the last write serves for its term, and everything else is a miss,
whatever was called for other NIDs. -/
theorem getCMEntry_meets_spec {config : Configuration}
    {statics : List (NID × NID32)} {began clock : Nat} {calls : List CMCall}
    {records : List CMRecord} {s : CMSystem} (positive : 0 < began)
    (run : cmMachine.Run (CMSystem.installed config statics, began) calls
      records (s, clock)) (nid : NID) (now : Timeval) :
    (∀ ip, staticIP statics nid = some ip → .deleted nid ∉ records →
      s.reply nid now = ⟨true, ip, none⟩) ∧
    (staticIP statics nid = none ∨ .deleted nid ∈ records →
      (∀ ip since,
        lastWrite config.gatewayIP nid records = some ⟨ip, since⟩ →
        now.tvSec < since + rvsUpdateTimeout →
        s.reply nid now =
          ⟨true, ip,
            if since + rvsUpdateTimeout - 1 ≤ now.tvSec ∧
              (isQueued nid now s.queueTable).1 = false then some nid
            else none⟩) ∧
      ((∀ ip since,
          lastWrite config.gatewayIP nid records = some ⟨ip, since⟩ →
          since + rvsUpdateTimeout ≤ now.tvSec) →
        s.reply nid now = ⟨false, config.gatewayIP, some nid⟩)) ∧
    ∀ call : CMCall, call.nid ≠ nid →
      (s.apply call).1.reply nid now = s.reply nid now := by
  obtain ⟨specified, _⟩ := specified_of_run positive run
  have answer := getCMEntry_reply nid now s.cm s.queueTable
  rw [specified.leases nid, specified.gateway] at answer
  refine ⟨?_, ?_, fun call different => CMSystem.reply_apply_of_ne now different⟩
  · intro ip static kept
    rw [CMSystem.reply, answer, specifiedLease_of_fixed static kept]
    rfl
  · intro free
    rw [specifiedLease_of_free free] at answer
    constructor
    · intro ip since write before
      have renewable := specified.dated nid _ write
      rw [CMSystem.reply, answer, write, leaseReply, if_neg renewable,
        if_pos before]
      rfl
    · intro expired
      rw [CMSystem.reply, answer]
      cases write : lastWrite config.gatewayIP nid records with
      | none => rfl
      | some lease =>
          have renewable := specified.dated nid lease write
          have late := expired lease.value lease.since write
          rw [leaseReply, if_neg renewable, if_neg (Nat.not_lt.mpr late)]

section Example

private def mapConfig : Configuration := .sample .node (NID.ofNat 1)

private def missed : CMSystem × CMRecord :=
  (CMSystem.installed mapConfig [(mapConfig.nidrvs, mapConfig.rvsIP)]).apply
    (.getCM (.ofSec 100) (NID.ofNat 9))

/-- A miss is served for five seconds and asks again in the last of them. -/
theorem getCMEntry_meets_spec_missed :
    missed.1.reply (NID.ofNat 9) (.ofSec 104) =
        ⟨true, mapConfig.gatewayIP, some (NID.ofNat 9)⟩ ∧
      missed.1.reply (NID.ofNat 9) (.ofSec 105) =
        ⟨false, mapConfig.gatewayIP, some (NID.ofNat 9)⟩ := by
  have run : cmMachine.Run
      (CMSystem.installed mapConfig [(mapConfig.nidrvs, mapConfig.rvsIP)], 100)
      [.getCM (.ofSec 100) (NID.ofNat 9)] [missed.2] (missed.1, 100) :=
    Machine.Run.nil.snoc
      (Machine.timed_total_step_iff.mpr ⟨le_rfl, rfl, rfl, rfl⟩)
  have meets := getCMEntry_meets_spec (by decide) run (NID.ofNat 9)
  have planted : lastWrite mapConfig.gatewayIP (NID.ofNat 9) [missed.2] =
      some ⟨mapConfig.gatewayIP, 100⟩ := by decide +kernel
  constructor
  · have served := ((meets (.ofSec 104)).2.1 (.inl (by decide +kernel))).1
      _ _ planted (by decide)
    rw [if_pos (by decide +kernel)] at served
    exact served
  · apply ((meets (.ofSec 105)).2.1 (.inl (by decide +kernel))).2
    intro ip since write
    cases planted.symm.trans write
    decide

end Example

end NodeIdentity
