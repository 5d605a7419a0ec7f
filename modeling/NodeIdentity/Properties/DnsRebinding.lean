import NodeIdentity.Properties.FqdnCache
import NodeIdentity.Properties.DhcpConfiguration
import NodeIdentity.Properties.MapperKeys

/-!
# Another name server

A new configuration records the name server as a node behind the core.  The
entries of the old one should go, but the variables which should tell which
they are stay zero.
-/

namespace NodeIdentity

open NodeIdentity.Library

/-- What `updateNM` installs: a name server, and the core as its gateway. -/
structure DnsBinding where
  nid : NID
  nidgw : NID

inductive DhcpEvent where
  | setConfDhcp (str : List UInt8)
  | write (made : MapperWrite)

/-- The state after the event, and what has been installed. -/
def DhcpState.handle (s : DhcpState) :
    DhcpEvent → DhcpState × Option DnsBinding
  | .setConfDhcp str =>
      let s := NodeIdentity.setConfDhcp str s
      (s, some ⟨s.config.niddns, s.config.nidcore⟩)
  | .write made => ({ s with nm := made.apply s.nm }, none)

def dhcpMachine : Machine DhcpState DhcpEvent (Option DnsBinding) :=
  Machine.total DhcpState.handle

def installed (log : List (Option DnsBinding)) : List DnsBinding :=
  log.filterMap id

/-- The event has nothing to do with the NID, nor with its address. -/
def DhcpEvent.Spares (nid : NID) : DhcpEvent → Prop
  | .setConfDhcp _ => True
  | .write made => nid ≠ made.nid ∧ nid2nid32 nid ≠ nid2nid32 made.nid

def HoldsNid (nm : NidMapper) (binding : DnsBinding) : Prop :=
  getNMEntry binding.nid nm = some ⟨binding.nidgw⟩

def HoldsNid32 (nm : NidMapper) (binding : DnsBinding) : Prop :=
  getNMEntry32 (nid2nid32 binding.nid) nm =
    some ⟨binding.nid, binding.nidgw⟩

/-- Both tables have the last binding, and nothing of those of other NIDs. -/
structure Rebound (s : DhcpState) (earlier : List DnsBinding) (last : DnsBinding) :
    Prop where
  current : last = ⟨s.config.niddns, s.config.nidcore⟩
  nidTable : HoldsNid s.nm last
  nid32Table : HoldsNid32 s.nm last
  replaced : ∀ binding ∈ earlier, binding.nid ≠ last.nid →
    ¬ HoldsNid s.nm binding ∧ ¬ HoldsNid32 s.nm binding

/-- Every run whose other events spare the name servers ends so. -/
def AlwaysRebound : Prop :=
  ∀ start events log s earlier last, dhcpMachine.Run start events log s →
    installed log = earlier ++ [last] →
    (∀ event ∈ events, ∀ binding ∈ earlier ++ [last],
      event.Spares binding.nid) →
    Rebound s earlier last

def lastFor (nid : NID) (calls : List DnsBinding) : Option DnsBinding :=
  lastOf (fun binding => if binding.nid = nid then some binding else none) calls

def lastUnder (nid32 : NID32) (calls : List DnsBinding) : Option DnsBinding :=
  lastOf (fun binding =>
    if nid2nid32 binding.nid = nid32 then some binding else none) calls

theorem lastFor_eq_some {nid : NID} {calls : List DnsBinding} {binding : DnsBinding}
    (found : lastFor nid calls = some binding) :
    binding.nid = nid ∧ binding ∈ calls := by
  obtain ⟨entry, member, given⟩ := exists_of_lastOf found
  obtain ⟨same, equal⟩ := Option.ite_none_right_eq_some.mp given
  cases equal
  exact ⟨same, member⟩

theorem lastUnder_eq_some {nid32 : NID32} {calls : List DnsBinding}
    {binding : DnsBinding} (found : lastUnder nid32 calls = some binding) :
    nid2nid32 binding.nid = nid32 ∧ binding ∈ calls := by
  obtain ⟨entry, member, given⟩ := exists_of_lastOf found
  obtain ⟨same, equal⟩ := Option.ite_none_right_eq_some.mp given
  cases equal
  exact ⟨same, member⟩

/-- What the tables know of the calls, for NIDs which nothing else writes. -/
structure MapperKnows (nids : NID → Prop) (calls : List DnsBinding) (s : DhcpState) :
    Prop where
  named : ∀ nid, nids nid → nid ≠ NID.zero →
    ∀ binding, lastFor nid calls = some binding → HoldsNid s.nm binding
  addressed : ∀ nid, nids nid →
    ∀ binding, lastUnder (nid2nid32 nid) calls = some binding →
      HoldsNid32 s.nm binding
  current : ∀ last, calls.getLast? = some last → nids last.nid →
    last = ⟨s.config.niddns, s.config.nidcore⟩ ∧ HoldsNid s.nm last
  zero : ∀ last, calls.getLast? = some last → nids NID.zero →
    last.nid ≠ NID.zero → getNMEntry NID.zero s.nm = none

theorem MapperKnows.write {nids : NID → Prop} {calls : List DnsBinding}
    {s : DhcpState} (knows : MapperKnows nids calls s) {made : MapperWrite}
    (spares : ∀ nid, nids nid → (DhcpEvent.write made).Spares nid) :
    MapperKnows nids calls { s with nm := made.apply s.nm } := by
  have kept : ∀ {nid}, nids nid →
      getNMEntry nid (made.apply s.nm) = getNMEntry nid s.nm := by
    intro nid mine
    exact MapperWrite.getNMEntry_apply_of_ne (spares nid mine).1 s.nm
  refine ⟨?_, ?_, ?_, ?_⟩
  · intro nid mine nonzero binding found
    have holds := knows.named nid mine nonzero binding found
    obtain ⟨rfl, _⟩ := lastFor_eq_some found
    rw [HoldsNid, kept mine]
    exact holds
  · intro nid mine binding found
    have holds := knows.addressed nid mine binding found
    obtain ⟨key, _⟩ := lastUnder_eq_some found
    rw [HoldsNid32, MapperWrite.getNMEntry32_apply, key,
      if_neg (spares nid mine).2, ← key]
    exact holds
  · intro last final mine
    rw [HoldsNid, kept mine]
    exact knows.current last final mine
  · intro last final mine nonzero
    rw [kept mine]
    exact knows.zero last final mine nonzero

theorem MapperKnows.setConfDhcp {nids : NID → Prop} {calls : List DnsBinding}
    {s : DhcpState} (knows : MapperKnows nids calls s) (str : List UInt8) :
    MapperKnows nids (calls ++ [⟨(NodeIdentity.setConfDhcp str s).config.niddns,
      (NodeIdentity.setConfDhcp str s).config.nidcore⟩])
      (NodeIdentity.setConfDhcp str s) := by
  have updated := nm_setConfDhcp str s
  generalize NodeIdentity.setConfDhcp str s = next at updated
  refine ⟨?_, ?_, ?_, ?_⟩
  · intro nid mine nonzero binding found
    rw [lastFor, lastOf_snoc, ← lastFor] at found
    rw [HoldsNid, updated, getNMEntry_updateNM]
    by_cases same : next.config.niddns = nid
    · rw [if_pos same, Option.some_or] at found
      cases found
      exact if_pos rfl
    · rw [if_neg same, Option.none_or] at found
      have holds := knows.named nid mine nonzero binding found
      obtain ⟨rfl, _⟩ := lastFor_eq_some found
      rw [if_neg (Ne.symm same), if_neg nonzero]
      exact holds
  · intro nid mine binding found
    rw [lastUnder, lastOf_snoc, ← lastUnder] at found
    rw [HoldsNid32, updated, getNMEntry32_updateNM]
    by_cases same : nid2nid32 next.config.niddns = nid2nid32 nid
    · rw [if_pos same, Option.some_or] at found
      cases found
      exact if_pos rfl
    · rw [if_neg same, Option.none_or] at found
      have holds := knows.addressed nid mine binding found
      obtain ⟨key, _⟩ := lastUnder_eq_some found
      rw [key, if_neg (Ne.symm same), if_neg (nid2nid32_ne_zero nid), ← key]
      exact holds
  · intro last final mine
    rw [List.getLast?_concat] at final
    cases final
    refine ⟨rfl, ?_⟩
    rw [HoldsNid, updated, getNMEntry_updateNM]
    exact if_pos rfl
  · intro last final mine nonzero
    rw [List.getLast?_concat] at final
    cases final
    rw [updated, getNMEntry_updateNM, if_neg nonzero.symm, if_pos rfl]

theorem mapperKnows_of_run (nids : NID → Prop) {start s : DhcpState}
    {events : List DhcpEvent} {log : List (Option DnsBinding)}
    (run : dhcpMachine.Run start events log s)
    (spares : ∀ event ∈ events, ∀ nid, nids nid → event.Spares nid) :
    MapperKnows nids (installed log) s := by
  induction run with
  | nil =>
      refine ⟨?_, ?_, ?_, ?_⟩
      · intro nid _ _ binding found
        cases found
      · intro nid _ binding found
        cases found
      · intro last final
        cases final
      · intro last final
        cases final
  | @snoc events log s next event output earlier last ih =>
      have knows := ih fun event member =>
        spares event (List.mem_append_left _ member)
      obtain ⟨rfl, rfl⟩ := Machine.total_step_iff.mp last
      rw [installed, List.filterMap_append, ← installed]
      cases event with
      | setConfDhcp str => exact knows.setConfDhcp str
      | write made =>
          have silent : [(s.handle (.write made)).2].filterMap id = [] := rfl
          rw [silent, List.append_nil]
          exact knows.write (spares _ (List.mem_append_right _
            List.mem_cons_self))

/-- A binding which goes: it is for the same NID, or for the NID of zeros, and
the last one has come to its address. -/
def Replaceable (last binding : DnsBinding) : Prop :=
  binding.nid = last.nid ∨
    binding.nid = NID.zero ∧ nid2nid32 last.nid = nid2nid32 NID.zero

section MapperKnows

variable {nids : NID → Prop} {s : DhcpState} {earlier : List DnsBinding}
  {last : DnsBinding}

theorem MapperKnows.exists_holdsNid (knows : MapperKnows nids (earlier ++ [last]) s)
    (mine : ∀ binding ∈ earlier ++ [last], nids binding.nid)
    {binding : DnsBinding} (member : binding ∈ earlier)
    (other : binding.nid ≠ last.nid) (nonzero : binding.nid ≠ NID.zero) :
    ∃ final ∈ earlier, final.nid ≠ last.nid ∧ HoldsNid s.nm final := by
  have listed : binding ∈ earlier ++ [last] := List.mem_append_left _ member
  obtain ⟨final, found⟩ : ∃ final,
      lastFor binding.nid (earlier ++ [last]) = some final :=
    exists_lastOf_of_mem listed (if_pos rfl)
  have holds :=
    knows.named binding.nid (mine binding listed) nonzero final found
  obtain ⟨same, position⟩ := lastFor_eq_some found
  rw [← same] at other
  rcases List.mem_append.mp position with before | here
  · exact ⟨final, before, other, holds⟩
  · cases List.mem_singleton.mp here
    exact (other rfl).elim

theorem MapperKnows.exists_holdsNid32 (knows : MapperKnows nids (earlier ++ [last]) s)
    (mine : ∀ binding ∈ earlier ++ [last], nids binding.nid)
    {binding : DnsBinding} (member : binding ∈ earlier)
    (other : nid2nid32 binding.nid ≠ nid2nid32 last.nid) :
    ∃ final ∈ earlier, final.nid ≠ last.nid ∧ HoldsNid32 s.nm final := by
  have listed : binding ∈ earlier ++ [last] := List.mem_append_left _ member
  obtain ⟨final, found⟩ : ∃ final,
      lastUnder (nid2nid32 binding.nid) (earlier ++ [last]) = some final :=
    exists_lastOf_of_mem listed (if_pos rfl)
  have holds := knows.addressed binding.nid (mine binding listed) final found
  obtain ⟨same, position⟩ := lastUnder_eq_some found
  rw [← same] at other
  rcases List.mem_append.mp position with before | here
  · refine ⟨final, before, ?_, holds⟩
    intro equal
    exact other (congrArg nid2nid32 equal)
  · cases List.mem_singleton.mp here
    exact (other rfl).elim

theorem MapperKnows.rebound_iff (knows : MapperKnows nids (earlier ++ [last]) s)
    (mine : ∀ binding ∈ earlier ++ [last], nids binding.nid) :
    Rebound s earlier last ↔ ∀ binding ∈ earlier, Replaceable last binding := by
  have final := List.getLast?_concat (l := earlier) (a := last)
  have here : last ∈ earlier ++ [last] :=
    List.mem_append_right _ List.mem_cons_self
  constructor
  · intro rebound binding member
    by_cases same : binding.nid = last.nid
    · exact .inl same
    · have zero : binding.nid = NID.zero := by
        by_contra nonzero
        obtain ⟨kept, before, other, holds⟩ :=
          knows.exists_holdsNid mine member same nonzero
        exact (rebound.replaced kept before other).1 holds
      refine .inr ⟨zero, ?_⟩
      by_contra apart
      rw [← zero] at apart
      obtain ⟨kept, before, other, holds⟩ :=
        knows.exists_holdsNid32 mine member (Ne.symm apart)
      exact (rebound.replaced kept before other).2 holds
  · intro replaceable
    obtain ⟨current, nidTable⟩ := knows.current last final (mine last here)
    have nid32Table : HoldsNid32 s.nm last := by
      apply knows.addressed last.nid (mine last here)
      rw [lastUnder, lastOf_snoc, if_pos rfl, Option.some_or]
    refine ⟨current, nidTable, nid32Table, ?_⟩
    intro binding member other
    obtain ⟨zero, key⟩ := (replaceable binding member).resolve_left other
    have listed : nids binding.nid := mine binding (List.mem_append_left _ member)
    rw [zero] at listed other
    constructor
    · intro holds
      have gone := knows.zero last final listed other.symm
      rw [HoldsNid, zero, gone] at holds
      cases holds
    · intro holds
      rw [HoldsNid32, zero, ← key, nid32Table] at holds
      have same := congrArg NMEntry32.nid (Option.some.inj holds)
      exact other same.symm

end MapperKnows

/-- After the last of several configurations the old name servers are gone
exactly if they all were the new one, or zeros and with its address. -/
theorem rebound_iff_replaceable {start s : DhcpState}
    {events : List DhcpEvent} {log : List (Option DnsBinding)}
    {earlier : List DnsBinding} {last : DnsBinding}
    (run : dhcpMachine.Run start events log s)
    (calls : installed log = earlier ++ [last])
    (spares : ∀ event ∈ events, ∀ binding ∈ earlier ++ [last],
      event.Spares binding.nid) :
    Rebound s earlier last ↔
      ∀ binding ∈ earlier, Replaceable last binding := by
  have knows := mapperKnows_of_run
    (fun nid => ∃ binding ∈ earlier ++ [last], binding.nid = nid) run (by
      intro event member nid mine
      obtain ⟨binding, listed, rfl⟩ := mine
      exact spares event member binding listed)
  rw [calls] at knows
  exact knows.rebound_iff fun binding listed => ⟨binding, listed, rfl⟩

/-- A configuration with this digit at the end of the name server's NID. -/
def serverText (digit : UInt8) : List UInt8 :=
  delimited bar [digitNid 49, digitNid 49, inetNtop4 longAddress, digitNid 49,
    inetNtop4 longAddress, digitNid digit, inetNtop4 longAddress]

private theorem exists_rebinding (digit : UInt8)
    (holds : DhcpState → DnsBinding → DnsBinding → Bool)
    (found : (dhcpMachine.exec freshDhcp [.setConfDhcp (serverText 49),
      .setConfDhcp (serverText digit)]).any (fun result =>
        match result.2 with
        | [some first, some last] => holds result.1 first last
        | _ => false) = true) :
    ∃ log s first last,
      dhcpMachine.Run freshDhcp
        [.setConfDhcp (serverText 49), .setConfDhcp (serverText digit)] log s ∧
      installed log = [first] ++ [last] ∧
      (∀ event ∈ [DhcpEvent.setConfDhcp (serverText 49),
          .setConfDhcp (serverText digit)],
        ∀ binding ∈ [first] ++ [last], event.Spares binding.nid) ∧
      holds s first last = true := by
  obtain ⟨log, s, run, found⟩ := Machine.exists_run_of_exec found
  dsimp only at found
  split at found
  · next first last =>
      refine ⟨_, s, first, last, run, rfl, ?_, found⟩
      intro event member binding _
      rcases List.mem_cons.mp member with rfl | member
      · trivial
      · cases List.mem_singleton.mp member
        trivial
  · cases found

/-- The same name server again. -/
theorem rebound_same : ∃ log s first last,
    dhcpMachine.Run freshDhcp
        [.setConfDhcp (serverText 49), .setConfDhcp (serverText 49)] log s ∧
      installed log = [first] ++ [last] ∧
      first.nid = last.nid ∧ Rebound s [first] last := by
  obtain ⟨log, s, first, last, run, calls, spares, found⟩ :=
    exists_rebinding 49 (fun _ first last => first.nid = last.nid)
      (by decide +kernel)
  have same : first.nid = last.nid := of_decide_eq_true found
  refine ⟨log, s, first, last, run, calls, same,
    (rebound_iff_replaceable run calls spares).mpr ?_⟩
  intro binding member
  cases List.mem_singleton.mp member
  exact .inl same

/-- Another one, and the first one stays. -/
theorem not_alwaysRebound : ¬ AlwaysRebound := by
  intro always
  obtain ⟨log, s, first, last, run, calls, spares, found⟩ :=
    exists_rebinding 50 (fun s first last => first.nid ≠ last.nid ∧
      getNMEntry first.nid s.nm = some ⟨first.nidgw⟩) (by decide +kernel)
  obtain ⟨other, kept⟩ := of_decide_eq_true found
  exact ((always _ _ _ _ _ _ run calls spares).replaced first
    List.mem_cons_self other).1 kept

end NodeIdentity
