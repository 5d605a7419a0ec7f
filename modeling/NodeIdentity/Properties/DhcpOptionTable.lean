import NodeIdentity.Library.History
import NodeIdentity.Properties.DhcpConfigured

/-!
# The option table of the DHCP client

The table keeps what earlier messages have brought until it is released.
-/

namespace NodeIdentity

open NodeIdentity.Library

/-- The message has not got the option, nor three bytes of the one it is then
made from. -/
def DhcpMessage.Lacking (m : DhcpMessage) (code source : UInt8) : Prop :=
  lastData code m.items = none ∧
    ∃ data ∈ lastData source m.items, data.length < 3

/-- The receipts when a message has been taken, before `dhcpConfig`. -/
def taking (receipts : List DhcpReceipt) (m : DhcpMessage) :
    List DhcpReceipt :=
  receipts ++ [⟨m, false⟩]

/-- Where the client reads through a null pointer, or behind an option.  Without
a message type there is nothing to read, nor without a root path when the last
type said is an acknowledgement; the first message may be too short. -/
def DhcpMessage.Refused (receipts : List DhcpReceipt) (m : DhcpMessage) :
    Prop :=
  brought dhcpMessageType (taking receipts m) = none ∨
    (brought dhcpMessageType (taking receipts m)).bind List.head? =
        some dhcpAck ∧ brought rootPath (taking receipts m) = none ∨
    receipts = [] ∧ (m.Lacking dnsOption dhcpServerIdentifier ∨
      m.Lacking broadcastAddr subnetMask)

/-- The calls of `dhcpConfig` which follow a message, if the type said last is
an acknowledgement. -/
def callsAfter (receipts : List DhcpReceipt) (m : DhcpMessage)
    (config : Option DhcpConfigCalls) : Option DhcpConfigCalls :=
  if (brought dhcpMessageType (taking receipts m)).bind List.head? =
      some dhcpAck then config
  else none

/-- A message, and whether the strings are cleaned after it. -/
def receiptOf (receipts : List DhcpReceipt) (m : DhcpMessage)
    (config : Option DhcpConfigCalls) : DhcpReceipt :=
  ⟨m, (callsAfter receipts m config).elim false DhcpConfigCalls.cleans⟩

def leaseOf (nleaseTime : Vector UInt8 4) (receipts : List DhcpReceipt) :
    List UInt8 :=
  DhcpOptions.timeOf nleaseTime.toList (brought dhcpIPaddrLeaseTime receipts)

/-- What follows a message stays in the memory of the options, which are those
brought last, and leaves something to do for the process. -/
def DhcpMessage.Configurable (nleaseTime : Vector UInt8 4)
    (receipts : List DhcpReceipt) (m : DhcpMessage)
    (config : Option DhcpConfigCalls) : Prop :=
  ∀ calls ∈ callsAfter receipts m config,
    calls.Passes (fun code => brought code (taking receipts m))
      (leaseOf nleaseTime (taking receipts m)) m.sname

namespace DhcpOptions

/-- The times after some messages and the last one. -/
structure Timed (nleaseTime : Vector UInt8 4) (receipts : List DhcpReceipt)
    (receipt : DhcpReceipt) (o : DhcpOptions) : Prop where
  lease : o.content dhcpIPaddrLeaseTime =
    some (leaseOf nleaseTime (receipts ++ [receipt]))
  t1 : o.content dhcpT1value =
    some (timeOf (dhcpT1 (leaseOf nleaseTime (receipts ++ [receipt])))
      (lastData dhcpT1value receipt.message.items))
  t2 : o.content dhcpT2value =
    some (timeOf (dhcpT2 (leaseOf nleaseTime (receipts ++ [receipt])))
      (lastData dhcpT2value receipt.message.items))

/-- What the table holds of messages. -/
structure Carried (nleaseTime : Vector UInt8 4) (receipts : List DhcpReceipt)
    (o : DhcpOptions) : Prop where
  sound : o.Sound
  ended : ∀ code ∉ madeOptions ++ timeOptions, o.Ended code
  own : ∀ code ∉ assumedOptions, o.content code = brought code receipts
  fresh : receipts = [] → ∀ code, o.val code = none
  made : receipts ≠ [] →
    ∀ code ∈ madeOptions, o.Made code (brought code receipts)
  times : ∀ front receipt, receipts = front ++ [receipt] →
    o.Timed nleaseTime front receipt

/-- The table when the options of the last message have been read. -/
structure Taken (nleaseTime : Vector UInt8 4) (receipts : List DhcpReceipt)
    (m : DhcpMessage) (o : DhcpOptions) : Prop where
  sound : o.Sound
  ended : ∀ code ∉ madeOptions ++ timeOptions, o.Ended code
  own : ∀ code ∉ assumedOptions,
    o.content code = brought code (taking receipts m)
  lease : timeOf nleaseTime.toList (o.content dhcpIPaddrLeaseTime) =
    leaseOf nleaseTime (taking receipts m)
  t1 : ∀ time, timeOf time (o.content dhcpT1value) =
    timeOf time (lastData dhcpT1value m.items)
  t2 : ∀ time, timeOf time (o.content dhcpT2value) =
    timeOf time (lastData dhcpT2value m.items)
  cut : o.Cut ↔ receipts = [] ∧
    (m.Lacking dnsOption dhcpServerIdentifier ∨
      m.Lacking broadcastAddr subnetMask)
  made : ∀ code ∈ madeOptions, ∀ {last : DhcpOptions},
    last.Made code (o.content code) →
      last.Made code (brought code (taking receipts m))

section Messages

variable {nleaseTime : Vector UInt8 4} {receipts : List DhcpReceipt}
  {m : DhcpMessage} {o next : DhcpOptions} {code : UInt8}

theorem carried_released : Carried nleaseTime [] released where
  sound := sound_released
  ended := fun _ _ _ absent => nomatch absent
  own := fun _ _ => rfl
  fresh := fun _ _ => rfl
  made := fun absurd => (absurd rfl).elim
  times := fun front receipt split => by
    cases front <;> cases split

theorem Carried.lease_eq (carried : o.Carried nleaseTime receipts) :
    timeOf nleaseTime.toList (o.content dhcpIPaddrLeaseTime) =
      leaseOf nleaseTime receipts := by
  rcases List.eq_nil_or_concat receipts with rfl | ⟨front, receipt, rfl⟩
  · have absent := carried.fresh rfl dhcpIPaddrLeaseTime
    rw [content_eq_none_iff.mpr absent]
    rfl
  · rw [List.concat_eq_append] at carried ⊢
    rw [(carried.times front receipt rfl).lease, leaseOf, timeOf_timeOf]

theorem ReadInto.stays (into : ReadInto m o next)
    (present : o.val code ≠ none) (made : code ∈ madeOptions) :
    next.val code ≠ none := by
  obtain ⟨apart₁, apart₂, _, _⟩ := apart_of_made made
  intro absent
  rw [← content_eq_none_iff, into.content apart₁ apart₂,
    Option.or_eq_none_iff, content_eq_none_iff] at absent
  exact present absent.2

section Read

variable (carried : o.Carried nleaseTime receipts) (into : ReadInto m o next)
include carried into

theorem Carried.missing_iff (none_yet : receipts = [])
    (made : code ∈ madeOptions) :
    next.val code = none ↔ lastData code m.items = none := by
  obtain ⟨apart₁, apart₂, _, _⟩ := apart_of_made made
  have absent := carried.fresh none_yet code
  rw [← content_eq_none_iff, into.content apart₁ apart₂,
    content_eq_none_iff.mpr absent, Option.or_none]

theorem Carried.short_iff (none_yet : receipts = [])
    (made : code ∈ madeOptions) :
    next.Short code ↔ ∃ data ∈ lastData code m.items, data.length < 3 := by
  obtain ⟨apart₁, apart₂, apart₃, apart₄⟩ := apart_of_made made
  have absent := carried.fresh none_yet code
  rw [into.sound.short_iff apart₃ apart₄, into.content apart₁ apart₂,
    content_eq_none_iff.mpr absent, Option.or_none]

theorem Carried.cut_iff :
    next.Cut ↔ receipts = [] ∧
      (m.Lacking dnsOption dhcpServerIdentifier ∨
        m.Lacking broadcastAddr subnetMask) := by
  by_cases none_yet : receipts = []
  · rw [Cut, carried.missing_iff into none_yet (by decide),
      carried.missing_iff into none_yet (by decide),
      carried.short_iff into none_yet (by decide),
      carried.short_iff into none_yet (by decide), and_iff_right none_yet]
    rfl
  · have present : ∀ code ∈ madeOptions, o.val code ≠ none :=
      fun code member => (carried.made none_yet code member).present
    constructor
    · rintro (⟨absent, _⟩ | ⟨absent, _⟩)
      · exact (into.stays (present _ (by decide)) (by decide) absent).elim
      · exact (into.stays (present _ (by decide)) (by decide) absent).elim
    · exact fun both => (none_yet both.1).elim

theorem Carried.taken : next.Taken nleaseTime receipts m where
  sound := into.sound
  ended := by
    intro code other
    apply into.ended _ _ (carried.ended code other) <;>
      rintro rfl <;> exact other (by decide)
  own := by
    intro code other
    have apart₁ : code ≠ dhcpT1value := by
      rintro rfl
      exact other (by decide)
    have apart₂ : code ≠ dhcpT2value := by
      rintro rfl
      exact other (by decide)
    rw [into.content apart₁ apart₂, carried.own code other, taking,
      brought_received]
  lease := by
    have same := carried.lease_eq
    rw [into.content (by decide) (by decide), leaseOf, taking,
      brought_received]
    cases lastData dhcpIPaddrLeaseTime m.items with
    | some data => rfl
    | none => exact same
  t1 := by
    intro time
    rw [into.timer _ (by decide), timeOf_cleared]
  t2 := by
    intro time
    rw [into.timer _ (by decide), timeOf_cleared]
  cut := carried.cut_iff into
  made := by
    intro code member last made
    obtain ⟨apart₁, apart₂, _, _⟩ := apart_of_made member
    rw [into.content apart₁ apart₂] at made
    rw [taking, brought_received]
    cases given : lastData code m.items with
    | some data =>
        rw [given] at made
        exact made
    | none =>
        rw [given, Option.none_or] at made
        by_cases none_yet : receipts = []
        · subst none_yet
          have absent := carried.fresh rfl code
          rw [content_eq_none_iff.mpr absent] at made
          exact made
        · exact (carried.made none_yet code member).trans made

end Read

theorem Taken.carried (taken : o.Taken nleaseTime receipts m)
    (completed : Completed nleaseTime o next) :
    next.Carried nleaseTime (taking receipts m) where
  sound := completed.sound
  ended := fun code other =>
    (completed.others code other).ended (taken.ended code other)
  own := by
    intro code other
    have outside : code ∉ madeOptions ++ timeOptions :=
      fun member => other (List.mem_append_left _ member)
    exact (completed.others code outside).content.trans (taken.own code other)
  fresh := fun absurd => (List.append_ne_nil_of_right_ne_nil _
    (List.cons_ne_nil _ _) absurd).elim
  made := fun _ code member => taken.made code member
    (completed.made code member)
  times := by
    intro front last split
    obtain ⟨rfl, single⟩ := List.append_inj' split rfl
    cases List.singleton_injective single
    exact {
      lease := by rw [completed.lease, taken.lease, taking]
      t1 := by rw [completed.t1, taken.lease, taken.t1, taking]
      t2 := by rw [completed.t2, taken.lease, taken.t2, taking] }

theorem Timed.exists_time {receipt : DhcpReceipt}
    (timed : o.Timed nleaseTime receipts receipt)
    (member : code ∈ timeOptions) :
    ∃ time, o.content code = some time ∧ time.length = 4 := by
  simp only [timeOptions, List.mem_cons, List.not_mem_nil, or_false] at member
  rcases member with rfl | rfl | rfl
  · exact ⟨_, timed.lease, length_timeOf Vector.length_toList _⟩
  · exact ⟨_, timed.t1, length_timeOf (length_partOf _ _) _⟩
  · exact ⟨_, timed.t2, length_timeOf (length_partOf _ _) _⟩

section Configure

variable (carried : o.Carried nleaseTime receipts) (received : receipts ≠ [])
include carried received

theorem Carried.ready : o.Ready where
  sound := carried.sound
  ended := carried.ended
  made := by
    intro code member
    rcases carried.made received code member with
      ⟨given, same⟩ | ⟨_, word, held, four⟩
    · obtain ⟨data, here⟩ := Option.ne_none_iff_exists'.mp given
      exact ⟨data, same.trans here, brought_ne_nil here⟩
    · refine ⟨word, held, ?_⟩
      rintro rfl
      cases four
  times := by
    intro code member
    obtain ⟨front, receipt, split⟩ :=
      (List.eq_nil_or_concat receipts).resolve_left received
    rw [List.concat_eq_append] at split
    exact (carried.times front receipt split).exists_time member

/-- Four bytes which the client has made are never too short. -/
theorem Carried.hasWord_iff (member : code ∈ madeOptions) :
    HasWord (o.content code) ↔ HasWord (brought code receipts) := by
  rcases carried.made received code member with
    ⟨_, same⟩ | ⟨absent, word, held, four⟩
  · rw [same]
  · rw [held, absent]
    refine iff_of_true ?_ (fun _ nothing => (nomatch nothing))
    rintro _ ⟨⟩
    omega

theorem Carried.alike :
    Alike o.content fun code => brought code receipts where
  words := fun code member => carried.hasWord_iff received member
  dns := by
    rcases carried.made received dnsOption (by decide) with
      ⟨_, same⟩ | ⟨absent, word, held, four⟩
    · rw [same]
    · rw [held, absent]
      refine iff_of_true ?_ (fun _ nothing => (nomatch nothing))
      rintro _ ⟨⟩ _
      exact .inl (four ▸ Nat.dvd_refl 4)
  own := by
    simp only [List.forall_mem_cons, List.not_mem_nil, false_imp_iff,
      forall_true_iff, and_true]
    exact ⟨carried.own _ (by decide), carried.own _ (by decide),
      carried.own _ (by decide), carried.own _ (by decide)⟩

end Configure

theorem Carried.rewritten {cleans : Bool}
    (carried : o.Carried nleaseTime (taking receipts m))
    (rewritten : Rewritten cleans o next) :
    next.Carried nleaseTime (receipts ++ [⟨m, cleans⟩]) := by
  have received : ∀ {cleans : Bool},
      receipts ++ [(⟨m, cleans⟩ : DhcpReceipt)] ≠ [] :=
    List.append_ne_nil_of_right_ne_nil _ (List.cons_ne_nil _ _)
  have given : ∀ code ∉ cleanedOptions,
      brought code (receipts ++ [⟨m, cleans⟩]) =
        brought code (taking receipts m) := by
    intro code other
    cases cleans with
    | false => rfl
    | true => rw [brought_cleaned, if_neg other, taking]
  have lease : leaseOf nleaseTime (receipts ++ [⟨m, cleans⟩]) =
      leaseOf nleaseTime (taking receipts m) := by
    rw [leaseOf, given _ (by decide), leaseOf]
  refine {
    sound := rewritten.sound
    ended := fun code other => rewritten.ended code (carried.ended code other)
    own := ?_
    fresh := fun absurd => (received absurd).elim
    made := ?_
    times := ?_ }
  · intro code other
    by_cases string : code ∈ cleanedOptions
    · have both : code ∈ [nisDomainName, rootPath] := by
        simp only [cleanedOptions, List.mem_cons, List.not_mem_nil,
          or_false] at string
        rcases string with rfl | rfl | rfl | rfl
        · exact (other (by decide)).elim
        · exact (other (by decide)).elim
        · decide
        · decide
      rw [rewritten.content code both, carried.own code other]
      cases cleans with
      | false => rfl
      | true => rw [brought_cleaned, if_pos string, if_pos rfl, taking]
    · rw [(rewritten.same code string).content, carried.own code other,
        given code string]
  · intro _ code member
    have apart := notMem_cleanedOptions (List.mem_append_left _ member)
    rw [given code apart]
    exact (rewritten.same code apart).made
      (carried.made received code member)
  · intro front last split
    obtain ⟨rfl, single⟩ := List.append_inj' split rfl
    cases List.singleton_injective single
    have timed := carried.times _ _ rfl
    exact {
      lease := by
        rw [(rewritten.same _ (by decide)).content, timed.lease, lease, taking]
      t1 := by
        rw [(rewritten.same _ (by decide)).content, timed.t1, lease, taking]
      t2 := by
        rw [(rewritten.same _ (by decide)).content, timed.t2, lease, taking] }

/-- What follows a message gets through exactly if the message is right for it;
and the table carries the message on. -/
theorem Carried.configure {messageType : UInt8}
    (carried : o.Carried nleaseTime (taking receipts m))
    (said : (brought dhcpMessageType (taking receipts m)).bind List.head? =
      some messageType) (config : Option DhcpConfigCalls) :
    ((o.configured config messageType m).isSome ↔
      m.Configurable nleaseTime receipts config) ∧
      ∀ next ∈ o.configured config messageType m, next.Carried nleaseTime
        (receipts ++ [receiptOf receipts m config]) := by
  have received : taking receipts m ≠ [] :=
    List.append_ne_nil_of_right_ne_nil _ (List.cons_ne_nil _ _)
  have leased := (carried.times receipts ⟨m, false⟩ rfl).lease
  have step : o.configured config messageType m =
      (callsAfter receipts m config).elim (some o)
        fun calls => o.dhcpConfig calls m := by
    rw [callsAfter, said]
    simp only [Option.some.injEq]
    cases config with
    | none =>
        rw [ite_self]
        rfl
    | some calls =>
        rw [DhcpOptions.configured]
        split <;> rfl
  rw [step, DhcpMessage.Configurable, receiptOf]
  cases callsAfter receipts m config with
  | none =>
      refine ⟨iff_of_true rfl fun _ absent => (nomatch absent), ?_⟩
      rintro next ⟨⟩
      exact carried
  | some calls =>
      obtain ⟨some_iff, rewrites⟩ :=
        (carried.ready received).dhcpConfig leased calls m
      simp only [Option.elim_some, Option.mem_def, Option.some.injEq,
        forall_eq']
      rw [some_iff, (carried.alike received).passes_iff]
      exact ⟨.rfl, fun next done => carried.rewritten (rewrites next done)⟩

end Messages

end DhcpOptions

namespace DhcpOptions

section Answers

variable {nleaseTime : Vector UInt8 4} {receipts : List DhcpReceipt}
  {m : DhcpMessage} {o : DhcpOptions}

/-- What a message makes the client write: the last root path, if the last type
said is an acknowledgement. -/
def handed (receipts : List DhcpReceipt) (yiaddr : NID32)
    (messageType : UInt8) : Option (List UInt8) :=
  (brought rootPath receipts).bind fun option17 =>
    NodeIdentity.parseDhcpMsgRecv messageType (option17 ++ [0]) yiaddr

theorem handed_of_other {yiaddr : NID32} {messageType : UInt8}
    (other : messageType ≠ dhcpAck) :
    handed receipts yiaddr messageType = none := by
  rw [handed]
  cases brought rootPath receipts with
  | none => rfl
  | some option17 =>
      rw [Option.bind_some, NodeIdentity.parseDhcpMsgRecv, if_neg other]

theorem written_eq {yiaddr : NID32} {messageType : UInt8}
    (path : messageType = dhcpAck → brought rootPath receipts ≠ none) :
    (if messageType = dhcpAck then
      ((brought rootPath receipts).map fun data => data ++ [0]).bind
        fun option17 =>
          if 0 ∈ option17 then
            some (NodeIdentity.parseDhcpMsgRecv messageType option17 yiaddr)
          else none
    else some none) = some (handed receipts yiaddr messageType) := by
  split
  case isTrue ack =>
    obtain ⟨option17, here⟩ := Option.ne_none_iff_exists'.mp (path ack)
    rw [handed, here, Option.map_some, Option.bind_some,
      if_pos (List.mem_append_right _ List.mem_cons_self), Option.bind_some]
  case isFalse other => rw [handed_of_other other]

theorem parseDhcpMsgRecv_eq (nleaseTime : Vector UInt8 4) (ciaddr : NID32)
    (m : DhcpMessage) (o : DhcpOptions) :
    o.parseDhcpMsgRecv nleaseTime ciaddr m = (o.read m).bind fun o =>
      ((o.val dhcpMessageType).bind List.head?).bind fun messageType =>
        (if messageType = dhcpAck then
          (o.val rootPath).bind fun option17 =>
            if 0 ∈ option17 then
              some (NodeIdentity.parseDhcpMsgRecv messageType option17 m.yiaddr)
            else none
        else some none).bind fun written =>
          (o.complete nleaseTime ciaddr m).map fun o =>
            (o, messageType, written) := by
  have distribute : ∀ (said : Prop) [Decidable said]
      (first second : Option (Option (List UInt8)))
      (rest : Option (List UInt8) →
        Option (DhcpOptions × UInt8 × Option (List UInt8))),
      (if said then first else second).bind rest =
        if said then first.bind rest else second.bind rest := by
    intro said _ first second rest
    split <;> rfl
  simp only [DhcpOptions.parseDhcpMsgRecv, read, Option.bind_eq_bind,
    Option.bind_assoc, Option.pure_def, Option.map_eq_bind, distribute]
  rfl

/-- A message fails exactly if it is refused; else it is answered, and the table
carries it on. -/
theorem Carried.parse (carried : o.Carried nleaseTime receipts)
    (roomy : m.Roomy) (ciaddr : NID32) :
    m.Refused receipts ∧ o.parseDhcpMsgRecv nleaseTime ciaddr m = none ∨
      ¬ m.Refused receipts ∧ ∃ next messageType,
        o.parseDhcpMsgRecv nleaseTime ciaddr m = some (next, messageType,
          handed (taking receipts m) m.yiaddr messageType) ∧
        (brought dhcpMessageType (taking receipts m)).bind List.head? =
          some messageType ∧
        next.Carried nleaseTime (taking receipts m) := by
  obtain ⟨after, done, into⟩ := exists_read roomy carried.sound
  have taken := carried.taken into
  have bytes : ∀ code ∉ assumedOptions, after.val code =
      (brought code (taking receipts m)).map fun data => data ++ [0] := by
    intro code other
    have outside : code ∉ madeOptions ++ timeOptions :=
      fun member => other (List.mem_append_left _ member)
    have val := (taken.ended code outside).val_eq taken.sound
      (fun same => other (same ▸ by decide))
      (fun same => other (same ▸ by decide))
    rw [val, taken.own code other]
  have typed := bytes dhcpMessageType (by decide)
  have rooted := bytes rootPath (by decide)
  rw [parseDhcpMsgRecv_eq, done, Option.bind_some, typed, rooted]
  cases said : brought dhcpMessageType (taking receipts m) with
  | none => exact .inl ⟨.inl said, rfl⟩
  | some data =>
      obtain ⟨messageType, rest, rfl⟩ :=
        List.exists_cons_of_ne_nil (brought_ne_nil said)
      simp only [Option.map_some, List.cons_append, Option.bind_some,
        List.head?_cons]
      have no_type : brought dhcpMessageType (taking receipts m) ≠ none := by
        rw [said]
        exact Option.some_ne_none _
      have head : (brought dhcpMessageType (taking receipts m)).bind
          List.head? = some messageType := by
        rw [said]
        rfl
      by_cases unrooted : messageType = dhcpAck ∧
          brought rootPath (taking receipts m) = none
      · obtain ⟨rfl, none_path⟩ := unrooted
        refine .inl ⟨.inr (.inl ⟨head, none_path⟩), ?_⟩
        rw [none_path, if_pos rfl]
        rfl
      have path : messageType = dhcpAck →
          brought rootPath (taking receipts m) ≠ none :=
        fun ack none_path => unrooted ⟨ack, none_path⟩
      rw [written_eq path, Option.bind_some]
      by_cases cut : after.Cut
      · rw [complete_of_cut taken.sound cut]
        exact .inl ⟨.inr (.inr (taken.cut.mp cut)), rfl⟩
      · obtain ⟨next, completed, last⟩ :=
          exists_complete taken.sound cut nleaseTime ciaddr m
        refine .inr ⟨?_, next, messageType, ?_, rfl, taken.carried last⟩
        · rintro (none_type | ⟨ack, none_path⟩ | first)
          · exact no_type none_type
          · rw [head, Option.some.injEq] at ack
            exact unrooted ⟨ack, none_path⟩
          · exact cut (taken.cut.mpr first)
        · rw [completed]
          rfl

end Answers

end DhcpOptions

section Runs

open DhcpOptions

variable (order : ByteOrder) (doCheckSum : Bool)

def afterEvent (receipts : List DhcpReceipt) :
    DhcpClientEvent → List DhcpReceipt
  | .release => []
  | .frame xid _ frame config =>
      match dhcpRecv order doCheckSum xid frame with
      | some (some m) => receipts ++ [receiptOf receipts m config]
      | _ => receipts

/-- The messages which were received since the last release. -/
def receivedSince (events : List DhcpClientEvent) : List DhcpReceipt :=
  events.foldl (afterEvent order doCheckSum) []

theorem receivedSince_snoc (events : List DhcpClientEvent)
    (event : DhcpClientEvent) :
    receivedSince order doCheckSum (events ++ [event]) =
      afterEvent order doCheckSum (receivedSince order doCheckSum events)
        event :=
  List.foldl_concat _ _ _ _

/-- Frames the client can read, with messages which are not refused, and right
for what follows them. -/
def Accepted (nleaseTime : Vector UInt8 4) (receipts : List DhcpReceipt) :
    DhcpClientEvent → Prop
  | .release => True
  | .frame xid _ frame config =>
      ∃ received, dhcpRecv order doCheckSum xid frame = some received ∧
        ∀ m ∈ received, ¬ m.Refused receipts ∧
          m.Configurable nleaseTime receipts config

variable {order} {doCheckSum} {nleaseTime : Vector UInt8 4}
  {receipts : List DhcpReceipt} {o : DhcpOptions} {event : DhcpClientEvent}

theorem dhcpClient_frame (xid : Vector UInt8 4) (ciaddr : NID32)
    (frame : List UInt8) (config : Option DhcpConfigCalls) :
    (dhcpClient order doCheckSum nleaseTime).step o
        (.frame xid ciaddr frame config) =
      (dhcpRecv order doCheckSum xid frame).bind fun received =>
        match received with
        | none => some (o, none)
        | some m => (o.parseDhcpMsgRecv nleaseTime ciaddr m).bind
            fun (o, reply) => (o.configured config reply.1 m).map
              fun o => (o, some reply) := by
  rw [dhcpClient]
  simp only [Option.bind_eq_bind, Option.pure_def, Option.map_eq_bind]
  rfl

/-- One event: the table carries the messages on, and the client gets through
exactly what it accepts. -/
theorem DhcpOptions.Carried.step (carried : o.Carried nleaseTime receipts)
    (event : DhcpClientEvent) :
    (Accepted order doCheckSum nleaseTime receipts event ↔
      ∃ result, (dhcpClient order doCheckSum nleaseTime).step o event =
        some result) ∧
      ∀ {next reply}, (dhcpClient order doCheckSum nleaseTime).step o event =
        some (next, reply) →
          next.Carried nleaseTime
            (afterEvent order doCheckSum receipts event) := by
  cases event with
  | release =>
      refine ⟨iff_of_true trivial ⟨_, rfl⟩, ?_⟩
      rintro next reply ⟨⟩
      exact carried_released
  | frame xid ciaddr frame config =>
      rw [Accepted, afterEvent, dhcpClient_frame]
      cases received : dhcpRecv order doCheckSum xid frame with
      | none =>
          constructor
          · constructor
            · rintro ⟨_, ⟨⟩, _⟩
            · rintro ⟨_, ⟨⟩⟩
          · rintro next reply ⟨⟩
      | some result =>
          cases result with
          | none =>
              constructor
              · apply iff_of_true
                · exact ⟨none, rfl, fun _ absent => (nomatch absent)⟩
                · exact ⟨_, rfl⟩
              · rintro next reply ⟨⟩
                exact carried
          | some m =>
              simp only [Option.bind_some, Option.some.injEq,
                exists_eq_left', Option.mem_def, forall_eq']
              rcases carried.parse (room_of_dhcpRecv received) ciaddr with
                ⟨refused, fails⟩ | ⟨taken, after, messageType, parsed, said, on⟩
              · rw [fails]
                constructor
                · constructor
                  · exact fun accepted => (accepted.1 refused).elim
                  · rintro ⟨_, ⟨⟩⟩
                · rintro next reply ⟨⟩
              · obtain ⟨some_iff, carries⟩ := on.configure said config
                rw [parsed, Option.bind_some, and_iff_right taken, ← some_iff]
                cases done : after.configured config messageType m with
                | none =>
                    constructor
                    · exact iff_of_false Bool.false_ne_true
                        fun ⟨_, absent⟩ => (nomatch absent)
                    · rintro next reply ⟨⟩
                | some last =>
                    constructor
                    · exact iff_of_true rfl ⟨_, rfl⟩
                    · rintro next reply ⟨⟩
                      exact carries last done

theorem carried_of_run {events : List DhcpClientEvent}
    {outputs : List (Option (UInt8 × Option (List UInt8)))}
    (run : (dhcpClient order doCheckSum nleaseTime).Run .released events outputs
      o) : o.Carried nleaseTime (receivedSince order doCheckSum events) := by
  induction run with
  | nil => exact carried_released
  | snoc _ last ih =>
      rw [receivedSince_snoc]
      exact (ih.step _).2 last

end Runs

section Client

open DhcpOptions

variable {order : ByteOrder} {doCheckSum : Bool} {nleaseTime : Vector UInt8 4}
  {events : List DhcpClientEvent} {o : DhcpOptions}
  {outputs : List (Option (UInt8 × Option (List UInt8)))}

/-- The client gets through all frames and releases exactly if it can read every
frame, and every message which it receives is neither refused after those
received since the release before it nor wrong for what follows it. -/
theorem dhcpClient_runs_iff (order : ByteOrder) (doCheckSum : Bool)
    (nleaseTime : Vector UInt8 4) (events : List DhcpClientEvent) :
    (∃ outputs o, (dhcpClient order doCheckSum nleaseTime).Run .released events
        outputs o) ↔
      ∀ before event after, events = before ++ event :: after →
        Accepted order doCheckSum nleaseTime
          (receivedSince order doCheckSum before) event :=
  Machine.exists_run_iff
    (fun run => ((carried_of_run run).step _).1) events

/-- The type said last decides what a message is, and the root path said last is
written, whichever message since the release brought them; the quotes of a path
which was brought before may have become spaces. -/
theorem dhcpClient_answers {xid : Vector UInt8 4} {ciaddr : NID32}
    {frame : List UInt8} {config : Option DhcpConfigCalls} {m : DhcpMessage}
    (received : dhcpRecv order doCheckSum xid frame = some (some m))
    (run : (dhcpClient order doCheckSum nleaseTime).Run .released
      (events ++ [.frame xid ciaddr frame config]) outputs o) :
    ∃ messageType,
      (brought dhcpMessageType
        (taking (receivedSince order doCheckSum events) m)).bind List.head? =
          some messageType ∧
      outputs.getLast? = some (some (messageType,
        handed (taking (receivedSince order doCheckSum events) m) m.yiaddr
          messageType)) := by
  obtain ⟨initial, output, state, rfl, front, last⟩ :=
    Machine.run_snoc_iff.mp run
  rw [dhcpClient_frame, received, Option.bind_some] at last
  rcases (carried_of_run front).parse (room_of_dhcpRecv received) ciaddr with
    ⟨_, fails⟩ | ⟨_, next, messageType, parsed, said, _⟩
  · simp only [fails, Option.bind_none, reduceCtorEq] at last
  · simp only [parsed, Option.bind_some, Option.map_eq_some_iff,
      Prod.mk.injEq] at last
    obtain ⟨_, _, _, same⟩ := last
    refine ⟨messageType, said, ?_⟩
    rw [List.getLast?_concat, ← same]

/-- A frame with a message of some options, from 10.0.0.1 to 10.0.0.2. -/
def frameWith (options : List UInt8) : List UInt8 :=
  List.replicate 12 0 ++ etherTypeIp ++
    [69, 0, 1, UInt8.ofNat (12 + options.length), 0, 0, 0, 0, 64, 17, 0, 0,
      10, 0, 0, 1, 10, 0, 0, 2] ++
    [0, 67, 0, 68, 0, UInt8.ofNat (248 + options.length), 0, 0] ++
    [dhcpBootReply, arphrdEther] ++ List.replicate 234 0 ++
    [99, 130, 83, 99] ++ options

/-- The frame answers the transaction 0 of a client without an address. -/
def answerWith (options : List UInt8) (config : Option DhcpConfigCalls) :
    DhcpClientEvent :=
  .frame #v[0, 0, 0, 0] NID32.zero (frameWith options) config

def allCalls : DhcpConfigCalls where
  testCase := false
  address := true
  netmask := true
  defaultRoutes := true
  resolvConf := true
  nisConf := true
  ntpConf := true
  host := none
  domain := none
  hostinfo := true

/-- An acknowledgement, with quotes in its root path. -/
def acknowledgement : DhcpClientEvent :=
  answerWith [53, 1, 5, 17, 3, 39, 124, 39] (some allCalls)

theorem exists_frameWith_received (options : List UInt8)
    (property : DhcpMessage → Bool)
    (found : ((dhcpRecv .little false #v[0, 0, 0, 0] (frameWith options)).bind
      id).any property = true) :
    ∃ m, dhcpRecv .little false #v[0, 0, 0, 0] (frameWith options) =
      some (some m) ∧ property m = true := by
  obtain ⟨m, inner, holds⟩ := (Option.any_eq_true _ _).mp found
  obtain ⟨_, received, rfl⟩ := Option.bind_eq_some_iff.mp inner
  exact ⟨m, received, holds⟩

def acknowledges (m : DhcpMessage) : Bool :=
  decide ((brought dhcpMessageType (taking [] m)).bind List.head? =
    some dhcpAck)

theorem receivedSince_answer {options : List UInt8} {m : DhcpMessage}
    {calls : DhcpConfigCalls}
    (received : dhcpRecv .little false #v[0, 0, 0, 0] (frameWith options) =
      some (some m)) (said : acknowledges m = true) :
    receivedSince .little false [answerWith options (some calls)] =
      [⟨m, calls.cleans⟩] := by
  have ack := of_decide_eq_true said
  rw [receivedSince, List.foldl_cons, List.foldl_nil, answerWith, afterEvent,
    received]
  simp only [receiptOf, callsAfter, ack, if_true, Option.elim_some,
    List.nil_append]

theorem exists_acknowledgement :
    ∃ m outputs o,
      (dhcpClient .little false #v[0, 0, 2, 0]).Run .released [acknowledgement]
        outputs o ∧
      receivedSince .little false [acknowledgement] = [⟨m, true⟩] := by
  obtain ⟨m, received, said⟩ := exists_frameWith_received
    [53, 1, 5, 17, 3, 39, 124, 39] acknowledges (by decide +kernel)
  have evaluated : (((dhcpClient .little false #v[0, 0, 2, 0]).exec .released
      [acknowledgement]).any fun _ => true) = true := by
    decide +kernel
  obtain ⟨outputs, o, run, _⟩ := Machine.exists_run_of_exec evaluated
  exact ⟨m, outputs, o, run, receivedSince_answer received said⟩

/-- A message with no options is one more acknowledgement, of a path without
quotes. -/
theorem dhcpClient_answers_again :
    ∃ first m outputs o messageType,
      (dhcpClient .little false #v[0, 0, 2, 0]).Run .released
        [acknowledgement, answerWith [] none] outputs o ∧
      receivedSince .little false [acknowledgement] = [⟨first, true⟩] ∧
      (brought dhcpMessageType (taking [⟨first, true⟩] m)).bind List.head? =
        some messageType ∧
      outputs.getLast? = some (some (messageType,
        handed (taking [⟨first, true⟩] m) m.yiaddr messageType)) := by
  obtain ⟨first, before, said⟩ := exists_frameWith_received
    [53, 1, 5, 17, 3, 39, 124, 39] acknowledges (by decide +kernel)
  obtain ⟨m, received, _⟩ :=
    exists_frameWith_received [] (fun _ => true) (by decide +kernel)
  have evaluated : (((dhcpClient .little false #v[0, 0, 2, 0]).exec .released
      [acknowledgement, answerWith [] none]).any fun _ => true) = true := by
    decide +kernel
  obtain ⟨outputs, o, run, _⟩ := Machine.exists_run_of_exec evaluated
  have since : receivedSince .little false [acknowledgement] = [⟨first, true⟩] :=
    receivedSince_answer before said
  have run₂ : (dhcpClient .little false #v[0, 0, 2, 0]).Run .released
      ([acknowledgement] ++ [.frame #v[0, 0, 0, 0] NID32.zero (frameWith []) none])
      outputs o := run
  have answered := dhcpClient_answers received run₂
  rw [since] at answered
  obtain ⟨messageType, type, last⟩ := answered
  exact ⟨first, m, outputs, o, messageType, run, since, type, last⟩

/-- What the client holds after some messages: an option which it never makes is
the last one brought since the release, and so is the lease; in a string the
quotes are spaces once it has been written.  The timers are those of the last
message, or parts of the lease. -/
theorem dhcpClient_options {receipts : List DhcpReceipt} {receipt : DhcpReceipt}
    (run : (dhcpClient order doCheckSum nleaseTime).Run .released events outputs
      o)
    (last : receivedSince order doCheckSum events = receipts ++ [receipt]) :
    (∀ code ∉ assumedOptions,
      o.content code = brought code (receipts ++ [receipt])) ∧
      o.Timed nleaseTime receipts receipt := by
  have carried := carried_of_run run
  rw [last] at carried
  exact ⟨carried.own, carried.times receipts receipt rfl⟩

/-- The timers of a message without a lease. -/
theorem dhcpClient_options_timed :
    ∃ m outputs o,
      (dhcpClient .little false #v[0, 0, 2, 0]).Run .released [acknowledgement]
        outputs o ∧
      receivedSince .little false [acknowledgement] = [⟨m, true⟩] ∧
      (∀ code ∉ assumedOptions, o.content code = brought code [⟨m, true⟩]) ∧
      o.Timed #v[0, 0, 2, 0] [] ⟨m, true⟩ := by
  obtain ⟨m, outputs, o, run, since⟩ := exists_acknowledgement
  have last : receivedSince .little false [acknowledgement] = [] ++ [⟨m, true⟩] :=
    since
  exact ⟨m, outputs, o, run, since, dhcpClient_options run last⟩

def Readable (o : DhcpOptions) (code : UInt8) : Prop :=
  o.word code ≠ none

/-- When a message has been received, the client reads four bytes of the options
it makes if they are missing.  They are there, but for an address or a mask
which was brought last with less than three; a time has always four. -/
theorem dhcpClient_readable
    (run : (dhcpClient order doCheckSum nleaseTime).Run .released events outputs
      o)
    (received : receivedSince order doCheckSum events ≠ []) :
    (∀ code ∈ madeOptions, Readable o code ↔
      ∀ data ∈ brought code (receivedSince order doCheckSum events),
        3 ≤ data.length) ∧
      ∀ code ∈ [dhcpIPaddrLeaseTime, dhcpT1value, dhcpT2value],
        Readable o code := by
  have carried := carried_of_run run
  have ready := carried.ready received
  constructor
  · intro code member
    rw [Readable, Option.ne_none_iff_isSome, ready.word_isSome_iff member,
      carried.hasWord_iff received member, HasWord]
  · intro code member
    rw [Readable, Option.ne_none_iff_isSome]
    exact ready.time_isSome member

/-- The options which no acknowledgement brought. -/
theorem dhcpClient_readable_made :
    ∃ m outputs o,
      (dhcpClient .little false #v[0, 0, 2, 0]).Run .released [acknowledgement]
        outputs o ∧
      receivedSince .little false [acknowledgement] = [⟨m, true⟩] ∧
      (∀ code ∈ madeOptions, Readable o code ↔
        ∀ data ∈ brought code [⟨m, true⟩], 3 ≤ data.length) ∧
      ∀ code ∈ [dhcpIPaddrLeaseTime, dhcpT1value, dhcpT2value],
        Readable o code := by
  obtain ⟨m, outputs, o, run, since⟩ := exists_acknowledgement
  have received : receivedSince .little false [acknowledgement] ≠ [] := by
    rw [since]
    exact List.cons_ne_nil _ _
  have readable := dhcpClient_readable run received
  rw [since] at readable
  exact ⟨m, outputs, o, run, since, readable⟩

end Client

end NodeIdentity
