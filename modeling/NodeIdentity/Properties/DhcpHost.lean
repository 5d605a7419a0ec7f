import NodeIdentity.InetText
import NodeIdentity.Properties.DhcpConfiguration
import NodeIdentity.Properties.DhcpOptionTable

/-!
# From a frame to the configuration

What the daemon is told is the root path which was brought last and the address
of a message.  It is configured by the text it was told last, as a message has
spelt it: the quotes `dhcpConfig` takes out of a path are in no address.
-/

namespace NodeIdentity

open NodeIdentity.Library DhcpOptions

def toldText (path : Option (List UInt8)) (yiaddr : NID32) :
    Option (List UInt8) :=
  path.map fun option17 => cstringOf option17 ++ inetNtop4 yiaddr ++ [bar]

def told (order : ByteOrder) (doCheckSum : Bool)
    (path : List DhcpReceipt → Option (List UInt8))
    (receipts : List DhcpReceipt) : DhcpClientEvent → Option (List UInt8)
  | .release => none
  | .frame xid _ frame _ =>
      match dhcpRecv order doCheckSum xid frame with
      | some (some m) =>
          if (brought dhcpMessageType (taking receipts m)).bind List.head? =
              some dhcpAck then toldText (path (taking receipts m)) m.yiaddr
          else none
      | _ => none

/-- The root path which some messages brought last, as it came. -/
def speltPath (receipts : List DhcpReceipt) : Option (List UInt8) :=
  lastOf (fun receipt => lastData rootPath receipt.message.items) receipts

/-- Two texts are the same unless there is a quote in the first one. -/
def SameUnquoted (first second : Option (List UInt8)) : Prop :=
  (first = none ↔ second = none) ∧
    ∀ text, first = some text → 39 ∉ text → second = some text

/-- The text fits into the array of the daemon, and has a second token. -/
def Understood (text : List UInt8) : Prop :=
  text.length < dhcpMaxBufLen ∧ 2 ≤ (tokens bar text).length

/-- The daemon has read the text, with the zeros behind it. -/
def Heard (text : List UInt8) (s next : DhcpState) : Prop :=
  ∃ count, 0 < count ∧
    threadDhcp (text ++ List.replicate count 0) s = some next

section Texts

variable {receipts : List DhcpReceipt} {yiaddr : NID32}
  {messageType : UInt8} {path : Option (List UInt8)} {text : List UInt8}
  {s : DhcpState}

theorem nul_notMem_told (told : toldText path yiaddr = some text) :
    0 ∉ text := by
  obtain ⟨option17, _, rfl⟩ := Option.map_eq_some_iff.mp told
  simp only [List.mem_append, List.mem_singleton, not_or]
  refine ⟨⟨?_, nul_notMem (inetNtop4_chars yiaddr)⟩, by decide⟩
  intro member
  have nonzero := List.mem_takeWhile_imp member
  exact of_decide_eq_true nonzero rfl

theorem cstringOf_snoc_zero (bytes : List UInt8) :
    cstringOf (bytes ++ [0]) = cstringOf bytes := by
  induction bytes with
  | nil => rfl
  | cons byte bytes ih =>
      rw [cstringOf, cstringOf] at ih ⊢
      rw [List.cons_append, List.takeWhile_cons, List.takeWhile_cons, ih]

theorem exists_handed
    (told : toldText (brought rootPath receipts) yiaddr = some text) :
    ∃ count, 0 < count ∧ handed receipts yiaddr dhcpAck =
      some (text ++ List.replicate count 0) := by
  obtain ⟨option17, path, rfl⟩ := Option.map_eq_some_iff.mp told
  have short := length_inetNtop4 yiaddr
  have fits : (cstringOf option17 ++ inetNtop4 yiaddr ++ [bar]).length <
      (cstringOf option17).length + inetAddrStrLen + 1 := by
    rw [inetAddrStrLen]
    simp only [List.length_append, List.length_singleton]
    omega
  refine ⟨_, Nat.sub_pos_of_lt fits, ?_⟩
  simp only [handed, path, Option.bind_some, NodeIdentity.parseDhcpMsgRecv,
    if_true, cstringOf_snoc_zero, if_pos fits]

theorem handed_eq_none
    (silent : toldText (brought rootPath receipts) yiaddr = none) :
    handed receipts yiaddr messageType = none := by
  rw [handed, Option.map_eq_none_iff.mp silent, Option.bind_none]

theorem understood_iff (proper : 0 ∉ text) {count : Nat}
    (positive : 0 < count) (s : DhcpState) :
    Understood text ↔
      ∃ next, threadDhcp (text ++ List.replicate count 0) s = some next := by
  have read : ((Buffer.zero dhcpMaxBufLen).receive
      (text ++ List.replicate count 0)).cstring 0 =
        if text.length < dhcpMaxBufLen then some text else none :=
    Buffer.cstring_receive_zero proper positive
  by_cases room : text.length < dhcpMaxBufLen
  · rw [if_pos room] at read
    rw [Understood, and_iff_right room]
    cases token : (tokens bar text)[1]? with
    | some gateway =>
        apply iff_of_true
        · exact (List.getElem?_eq_some_iff.mp token).1
        · exact ⟨_, threadDhcp_tokens read token s⟩
    | none =>
        have second : (strtok bar (strtok bar text).2).1 = none :=
          (strtok_iterate bar 1 text).trans token
        apply iff_of_false
        · exact Nat.not_le.mpr
            (Nat.lt_succ_of_le (List.getElem?_eq_none_iff.mp token))
        · rintro ⟨next, done⟩
          simp only [threadDhcp, read, second, Option.bind_eq_bind,
            Option.bind_some, Option.bind_none, reduceCtorEq] at done
  · rw [if_neg room] at read
    apply iff_of_false
    · exact fun both => room both.1
    · rintro ⟨next, done⟩
      simp only [threadDhcp, read, Option.bind_eq_bind, Option.bind_none,
        reduceCtorEq] at done

theorem SameUnquoted.or {first second front back : Option (List UInt8)}
    (now : SameUnquoted first second) (before : SameUnquoted front back) :
    SameUnquoted (first.or front) (second.or back) := by
  refine ⟨?_, ?_⟩
  · rw [Option.or_eq_none_iff, Option.or_eq_none_iff, now.1, before.1]
  · intro text here unquoted
    rcases Option.or_eq_some_iff.mp here with current | ⟨absent, earlier⟩
    · rw [now.2 text current unquoted, Option.some_or]
    · rw [now.1.mp absent, Option.none_or]
      exact before.2 text earlier unquoted

theorem withoutQuotes_eq {bytes : List UInt8}
    (unquoted : 39 ∉ cstringOf bytes) :
    withoutQuotes bytes = bytes := by
  have same : ∀ c ∈ cstringOf bytes, (if c = 39 then 32 else c) = c := by
    intro c member
    apply if_neg
    rintro rfl
    exact unquoted member
  rw [withoutQuotes, List.map_congr_left same, List.map_id', cstringOf,
    List.takeWhile_append_dropWhile]

theorem brought_rootPath (receipts : List DhcpReceipt) :
    (speltPath receipts = none ↔ brought rootPath receipts = none) ∧
      ∀ option17, speltPath receipts = some option17 →
        39 ∉ cstringOf option17 →
          brought rootPath receipts = some option17 := by
  induction receipts using List.reverseRecOn with
  | nil => exact ⟨.rfl, fun _ absent => nomatch absent⟩
  | append_singleton receipts receipt ih =>
      rw [speltPath, lastOf_snoc, ← speltPath, brought_snoc, DhcpReceipt.leaves]
      cases lastData rootPath receipt.message.items with
      | none =>
          rw [Option.none_or, Option.none_or]
          split
          · rw [Option.map_eq_none_iff]
            refine ⟨ih.1, fun option17 here unquoted => ?_⟩
            rw [ih.2 option17 here unquoted, Option.map_some,
              withoutQuotes_eq unquoted]
          · exact ih
      | some data =>
          rw [Option.some_or, Option.some_or]
          constructor
          · apply iff_of_false (Option.some_ne_none _)
            split <;> exact Option.some_ne_none _
          · rintro option17 ⟨⟩ unquoted
            split
            · rw [Option.map_some, withoutQuotes_eq unquoted]
            · rfl

theorem told_sameUnquoted (order : ByteOrder) (doCheckSum : Bool)
    (receipts : List DhcpReceipt) (event : DhcpClientEvent) :
    SameUnquoted (told order doCheckSum speltPath receipts event)
      (told order doCheckSum (brought rootPath) receipts event) := by
  have silent : SameUnquoted none none := ⟨.rfl, fun _ absent => nomatch absent⟩
  cases event with
  | release => exact silent
  | frame xid ciaddr frame config =>
      rw [told, told]
      cases dhcpRecv order doCheckSum xid frame with
      | none => exact silent
      | some received =>
          cases received with
          | none => exact silent
          | some m =>
              obtain ⟨absent, same⟩ := brought_rootPath (taking receipts m)
              dsimp only
              split
              · refine ⟨?_, ?_⟩
                · rw [toldText, toldText, Option.map_eq_none_iff,
                    Option.map_eq_none_iff, absent]
                · intro text here unquoted
                  obtain ⟨option17, path, rfl⟩ := Option.map_eq_some_iff.mp here
                  have clean : 39 ∉ cstringOf option17 := fun member =>
                    unquoted (List.mem_append_left _
                      (List.mem_append_left _ member))
                  rw [toldText, same option17 path clean, Option.map_some]
              · exact silent

theorem DhcpOption.quote_notMem {values : DhcpValues}
    (option : DhcpOption values) : 39 ∉ option.wholeText := by
  have six : ∀ {nid : NID} {text : List UInt8}, inetPton6 text = some nid →
      39 ∉ text := fun accepted =>
    notMem_of_addressChars (inetPton6_chars accepted) rfl (by decide)
      (by decide)
  have four : ∀ {address : NID32} {text : List UInt8},
      inetPtonNID32 text = some address → 39 ∉ text := by
    intro address text accepted
    obtain ⟨octets, quad, _⟩ := Option.map_eq_some_iff.mp accepted
    exact notMem_of_addressChars (inetPton4_chars quad) rfl (by decide)
      (by decide)
  have fields : ∀ field ∈ option.fields ++ [inetNtop4 values.ip],
      39 ∉ field := by
    simp only [DhcpOption.fields, List.cons_append, List.nil_append,
      List.forall_mem_cons, List.not_mem_nil, false_imp_iff, forall_true_iff,
      and_true]
    exact ⟨six option.nidcore_eq, six option.nidgw_eq, four option.gatewayIP_eq,
      six option.nidrvs_eq, four option.rvsIP_eq, six option.niddns_eq,
      four (inetPtonNID32_inetNtop4 values.ip)⟩
  rw [DhcpOption.wholeText, delimited, List.mem_flatMap]
  rintro ⟨field, member, here⟩
  rcases List.mem_append.mp here with inside | last
  · exact fields field member inside
  · exact absurd (List.mem_singleton.mp last) (by decide)

end Texts

section Host

variable {order : ByteOrder} {doCheckSum : Bool} {nleaseTime : Vector UInt8 4}
  {receipts : List DhcpReceipt} {o next : DhcpOptions} {s last : DhcpState}
  {event : DhcpClientEvent} {reply : Option (UInt8 × Option (List UInt8))}

theorem DhcpOptions.Carried.written
    (carried : o.Carried nleaseTime receipts)
    (stepped : (dhcpClient order doCheckSum nleaseTime).step o event =
      some (next, reply)) :
    match told order doCheckSum (brought rootPath) receipts event with
    | none => reply.bind Prod.snd = none
    | some text => ∃ count, 0 < count ∧
        reply.bind Prod.snd = some (text ++ List.replicate count 0) := by
  cases event with
  | release =>
      cases stepped
      rfl
  | frame xid ciaddr frame config =>
      rw [dhcpClient_frame] at stepped
      rw [told]
      cases received : dhcpRecv order doCheckSum xid frame with
      | none =>
          rw [received] at stepped
          cases stepped
      | some result =>
          rw [received, Option.bind_some] at stepped
          cases result with
          | none =>
              cases stepped
              rfl
          | some m =>
              rcases carried.parse (room_of_dhcpRecv received) ciaddr with
                ⟨_, fails⟩ | ⟨_, after, messageType, parsed, said, _⟩
              · simp only [fails, Option.bind_none, reduceCtorEq] at stepped
              · simp only [parsed, Option.bind_some, Option.map_eq_some_iff,
                  Prod.mk.injEq] at stepped
                obtain ⟨_, _, _, rfl⟩ := stepped
                simp only [said, Option.some.injEq, Option.bind_some]
                split_ifs with ack
                · subst ack
                  cases text : toldText (brought rootPath (taking receipts m))
                      m.yiaddr with
                  | none => exact handed_eq_none text
                  | some text => exact exists_handed text
                · exact handed_of_other ack

theorem told_proper {text : List UInt8}
    (heard : told order doCheckSum (brought rootPath) receipts event =
      some text) : 0 ∉ text := by
  cases event with
  | release => cases heard
  | frame xid ciaddr frame config =>
      rw [told] at heard
      split at heard
      · split_ifs at heard with ack
        exact nul_notMem_told heard
      · cases heard

theorem dhcpHost_step_eq :
    (dhcpHost order doCheckSum nleaseTime).step (o, s) event =
      ((dhcpClient order doCheckSum nleaseTime).step o event).bind
        fun (next, reply) =>
          match reply.bind Prod.snd with
          | none => some ((next, s), reply)
          | some message => (threadDhcp message s).map
              fun last => ((next, last), reply) := by
  rw [dhcpHost]
  simp only [Option.bind_eq_bind, Option.pure_def, Option.map_eq_bind]
  rfl

/-- The host stops where the client does, and at a text which the daemon does
not understand. -/
theorem host_accepts_iff (carried : o.Carried nleaseTime receipts)
    (s : DhcpState) :
    (Accepted order doCheckSum nleaseTime receipts event ∧
        ∀ text ∈ told order doCheckSum (brought rootPath) receipts event,
          Understood text) ↔
      ∃ result, (dhcpHost order doCheckSum nleaseTime).step (o, s) event =
        some result := by
  rw [(carried.step event).1, dhcpHost_step_eq]
  cases stepped : (dhcpClient order doCheckSum nleaseTime).step o event with
  | none =>
      apply iff_of_false
      · rintro ⟨⟨_, ⟨⟩⟩, _⟩
      · rintro ⟨_, ⟨⟩⟩
  | some result =>
      obtain ⟨next, reply⟩ := result
      have written := carried.written stepped
      rw [Option.bind_some, and_iff_right ⟨_, rfl⟩]
      cases heard : told order doCheckSum (brought rootPath) receipts event with
      | none =>
          simp only [heard] at written
          simp only [written]
          exact iff_of_true (fun _ absent => (nomatch absent)) ⟨_, rfl⟩
      | some text =>
          simp only [heard] at written
          obtain ⟨count, positive, message⟩ := written
          simp only [message, Option.mem_def, Option.some.injEq, forall_eq',
            Option.map_eq_some_iff]
          rw [understood_iff (told_proper heard) positive s]
          constructor
          · rintro ⟨last, done⟩
            exact ⟨_, last, done, rfl⟩
          · rintro ⟨_, last, done, _⟩
            exact ⟨last, done⟩

/-- A step of the host: the client makes its own, and the daemon changes only
when it is told something. -/
theorem host_step (carried : o.Carried nleaseTime receipts)
    (stepped : (dhcpHost order doCheckSum nleaseTime).step (o, s) event =
      some ((next, last), reply)) :
    next.Carried nleaseTime (afterEvent order doCheckSum receipts event) ∧
      match told order doCheckSum (brought rootPath) receipts event with
      | none => last = s
      | some text => Heard text s last := by
  rw [dhcpHost_step_eq] at stepped
  obtain ⟨⟨after, output⟩, client, rest⟩ := Option.bind_eq_some_iff.mp stepped
  have written := carried.written client
  have on := (carried.step event).2 client
  cases heard : told order doCheckSum (brought rootPath) receipts event with
  | none =>
      simp only [heard] at written
      simp only [written, Option.some.injEq, Prod.mk.injEq] at rest
      obtain ⟨⟨rfl, rfl⟩, _⟩ := rest
      exact ⟨on, rfl⟩
  | some text =>
      simp only [heard] at written
      obtain ⟨count, positive, message⟩ := written
      simp only [message, Option.map_eq_some_iff, Prod.mk.injEq] at rest
      obtain ⟨_, done, ⟨rfl, rfl⟩, _⟩ := rest
      exact ⟨on, count, positive, done⟩

end Host

section Runs

variable {order : ByteOrder} {doCheckSum : Bool} {nleaseTime : Vector UInt8 4}
  {events : List DhcpClientEvent} {boot : DhcpState}
  {host : DhcpOptions × DhcpState}
  {outputs : List (Option (UInt8 × Option (List UInt8)))}

section Last

variable (order doCheckSum) (path : List DhcpReceipt → Option (List UInt8))

/-- The messages since the last release, and the text told last. -/
def hear (known : List DhcpReceipt × Option (List UInt8))
    (event : DhcpClientEvent) : List DhcpReceipt × Option (List UInt8) :=
  (afterEvent order doCheckSum known.1 event,
    (told order doCheckSum path known.1 event).or known.2)

def lastTold (events : List DhcpClientEvent) : Option (List UInt8) :=
  (events.foldl (hear order doCheckSum path) ([], none)).2

theorem hear_events (events : List DhcpClientEvent) :
    (events.foldl (hear order doCheckSum path) ([], none)).1 =
      receivedSince order doCheckSum events := by
  induction events using List.reverseRecOn with
  | nil => rfl
  | append_singleton events event ih =>
      rw [List.foldl_concat, hear, ih, receivedSince_snoc]

theorem lastTold_snoc (events : List DhcpClientEvent)
    (event : DhcpClientEvent) :
    lastTold order doCheckSum path (events ++ [event]) =
      (told order doCheckSum path (receivedSince order doCheckSum events)
        event).or (lastTold order doCheckSum path events) := by
  rw [lastTold, List.foldl_concat, hear, hear_events, lastTold]

theorem lastTold_sameUnquoted (events : List DhcpClientEvent) :
    SameUnquoted (lastTold order doCheckSum speltPath events)
      (lastTold order doCheckSum (brought rootPath) events) := by
  induction events using List.reverseRecOn with
  | nil => exact ⟨.rfl, fun _ absent => nomatch absent⟩
  | append_singleton events event ih =>
      rw [lastTold_snoc, lastTold_snoc]
      exact (told_sameUnquoted order doCheckSum _ event).or ih

end Last

/-- Along a run the table carries the messages, and the daemon is as the last
text has left it. -/
theorem host_of_run
    (run : (dhcpHost order doCheckSum nleaseTime).Run (.released, boot) events
      outputs host) :
    host.1.Carried nleaseTime (receivedSince order doCheckSum events) ∧
      match lastTold order doCheckSum (brought rootPath) events with
      | none => host.2 = boot
      | some text => ∃ s, Heard text s host.2 := by
  induction run with
  | nil => exact ⟨carried_released, rfl⟩
  | @snoc events _ state next event _ _ last ih =>
      obtain ⟨carried, before⟩ := ih
      obtain ⟨on, after⟩ := host_step carried last
      rw [receivedSince_snoc, lastTold_snoc]
      refine ⟨on, ?_⟩
      cases heard : told order doCheckSum (brought rootPath)
          (receivedSince order doCheckSum events) event with
      | none =>
          simp only [heard] at after
          rw [Option.none_or, after]
          exact before
      | some text =>
          simp only [heard] at after
          rw [Option.some_or]
          exact ⟨state.2, after⟩

/-- The client and the daemon get through all frames and releases exactly if the
client accepts every one and the daemon understands every text it is told. -/
theorem dhcpHost_runs_iff (order : ByteOrder) (doCheckSum : Bool)
    (nleaseTime : Vector UInt8 4) (boot : DhcpState)
    (events : List DhcpClientEvent) :
    (∃ outputs host, (dhcpHost order doCheckSum nleaseTime).Run
        (.released, boot) events outputs host) ↔
      ∀ before event after, events = before ++ event :: after →
        Accepted order doCheckSum nleaseTime
            (receivedSince order doCheckSum before) event ∧
          ∀ text ∈ told order doCheckSum (brought rootPath)
              (receivedSince order doCheckSum before) event,
            Understood text :=
  Machine.exists_run_iff
    (fun run => host_accepts_iff (host_of_run run).1 _) events

/-- The daemon has the values of the text which it was told last, as a message
has spelt them, whatever the frames, releases and files before and after it; as
long as it was told nothing it is as it was. -/
theorem dhcpHost_configured
    (run : (dhcpHost order doCheckSum nleaseTime).Run (.released, boot) events
      outputs host) :
    (lastTold order doCheckSum speltPath events = none → host.2 = boot) ∧
      ∀ {values : DhcpValues} (option : DhcpOption values),
        lastTold order doCheckSum speltPath events = some option.wholeText →
          Configured values host.2 := by
  have left := (host_of_run run).2
  obtain ⟨absent, same⟩ := lastTold_sameUnquoted order doCheckSum events
  constructor
  · intro nothing
    simpa only [absent.mp nothing] using left
  · intro values option heard
    simp only [same _ heard option.quote_notMem] at left
    obtain ⟨s, count, positive, done⟩ := left
    obtain ⟨delivered, lost⟩ := option.threadDhcp_wholeText positive s
    rcases Nat.lt_or_ge option.wholeText.length dhcpMaxBufLen with room | full
    · obtain ⟨next, read, configured⟩ := delivered room
      rw [read, Option.some.injEq] at done
      exact done ▸ configured
    · rw [lost full] at done
      cases done

/-- The option as the functions of the library write the values. -/
def DhcpValues.option (values : DhcpValues) : DhcpOption values where
  nidcore := inetNtop6 values.nidcore
  nidgw := inetNtop6 values.nidgw
  gatewayIP := inetNtop4 values.gatewayIP
  nidrvs := inetNtop6 values.nidrvs
  rvsIP := inetNtop4 values.rvsIP
  niddns := inetNtop6 values.niddns
  nidcore_eq := inetPton6_inetNtop6 values.nidcore
  nidgw_eq := inetPton6_inetNtop6 values.nidgw
  gatewayIP_eq := inetPtonNID32_inetNtop4 values.gatewayIP
  nidrvs_eq := inetPton6_inetNtop6 values.nidrvs
  rvsIP_eq := inetPtonNID32_inetNtop4 values.rvsIP
  niddns_eq := inetPton6_inetNtop6 values.niddns

def smallValues : DhcpValues :=
  { nidcore := NID.ofNat 1
    nidgw := NID.ofNat 2
    gatewayIP := #v[1, 1, 1, 1]
    nidrvs := NID.ofNat 3
    rvsIP := #v[1, 1, 1, 2]
    niddns := NID.ofNat 4
    ip := NID32.zero }

/-- An acknowledgement which is followed by the files, and one which has not got
the path. -/
def smallEvents : List DhcpClientEvent :=
  [answerWith ([53, 1, 5, 17, 32] ++ smallValues.option.text) (some allCalls),
    answerWith [53, 1, 5] (some allCalls)]

/-- Two acknowledgements configure a daemon which has just begun. -/
theorem dhcpHost_configured_small :
    ∃ outputs host,
      (dhcpHost .little false #v[0, 0, 2, 0]).Run (.released, freshDhcp)
        smallEvents outputs host ∧
      lastTold .little false speltPath smallEvents =
        some smallValues.option.wholeText ∧
      Configured smallValues host.2 := by
  have evaluated : (((dhcpHost .little false #v[0, 0, 2, 0]).exec
      (.released, freshDhcp) smallEvents).any fun _ => true) = true := by
    decide +kernel
  obtain ⟨outputs, host, run, _⟩ := Machine.exists_run_of_exec evaluated
  have heard : lastTold .little false speltPath smallEvents =
      some smallValues.option.wholeText := by
    decide +kernel
  exact ⟨outputs, host, run, heard, (dhcpHost_configured run).2 _ heard⟩

end Runs

end NodeIdentity
