import NodeIdentity.Properties.DnsMessages
import NodeIdentity.Properties.DnsTransparency

/-!
# Names which are answered from the table

A response carries a text in its own bytes.  What the handler shows to a client
later is what it read from its buffer, where a short response leaves bytes of
earlier datagrams, and from the last response it had, for whatever name.
-/

namespace NodeIdentity

open NodeIdentity.Library NodeIdentity.Library.DnsWire

/-- The text in the bytes of a response: its first answer, if that is a text
record. -/
def carriedText (response : List UInt8) : Option NidsText :=
  (firstAnswer response).bind fun record =>
    if record.type = typeTXT then some (recordText record) else none

/-- The bytes of the response say that it is successful. -/
def successful (response : List UInt8) : Bool :=
  (headerFormat.parse response).any fun parsed => parsed.1.flags % 16 = 0

/-- A response of the name server, the name it was asked for, and what the
buffer held until then. -/
structure DnsReception where
  fqdn : List UInt8
  left : DnsBuffer
  response : List UInt8

/-- The text which bytes in the buffer show where the handler looks for it, if
they say that the response is successful. -/
def shownText (buf : DnsBuffer) : NidsText :=
  match DnsBuffer.queryName buf with
  | some name => if buf.rcode = 0 then responseText buf name else noText
  | none => noText

def DnsReception.shown (reception : DnsReception) : NidsText :=
  shownText (reception.left.receive reception.response)

def receptionOf (input : DnsInput) (s : DnsHandler) : Option DnsReception := do
  let query ← input.query
  let (buffer, fqdn, _) ← modifyDnsQuery (s.buffer.receive query)
  match getNIDsbyName fqdn s.fqdnTable with
  | some _ => none
  | none => return ⟨fqdn, buffer, ← input.response⟩

def dnsExchanges : Machine DnsSystem DnsInput (DnsLog × Option DnsReception) :=
  { step := fun s input =>
      (dnsMachine.step s input).map fun (next, entry) =>
        (next, entry, receptionOf input s.handler) }

/-- The last response for a name which says that it is successful. -/
def lastSuccess (fqdn : List UInt8)
    (log : List (DnsLog × Option DnsReception)) : Option (List UInt8) :=
  lastOf (fun entry => entry.2.bind fun reception =>
    if reception.fqdn = fqdn ∧ successful reception.response = true then
      some reception.response
    else none) log

def lastCarried (fqdn : List UInt8)
    (log : List (DnsLog × Option DnsReception)) : Option NidsText :=
  (lastSuccess fqdn log).bind carriedText

def lastReception (log : List (DnsLog × Option DnsReception)) :
    Option DnsReception :=
  lastOf Prod.snd log

theorem lastReception_snoc (log : List (DnsLog × Option DnsReception))
    (entry : DnsLog × Option DnsReception) :
    lastReception (log ++ [entry]) = entry.2.or (lastReception log) :=
  lastOf_snoc _ log entry

/-- What `analyse_dns_response` leaves in the array of answers is what the
buffer shows. -/
theorem getNids_analyseDnsResponse {buf : DnsBuffer} {answer : DnsAnswer}
    {success : Bool}
    (analysed : analyseDnsResponse buf = some (answer, success)) :
    getNids answer.answerAns = shownText buf := by
  cases named : DnsBuffer.queryName buf with
  | none =>
      rw [analyseDnsResponse, named] at analysed
      cases analysed
  | some name =>
      obtain ⟨queryName, whole⟩ := analyseDnsResponse_eq named
      rw [whole] at analysed
      rw [shownText, named]
      by_cases code : buf.rcode = 0
      · rw [if_pos code] at analysed
        obtain ⟨records, found, same⟩ := Option.map_eq_some_iff.mp analysed
        cases same
        dsimp only
        rw [if_pos code]
        exact (analyseRecords_of_eq found).2
      · rw [if_neg code] at analysed
        cases analysed
        dsimp only
        rw [if_neg code]
        decide +kernel

theorem dnsMiss_ansAns {input : DnsInput} {fqdn response : List UInt8}
    {queryType : Nat} {s : DnsHandler} {nm : NidMapper} {round : DnsRound}
    (result : dnsMiss input fqdn queryType response s nm = some round) :
    getNids round.state.ansAns = shownText (s.buffer.receive response) := by
  simp only [dnsMiss, Option.bind_eq_bind, Option.bind_eq_some_iff] at result
  obtain ⟨⟨answer, success⟩, analysed, result⟩ := result
  have shown := getNids_analyseDnsResponse analysed
  rw [← shown]
  cases success with
  | true =>
      simp only [if_true] at result
      cases resolved : resolveNids (getNids answer.answerAns) nm with
      | none =>
          simp only [resolved, Option.pure_def, Option.some.injEq] at result
          subst result
          rfl
      | some nids =>
          simp only [resolved, Option.bind_eq_some_iff] at result
          obtain ⟨buffer, _, ended⟩ := result
          rw [(textEffect_of_reply resolved ended).2.2.1]
  | false =>
      simp only [Bool.false_eq_true, if_false] at result
      split at result
      · cases result
        rfl
      · cases result
        rfl

private theorem dnsHit_kept {input : DnsInput} {fqdn : List UInt8}
    {queryType : Nat} {ref : TextRef} {s : DnsHandler} {nm : NidMapper}
    {round : DnsRound}
    (result : dnsHit input fqdn queryType ref s nm = some round) :
    round.state.ansAns = s.ansAns ∧ round.state.fqdnTable = s.fqdnTable := by
  unfold dnsHit at result
  cases resolved : resolveNids (getNids (s.deref ref)) nm with
  | none =>
      simp only [resolved, Option.pure_def, Option.some.injEq] at result
      subst result
      exact ⟨rfl, rfl⟩
  | some nids =>
      simp only [resolved, Option.bind_eq_bind, Option.bind_eq_some_iff]
        at result
      obtain ⟨buffer, _, ended⟩ := result
      exact (textEffect_of_reply resolved ended).2.2

/-- A round which goes on has received nothing, and keeps its array and its
table, or its array shows what it has received. -/
theorem threadDnshandler_shows {input : DnsInput} {s : DnsHandler}
    {nm : NidMapper} {round : DnsRound}
    (result : threadDnshandler input s nm = some round)
    (running : round.state.running = true) :
    (receptionOf input s = none ∧ round.state.ansAns = s.ansAns ∧
        round.state.fqdnTable = s.fqdnTable) ∨
      ∃ reception, receptionOf input s = some reception ∧
        getNids round.state.ansAns = reception.shown := by
  unfold threadDnshandler at result
  split at result
  · next query asked =>
      obtain ⟨⟨buffer, fqdn, queryType⟩, modified, result⟩ :=
        Option.bind_eq_some_iff.mp result
      simp only at result
      split at result
      · next ref known =>
          have received : receptionOf input s = none := by
            simp only [receptionOf, asked, modified, Option.bind_eq_bind,
              Option.bind_some, known]
          have kept := dnsHit_kept result
          exact .inl ⟨received, kept⟩
      · next unknown =>
          split at result
          · next response answered =>
              have received :
                  receptionOf input s = some ⟨fqdn, buffer, response⟩ := by
                simp only [receptionOf, asked, modified, answered,
                  Option.bind_eq_bind, Option.bind_some, unknown]
                rfl
              exact .inr ⟨_, received, dnsMiss_ansAns result⟩
          · cases result
            cases running
  · cases result
    cases running

theorem dnsExchanges_step {s next : DnsSystem} {input : DnsInput}
    {entry : DnsLog × Option DnsReception}
    (stepped : dnsExchanges.step s input = some (next, entry)) :
    dnsMachine.step s input = some (next, entry.1) ∧
      entry.2 = receptionOf input s.handler := by
  obtain ⟨⟨state, log⟩, before, same⟩ := Option.map_eq_some_iff.mp stepped
  cases same
  exact ⟨before, rfl⟩

/-- A table with a name is one after a response, and the array shows the last
one. -/
theorem array_of_run {buffer : DnsBuffer} {ansAns : NameBuffer}
    {nm : NidMapper} {inputs : List DnsInput}
    {log : List (DnsLog × Option DnsReception)} {s : DnsSystem}
    (run : dnsExchanges.Run (dnsStart buffer ansAns nm) inputs log s)
    (running : s.handler.running = true) :
    (lastReception log = none ∧ s.handler.fqdnTable = initFqdnTable) ∨
      ∃ reception, lastReception log = some reception ∧
        getNids s.handler.ansAns = reception.shown := by
  induction run with
  | nil => exact .inl ⟨rfl, rfl⟩
  | @snoc inputs log state next input entry earlier last ih =>
      obtain ⟨stepped, received⟩ := dnsExchanges_step last
      simp only [dnsMachine] at stepped
      split at stepped
      · next before =>
          obtain ⟨round, result, same⟩ := Option.map_eq_some_iff.mp stepped
          obtain ⟨rfl, _⟩ := Prod.ext_iff.mp same
          rw [lastReception_snoc, received]
          rcases threadDnshandler_shows result running with
            ⟨none, array, table⟩ | ⟨reception, here, shown⟩
          · rw [none, Option.none_or, array, table]
            exact ih before
          · rw [here, Option.some_or]
            exact .inr ⟨reception, rfl, shown⟩
      · cases stepped

/-- A name found in the table is answered with the text of its own last
successful response. -/
def CacheCorrect : Prop :=
  ∀ (buffer : DnsBuffer) (ansAns : NameBuffer) (nm : NidMapper)
    (inputs : List DnsInput) (log : List (DnsLog × Option DnsReception))
    (s next : DnsSystem) (input : DnsInput) (fqdn : List UInt8)
    (used : NidsText) (received : Option DnsReception),
    dnsExchanges.Run (dnsStart buffer ansAns nm) inputs log s →
    dnsExchanges.step s input = some (next, .hit fqdn used, received) →
    lastCarried fqdn log = some used

/-- That is so exactly if the last response for any name shows the text which
the last successful response for this name carries. -/
theorem hit_correct_iff_shown {buffer : DnsBuffer} {ansAns : NameBuffer}
    {nm : NidMapper} {inputs : List DnsInput}
    {log : List (DnsLog × Option DnsReception)} {s next : DnsSystem}
    {input : DnsInput} {fqdn : List UInt8} {used : NidsText}
    {received : Option DnsReception}
    (run : dnsExchanges.Run (dnsStart buffer ansAns nm) inputs log s)
    (hit : dnsExchanges.step s input =
      some (next, .hit fqdn used, received)) :
    lastCarried fqdn log = some used ↔
      ∃ last, lastReception log = some last ∧
        lastCarried fqdn log = some last.shown := by
  obtain ⟨running, round, effect, _, logged⟩ :=
    dnsMachine_step (dnsExchanges_step hit).1
  cases effect with
  | silent other => cases logged.trans other
  | success other => cases logged.trans other
  | failure other => cases logged.trans other
  | @hit _ ref known other _ _ _ =>
      cases logged.trans other
      rcases array_of_run run running with
        ⟨_, empty⟩ | ⟨last, received, shown⟩
      · have absent : getNIDsbyName fqdn initFqdnTable = none :=
          ChainedTable.find_empty 100 (by decide) fqdn
        rw [empty, absent] at known
        cases known
      · have array : getNids (s.handler.deref ref) = last.shown := by
          cases ref
          exact shown
        rw [array]
        constructor
        · intro carried
          exact ⟨last, received, carried⟩
        · rintro ⟨other, again, carried⟩
          cases received.symm.trans again
          exact carried

/-- A response which is a whole message for the query for a text, in a datagram
the buffer has room for. -/
structure DnsReception.Whole (reception : DnsReception) : Prop where
  message : ∃ response data rest,
    messageFormat.parse reception.response =
        some (SingleResponse.message response typeTXT data, rest) ∧
      TextName response.labels ∧ response.name.length < nameLen ∧
      0 < data.length
  fits : reception.response.length ≤ bufferLength

theorem successful_of_parse {bytes rest : List UInt8} {message : WireMessage}
    (parsed : messageFormat.parse bytes = some (message, rest)) :
    successful bytes = true ↔ message.rcode = 0 := by
  simp only [messageFormat, WireFormat.imap, WireFormat.andThen,
    Option.map_eq_some_iff, Option.bind_eq_some_iff] at parsed
  obtain ⟨_, ⟨header, headed, _, _, rfl⟩, same⟩ := parsed
  cases same
  rw [successful, headed, Option.any_some, decide_eq_true_eq]
  rfl

theorem DnsReception.Whole.shown_eq {reception : DnsReception}
    (whole : reception.Whole) :
    some reception.shown =
      if successful reception.response then carriedText reception.response
      else some noText := by
  obtain ⟨response, data, rest, parsed, text, short, nonempty⟩ := whole.message
  have first := firstAnswer_of_parse parsed
  have success := successful_of_parse parsed
  obtain ⟨valid, bytes⟩ := (messageFormat.parse_iff _ _ _).mp parsed
  have found : messageFormat.encode (response.message typeTXT data) <+:
      (reception.left.receive reception.response).bytes := by
    rw [Buffer.bytes_receive_of_le reception.left whole.fits, bytes,
      List.append_assoc]
    exact List.prefix_append _ _
  have layout := SingleResponse.layout_of_found found
  have dataShort : data.length < 65536 := by
    rw [messageFormat_valid_iff] at valid
    exact (recordFormat_valid_iff.mp
      (valid.2.2.1 _ List.mem_cons_self)).2.2.2.2
  have code : DnsBuffer.rcode (reception.left.receive reception.response) =
      (response.message typeTXT data).rcode := layout.rcode
  rw [DnsReception.shown, shownText, layout.queryName text short]
  dsimp only
  by_cases zero : (response.message typeTXT data).rcode = 0
  · have behind : (((reception.left.receive reception.response).slice
        (13 + response.name.length + 16) data.length).drop 1).take
          (data.length - 1) = _ :=
      Buffer.take_drop_slice _ (by omega)
    rw [layout.answerData, List.take_of_length_le (by simp),
      show 13 + response.name.length + 16 + 1 = 30 + response.name.length
        by omega] at behind
    rw [if_pos (code.trans zero), if_pos (success.mpr zero), carriedText,
      first, responseText, layout.answerLength dataShort, ← behind]
    rfl
  · rw [if_neg (fun same => zero (code.symm.trans same)),
      if_neg (fun same => zero (success.mp same))]

theorem hit_correct_iff_carried {buffer : DnsBuffer} {ansAns : NameBuffer}
    {nm : NidMapper} {inputs : List DnsInput}
    {log : List (DnsLog × Option DnsReception)} {s next : DnsSystem}
    {input : DnsInput} {fqdn : List UInt8} {used : NidsText}
    {received : Option DnsReception}
    (run : dnsExchanges.Run (dnsStart buffer ansAns nm) inputs log s)
    (hit : dnsExchanges.step s input = some (next, .hit fqdn used, received))
    (whole : ∀ last, lastReception log = some last → last.Whole) :
    lastCarried fqdn log = some used ↔
      ∃ last, lastReception log = some last ∧
        lastCarried fqdn log =
          if successful last.response then carriedText last.response
          else some noText := by
  rw [hit_correct_iff_shown run hit]
  constructor
  · rintro ⟨last, received, carried⟩
    rw [(whole last received).shown_eq] at carried
    exact ⟨last, received, carried⟩
  · rintro ⟨last, received, carried⟩
    rw [← (whole last received).shown_eq] at carried
    exact ⟨last, received, carried⟩

section Example

/-- A query for a name of one letter, and a response with a text. -/
private def nameRound (letter digit : UInt8) : DnsInput :=
  let response := { letterSingle with labels := [[letter]] }
  exchange (letterQuery letter) (messageFormat.encode
    (response.message typeTXT (79 :: (digitNid digit ++ 44 :: digitNid digit))))

private def digitText (digit : UInt8) : NidsText :=
  ⟨digitNid digit, digitNid digit⟩

private theorem hit_of_exec (inputs : List DnsInput) (input : DnsInput)
    (fqdn : List UInt8) (used : NidsText)
    (holds : List (DnsLog × Option DnsReception) → Bool)
    (found : (dnsExchanges.exec freshDns inputs).any (fun before =>
      holds before.2 && (dnsExchanges.step before.1 input).any fun after =>
        after.2.1 = .hit fqdn used) = true) :
    ∃ log s next received, dnsExchanges.Run freshDns inputs log s ∧
      dnsExchanges.step s input = some (next, .hit fqdn used, received) ∧
      holds log = true := by
  obtain ⟨log, s, run, found⟩ := Machine.exists_run_of_exec found
  obtain ⟨here, found⟩ := (Bool.and_eq_true _ _).mp found
  obtain ⟨⟨next, entry, received⟩, stepped, logged⟩ :=
    (Option.any_eq_true _ _).mp found
  cases of_decide_eq_true logged
  exact ⟨log, s, next, received, run, stepped, here⟩

/-- The name `g`, asked for in between, has the same text as `f`. -/
theorem hit_correct_same_text : ∃ log s next received,
    dnsExchanges.Run freshDns [nameRound 102 49, nameRound 103 49] log s ∧
      dnsExchanges.step s (nameRound 102 49) =
        some (next, .hit [1, 102] (digitText 49), received) ∧
      (∃ last, lastReception log = some last ∧
        lastCarried [1, 102] log = some last.shown) ∧
      lastCarried [1, 102] log = some (digitText 49) := by
  obtain ⟨log, s, next, received, run, hit, same⟩ :=
    hit_of_exec [nameRound 102 49, nameRound 103 49] (nameRound 102 49)
      [1, 102] (digitText 49)
      (fun log => (lastReception log).any fun last =>
        lastCarried [1, 102] log = some last.shown)
      (by decide +kernel)
  obtain ⟨last, reached, shown⟩ := (Option.any_eq_true _ _).mp same
  have condition : ∃ last, lastReception log = some last ∧
      lastCarried [1, 102] log = some last.shown :=
    ⟨last, reached, of_decide_eq_true shown⟩
  exact ⟨log, s, next, received, run, hit, condition,
    (hit_correct_iff_shown run hit).mpr condition⟩

/-- The text of `g` replaces that of `f`. -/
theorem not_cacheCorrect : ¬ CacheCorrect := by
  intro correct
  obtain ⟨log, s, next, received, run, hit, wrong⟩ :=
    hit_of_exec [nameRound 102 49, nameRound 103 50] (nameRound 102 49)
      [1, 102] (digitText 50)
      (fun log => lastCarried [1, 102] log = some (digitText 49))
      (by decide +kernel)
  have carried := correct _ _ _ _ _ _ _ _ _ _ _ run hit
  rw [of_decide_eq_true wrong] at carried
  exact absurd carried (by decide)

end Example

end NodeIdentity
