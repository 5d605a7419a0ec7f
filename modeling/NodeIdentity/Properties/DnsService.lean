import NodeIdentity.Properties.FqdnCache
import NodeIdentity.DnsLayout

/-!
# The service loop of the DNS handler

Which rounds the handler gets through.  A text that is not two addresses ends
the loop, and so does a name of the table once the array of answers has been
cleared; records which do not lie inside the buffer make it leave its arrays.
-/

namespace NodeIdentity

open NodeIdentity.Library

/-- No call on a socket fails in the round. -/
structure DnsInput.Sound (input : DnsInput) : Prop where
  query : input.query.isSome
  response : input.response.isSome
  replied : input.replied = true

/-- The handler is still in its loop after these rounds. -/
def Survives (start : DnsSystem) (inputs : List DnsInput) : Prop :=
  ∃ log s, dnsMachine.Run start inputs log s ∧ s.handler.running = true

def HandlerSurvives : Prop :=
  ∀ (buffer : DnsBuffer) (ansAns : NameBuffer) (nm : NidMapper)
    (inputs : List DnsInput), (∀ input ∈ inputs, input.Sound) →
      Survives (dnsStart buffer ansAns nm) inputs

/-- The text is two addresses. -/
structure NidsText.Proper (text : NidsText) : Prop where
  nid : (inetPton6 text.nid).isSome
  nidr : (inetPton6 text.nidr).isSome

theorem resolveNids_isSome_iff (nm : NidMapper) {text : NidsText} :
    (∃ resolved, resolveNids text nm = some resolved) ↔ text.Proper := by
  simp only [resolveNids, Option.bind_eq_bind, Option.bind_eq_some_iff,
    Option.pure_def, Option.some.injEq]
  constructor
  · rintro ⟨_, nid, first, nidr, second, _⟩
    exact ⟨Option.isSome_iff_exists.mpr ⟨nid, first⟩,
      Option.isSome_iff_exists.mpr ⟨nidr, second⟩⟩
  · rintro ⟨first, second⟩
    obtain ⟨nid, first⟩ := Option.isSome_iff_exists.mp first
    obtain ⟨nidr, second⟩ := Option.isSome_iff_exists.mp second
    exact ⟨_, nid, first, nidr, second, rfl⟩

theorem not_proper_noText : ¬ noText.Proper := by
  intro proper
  have first := proper.nid
  rw [noText, inetPton6_nil] at first
  cases first

/-- The text in the answer, where `get_nids` looks for it. -/
def responseText (buf : DnsBuffer) (name : List UInt8) : NidsText :=
  let data := buf.slice (30 + name.length) (buf.answerLength name - 1)
  { nid := cstringOf (data.take nidcharMaxLength)
    nidr := cstringOf
      ((data.drop (nidcharMaxLength + 1)).take nidcharMaxLength) }

theorem cstringOf_zeros (data : List UInt8) (zeros count : Nat) :
    cstringOf ((data ++ List.replicate zeros 0).take count) =
      cstringOf (data.take count) := by
  have cleared : ∀ length, (List.replicate length (0 : UInt8)).takeWhile
      (· ≠ 0) = [] := by
    intro length
    cases length with
    | zero => rfl
    | succ => rfl
  rw [cstringOf, cstringOf, List.take_append, List.take_replicate]
  induction data.take count with
  | nil => exact cleared _
  | cons byte data ih =>
      rw [List.cons_append, List.takeWhile_cons, List.takeWhile_cons, ih]

theorem copyName_eq (buf : DnsBuffer) {offset count : Nat}
    (inside : offset + count ≤ bufferLength) (short : count ≤ nameLen) :
    ∃ array, copyName buf offset count = some array ∧
      array.bytes =
        buf.slice offset count ++ List.replicate (nameLen - count) 0 := by
  have length := Buffer.length_slice buf inside
  have read : buf.read offset count = some (buf.slice offset count) :=
    Buffer.read_eq_some_iff.mpr ⟨inside, rfl⟩
  obtain ⟨array, written, _⟩ := Buffer.exists_write (Buffer.zero nameLen)
    (show 0 + (buf.slice offset count).length ≤ nameLen by omega)
  refine ⟨array, ?_, ?_⟩
  · rw [copyName, read]
    exact written
  · rw [Buffer.bytes_of_write written, List.take_zero, List.nil_append,
      Buffer.zero, List.drop_replicate, length, Nat.zero_add]

theorem copyName_isSome_iff (buf : DnsBuffer) {offset count : Nat} :
    (∃ array, copyName buf offset count = some array) ↔
      offset + count ≤ bufferLength ∧ count ≤ nameLen := by
  constructor
  · rintro ⟨array, copied⟩
    obtain ⟨data, read, written⟩ := Option.bind_eq_some_iff.mp copied
    obtain ⟨inside, rfl⟩ := Buffer.read_eq_some_iff.mp read
    have fits := Buffer.fits_of_write written
    rw [Buffer.length_slice buf inside] at fits
    exact ⟨inside, by omega⟩
  · rintro ⟨inside, short⟩
    obtain ⟨array, copied, _⟩ := copyName_eq buf inside short
    exact ⟨array, copied⟩

theorem getNids_copyName {buf : DnsBuffer} {name : List UInt8}
    {answerAns : NameBuffer}
    (copied : copyName buf (30 + name.length) (buf.answerLength name - 1) =
      some answerAns) :
    getNids answerAns = responseText buf name := by
  obtain ⟨inside, short⟩ := (copyName_isSome_iff buf).mp ⟨answerAns, copied⟩
  obtain ⟨array, again, bytes⟩ := copyName_eq buf inside short
  cases again.symm.trans copied
  rw [getNids, responseText, bytes, cstringOf_zeros, List.drop_append,
    List.drop_replicate, cstringOf_zeros]

/-- Both records lie inside the arrays, and neither of their lengths is
zero. -/
structure RecordsFit (buf : DnsBuffer) (name : List UInt8) : Prop where
  answer : 0 < buf.answerLength name
  answerShort : buf.answerLength name ≤ nameLen + 1
  authority : 0 < buf.nsLength name
  authorityShort : buf.nsLength name ≤ nameLen + 1
  records : 13 + name.length + 28 + buf.answerLength name + buf.nsLength name ≤
    bufferLength

theorem analyseRecords_of_eq {buf : DnsBuffer} {name : List UInt8}
    {answerAns nsNs : NameBuffer}
    (analysed : analyseRecords buf name.length = some (answerAns, nsNs)) :
    RecordsFit buf name ∧ getNids answerAns = responseText buf name := by
  have question : 1 + dnshdrLen + name.length = 13 + name.length := rfl
  have answer : dnshdrLen + name.length + 18 = 30 + name.length := by
    rw [dnshdrLen]
    omega
  rw [analyseRecords, question, answer] at analysed
  obtain ⟨_, read, analysed⟩ := Option.bind_eq_some_iff.mp analysed
  obtain ⟨_, rfl⟩ := Buffer.read16_eq_some_iff.mp read
  rw [← DnsBuffer.answerLength] at analysed
  split at analysed
  · cases analysed
  · next answered =>
      obtain ⟨array, copied, analysed⟩ := Option.bind_eq_some_iff.mp analysed
      obtain ⟨_, read, analysed⟩ := Option.bind_eq_some_iff.mp analysed
      rw [show 13 + name.length + 26 + buf.answerLength name =
        13 + name.length + 16 + buf.answerLength name + 10 by omega] at read
      obtain ⟨_, rfl⟩ := Buffer.read16_eq_some_iff.mp read
      rw [← DnsBuffer.nsLength] at analysed
      split at analysed
      · cases analysed
      · next delegated =>
          obtain ⟨second, copied', analysed⟩ :=
            Option.bind_eq_some_iff.mp analysed
          cases analysed
          obtain ⟨_, short⟩ := (copyName_isSome_iff buf).mp ⟨_, copied⟩
          obtain ⟨inside, short'⟩ := (copyName_isSome_iff buf).mp ⟨_, copied'⟩
          rw [dnshdrLen] at inside
          exact ⟨⟨by omega, by omega, by omega, by omega, by omega⟩,
            getNids_copyName copied⟩

theorem RecordsFit.analysed {buf : DnsBuffer} {name : List UInt8}
    (fits : RecordsFit buf name) :
    ∃ answerAns nsNs,
      analyseRecords buf name.length = some (answerAns, nsNs) := by
  obtain ⟨answer, answerShort, authority, authorityShort, records⟩ := fits
  have question : 1 + dnshdrLen + name.length = 13 + name.length := rfl
  have fields : 13 + name.length + 26 + buf.answerLength name =
      13 + name.length + 16 + buf.answerLength name + 10 := by omega
  have answerRead : buf.read16 (13 + name.length + 14) =
      some (buf.answerLength name) :=
    Buffer.read16_eq_some_iff.mpr ⟨by omega, rfl⟩
  have nsRead : buf.read16 (13 + name.length + 16 + buf.answerLength name + 10) =
      some (buf.nsLength name) :=
    Buffer.read16_eq_some_iff.mpr ⟨by omega, rfl⟩
  obtain ⟨answerAns, first⟩ := (copyName_isSome_iff buf).mpr
    (show dnshdrLen + name.length + 18 + (buf.answerLength name - 1) ≤
      bufferLength ∧ buf.answerLength name - 1 ≤ nameLen by
        rw [dnshdrLen]
        omega)
  obtain ⟨nsNs, second⟩ := (copyName_isSome_iff buf).mpr
    (show dnshdrLen + name.length + 30 + buf.answerLength name +
      (buf.nsLength name - 1) ≤ bufferLength ∧
        buf.nsLength name - 1 ≤ nameLen by
        rw [dnshdrLen]
        omega)
  refine ⟨answerAns, nsNs, ?_⟩
  rw [analyseRecords, question]
  simp only [answerRead, Option.bind_eq_bind, Option.bind_some,
    if_neg answer.ne', first, fields, nsRead, if_neg authority.ne', second]
  rfl

theorem analyseDnsResponse_eq {buf : DnsBuffer} {name : List UInt8}
    (named : DnsBuffer.queryName buf = some name) : ∃ queryName,
      analyseDnsResponse buf =
        if buf.rcode = 0 then
          (analyseRecords buf name.length).map fun records =>
            (⟨queryName, records.1, records.2⟩, true)
        else
          some (⟨queryName, Buffer.zero nameLen, Buffer.zero nameLen⟩,
            false) := by
  have short := (DnsBuffer.queryName_eq_some_iff.mp named).2.1
  obtain ⟨queryName, stored, _⟩ := Buffer.exists_write (Buffer.zero nameLen)
    (show 0 + name.length ≤ nameLen by omega)
  refine ⟨queryName, ?_⟩
  simp only [analyseDnsResponse, named, stored, Option.bind_eq_bind,
    Option.bind_some]
  split
  · cases analyseRecords buf name.length with
    | none => rfl
    | some records => rfl
  · rfl

/-- A successful response the handler gets through: its records lie inside the
arrays, and its text is two addresses. -/
structure ResponseUsable (buf : DnsBuffer) (name : List UInt8)
    (queryType : Nat) : Prop where
  answer : 0 < buf.answerLength name
  answerShort : buf.answerLength name ≤ nameLen + 1
  authority : 0 < buf.nsLength name
  fits : ResponseFits buf name queryType
  text : (responseText buf name).Proper

theorem ResponseUsable.recordsFit {buf : DnsBuffer} {name : List UInt8}
    {queryType : Nat} (usable : ResponseUsable buf name queryType) :
    RecordsFit buf name :=
  { answer := usable.answer
    answerShort := usable.answerShort
    authority := usable.authority
    authorityShort := usable.fits.short.trans (Nat.le_succ _)
    records := usable.fits.records }

/-- The name in the response ends in time, and if the response is successful
it can be used. -/
def ResponseServed (buf : DnsBuffer) (queryType : Nat) : Prop :=
  ∃ name, DnsBuffer.queryName buf = some name ∧
    (buf.rcode = 0 → ResponseUsable buf name queryType)

/-- The name in the query ends in time.  If it is in the table, the last
response of the name server was successful, whatever name it was for; if it is
not, the response is one the handler gets through. -/
def RoundServed (s : DnsHandler) (log : List DnsLog) (input : DnsInput) :
    Prop :=
  ∀ query ∈ input.query, ∀ response ∈ input.response,
    ∃ buffer fqdn queryType,
      modifyDnsQuery (s.buffer.receive query) =
        some (buffer, fqdn, queryType) ∧
      ((lastAnswer fqdn log).isSome → (lastReceived log).isSome) ∧
      (lastAnswer fqdn log = none →
        ResponseServed (buffer.receive response) queryType)

def Continues (round : Option DnsRound) : Prop :=
  ∃ result, round = some result ∧ result.state.running = true

theorem continues_dnsHit_iff (input : DnsInput) (fqdn : List UInt8)
    (queryType : Nat) (ref : TextRef) (s : DnsHandler) (nm : NidMapper)
    {name : List UInt8} (replied : input.replied = true)
    (running : s.running = true)
    (named : DnsBuffer.queryName s.buffer = some name) :
    Continues (dnsHit input fqdn queryType ref s nm) ↔
      (getNids (s.deref ref)).Proper := by
  rw [← resolveNids_isSome_iff nm, dnsHit]
  cases resolved : resolveNids (getNids (s.deref ref)) nm with
  | none =>
      constructor
      · rintro ⟨round, result, continued⟩
        cases result
        cases continued
      · rintro ⟨nids, found⟩
        cases found
  | some nids =>
      obtain ⟨next, built, _⟩ := buildDnsResponseWithFqdnTable_layout named
        (dnsNid32 nids.nid) nids.nid queryType
      refine iff_of_true ?_ ⟨nids, rfl⟩
      simp only [built, replied, if_true, Option.bind_eq_bind,
        Option.bind_some]
      exact ⟨_, rfl, running⟩

/-- What becomes of a round with a successful response, once its records are
read: the loop ends with a text that is not two addresses, or with a reply that
cannot be sent, or the edited response is the reply. -/
inductive FreshRound (input : DnsInput) (fqdn : List UInt8) (queryType rc : Nat)
    (s : DnsHandler) (nm : NidMapper) : DnsRound → Prop where
  | unresolved : resolveNids (getNids s.ansAns) nm = none →
      FreshRound input fqdn queryType rc s nm
        (dnsBreak s nm (.success fqdn (getNids s.ansAns)))
  | unsent {nids : Resolved} {next : DnsBuffer} :
      resolveNids (getNids s.ansAns) nm = some nids →
      buildDnsResponse s.buffer (dnsNid32 nids.nid) nids.nid queryType =
        some next →
      input.replied = false →
      FreshRound input fqdn queryType rc s nm
        (dnsBreak { s with buffer := next } nids.nm
          (.success fqdn (getNids s.ansAns)))
  | replied {nids : Resolved} {next : DnsBuffer} :
      resolveNids (getNids s.ansAns) nm = some nids →
      buildDnsResponse s.buffer (dnsNid32 nids.nid) nids.nid queryType =
        some next →
      input.replied = true →
      FreshRound input fqdn queryType rc s nm
        ⟨{ s with buffer := next }, nids.nm, .success fqdn (getNids s.ansAns),
          some ⟨fqdn, queryType, nids.nid⟩, some (next.bytes.take rc)⟩

/-- The handler after a successful response, before it reads the text. -/
def freshHandler (s : DnsHandler) (fqdn : List UInt8) (buffer : DnsBuffer)
    (ansAns : NameBuffer) : DnsHandler :=
  { s with
    buffer := buffer
    ansAns := ansAns
    fqdnTable := newFQDNTEntry fqdn .ansAns s.fqdnTable }

section Miss

variable {input : DnsInput} {fqdn response name : List UInt8}
  {queryType : Nat} {s : DnsHandler} {nm : NidMapper} {round : DnsRound}

theorem dnsMiss_success_iff
    (named : DnsBuffer.queryName (s.buffer.receive response) = some name)
    (success : DnsBuffer.rcode (s.buffer.receive response) = 0) :
    dnsMiss input fqdn queryType response s nm = some round ↔
      ∃ answerAns nsNs,
        analyseRecords (s.buffer.receive response) name.length =
          some (answerAns, nsNs) ∧
        FreshRound input fqdn queryType (Buffer.received bufferLength response)
          (freshHandler s fqdn (s.buffer.receive response) answerAns) nm
          round := by
  obtain ⟨queryName, analysed⟩ := analyseDnsResponse_eq named
  rw [if_pos success] at analysed
  rw [dnsMiss]
  generalize Buffer.receive s.buffer response = buffer at *
  cases records : analyseRecords buffer name.length with
  | none =>
      rw [records, Option.map_none] at analysed
      simp only [analysed, Option.bind_eq_bind, Option.bind_none]
      constructor
      · intro result
        cases result
      · rintro ⟨_, _, wrong, _⟩
        cases wrong
  | some arrays =>
      rw [records, Option.map_some] at analysed
      simp only [analysed, Option.bind_eq_bind, Option.bind_some, if_true]
      cases resolved : resolveNids (getNids arrays.1) nm with
      | none =>
          constructor
          · intro result
            cases result
            exact ⟨_, _, rfl, .unresolved resolved⟩
          · rintro ⟨_, _, found, effect⟩
            cases found
            cases effect with
            | unresolved => rfl
            | unsent other => cases resolved.symm.trans other
            | replied other => cases resolved.symm.trans other
      | some nids =>
          simp only [Option.bind_eq_some_iff]
          constructor
          · rintro ⟨next, built, ended⟩
            refine ⟨_, _, rfl, ?_⟩
            split at ended
            · next replied =>
                cases ended
                exact .replied resolved built replied
            · next unsent =>
                cases ended
                exact .unsent resolved built (Bool.not_eq_true _ ▸ unsent)
          · rintro ⟨_, _, found, effect⟩
            cases found
            cases effect with
            | unresolved other => cases resolved.symm.trans other
            | unsent same built unsent =>
                cases resolved.symm.trans same
                exact ⟨_, built, by rw [unsent]; rfl⟩
            | replied same built replied =>
                cases resolved.symm.trans same
                exact ⟨_, built, by rw [replied]; rfl⟩

/-- The round in which the edited response `next` is sent. -/
def repliedRound (s : DnsHandler) (fqdn : List UInt8) (queryType rc : Nat)
    (text : NidsText) (ansAns : NameBuffer) (nids : Resolved)
    (next : DnsBuffer) : DnsRound :=
  ⟨freshHandler s fqdn next ansAns, nids.nm, .success fqdn text,
    some ⟨fqdn, queryType, nids.nid⟩, some (next.bytes.take rc)⟩

theorem usable_of_reply
    (named : DnsBuffer.queryName (s.buffer.receive response) = some name)
    (success : DnsBuffer.rcode (s.buffer.receive response) = 0)
    (result : dnsMiss input fqdn queryType response s nm = some round)
    (sent : round.reply ≠ none) :
    ResponseUsable (s.buffer.receive response) name queryType ∧
      ∃ ansAns nids next,
        resolveNids (responseText (s.buffer.receive response) name) nm =
          some nids ∧
        buildDnsResponse (s.buffer.receive response) (dnsNid32 nids.nid)
          nids.nid queryType = some next ∧
        input.replied = true ∧
        round = repliedRound s fqdn queryType
          (Buffer.received bufferLength response)
          (responseText (s.buffer.receive response) name) ansAns nids next := by
  obtain ⟨answerAns, nsNs, records, effect⟩ :=
    (dnsMiss_success_iff named success).mp result
  obtain ⟨⟨answer, answerShort, authority, _, _⟩, text⟩ :=
    analyseRecords_of_eq records
  cases effect with
  | unresolved => exact (sent rfl).elim
  | unsent => exact (sent rfl).elim
  | @replied nids next resolved built replied =>
      rw [freshHandler, text] at resolved
      constructor
      · exact ⟨answer, answerShort, authority,
          (buildDnsResponse_isSome_iff named _ _).mp ⟨next, built⟩,
          (resolveNids_isSome_iff nm).mp ⟨nids, resolved⟩⟩
      · refine ⟨answerAns, nids, next, resolved, built, replied, ?_⟩
        rw [← text]
        rfl

theorem ResponseUsable.replied (input : DnsInput) (fqdn : List UInt8)
    (nm : NidMapper)
    (usable : ResponseUsable (s.buffer.receive response) name queryType)
    (named : DnsBuffer.queryName (s.buffer.receive response) = some name)
    (success : DnsBuffer.rcode (s.buffer.receive response) = 0)
    (replied : input.replied = true) :
    ∃ ansAns nids next,
      resolveNids (responseText (s.buffer.receive response) name) nm =
        some nids ∧
      buildDnsResponse (s.buffer.receive response) (dnsNid32 nids.nid)
        nids.nid queryType = some next ∧
      dnsMiss input fqdn queryType response s nm = some (repliedRound s fqdn
        queryType (Buffer.received bufferLength response)
        (responseText (s.buffer.receive response) name) ansAns nids next) := by
  obtain ⟨answerAns, nsNs, records⟩ := usable.recordsFit.analysed
  obtain ⟨_, text⟩ := analyseRecords_of_eq records
  obtain ⟨nids, resolved⟩ := (resolveNids_isSome_iff nm).mpr usable.text
  obtain ⟨next, built⟩ := (buildDnsResponse_isSome_iff named
    (dnsNid32 nids.nid) nids.nid).mpr usable.fits
  refine ⟨answerAns, nids, next, resolved, built, ?_⟩
  apply (dnsMiss_success_iff named success).mpr
  refine ⟨answerAns, nsNs, records, ?_⟩
  rw [← text] at resolved ⊢
  exact .replied resolved built replied

end Miss

theorem continues_dnsMiss_iff (input : DnsInput) (fqdn : List UInt8)
    (queryType : Nat) (response : List UInt8) (s : DnsHandler) (nm : NidMapper)
    (replied : input.replied = true) (running : s.running = true) :
    Continues (dnsMiss input fqdn queryType response s nm) ↔
      ResponseServed (s.buffer.receive response) queryType := by
  rw [ResponseServed]
  cases named : DnsBuffer.queryName (s.buffer.receive response) with
  | none =>
      constructor
      · rintro ⟨round, result, _⟩
        obtain ⟨⟨answer, success⟩, analysed, _⟩ :=
          Option.bind_eq_some_iff.mp result
        rw [analyseDnsResponse, named] at analysed
        cases analysed
      · rintro ⟨name, found, _⟩
        cases found
  | some name =>
      simp only [Option.some.injEq, exists_eq_left']
      by_cases success : DnsBuffer.rcode (s.buffer.receive response) = 0
      · simp only [success, forall_const]
        constructor
        · rintro ⟨round, result, continued⟩
          have sent : round.reply ≠ none := by
            obtain ⟨_, _, _, effect⟩ :=
              (dnsMiss_success_iff named success).mp result
            cases effect with
            | unresolved => cases continued
            | unsent => cases continued
            | replied => exact Option.some_ne_none _
          exact (usable_of_reply named success result sent).1
        · intro usable
          obtain ⟨_, _, _, _, _, result⟩ :=
            usable.replied input fqdn nm named success replied
          exact ⟨_, result, running⟩
      · obtain ⟨queryName, analysed⟩ := analyseDnsResponse_eq named
        rw [if_neg success] at analysed
        refine iff_of_true ?_ fun wrong => (success wrong).elim
        simp only [dnsMiss, analysed, replied, Option.bind_eq_bind,
          Option.bind_some, Bool.false_eq_true, if_false, if_true]
        exact ⟨_, rfl, running⟩

theorem proper_of_run {buffer : DnsBuffer} {ansAns : NameBuffer}
    {nm : NidMapper} {inputs : List DnsInput} {log : List DnsLog}
    {s : DnsSystem}
    (run : dnsMachine.Run (dnsStart buffer ansAns nm) inputs log s)
    (running : s.handler.running = true) :
    ∀ text, lastReceived log = some text → text.Proper := by
  induction run with
  | nil =>
      intro text received
      cases received
  | snoc _ last ih =>
      obtain ⟨before, round, effect, next, rfl⟩ := dnsMachine_step last
      rw [next] at running
      intro text received
      rw [lastReceived_snoc] at received
      cases effect with
      | silent _ stopped => cases stopped.symm.trans running
      | hit _ logged =>
          rw [logged] at received
          exact ih before text received
      | success logged _ effect =>
          rw [logged] at received
          cases received
          cases effect with
          | unresolved _ stopped => cases stopped.symm.trans running
          | resolved result => exact (resolveNids_isSome_iff _).mp ⟨_, result⟩
      | failure logged =>
          rw [logged] at received
          cases received

/-- The text for a name of the table is proper exactly if the last response
was successful, whatever name it was for. -/
theorem cached_proper_iff {s : DnsHandler} {log : List DnsLog}
    (remembers : Remembers s log)
    (proper : ∀ text, lastReceived log = some text → text.Proper)
    {fqdn : List UInt8} (cached : (lastAnswer fqdn log).isSome)
    (ref : TextRef) :
    (getNids (s.deref ref)).Proper ↔ (lastReceived log).isSome := by
  have array : getNids (s.deref ref) = (lastReceived log).getD noText := by
    cases ref
    exact remembers.array fqdn cached
  rw [array]
  cases received : lastReceived log with
  | none => exact iff_of_false not_proper_noText Bool.false_ne_true
  | some text => exact iff_of_true (proper text received) rfl

theorem continues_iff_served {s : DnsHandler} (nm : NidMapper)
    {log : List DnsLog} {input : DnsInput} (sound : input.Sound)
    (running : s.running = true) (remembers : Remembers s log)
    (proper : ∀ text, lastReceived log = some text → text.Proper) :
    Continues (threadDnshandler input s nm) ↔ RoundServed s log input := by
  obtain ⟨query, asked⟩ := Option.isSome_iff_exists.mp sound.query
  obtain ⟨response, answered⟩ := Option.isSome_iff_exists.mp sound.response
  simp only [threadDnshandler, RoundServed, asked, answered, Option.mem_def,
    Option.some.injEq, forall_eq', Option.bind_eq_bind]
  cases named : DnsBuffer.queryName (s.buffer.receive query) with
  | none =>
      have unknown : modifyDnsQuery (s.buffer.receive query) = none := by
        rw [← Option.not_isSome_iff_eq_none, modifyDnsQuery_isSome_iff, named]
        exact Bool.false_ne_true
      rw [unknown]
      constructor
      · rintro ⟨round, result, _⟩
        cases result
      · rintro ⟨buffer, fqdn, queryType, modified, _⟩
        cases modified
  | some fqdn =>
      obtain ⟨buffer, modified, named', _⟩ := modifyDnsQuery_eq named
      generalize Buffer.word16 _ = queryType at modified
      simp only [modified, Option.bind_some]
      have table := remembers.table fqdn
      cases known : getNIDsbyName fqdn s.fqdnTable with
      | some ref =>
          rw [known, Option.isSome_some] at table
          have cached := table.symm
          have hit := continues_dnsHit_iff input fqdn queryType ref
            { s with buffer := buffer } nm sound.replied running named'
          have same : DnsHandler.deref { s with buffer := buffer } ref =
            s.deref ref := by
              cases ref
              rfl
          rw [hit, same, cached_proper_iff remembers proper cached]
          constructor
          · intro successful
            refine ⟨buffer, fqdn, queryType, rfl, fun _ => successful, ?_⟩
            intro uncached
            rw [uncached] at cached
            cases cached
          · rintro ⟨_, _, _, equal, served, _⟩
            cases equal
            exact served cached
      | none =>
          rw [known, Option.isSome_none] at table
          have uncached : lastAnswer fqdn log = none := by
            rw [← Option.not_isSome_iff_eq_none, ← table]
            exact Bool.false_ne_true
          have miss := continues_dnsMiss_iff input fqdn queryType response
            { s with buffer := buffer } nm sound.replied running
          dsimp only
          rw [miss]
          constructor
          · intro served
            refine ⟨buffer, fqdn, queryType, rfl, ?_, fun _ => served⟩
            intro cached
            rw [uncached] at cached
            cases cached
          · rintro ⟨_, _, _, equal, _, served⟩
            cases equal
            exact served uncached

/-- Every round is one the handler gets through, where it comes. -/
def AllServed (start : DnsSystem) (inputs : List DnsInput) : Prop :=
  ∀ before input after log s, inputs = before ++ input :: after →
    dnsMachine.Run start before log s → s.handler.running = true →
      RoundServed s.handler log input

/-- The handler survives exactly if it gets through every round. -/
theorem survives_iff_allServed {buffer : DnsBuffer} {ansAns : NameBuffer}
    {nm : NidMapper} {inputs : List DnsInput}
    (sound : ∀ input ∈ inputs, input.Sound) :
    Survives (dnsStart buffer ansAns nm) inputs ↔
      AllServed (dnsStart buffer ansAns nm) inputs := by
  apply Machine.completes_iff
  · rfl
  · intro state next event output stepped
    exact (dnsMachine_step stepped).1
  · intro before log s input member run running
    have remembers := remembers_of_run run running
    rw [← continues_iff_served s.nm (sound input member) running
      remembers (proper_of_run run running), Continues]
    simp only [dnsMachine, running, if_true]
    constructor
    · rintro ⟨next, entry, stepped, continued⟩
      obtain ⟨round, result, pair⟩ := Option.map_eq_some_iff.mp stepped
      cases pair
      exact ⟨round, result, continued⟩
    · rintro ⟨round, result, continued⟩
      exact ⟨_, _, by rw [result]; rfl, continued⟩

theorem sound_letterRound (letter digit : UInt8) :
    (letterRound letter digit).Sound := ⟨rfl, rfl, rfl⟩

private theorem ended_of_exec (inputs : List DnsInput) (running : Bool)
    (found : (dnsMachine.exec freshDns inputs).any
      (fun result => result.1.handler.running == running) = true) :
    ∃ log s, dnsMachine.Run freshDns inputs log s ∧
      s.handler.running = running := by
  obtain ⟨log, s, run, ended⟩ := Machine.exists_run_of_exec found
  exact ⟨log, s, run, eq_of_beq ended⟩

/-- A name which is asked for twice. -/
theorem allServed_twice :
    AllServed freshDns [letterRound 102 49, letterRound 102 49] := by
  apply (survives_iff_allServed ?_).mp
  · exact ended_of_exec _ true (by decide +kernel)
  · intro input member
    rcases List.mem_cons.mp member with rfl | member
    · exact sound_letterRound 102 49
    · cases List.mem_singleton.mp member
      exact sound_letterRound 102 49

/-- A text which ends in a letter is no address, and ends the loop. -/
theorem not_handlerSurvives : ¬ HandlerSurvives := by
  intro survives
  obtain ⟨log, s, run, stopped⟩ :=
    ended_of_exec [letterRound 102 120] false (by decide +kernel)
  obtain ⟨log', s', run', running⟩ :=
    survives (Buffer.zero bufferLength) (Buffer.zero nameLen)
      (initNidMapper true) [letterRound 102 120] fun input member => by
        cases List.mem_singleton.mp member
        exact sound_letterRound 102 120
  obtain ⟨_, rfl⟩ := run.unique run'
  rw [stopped] at running
  cases running

end NodeIdentity
