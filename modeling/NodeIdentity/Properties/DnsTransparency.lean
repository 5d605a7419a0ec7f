import NodeIdentity.Library.DnsMessage
import NodeIdentity.Properties.DnsService

/-!
# Queries which are not for an address

Such a query should pass through the handler, and the response too.  But the
handler looks for the name in its table before it looks at the type, and takes
every successful response for one with two NIDs.
-/

namespace NodeIdentity

open NodeIdentity.Library NodeIdentity.Library.DnsWire

/-- A query for this name, of a type which is not that of an address. -/
structure OtherQuery (query name : List UInt8) (queryType : Nat) : Prop where
  proper : 0 ∉ name
  short : name.length < nameLen
  below : queryType < 65536
  asked : (name ++ [0]) ++ htons queryType <+: query.drop dnshdrLen
  other : ¬ (queryType = typeA ∨ queryType = typeAAAA)

/-- The two NIDs in the data of a text record, as `get_nids` cuts them out. -/
def recordText (record : WireRecord) : NidsText :=
  let data := record.data.drop 1
  { nid := cstringOf (data.take nidcharMaxLength)
    nidr := cstringOf
      ((data.drop (nidcharMaxLength + 1)).take nidcharMaxLength) }

/-- The first answer of the response is a text of two NIDs. -/
def HoldsNids (response : List UInt8) : Prop :=
  ∃ record, firstAnswer response = some record ∧ record.type = typeTXT ∧
    (recordText record).Proper

def exchange (query response : List UInt8) : DnsInput :=
  ⟨some query, some response, true⟩

/-- The name server gets the query, and the client the response; nothing is
learned but from a text of two NIDs. -/
structure Transparent (query response : List UInt8) (s : DnsHandler)
    (nm : NidMapper) : Prop where
  upstream : serverQuery (exchange query response) s = some query
  downstream : ∃ round,
    threadDnshandler (exchange query response) s nm = some round ∧
    round.reply = some response ∧
    (¬ HoldsNids response →
      round.state.fqdnTable = s.fqdnTable ∧ round.nm = nm)

/-- The handler is transparent for all types but those of addresses. -/
def TypesTransparent : Prop :=
  ∀ query name queryType response s nm, OtherQuery query name queryType →
    Transparent query response s nm

/-- Behind the authority are zeros, as far as an array of names goes. -/
def ZerosBehind (buf : DnsBuffer) (name : List UInt8) (rc : Nat) : Prop :=
  let behind := 13 + name.length + 28 + buf.answerLength name +
    buf.nsLength name
  ∀ index < rc, behind ≤ index →
    index < 13 + name.length + 28 + buf.answerLength name + nameLen →
      buf.slice index 1 = [0]

/-- A successful response is for a text of two NIDs, its records fit, and if it
repeats the question for the text there are zeros behind them. -/
structure TextPasses (buf : DnsBuffer) (name response : List UInt8)
    (queryType : Nat) : Prop where
  usable : ResponseUsable buf name queryType
  learns : HoldsNids response
  zeros : Buffer.word16 (buf.slice (13 + name.length) 2) = typeTXT →
    ZerosBehind buf name response.length

/-- The messages fit the buffer, the name asked for is not in the table, and
the response has a name which ends in time, and is unsuccessful or one of two
NIDs. -/
structure Passes (query name : List UInt8) (queryType : Nat)
    (response : List UInt8) (s : DnsHandler) : Prop where
  queryFits : query.length ≤ bufferLength
  responseFits : response.length ≤ bufferLength
  unknown : getNIDsbyName name s.fqdnTable = none
  answered : ∃ answer,
    DnsBuffer.queryName ((s.buffer.receive query).receive response) =
      some answer ∧
    (DnsBuffer.rcode ((s.buffer.receive query).receive response) = 0 →
      TextPasses ((s.buffer.receive query).receive response) answer response
        queryType)

section Query

variable {query name response : List UInt8} {queryType : Nat}
  {s : DnsHandler} {nm : NidMapper}

theorem OtherQuery.modified (asked : OtherQuery query name queryType)
    (s : DnsHandler) :
    modifyDnsQuery (s.buffer.receive query) =
      some (s.buffer.receive query, name, queryType) := by
  have names : nameLen = 256 := rfl
  have short := asked.short
  have length : ((name ++ [0]) ++ htons queryType).length =
      name.length + 3 := by
    simp only [List.length_append, List.length_singleton, length_htons]
  have found := Buffer.prefix_receive s.buffer asked.asked (by
    rw [length, dnshdrLen, bufferLength]
    omega)
  obtain ⟨here, type⟩ := prefix_append found
  have question := Buffer.slice_eq_iff_prefix.mpr here
  have asks := Buffer.slice_eq_iff_prefix.mpr type
  rw [List.length_append, List.length_singleton] at question asks
  have named : DnsBuffer.queryName (s.buffer.receive query) = some name :=
    DnsBuffer.queryName_eq_some_iff.mpr ⟨asked.proper, short, question⟩
  have place : dnshdrLen + (name.length + 1) = questionAt name := by
    rw [dnshdrLen, questionAt]
    omega
  rw [place, length_htons] at asks
  have word : Buffer.word16 ((s.buffer.receive query).slice (questionAt name)
      2) = queryType := by
    rw [asks, word16_htons asked.below]
  rw [modifyDnsQuery_of_other named (by rw [word]; exact asked.other), word]

theorem OtherQuery.serverQuery_eq (asked : OtherQuery query name queryType)
    (s : DnsHandler) :
    serverQuery (exchange query response) s = some query ↔
      query.length ≤ bufferLength ∧ getNIDsbyName name s.fqdnTable = none := by
  simp only [serverQuery, exchange, asked.modified s, Option.bind_eq_bind,
    Option.bind_some, Buffer.take_received]
  cases getNIDsbyName name s.fqdnTable with
  | some ref =>
      constructor
      · intro sent
        cases sent
      · rintro ⟨_, unknown⟩
        cases unknown
  | none =>
      simp only [Option.pure_def, Option.some.injEq, and_true]
      exact List.take_eq_self_iff query

theorem OtherQuery.round_eq (asked : OtherQuery query name queryType)
    (unknown : getNIDsbyName name s.fqdnTable = none) :
    threadDnshandler (exchange query response) s nm =
      dnsMiss (exchange query response) name queryType response
        { s with buffer := s.buffer.receive query } nm := by
  simp only [threadDnshandler, exchange, asked.modified s, unknown,
    Option.bind_eq_bind, Option.bind_some]

end Query

/-- An authority which stays at its place changes nothing exactly if there are
zeros already where zeros are written. -/
theorem AuthorityMoved.take_eq_iff {buf next : DnsBuffer}
    {ns length count : Nat}
    (moved : AuthorityMoved buf next ns (buf.slice ns 12)
      (buf.slice (ns + 12) length))
    (inside : ns + 12 + length ≤ bufferLength) :
    next.bytes.take count = buf.bytes.take count ↔
      ∀ index < count, ns + 12 + length ≤ index →
        index < ns + 12 + nameLen → buf.slice index 1 = [0] := by
  have read := Buffer.length_slice buf inside
  constructor
  · intro same index below behind cleared
    rw [← Buffer.slice_of_take_eq same below,
      moved.cleared _ _ (by omega) (by omega), List.replicate_one]
  · intro zeros
    apply Buffer.take_eq_of_slices
    intro index below
    by_cases before : index < ns
    · exact moved.front _ _ before
    · obtain ⟨index, rfl⟩ := Nat.exists_eq_add_of_le (not_lt.mp before)
      by_cases data : index < 12 + length
      · exact moved.byte inside data
      · by_cases cleared : index < 12 + nameLen
        · rw [moved.cleared _ _ (by omega) (by omega), List.replicate_one,
            zeros _ below (by omega) (by omega)]
        · exact moved.behind _ _ (by omega)

/-- For a type which is not that of an address only the clearing shows. -/
theorem buildDnsResponse_take_iff {buf next : DnsBuffer} {name : List UInt8}
    {queryType : Nat} (named : DnsBuffer.queryName buf = some name)
    (other : ¬ (queryType = typeA ∨ queryType = typeAAAA))
    (success : buf.rcode = 0) {nid32addr : NID32} {nidaddr : NID}
    (built : buildDnsResponse buf nid32addr nidaddr queryType = some next)
    (count : Nat) :
    next.bytes.take count = buf.bytes.take count ↔
      (Buffer.word16 (buf.slice (13 + name.length) 2) = typeTXT →
        ZerosBehind buf name count) := by
  by_cases text : Buffer.word16 (buf.slice (13 + name.length) 2) = typeTXT
  · have records := ((buildDnsResponse_isSome_iff named nid32addr nidaddr).mp
      ⟨next, built⟩).records
    obtain ⟨edited, answer, moved⟩ :=
      buildDnsResponse_edited named nid32addr nidaddr success text built
    obtain rfl := answer.other other
    have sent : sentLength queryType (edited.answerLength name) =
        edited.answerLength name := by
      rw [not_or] at other
      rw [sentLength, if_neg other.1, if_neg other.2]
    rw [sent] at moved
    rw [moved.take_eq_iff (by omega)]
    simp only [text, forall_const, ZerosBehind]
    have place : 13 + name.length + 28 + edited.answerLength name =
        13 + name.length + 16 + edited.answerLength name + 12 := by omega
    rw [place]
  · obtain rfl := buildDnsResponse_of_other named nid32addr nidaddr text built
    simp only [text, false_implies]

section Response

variable {query name response answer : List UInt8} {queryType : Nat}
  {s : DnsHandler} {nm : NidMapper}

theorem dnsMiss_of_failure (input : DnsInput) (fqdn : List UInt8)
    (nm : NidMapper)
    (named : DnsBuffer.queryName (s.buffer.receive response) = some answer)
    (failed : DnsBuffer.rcode (s.buffer.receive response) ≠ 0)
    (replied : input.replied = true) :
    ∃ round, dnsMiss input fqdn queryType response s nm = some round ∧
      round.reply = some (response.take bufferLength) ∧
      round.state.fqdnTable = s.fqdnTable ∧ round.nm = nm := by
  obtain ⟨queryName, analysed⟩ := analyseDnsResponse_eq named
  rw [if_neg failed] at analysed
  simp only [dnsMiss, analysed, replied, Option.bind_eq_bind,
    Option.bind_some, Bool.false_eq_true, if_false, if_true,
    Buffer.take_received]
  exact ⟨_, rfl, rfl, rfl, rfl⟩

theorem length_reply_le {input : DnsInput} {fqdn reply : List UInt8}
    {round : DnsRound}
    (result : dnsMiss input fqdn queryType response s nm = some round)
    (named : DnsBuffer.queryName (s.buffer.receive response) = some answer)
    (sent : round.reply = some reply) : reply.length ≤ bufferLength := by
  have cut : ∀ buf : DnsBuffer, (buf.bytes.take
      (Buffer.received bufferLength response)).length ≤ bufferLength := by
    intro buf
    exact (List.length_take_le' _ _).trans_eq buf.length_bytes
  by_cases success : DnsBuffer.rcode (s.buffer.receive response) = 0
  · obtain ⟨_, _, _, next, _, _, _, rfl⟩ := usable_of_reply named success
      result (by rw [sent]; exact Option.some_ne_none _)
    cases sent
    exact cut next
  · obtain ⟨queryName, analysed⟩ := analyseDnsResponse_eq named
    rw [if_neg success] at analysed
    simp only [dnsMiss, analysed, Option.bind_eq_bind, Option.bind_some,
      Bool.false_eq_true, if_false] at result
    split at result
    · cases result
      cases sent
      exact cut _
    · cases result
      cases sent

theorem OtherQuery.textPasses (asked : OtherQuery query name queryType)
    {round : DnsRound} (fits : response.length ≤ bufferLength)
    (unknown : getNIDsbyName name s.fqdnTable = none)
    (named : DnsBuffer.queryName (s.buffer.receive response) = some answer)
    (success : DnsBuffer.rcode (s.buffer.receive response) = 0)
    (result : dnsMiss (exchange query response) name queryType response s nm =
      some round)
    (sent : round.reply = some response)
    (quiet : ¬ HoldsNids response → round.state.fqdnTable = s.fqdnTable) :
    TextPasses (s.buffer.receive response) answer response queryType := by
  obtain ⟨usable, ansAns, nids, next, _, built, _, rfl⟩ := usable_of_reply named
    success result (by rw [sent]; exact Option.some_ne_none _)
  refine ⟨usable, ?_, ?_⟩
  · by_contra other
    have table : newFQDNTEntry name .ansAns s.fqdnTable = s.fqdnTable :=
      quiet other
    have found := getNIDsbyName_newFQDNTEntry name name .ansAns s.fqdnTable
    rw [table, unknown, if_pos rfl] at found
    cases found
  · apply (buildDnsResponse_take_iff named asked.other success built _).mp
    rw [Buffer.take_receive _ fits]
    have reply := Option.some.inj sent
    rwa [Buffer.received, Nat.min_eq_left fits] at reply

theorem OtherQuery.replied_of_passes (asked : OtherQuery query name queryType)
    (nm : NidMapper) (fits : response.length ≤ bufferLength)
    (named : DnsBuffer.queryName (s.buffer.receive response) = some answer)
    (success : DnsBuffer.rcode (s.buffer.receive response) = 0)
    (passes : TextPasses (s.buffer.receive response) answer response
      queryType) :
    ∃ round, dnsMiss (exchange query response) name queryType response s nm =
      some round ∧ round.reply = some response := by
  obtain ⟨ansAns, nids, next, _, built, result⟩ :=
    passes.usable.replied (exchange query response) name nm named success rfl
  refine ⟨_, result, ?_⟩
  have same := (buildDnsResponse_take_iff named asked.other success built
    response.length).mpr passes.zeros
  rw [repliedRound, Buffer.received, Nat.min_eq_left fits, same,
    Buffer.take_receive _ fits]

end Response

/-- The handler is transparent for a query which is not for an address exactly
if both messages fit its buffer, the name is not in its table, and the response
is unsuccessful, or one which brings two NIDs and leaves nothing to clear. -/
theorem transparent_iff_passes {query name : List UInt8} {queryType : Nat}
    (asked : OtherQuery query name queryType) (response : List UInt8)
    (s : DnsHandler) (nm : NidMapper) :
    Transparent query response s nm ↔
      Passes query name queryType response s := by
  constructor
  · rintro ⟨upstream, round, result, sent, quiet⟩
    obtain ⟨queryFits, unknown⟩ := (asked.serverQuery_eq s).mp upstream
    rw [asked.round_eq unknown] at result
    generalize started : ({ s with buffer := s.buffer.receive query } :
      DnsHandler) = s' at result
    have table : s'.fqdnTable = s.fqdnTable := by rw [← started]
    have buffer : s'.buffer = s.buffer.receive query := by rw [← started]
    cases named : DnsBuffer.queryName (s'.buffer.receive response) with
    | none =>
        rw [dnsMiss, analyseDnsResponse, named] at result
        cases result
    | some answer =>
        have fits := length_reply_le result named sent
        refine ⟨queryFits, fits, unknown, answer, ?_⟩
        rw [← buffer]
        refine ⟨named, fun success => ?_⟩
        rw [← table] at unknown quiet
        exact asked.textPasses fits unknown named success result sent
          fun other => (quiet other).1
  · rintro ⟨queryFits, fits, unknown, answer, named, answered⟩
    refine ⟨(asked.serverQuery_eq s).mpr ⟨queryFits, unknown⟩, ?_⟩
    rw [asked.round_eq unknown]
    generalize started : ({ s with buffer := s.buffer.receive query } :
      DnsHandler) = s'
    have table : s'.fqdnTable = s.fqdnTable := by rw [← started]
    have buffer : s'.buffer = s.buffer.receive query := by rw [← started]
    rw [← buffer] at named answered
    rw [← table]
    by_cases success : DnsBuffer.rcode (s'.buffer.receive response) = 0
    · have passes := answered success
      obtain ⟨round, result, sent⟩ :=
        asked.replied_of_passes nm fits named success passes
      exact ⟨round, result, sent, fun other => (other passes.learns).elim⟩
    · obtain ⟨round, result, sent, unchanged⟩ := dnsMiss_of_failure
        (exchange query response) name nm named success rfl
      rw [List.take_of_length_le fits] at sent
      exact ⟨round, result, sent, fun _ => unchanged⟩

/-- A query for the mail exchanges of a name of one letter. -/
def mailQuery (letter : UInt8) : List UInt8 :=
  List.replicate dnshdrLen 0 ++ [1, letter, 0] ++ htons 15 ++ htons 1

/-- A response with a mail exchange without a name, and a name server. -/
def mailResponse (letter rcode : UInt8) : List UInt8 :=
  let record (type : Nat) (data : List UInt8) : List UInt8 :=
    [192, 12] ++ htons type ++ htons 1 ++ [0, 0, 0, 60] ++
      htons data.length ++ data
  [0, 0, 129, rcode, 0, 1, 0, 1, 0, 1, 0, 0] ++ [1, letter, 0] ++ htons 15 ++
    htons 1 ++ record 15 [0, 10, 0] ++ record 2 [1, 0]

theorem otherQuery_mail (letter : UInt8) (nonzero : letter ≠ 0) :
    OtherQuery (mailQuery letter) [1, letter] 15 := by
  have short : 2 < nameLen := by decide
  refine ⟨?_, short, by decide, ?_, by decide⟩
  · simp only [List.mem_cons, List.not_mem_nil, or_false, not_or]
    exact ⟨by decide, nonzero.symm⟩
  · exact ⟨htons 1, rfl⟩

/-- That there is no such name is passed on. -/
theorem transparent_refused : Transparent (mailQuery 102) (mailResponse 102 131)
    freshDns.handler freshDns.nm := by
  apply (transparent_iff_passes (otherQuery_mail 102 (by decide)) _ _ _).mpr
  refine ⟨by decide, by decide, ?_, [1, 102], by decide +kernel, ?_⟩
  · exact ChainedTable.find_empty 100 (by decide) [1, 102]
  · intro success
    cases (show (3 : Nat) = 0 from success)

/-- The mail exchange itself is taken for a text, and ends the loop. -/
theorem not_typesTransparent : ¬ TypesTransparent := by
  intro transparent
  obtain ⟨round, result, sent, _⟩ := (transparent (mailQuery 102) [1, 102] 15
    (mailResponse 102 128) freshDns.handler freshDns.nm
    (otherQuery_mail 102 (by decide))).downstream
  have silent : ((threadDnshandler (exchange (mailQuery 102)
      (mailResponse 102 128)) freshDns.handler freshDns.nm).bind
        DnsRound.reply).isNone = true := by
    decide +kernel
  rw [result, Option.bind_some, sent] at silent
  cases silent

end NodeIdentity
