import NodeIdentity.Properties.DnsService

/-!
# Accesses of the DNS handler

Which contents of the packet buffer keep the three functions that take messages
apart inside their arrays.  None of them knows how much has been received, and
none compares a length of a message with anything.
-/

namespace NodeIdentity

open NodeIdentity.Library

/-- A call of one of the functions which take a message apart. -/
inductive DnsCall where
  | modify
  | analyse
  | build (nid32addr : NID32) (nidaddr : NID) (qType : Nat)

/-- Every read of the call lies inside the buffer, every write inside the array
it goes to, and no length of a copy is negative. -/
def DnsCall.InBounds (buf : DnsBuffer) : DnsCall → Prop
  | .modify => (modifyDnsQuery buf).isSome
  | .analyse => (analyseDnsResponse buf).isSome
  | .build nid32addr nidaddr qType =>
      (buildDnsResponse buf nid32addr nidaddr qType).isSome

/-- Whatever is in the buffer, the calls stay inside their arrays. -/
def ParsingInBounds : Prop :=
  ∀ (buf : DnsBuffer) (call : DnsCall), call.InBounds buf

def nameIn (buf : DnsBuffer) : List UInt8 :=
  cstringOf (buf.bytes.drop dnshdrLen)

def NameEnds (buf : DnsBuffer) : Prop := 0 ∈ buf.slice dnshdrLen nameLen

/-- What the message has to be like for a call: the name ends; a successful
response has two records with data which fit the arrays; and for the response
which is edited the authority fits also where it comes to lie. -/
def DnsCall.Fits (buf : DnsBuffer) : DnsCall → Prop
  | .modify => NameEnds buf
  | .analyse => NameEnds buf ∧ (buf.rcode = 0 → RecordsFit buf (nameIn buf))
  | .build _ _ qType => NameEnds buf ∧ ResponseFits buf (nameIn buf) qType

theorem zero_mem_take_iff {tail : List UInt8} {count : Nat} :
    0 ∈ tail.take count ↔ 0 ∈ tail ∧ (cstringOf tail).length < count := by
  rw [cstringOf]
  induction tail generalizing count with
  | nil => simp
  | cons byte tail ih =>
      cases count with
      | zero => simp
      | succ count =>
          by_cases zero : byte = 0
          · simp [zero]
          · simp [zero, Ne.symm zero, ih]

theorem queryName_eq_iff {buf : DnsBuffer} {name : List UInt8} :
    DnsBuffer.queryName buf = some name ↔ NameEnds buf ∧ nameIn buf = name := by
  rw [NameEnds, Buffer.slice, zero_mem_take_iff, ← nameIn]
  have string : DnsBuffer.queryName buf =
      (if 0 ∈ buf.bytes.drop dnshdrLen then some (nameIn buf) else none).bind
        fun name => if name.length < nameLen then some name else none := rfl
  rw [string]
  by_cases ended : 0 ∈ buf.bytes.drop dnshdrLen
  · by_cases short : (nameIn buf).length < nameLen
    · simp [ended, short]
    · simp [ended, short]
  · simp [ended]

theorem queryName_isSome_iff {buf : DnsBuffer} :
    (DnsBuffer.queryName buf).isSome ↔ NameEnds buf := by
  rw [Option.isSome_iff_exists]
  constructor
  · rintro ⟨name, named⟩
    exact (queryName_eq_iff.mp named).1
  · intro ended
    exact ⟨nameIn buf, queryName_eq_iff.mpr ⟨ended, rfl⟩⟩

theorem DnsCall.nameEnds {buf : DnsBuffer} {call : DnsCall}
    (inside : call.InBounds buf) : NameEnds buf := by
  apply queryName_isSome_iff.mp
  cases named : DnsBuffer.queryName buf with
  | some name => rfl
  | none =>
      cases call with
      | modify =>
          rw [InBounds, modifyDnsQuery, named] at inside
          cases inside
      | analyse =>
          rw [InBounds, analyseDnsResponse, named] at inside
          cases inside
      | build =>
          rw [InBounds, buildDnsResponse, named] at inside
          cases inside

theorem analyseDnsResponse_isSome_iff {buf : DnsBuffer} {name : List UInt8}
    (named : DnsBuffer.queryName buf = some name) :
    (analyseDnsResponse buf).isSome ↔
      (buf.rcode = 0 → RecordsFit buf name) := by
  obtain ⟨queryName, analysed⟩ := analyseDnsResponse_eq named
  rw [analysed]
  by_cases success : buf.rcode = 0
  · simp only [success, if_true, Option.isSome_map, forall_const]
    constructor
    · intro read
      obtain ⟨⟨answerAns, nsNs⟩, read⟩ := Option.isSome_iff_exists.mp read
      exact (analyseRecords_of_eq read).1
    · intro fits
      obtain ⟨answerAns, nsNs, read⟩ := fits.analysed
      exact Option.isSome_iff_exists.mpr ⟨_, read⟩
  · simp only [success, if_false, Option.isSome_some, false_implies]

/-- A call stays inside its arrays exactly if the message is like that. -/
theorem DnsCall.inBounds_iff_fits (call : DnsCall) (buf : DnsBuffer) :
    call.InBounds buf ↔ call.Fits buf := by
  by_cases ended : NameEnds buf
  · have named : DnsBuffer.queryName buf = some (nameIn buf) :=
      queryName_eq_iff.mpr ⟨ended, rfl⟩
    cases call with
    | modify =>
        rw [InBounds, Fits, modifyDnsQuery_isSome_iff]
        exact queryName_isSome_iff
    | analyse =>
        rw [InBounds, Fits, analyseDnsResponse_isSome_iff named]
        simp only [ended, true_and]
    | build nid32addr nidaddr qType =>
        rw [InBounds, Fits, Option.isSome_iff_exists,
          buildDnsResponse_isSome_iff named]
        simp only [ended, true_and]
  · refine iff_of_false (fun inside => ended (nameEnds inside)) ?_
    intro fits
    cases call with
    | modify => exact ended fits
    | analyse => exact ended fits.1
    | build => exact ended fits.1

/-- A successful response for a name of one letter, without records. -/
def emptyResponse (letter : UInt8) : List UInt8 :=
  [0, 0, 129, 128, 0, 1, 0, 0, 0, 0, 0, 0] ++ [1, letter, 0] ++ htons typeTXT ++
    htons 1

/-- The length of data where there are none is zero, and a byte less is asked
for. -/
theorem not_parsingInBounds : ¬ ParsingInBounds := by
  intro inside
  have analysed := inside
    ((Buffer.zero bufferLength).receive (emptyResponse 102)) .analyse
  have outside : (analyseDnsResponse
      ((Buffer.zero bufferLength).receive (emptyResponse 102))).isSome =
        false := by
    decide +kernel
  rw [DnsCall.InBounds, outside] at analysed
  cases analysed

end NodeIdentity
