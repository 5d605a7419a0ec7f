import NodeIdentity.DhtThreads
import NodeIdentity.Library.Machine

/-!
# Locators read from DHT replies

`thread_dht_get` copies the value over the text of the NID, in the same array
and without a terminator.  What is read as the locator is the value and what
follows it there, up to the next NUL.
-/

namespace NodeIdentity

open NodeIdentity.Library

/-- A NID read from `sp_dht` and the locators the DHT has for it.  Each was
stored as text, without a terminator. -/
structure DhtReply where
  now : Timeval
  nid : NID
  locators : List NID32

/-- A reply with the entry which was made from it. -/
structure DhtRecorded where
  reply : DhtReply
  added : Option (NID × NID32)

def dhtGetStep (s : DhtGet × DhtMapping) (reply : DhtReply) :
    Option ((DhtGet × DhtMapping) × DhtRecorded) :=
  (threadDhtGet reply.now reply.nid (reply.locators.map inetNtop4) s.1 s.2).map
    fun turn => ((turn.state, turn.dht), ⟨reply, turn.added⟩)

def dhtGetMachine : Machine (DhtGet × DhtMapping) DhtReply DhtRecorded :=
  ⟨dhtGetStep⟩

/-- The entry made from a reply has the first locator of it. -/
def DhtRecorded.AsReceived (recorded : DhtRecorded) : Prop :=
  ∀ nid ip, recorded.added = some (nid, ip) →
    nid = recorded.reply.nid ∧ recorded.reply.locators.head? = some ip

/-- A NUL stands behind a value: the text of the NID has one there, or is
shorter and the array has one from before. -/
def Terminated (text value : List UInt8) (aux : Buffer inet6AddrStrLen) : Prop :=
  text.length = value.length ∨
    text.length < value.length ∧ aux.bytes[value.length]? = some 0

/-- What follows a value of the given length, once the text of a NID has been
written. -/
def DhtGet.leftBehind (s : DhtGet) (nid : NID) (length : Nat) : List UInt8 :=
  cstringOf ((s.inetNtop nid).aux.bytes.drop length)

/-- The value ends where it should, or it is spoiled so much that it is no
address, and the variable happens to hold the locator already. -/
def ReadsLocator (s : DhtGet) (reply : DhtReply) : Prop :=
  ∀ ip, reply.locators.head? = some ip →
    Terminated (inetNtop6 reply.nid) (inetNtop4 ip) s.aux ∨
      (inetPton4 (inetNtop4 ip ++
          s.leftBehind reply.nid (inetNtop4 ip).length) = none ∧
        s.nid32 = ip)

theorem inetNtop6_room (nid : NID) :
    (inetNtop6 nid ++ [0]).length ≤ inet6AddrStrLen := by
  rw [List.length_append]
  exact Nat.succ_le_succ (addressText_inetNtop6 nid).short

theorem inetNtop_bytes (s : DhtGet) (nid : NID) :
    (s.inetNtop nid).aux.bytes =
      inetNtop6 nid ++ 0 :: s.aux.bytes.drop ((inetNtop6 nid).length + 1) := by
  have written := s.aux.bytes_receive_of_le (inetNtop6_room nid)
  rw [List.append_assoc, List.length_append] at written
  exact written

theorem inetNtop_nid32 (s : DhtGet) (nid : NID) :
    (s.inetNtop nid).nid32 = s.nid32 := by
  rw [DhtGet.inetNtop]

theorem cstringOf_drop_eq_nil_iff {bytes : List UInt8} {index : Nat}
    (inside : index < bytes.length) :
    cstringOf (bytes.drop index) = [] ↔ bytes[index]? = some 0 := by
  rw [List.drop_eq_getElem_cons inside, List.getElem?_eq_getElem inside,
    cstringOf, List.takeWhile_cons]
  by_cases zero : bytes[index] = 0
  · simp [zero]
  · simp [zero]

theorem terminated_iff {s : DhtGet} {nid : NID} {value : List UInt8}
    (short : value.length < inet6AddrStrLen) :
    Terminated (inetNtop6 nid) value s.aux ↔
      s.leftBehind nid value.length = [] := by
  have inside : value.length < (s.inetNtop nid).aux.bytes.length := by
    rwa [(s.inetNtop nid).aux.length_bytes]
  rw [DhtGet.leftBehind, cstringOf_drop_eq_nil_iff inside, inetNtop_bytes,
    Terminated]
  rcases Nat.lt_trichotomy value.length (inetNtop6 nid).length with
    within | same | behind
  · -- a character of the NID follows
    have noNul : (inetNtop6 nid)[value.length] ≠ 0 :=
      (addressText_inetNtop6 nid).ne_zero _ (List.getElem_mem within)
    rw [List.getElem?_append_left within, List.getElem?_eq_getElem within]
    constructor
    · intro ended
      omega
    · intro zero
      exact (noNul (Option.some.inj zero)).elim
  · rw [same, List.getElem?_append_right le_rfl, Nat.sub_self]
    simp
  · have place : value.length - (inetNtop6 nid).length =
        (value.length - (inetNtop6 nid).length - 1) + 1 := by omega
    have whole : (inetNtop6 nid).length + 1 +
        (value.length - (inetNtop6 nid).length - 1) = value.length := by omega
    rw [List.getElem?_append_right behind.le, place, List.getElem?_cons_succ,
      List.getElem?_drop, whole]
    constructor
    · rintro (same | ⟨_, nul⟩)
      · omega
      · exact nul
    · intro nul
      exact .inr ⟨behind, nul⟩

theorem cstringOf_append {text : List UInt8}
    (noNul : ∀ character ∈ text, character ≠ 0) (rest : List UInt8) :
    cstringOf (text ++ rest) = text ++ cstringOf rest := by
  apply List.takeWhile_append_of_pos
  intro character member
  exact decide_eq_true (noNul character member)

theorem strncpy_locator (ip : NID32) (s : DhtGet) :
    ∃ next : DhtGet, s.strncpy (inetNtop4 ip) = some next ∧
      next.nid32 = s.nid32 ∧
      cstringOf next.aux.bytes =
        inetNtop4 ip ++ cstringOf (s.aux.bytes.drop (inetNtop4 ip).length) := by
  have noNul : ∀ character ∈ inetNtop4 ip, character ≠ 0 :=
    AddressText.ne_zero ⟨inetNtop4_chars ip, length_inetNtop4 ip⟩
  have text : cstringOf (inetNtop4 ip) = inetNtop4 ip := by
    have whole := cstringOf_append noNul []
    have nothing : cstringOf [] = [] := rfl
    rwa [List.append_nil, nothing, List.append_nil] at whole
  have room : 0 + (inetNtop4 ip).length ≤ inet6AddrStrLen := by
    rw [Nat.zero_add]
    exact (length_inetNtop4 ip).trans (by decide)
  obtain ⟨aux, written⟩ := Buffer.write_isSome_iff.mpr room
  refine ⟨{ s with aux := aux }, ?_, rfl, ?_⟩
  · simp only [DhtGet.strncpy, text, Nat.sub_self, List.replicate_zero,
      List.append_nil]
    rw [written]
    rfl
  · have bytes := Buffer.bytes_of_write written
    rw [List.take_zero, List.nil_append, Nat.zero_add] at bytes
    rw [bytes, cstringOf_append noNul]

/-- Only the first locator of a reply counts, and what is read is its text and
what was left behind it. -/
theorem threadDhtGet_added (reply : DhtReply) (s : DhtGet) (dht : DhtMapping) :
    ∃ turn, threadDhtGet reply.now reply.nid
        (reply.locators.map inetNtop4) s dht = some turn ∧
      turn.added = reply.locators.head?.map fun ip =>
        (reply.nid, (inetPtonNID32 (inetNtop4 ip ++
          s.leftBehind reply.nid (inetNtop4 ip).length)).getD s.nid32) := by
  cases known : reply.locators with
  | nil => exact ⟨_, rfl, rfl⟩
  | cons ip rest =>
      obtain ⟨next, copied, kept, text⟩ :=
        strncpy_locator ip (s.inetNtop reply.nid)
      rw [inetNtop_nid32] at kept
      have read : next.inetPton.nid32 = (inetPtonNID32 (inetNtop4 ip ++
          s.leftBehind reply.nid (inetNtop4 ip).length)).getD s.nid32 := by
        rw [DhtGet.leftBehind, ← text, ← kept, DhtGet.inetPton]
      simp only [threadDhtGet, List.map_cons, copied, Option.map_some]
      refine ⟨_, rfl, ?_⟩
      rw [read, List.head?_cons, Option.map_some]

/-- The locator is read exactly if it ends where it should, or is kept by
accident. -/
theorem readsLocator_iff {reply : DhtReply} {s : DhtGet} {ip : NID32}
    (first : reply.locators.head? = some ip) :
    (inetPtonNID32 (inetNtop4 ip ++
        s.leftBehind reply.nid (inetNtop4 ip).length)).getD s.nid32 = ip ↔
      ReadsLocator s reply := by
  have short : (inetNtop4 ip).length < inet6AddrStrLen :=
    (length_inetNtop4 ip).trans_lt (by decide)
  simp only [ReadsLocator, first, Option.some.injEq, forall_eq']
  rw [terminated_iff short]
  generalize s.leftBehind reply.nid (inetNtop4 ip).length = rest
  cases rest with
  | nil =>
      rw [List.append_nil, inetPtonNID32_inetNtop4]
      simp
  | cons character rest =>
      have spoiled := inetPtonNID32_extend ip (List.cons_ne_nil character rest)
      cases accepted : inetPton4 (inetNtop4 ip ++ character :: rest) with
      | none =>
          rw [inetPtonNID32, accepted]
          simp
      | some octets =>
          rw [inetPtonNID32, accepted, Option.map_some] at spoiled ⊢
          have wrong : nid32Codec.decode octets ≠ ip :=
            fun same => spoiled (congrArg some same)
          simp [wrong]

theorem asReceived_iff {s next : DhtGet × DhtMapping} {reply : DhtReply}
    {recorded : DhtRecorded}
    (stepped : dhtGetMachine.step s reply = some (next, recorded)) :
    recorded.AsReceived ↔ ReadsLocator s.1 reply := by
  obtain ⟨turn, result, added⟩ := threadDhtGet_added reply s.1 s.2
  simp only [dhtGetMachine, dhtGetStep, result, Option.map_some,
    Option.some.injEq, Prod.mk.injEq] at stepped
  obtain ⟨_, rfl⟩ := stepped
  simp only [DhtRecorded.AsReceived, added]
  cases first : reply.locators.head? with
  | none => simp [ReadsLocator, first]
  | some ip =>
      rw [← readsLocator_iff first, Option.map_some]
      constructor
      · intro received
        have same := (received _ _ rfl).2
        exact (Option.some.inj same).symm
      · intro read nid given entry
        cases entry
        exact ⟨rfl, congrArg some read.symm⟩

theorem dhtGet_exists_run (start : DhtGet × DhtMapping)
    (replies : List DhtReply) :
    ∃ entries final, dhtGetMachine.Run start replies entries final := by
  apply Machine.exists_run
  intro s reply
  obtain ⟨turn, result, _⟩ := threadDhtGet_added reply s.1 s.2
  refine ⟨((turn.state, turn.dht), ⟨reply, turn.added⟩), ?_⟩
  simp only [dhtGetMachine, dhtGetStep, result, Option.map_some]

/-- The entries made from any replies have the locators received exactly if
each locator ends where it should in the array, or is kept by accident. -/
theorem dhtGet_asReceived_iff (start : DhtGet × DhtMapping)
    (replies : List DhtReply) :
    ∃ entries final, dhtGetMachine.Run start replies entries final ∧
      ((∀ recorded ∈ entries, recorded.AsReceived) ↔
        ∀ s reply, dhtGetMachine.Taken start replies s reply →
          ReadsLocator s.1 reply) := by
  obtain ⟨entries, final, run⟩ := dhtGet_exists_run start replies
  exact ⟨entries, final, run, run.outputs_iff_allowed asReceived_iff⟩

section Example

/-- `1.2.3.4` over the text `3ffe::15` is read as `1.2.3.45`. -/
theorem not_dhtGet_asReceived :
    ¬ ∀ start replies entries final,
      dhtGetMachine.Run start replies entries final →
        ∀ recorded ∈ entries, recorded.AsReceived := by
  intro always
  let start : DhtGet × DhtMapping := (⟨.zero _, NID32.zero⟩, initDhtable)
  let reply : DhtReply :=
    { now := .ofSec 100
      nid := NID.ofNat (0x3ffe * 2 ^ 112 + 0x15)
      locators := [NID32.ofNat 0x01020304] }
  obtain ⟨entries, final, run⟩ := dhtGet_exists_run start [reply]
  have received := always start [reply] entries final run
  have read := (run.outputs_iff_allowed asReceived_iff).mp received start reply
    ⟨[], [], [], rfl, .nil⟩ (NID32.ofNat 0x01020304) rfl
  rcases read with (same | ⟨short, _⟩) | ⟨spoiled, _⟩
  · exact absurd same (by decide +kernel)
  · exact absurd short (by decide +kernel)
  · exact absurd spoiled (by decide +kernel)

end Example

end NodeIdentity
