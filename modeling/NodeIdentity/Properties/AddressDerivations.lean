import NodeIdentity.Dhcp
import NodeIdentity.Library.ByteOrder

/-!
# Derivations of a 32-bit identity

The mapper and the configuration copy bytes of the NID; the DNS handler adds
up a number and converts it from network order, in the same way for a name it
knows, for a response and for its own server.  On either kind of machine the
number lies in memory as the bytes the others copy.
-/

namespace NodeIdentity

open NodeIdentity.Library

/-- One round of the loop on an `unsigned int`: room for the product, then for
the sum. -/
def addByte (last24bit : UInt32) (byte : UInt8) : Option UInt32 := do
  let last24bit ← ByteOrder.wordOf (last24bit.toNat * 256)
  ByteOrder.wordOf (last24bit.toNat + byte.toNat)

/-- `ntohl(last24bit + 16777216)`; an overflow on the way leaves nothing. -/
def handlerAddress (order : ByteOrder) (nid : NID) : Option UInt32 := do
  let last24bit ← (nid.toList.drop 13).foldlM addByte 0
  let sum ← ByteOrder.wordOf (last24bit.toNat + 16777216)
  return order.ntohl sum

theorem foldlM_addByte (bytes : List UInt8) {start : Nat}
    (room : (start + 1) * 256 ^ bytes.length ≤ 2 ^ 24) :
    bytes.foldlM addByte (UInt32.ofNat start) =
      some (UInt32.ofNat (bytes.foldl
        (fun last24bit byte => last24bit * 256 + byte.toNat) start)) ∧
    bytes.foldl (fun last24bit byte => last24bit * 256 + byte.toNat) start <
      2 ^ 24 := by
  induction bytes generalizing start with
  | nil =>
      simp only [List.length_nil, pow_zero] at room
      exact ⟨rfl, by simp only [List.foldl_nil]; omega⟩
  | cons byte bytes ih =>
      have byteBelow := byte.toNat_lt
      have positive : 0 < 256 ^ bytes.length := by positivity
      have next : (start * 256 + byte.toNat + 1) * 256 ^ bytes.length ≤
          2 ^ 24 := by
        apply le_trans _ room
        rw [List.length_cons, pow_succ', ← mul_assoc]
        apply Nat.mul_le_mul_right
        omega
      have below : start * 256 + byte.toNat + 1 ≤ 2 ^ 24 :=
        le_trans (Nat.le_mul_of_pos_right _ positive) next
      have value : (UInt32.ofNat start).toNat = start :=
        UInt32.toNat_ofNat_of_lt' (by
          rw [UInt32.size]
          omega)
      have product : (UInt32.ofNat (start * 256)).toNat = start * 256 :=
        UInt32.toNat_ofNat_of_lt' (by
          rw [UInt32.size]
          omega)
      have added : addByte (UInt32.ofNat start) byte =
          some (UInt32.ofNat (start * 256 + byte.toNat)) := by
        rw [addByte, value, ByteOrder.wordOf_eq (by omega)]
        simp only [Option.bind_eq_bind, Option.bind_some, product]
        exact ByteOrder.wordOf_eq (by omega)
      rw [List.foldlM_cons, added]
      exact ih next

theorem last24bit_lt (nid : NID) : last24bit nid < 2 ^ 24 :=
  (foldlM_addByte (nid.toList.drop 13) (by simp)).2

theorem loop_eq (nid : NID) : (nid.toList.drop 13).foldlM addByte 0 =
    some (UInt32.ofNat (last24bit nid)) := by
  rw [last24bit]
  exact (foldlM_addByte (nid.toList.drop 13) (by simp)).1

theorem handlerAddress_eq (order : ByteOrder) (nid : NID) :
    handlerAddress order nid =
      some (order.ntohl (UInt32.ofNat (last24bit nid + 16777216))) := by
  have small := last24bit_lt nid
  rw [handlerAddress, loop_eq]
  generalize last24bit nid = number at small
  have value : (UInt32.ofNat number).toNat = number :=
    UInt32.toNat_ofNat_of_lt' (by
      rw [UInt32.size]
      omega)
  have fits : number + 16777216 < 2 ^ 32 := by omega
  rw [Option.bind_eq_bind, Option.bind_some, value, ByteOrder.wordOf_eq fits]
  rfl

theorem bytes_handlerAddress (order : ByteOrder) (nid : NID) :
    order.bytes (order.ntohl (UInt32.ofNat (last24bit nid + 16777216))) =
      nid2nid32 nid := by
  have small := last24bit_lt nid
  have value : (UInt32.ofNat (last24bit nid + 16777216)).toNat =
      last24bit nid + 16777216 :=
    UInt32.toNat_ofNat_of_lt' (by
      rw [UInt32.size]
      omega)
  rw [ByteOrder.bytes_ntohl, ByteOrder.bytes, value, ← dnsNid32_eq, dnsNid32,
    NID32.ofNat]
  simp only [ByteOrder.weight]

/-- The address of a NID, as the handler computes it, agrees with all other
derivations. -/
structure AddressAgrees (nid : NID) (address : NID32) : Prop where
  mapper : nid2nid32 nid = address
  own : setNID32 nid = address
  answered : dnsNid32 nid = address
  server : ∀ s, (updateDnsServerAddress nid s).serverAddress =
    inetNtop4 address
  filed : ∀ nidgw nm nid32, getNMEntry32 nid32 (newNMEntry nid nidgw nm) =
    if nid32 = address then some ⟨nid, nidgw⟩ else getNMEntry32 nid32 nm

/-- Nothing overflows, and the four bytes of the result are the address the
mapper files the NID under, whichever byte the machine puts first. -/
theorem address_derivations_agree (order : ByteOrder) (nid : NID) :
    ∃ address, handlerAddress order nid = some address ∧
      AddressAgrees nid (order.bytes address) := by
  refine ⟨_, handlerAddress_eq order nid, ?_⟩
  rw [bytes_handlerAddress]
  constructor
  · rfl
  · exact setNID32_eq nid
  · exact dnsNid32_eq nid
  · intro s
    rw [updateDnsServerAddress, dnsNid32_eq]
  · intro nidgw nm nid32
    exact getNMEntry32_newNMEntry nid32 nid nidgw nm

end NodeIdentity
