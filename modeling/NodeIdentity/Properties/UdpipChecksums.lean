import NodeIdentity.Udpip

/-!
# Checksums of the DHCP client

A packet made by `udpipgen` passes `udpipchk` on any machine, whatever lies
behind it in the buffer of the receiver; a message with an odd number of bytes
does so for certain only under the byte order of the sender.  An accepted packet
in which one byte changes is refused, with the three exceptions the code makes:
a sum of UDP which becomes zero, bytes behind the datagram and, outside the
statement, the bytes which say how much is summed.
-/

namespace NodeIdentity

open NodeIdentity.Library

/-- `uh_ulen` of a packet without options. -/
def coveredLength (udpip : List UInt8) : Nat :=
  ntohs ((udpip.drop 24).take 2)

def pseudoHeader (udpip : List UInt8) : List UInt8 :=
  ipovly ((udpip.take ipLen).getD 9 0) ((udpip.drop 24).take 2)
    ((udpip.take ipLen).drop 12)

def coveredBytes (udpip : List UInt8) : List UInt8 :=
  pseudoHeader udpip ++ (udpip.drop ipLen).take (coveredLength udpip)

variable {order : ByteOrder} {udpip : List UInt8}

theorem length_pseudoHeader (room : udpiphdrLen ≤ udpip.length) :
    (pseudoHeader udpip).length = ipLen := by
  simp only [udpiphdrLen, ipLen, udphdrLen] at room
  simp only [pseudoHeader, ipovly, ipLen, List.length_append,
    List.length_replicate, List.length_singleton, List.length_take,
    List.length_drop]
  omega

theorem udpipchk_plain {first : UInt8} (start : udpip[0]? = some first)
    (plain : first.toNat % 16 = 5) (room : udpiphdrLen ≤ udpip.length)
    (front : List UInt8) :
    udpipchk order (front ++ udpip) front.length =
      if inCksum order (udpip.take ipLen) ≠ 0 then some (-1, front ++ udpip)
      else if (udpip.drop 26).take 2 = [0, 0] then some (0, front ++ udpip)
      else if udpip.length < coveredLength udpip + ipLen then none
      else if inCksum order (coveredBytes udpip) ≠ 0 then
        some (-2, front ++ (pseudoHeader udpip ++ udpip.drop ipLen))
      else some (0, front ++ udpip) := by
  have length : (pseudoHeader udpip).length = ipLen := length_pseudoHeader room
  have longer : ipLen ≤ udpip.length := Nat.le_of_add_right_le room
  have taken : (udpip.take ipLen).length = ipLen :=
    List.length_take_of_le longer
  have parts : udpip = udpip.take ipLen ++ udpip.drop ipLen :=
    (List.take_append_drop _ _).symm
  have start₂ : (front ++ udpip)[front.length]? = some first := by
    rw [List.getElem?_append_right (Nat.le_refl _), Nat.sub_self, start]
  have hl : first.toNat % 16 * 4 = ipLen := by
    rw [plain]
    rfl
  have header : readAt (front ++ udpip) front.length ipLen =
      some (udpip.take ipLen) := by
    rw [← Nat.add_zero front.length, readAt_append]
    exact readAt_eq (Nat.le_trans (Nat.le_of_eq (Nat.zero_add _)) longer)
  have sum : readAt (front ++ udpip) (front.length + 26) 2 =
      some ((udpip.drop 26).take 2) := by
    rw [readAt_append]
    exact readAt_eq room
  have ulen : readAt (front ++ udpip) (front.length + 24) 2 =
      some ((udpip.drop 24).take 2) := by
    rw [readAt_append]
    exact readAt_eq (Nat.le_trans (by decide) room)
  have pseudo : ipovly ((udpip.take ipLen).getD 9 0) ((udpip.drop 24).take 2)
      ((udpip.take ipLen).drop 12) = pseudoHeader udpip := rfl
  have overlaid : writeAt (front ++ udpip) front.length (pseudoHeader udpip) =
      some (front ++ (pseudoHeader udpip ++ udpip.drop ipLen)) := by
    have written := writeAt_append (length.trans taken.symm) front
      (udpip.drop ipLen)
    rwa [← parts] at written
  have restored : writeAt (front ++ (pseudoHeader udpip ++ udpip.drop ipLen))
      front.length (udpip.take ipLen) = some (front ++ udpip) := by
    rw [writeAt_append (taken.trans length.symm), ← parts]
  have summed : readAt (front ++ (pseudoHeader udpip ++ udpip.drop ipLen))
      front.length (ntohs ((udpip.drop 24).take 2) + ipLen) =
      if udpip.length < coveredLength udpip + ipLen then none
      else some (coveredBytes udpip) := by
    have whole : (pseudoHeader udpip ++ udpip.drop ipLen).length =
        udpip.length := by
      rw [List.length_append, length, List.length_drop]
      omega
    have shift := readAt_append front
      (pseudoHeader udpip ++ udpip.drop ipLen) 0
    rw [Nat.add_zero] at shift
    rw [shift, readAt, whole, Nat.zero_add, List.drop_zero, ← coveredLength,
      Nat.add_comm, ← length, List.take_length_add_append, length]
    split_ifs
    · omega
    · rfl
    · rfl
    · omega
  simp only [udpipchk, start₂, Option.bind_eq_bind, Option.bind_some, hl,
    header, Nat.not_lt.mpr (Nat.le_add_left ipLen front.length),
    Nat.add_sub_cancel, if_true, if_false, sum, ulen, pseudo, overlaid,
    summed, Option.pure_def]
  split_ifs with damaged unsummed outside wrong
  · rfl
  · rfl
  · rfl
  · rw [Option.bind_some, if_pos wrong]
  · rw [Option.bind_some, if_neg wrong, restored]
    rfl

theorem inCksum_eq_zero_iff {bytes : List UInt8}
    (small : bytes.length < 65536) : inCksum order bytes = 0 ↔
      sumWords order bytes ≠ 0 ∧ sumWords order bytes % 65535 = 0 := by
  have below := foldCarries_lt (sumWords order bytes)
  have ones := foldCarries_eq_ones_iff (sumWords_lt order small)
  rw [inCksum]
  omega

/-- Machines of either byte order agree on an even number of bytes. -/
theorem inCksum_order {bytes : List UInt8} (small : bytes.length < 65536)
    (even : 2 ∣ bytes.length) (sender receiver : ByteOrder) :
    inCksum sender bytes = 0 ↔ inCksum receiver bytes = 0 := by
  have turned := sumWords_big_mod even
  have zero : sumWords .little bytes = 0 ↔ sumWords .big bytes = 0 := by
    rw [sumWords_eq_zero_iff, sumWords_eq_zero_iff]
  have agree : inCksum .little bytes = 0 ↔ inCksum .big bytes = 0 := by
    rw [inCksum_eq_zero_iff small, inCksum_eq_zero_iff small]
    omega
  cases sender <;> cases receiver
  · rfl
  · exact agree
  · exact agree.symm
  · rfl

theorem inCksum_stored {front back : List UInt8} {sum : Nat}
    (even : 2 ∣ front.length) (something : ∃ byte ∈ front, byte ≠ 0)
    (small : (front ++ [0, 0] ++ back).length < 65536) (word : sum < 65536)
    (complement : sum % 65535 =
      inCksum order (front ++ [0, 0] ++ back) % 65535) :
    inCksum order (front ++ order.halves sum ++ back) = 0 := by
  have split : ∀ middle : List UInt8, middle.length = 2 →
      sumWords order (front ++ middle ++ back) = sumWords order front +
        sumWords order middle + sumWords order back := by
    intro middle two
    rw [List.append_assoc, sumWords_append order even,
      sumWords_append order ⟨1, two⟩, Nat.add_assoc]
  have same : (front ++ order.halves sum ++ back).length =
      (front ++ [0, 0] ++ back).length := by
    simp only [List.length_append, order.length_halves, List.length_cons,
      List.length_nil]
  have nothing : sumWords order [0, 0] = 0 := by
    rw [sumWords_eq_zero_iff]
    simp
  have positive : sumWords order front ≠ 0 := by
    obtain ⟨byte, member, nonzero⟩ := something
    exact fun zero => nonzero ((sumWords_eq_zero_iff order front).mp zero byte
      member)
  have folded := foldCarries_mod (sumWords_lt order small)
  have below := foldCarries_lt (sumWords order (front ++ [0, 0] ++ back))
  rw [inCksum_eq_zero_iff (same ▸ small), split _ (order.length_halves sum),
    sumWords_halves order word]
  rw [inCksum] at complement
  rw [split _ rfl, nothing] at folded below complement
  omega

theorem udpipchk_right {first : UInt8} (start : udpip[0]? = some first)
    (plain : first.toNat % 16 = 5) (room : udpiphdrLen ≤ udpip.length)
    (header : inCksum order (udpip.take ipLen) = 0)
    (inside : coveredLength udpip + ipLen ≤ udpip.length)
    (sum : inCksum order (coveredBytes udpip) = 0) (front : List UInt8) :
    udpipchk order (front ++ udpip) front.length =
      some (0, front ++ udpip) := by
  rw [udpipchk_plain start plain room, if_neg (not_not.mpr header),
    if_neg (Nat.not_lt.mpr inside), if_neg (not_not.mpr sum), ite_self]

theorem ntohs_htons {word : Nat} (small : word < 65536) :
    ntohs (htons word) = word := by
  simp only [ntohs, htons, List.getD_cons_zero, List.getD_cons_succ,
    UInt8.toNat_ofNat']
  omega

/-- A datagram of UDP behind a header without options, with both sums right. -/
structure DatagramSums (order : ByteOrder)
    (header ports ulen sum message : List UInt8) : Prop where
  header_length : header.length = ipLen
  first : header[0]? = some 69
  ports_length : ports.length = 4
  ulen_length : ulen.length = 2
  sum_length : sum.length = 2
  extent : ntohs ulen = udphdrLen + message.length
  header_sum : inCksum order header = 0
  udp_sum : inCksum order (ipovly (header.getD 9 0) ulen (header.drop 12) ++
    (ports ++ ulen ++ sum ++ message)) = 0

section Parts

variable {header ports ulen sum message : List UInt8}

namespace DatagramSums

variable (sums : DatagramSums order header ports ulen sum message)
include sums

theorem udp_length : (ports ++ ulen ++ sum ++ message).length =
    ntohs ulen := by
  simp only [List.length_append, sums.ports_length, sums.ulen_length,
    sums.sum_length, sums.extent, udphdrLen]

theorem ulen_here (rest : List UInt8) :
    ((header ++ (ports ++ ulen ++ sum ++ message) ++ rest).drop 24).take 2 =
      ulen := by
  have length : (header ++ ports).length = 24 := by
    rw [List.length_append, sums.header_length, sums.ports_length, ipLen]
  have parts : header ++ (ports ++ ulen ++ sum ++ message) ++ rest =
      (header ++ ports) ++ (ulen ++ (sum ++ message ++ rest)) := by
    simp only [List.append_assoc]
  rw [parts, List.drop_left' length, List.take_left' sums.ulen_length]

theorem take_header (rest : List UInt8) :
    (header ++ (ports ++ ulen ++ sum ++ message) ++ rest).take ipLen =
      header := by
  rw [List.append_assoc, List.take_left' sums.header_length]

theorem coveredBytes_eq (rest : List UInt8) :
    coveredBytes (header ++ (ports ++ ulen ++ sum ++ message) ++ rest) =
      ipovly (header.getD 9 0) ulen (header.drop 12) ++
        (ports ++ ulen ++ sum ++ message) := by
  rw [coveredBytes, pseudoHeader, coveredLength, sums.take_header,
    sums.ulen_here, List.append_assoc header,
    List.drop_left' sums.header_length, List.take_left' sums.udp_length]

/-- The check of a machine with the other byte order needs an even number of
bytes. -/
theorem checked {receiver : ByteOrder}
    (agree : order = receiver ∨ 2 ∣ message.length)
    (fits : udpiphdrLen + message.length < 65536) (front rest : List UInt8) :
    udpipchk receiver
      (front ++ (header ++ (ports ++ ulen ++ sum ++ message) ++ rest))
      front.length = some (0,
        front ++ (header ++ (ports ++ ulen ++ sum ++ message) ++ rest)) := by
  have start : (header ++ (ports ++ ulen ++ sum ++ message) ++ rest)[0]? =
      some 69 := by
    rw [List.append_assoc, List.getElem?_append_left
      (by rw [sums.header_length]; decide), sums.first]
  have length : (header ++ (ports ++ ulen ++ sum ++ message) ++ rest).length =
      ipLen + ntohs ulen + rest.length := by
    rw [List.length_append, List.length_append, sums.header_length,
      sums.udp_length]
  have pseudo : (ipovly (header.getD 9 0) ulen (header.drop 12)).length =
      ipLen := by
    simp only [ipovly, List.length_append, List.length_replicate,
      List.length_singleton, List.length_drop, sums.header_length,
      sums.ulen_length, ipLen]
  have extent := sums.extent
  simp only [udpiphdrLen, ipLen, udphdrLen] at fits length pseudo extent
  apply udpipchk_right start rfl
  · simp only [udpiphdrLen, ipLen, udphdrLen]
    omega
  · rw [sums.take_header]
    rcases agree with same | _
    · exact same ▸ sums.header_sum
    · rw [← inCksum_order _ _ order receiver]
      · exact sums.header_sum
      · rw [sums.header_length]
        decide
      · rw [sums.header_length]
        decide
  · rw [coveredLength, sums.ulen_here, length, ipLen]
    omega
  · rw [sums.coveredBytes_eq]
    rcases agree with same | even
    · exact same ▸ sums.udp_sum
    · rw [← inCksum_order _ _ order receiver]
      · exact sums.udp_sum
      · rw [List.length_append, sums.udp_length]
        omega
      · rw [List.length_append, sums.udp_length]
        omega

end DatagramSums

end Parts

/-- What comes before the sum in the header of a packet which is sent. -/
def sentFront (ip_id msglen : Nat) : List UInt8 :=
  [69, 0] ++ htons (msglen + udpiphdrLen) ++ htons ip_id ++ [0, 0] ++
    [ipDefTtl, ipProtoUdp]

def sentHeader (order : ByteOrder) (ip_id msglen : Nat)
    (address : List UInt8) : List UInt8 :=
  sentFront ip_id msglen ++ order.halves (inCksum order
    (sentFront ip_id msglen ++ [0, 0] ++ address)) ++ address

/-- What the sum of UDP covers while it is still zero. -/
def sentOver (msglen : Nat) (address port message : List UInt8) : List UInt8 :=
  ipovly ipProtoUdp (htons (msglen + udphdrLen)) address ++
    (port ++ htons (msglen + udphdrLen) ++ [0, 0]) ++ message

/-- The sum in the header of UDP; zero would say that there is none. -/
def sentSum (order : ByteOrder) (msglen : Nat)
    (address port message : List UInt8) : Nat :=
  if inCksum order (sentOver msglen address port message) = 0 then 65535
  else inCksum order (sentOver msglen address port message)

section Sent

variable {ip_id msglen : Nat} {address port message : List UInt8}

theorem sentSum_lt :
    sentSum order msglen address port message < 65536 := by
  rw [sentSum]
  split
  · decide
  · exact Nat.lt_of_le_of_lt (Nat.sub_le _ _) (by decide)

theorem sentSum_mod :
    sentSum order msglen address port message % 65535 =
      inCksum order (sentOver msglen address port message) % 65535 := by
  rw [sentSum]
  split
  case isTrue zero => rw [zero]
  case isFalse => rfl

theorem sentFront_halves (sum : Nat) :
    (sentFront ip_id msglen ++ order.halves sum).length = 12 := by
  rw [List.length_append, order.length_halves]
  rfl

theorem length_sentHeader (addresses : address.length = 8) :
    (sentHeader order ip_id msglen address).length = ipLen := by
  rw [sentHeader, List.length_append, sentFront_halves, addresses]
  rfl

theorem sentHeader_sum (addresses : address.length = 8) :
    inCksum order (sentHeader order ip_id msglen address) = 0 := by
  apply inCksum_stored
  · exact ⟨5, rfl⟩
  · exact ⟨69, List.mem_cons_self, by decide⟩
  · rw [List.length_append, addresses]
    exact Nat.lt_of_sub_eq_succ rfl
  · exact Nat.lt_of_le_of_lt (Nat.sub_le _ _) (by decide)
  · rfl

theorem length_ipovly (addresses : address.length = 8) (protocol : UInt8)
    (word : Nat) : (ipovly protocol (htons word) address).length = ipLen := by
  rw [ipovly, List.length_append, List.length_append, addresses]
  rfl

theorem sentSum_right (addresses : address.length = 8) (ports : port.length = 4)
    (length : message.length = msglen) (fits : udpiphdrLen + msglen < 65536) :
    inCksum order (ipovly ipProtoUdp (htons (msglen + udphdrLen)) address ++
      (port ++ htons (msglen + udphdrLen) ++
        order.halves (sentSum order msglen address port message) ++
          message)) = 0 := by
  have regroup : ∀ sum : List UInt8,
      ipovly ipProtoUdp (htons (msglen + udphdrLen)) address ++
        (port ++ htons (msglen + udphdrLen) ++ sum ++ message) =
      ipovly ipProtoUdp (htons (msglen + udphdrLen)) address ++
        (port ++ htons (msglen + udphdrLen)) ++ sum ++ message := by
    intro sum
    simp only [List.append_assoc]
  have zeros : sentOver msglen address port message =
      ipovly ipProtoUdp (htons (msglen + udphdrLen)) address ++
        (port ++ htons (msglen + udphdrLen)) ++ [0, 0] ++ message := by
    rw [sentOver, ← regroup, List.append_assoc]
  have word : (htons (msglen + udphdrLen)).length = 2 := rfl
  rw [regroup]
  apply inCksum_stored
  · rw [List.length_append, List.length_append, length_ipovly addresses, ports]
    exact ⟨13, rfl⟩
  · refine ⟨ipProtoUdp, ?_, by decide⟩
    simp only [ipovly, List.mem_append, List.mem_singleton, true_or, or_true]
  · simp only [List.length_append, length_ipovly addresses, ports, word,
      length]
    exact fits
  · exact sentSum_lt
  · rw [← zeros]
    exact sentSum_mod

end Sent

theorem udpipgen_sums {ip_id msglen : Nat} {saddr daddr : NID32}
    {sport dport : Vector UInt8 2} {packet : List UInt8} {next : Nat}
    (made : udpipgen order ip_id saddr daddr sport dport msglen udpip =
      some (packet, next)) (fits : udpiphdrLen + msglen < 65536) :
    ∃ header ports ulen sum message,
      DatagramSums order header ports ulen sum message ∧
      message.length = msglen ∧
      packet.take (udpiphdrLen + msglen) =
        header ++ (ports ++ ulen ++ sum ++ message) := by
  rw [udpipgen] at made
  split at made
  case isFalse => exact absurd made nofun
  rename_i room
  cases made
  have small : msglen + udphdrLen < 65536 := by
    simp only [udpiphdrLen, ipLen, udphdrLen] at fits ⊢
    omega
  have length : ((udpip.drop udpiphdrLen).take msglen).length = msglen := by
    rw [List.length_take, List.length_drop]
    omega
  have addresses : (saddr.toList ++ daddr.toList).length = 8 := by
    rw [List.length_append, saddr.length_toList, daddr.length_toList]
  have ports : (sport.toList ++ dport.toList).length = 4 := by
    rw [List.length_append, sport.length_toList, dport.length_toList]
  generalize udpip.drop udpiphdrLen = msg at length ⊢
  generalize saddr.toList ++ daddr.toList = address at addresses ⊢
  generalize sport.toList ++ dport.toList = port at ports ⊢
  refine ⟨sentHeader order ip_id msglen address, port,
    htons (msglen + udphdrLen),
    order.halves (sentSum order msglen address port (msg.take msglen)),
    msg.take msglen, ?_, length, ?_⟩
  · exact {
      header_length := length_sentHeader addresses
      first := rfl
      ports_length := ports
      ulen_length := rfl
      sum_length := order.length_halves _
      extent := by
        rw [ntohs_htons small, length, Nat.add_comm]
      header_sum := sentHeader_sum addresses
      udp_sum := by
        rw [sentHeader, List.drop_left' (sentFront_halves _)]
        exact sentSum_right addresses ports length fits }
  · have sent : ∀ header udp : List UInt8, header.length = ipLen →
        udp.length = udphdrLen →
        (header ++ udp ++ msg).take (udpiphdrLen + msglen) =
          header ++ (udp ++ msg.take msglen) := by
      intro header udp length length₂
      have both : (header ++ udp).length = udpiphdrLen := by
        rw [List.length_append, length, length₂, udpiphdrLen]
      rw [← both, List.take_length_add_append, List.append_assoc]
    apply sent
    · exact length_sentHeader addresses
    · rw [List.length_append, List.length_append, order.length_halves, ports]
      rfl

theorem udpipgen_checked (sender receiver : ByteOrder) {ip_id msglen : Nat}
    {saddr daddr : NID32} {sport dport : Vector UInt8 2}
    {udpip packet : List UInt8} {next : Nat}
    (agree : sender = receiver ∨ 2 ∣ msglen)
    (fits : udpiphdrLen + msglen < 65536)
    (made : udpipgen sender ip_id saddr daddr sport dport msglen udpip =
      some (packet, next)) (front rest : List UInt8) :
    udpipchk receiver (front ++ (packet.take (udpiphdrLen + msglen) ++ rest))
      front.length =
        some (0, front ++ (packet.take (udpiphdrLen + msglen) ++ rest)) := by
  obtain ⟨header, ports, ulen, sum, message, sums, length, parts⟩ :=
    udpipgen_sums made fits
  rw [parts]
  exact sums.checked (length.symm ▸ agree) (length.symm ▸ fits) front rest

section Example

private def exampleMemory : List UInt8 :=
  List.replicate 28 170 ++ [1, 2, 3, 4, 5]

private def examplePacket : List UInt8 :=
  [69, 0, 0, 32, 1, 2, 0, 0, 64, 17, 121, 203, 0, 0, 0, 1, 255, 255, 255, 255,
    0, 68, 0, 67, 0, 12, 251, 72, 1, 2, 3, 4]

/-- The client writes on a machine of one byte order, and a machine of the
other one checks. -/
theorem udpipgen_checked_four :
    udpipchk .big ([6, 6] ++ (examplePacket ++ [7])) 2 =
      some (0, [6, 6] ++ (examplePacket ++ [7])) :=
  udpipgen_checked .little .big (.inr ⟨2, rfl⟩) (by decide)
    (by decide : udpipgen .little 258 (NID32.ofNat 1)
      (NID32.ofNat 4294967295) #v[0, 68] #v[0, 67] 4 exampleMemory =
        some (examplePacket ++ [5], 259)) [6, 6] [7]

end Example

section Change

variable {index : Nat} {first old new : UInt8}

theorem inCksum_set {bytes : List UInt8} (small : bytes.length < 65536)
    (zero : inCksum order bytes = 0) (here : bytes[index]? = some old)
    (different : new ≠ old) : inCksum order (bytes.set index new) ≠ 0 := by
  intro zero₂
  have same := (inCksum_eq_zero_iff (by rwa [List.length_set])).mp zero₂
  have before := (inCksum_eq_zero_iff small).mp zero
  apply sumWords_set_mod_ne order here different
  rw [same.2, before.2]

theorem length_coveredBytes (room : udpiphdrLen ≤ udpip.length)
    (inside : coveredLength udpip + ipLen ≤ udpip.length) :
    (coveredBytes udpip).length = ipLen + coveredLength udpip := by
  rw [coveredBytes, List.length_append, length_pseudoHeader room,
    List.length_take, List.length_drop]
  omega

/-- The pseudo header takes the place of the header, so a byte has one index in
the packet and in what the sum covers. -/
theorem coveredBytes_set (room : udpiphdrLen ≤ udpip.length)
    (data : ipLen ≤ index)
    (elsewhere : index ≠ 24 ∧ index ≠ 25) (new : UInt8) :
    coveredLength (udpip.set index new) = coveredLength udpip ∧
      coveredBytes (udpip.set index new) =
        (coveredBytes udpip).set index new := by
  have header : (udpip.set index new).take ipLen = udpip.take ipLen :=
    List.take_set_of_le data
  have ulen : ((udpip.set index new).drop 24).take 2 =
      (udpip.drop 24).take 2 := by
    rw [List.drop_set]
    split
    · rfl
    · exact List.take_set_of_le (by omega)
  have length : coveredLength (udpip.set index new) = coveredLength udpip := by
    rw [coveredLength, ulen, coveredLength]
  refine ⟨length, ?_⟩
  rw [coveredBytes, coveredBytes, pseudoHeader, header, ulen, length,
    ← pseudoHeader, List.set_append_right, length_pseudoHeader room,
    List.drop_set, if_neg (Nat.not_lt.mpr data), List.take_set]
  rw [length_pseudoHeader room]
  exact data

theorem getElem_coveredBytes (room : udpiphdrLen ≤ udpip.length)
    (data : ipLen ≤ index)
    (part : index < ipLen + coveredLength udpip) :
    (coveredBytes udpip)[index]? = udpip[index]? := by
  have back : (pseudoHeader udpip).length ≤ index := by
    rwa [length_pseudoHeader room]
  have within : index - ipLen < coveredLength udpip := by
    omega
  rw [coveredBytes, List.getElem?_append_right back, length_pseudoHeader room,
    List.getElem?_take_of_lt within, List.getElem?_drop,
    Nat.add_sub_cancel' data]

theorem accepted_sums (start : udpip[0]? = some first)
    (plain : first.toNat % 16 = 5) (room : udpiphdrLen ≤ udpip.length)
    (summed : (udpip.drop 26).take 2 ≠ [0, 0]) {front memory : List UInt8}
    (accepted : udpipchk order (front ++ udpip) front.length =
      some (0, memory)) :
    inCksum order (udpip.take ipLen) = 0 ∧
      coveredLength udpip + ipLen ≤ udpip.length ∧
      inCksum order (coveredBytes udpip) = 0 := by
  rw [udpipchk_plain start plain room, if_neg summed] at accepted
  split_ifs at accepted with damaged outside wrong
  · cases accepted
  · cases accepted
  · exact ⟨not_not.mp damaged, Nat.not_lt.mp outside, not_not.mp wrong⟩

/-- What becomes of an accepted packet with a sum of UDP in which one byte is
another, outside the first byte and the length of the datagram. -/
theorem udpipchk_changed (room : udpiphdrLen ≤ udpip.length)
    (start : udpip[0]? = some first) (plain : first.toNat % 16 = 5)
    (fits : ipLen + coveredLength udpip < 65536) {front memory : List UInt8}
    (accepted : udpipchk order (front ++ udpip) front.length =
      some (0, memory))
    (summed : (udpip.drop 26).take 2 ≠ [0, 0])
    (here : udpip[index]? = some old) (different : new ≠ old)
    (elsewhere : index ≠ 0 ∧ index ≠ 24 ∧ index ≠ 25) :
    ∃ memory, udpipchk order (front ++ udpip.set index new) front.length =
      some (if index < ipLen then -1
        else if index < ipLen + coveredLength udpip ∧
          ((udpip.set index new).drop 26).take 2 ≠ [0, 0] then -2
        else 0, memory) := by
  obtain ⟨header, inside, sum⟩ :=
    accepted_sums start plain room summed accepted
  have start₂ : (udpip.set index new)[0]? = some first := by
    rw [List.getElem?_set_ne elsewhere.1, start]
  have room₂ : udpiphdrLen ≤ (udpip.set index new).length := by
    rwa [List.length_set]
  rw [udpipchk_plain start₂ plain room₂]
  rcases Nat.lt_or_ge index ipLen with front | data
  · have damaged : inCksum order ((udpip.set index new).take ipLen) ≠ 0 := by
      rw [List.take_set]
      apply inCksum_set _ header _ different
      · rw [List.length_take]
        exact Nat.lt_of_le_of_lt (Nat.min_le_left _ _) (by decide)
      · rw [List.getElem?_take_of_lt front, here]
    rw [if_pos damaged, if_pos front]
    exact ⟨_, rfl⟩
  · obtain ⟨extent, moved⟩ := coveredBytes_set room data elsewhere.2 new
    have intact : inCksum order ((udpip.set index new).take ipLen) = 0 := by
      rw [List.take_set_of_le data, header]
    have within : coveredLength udpip + ipLen ≤
        (udpip.set index new).length := by
      rwa [List.length_set]
    rw [if_neg (not_not.mpr intact), if_neg (Nat.not_lt.mpr data), extent,
      if_neg (Nat.not_lt.mpr within), moved]
    by_cases unsummed : ((udpip.set index new).drop 26).take 2 = [0, 0]
    · rw [if_pos unsummed, if_neg (fun both => both.2 unsummed)]
      exact ⟨_, rfl⟩
    · rw [if_neg unsummed]
      rcases Nat.lt_or_ge index (ipLen + coveredLength udpip) with part | after
      · have wrong :
            inCksum order ((coveredBytes udpip).set index new) ≠ 0 := by
          apply inCksum_set _ sum _ different
          · rwa [length_coveredBytes room inside]
          · rw [getElem_coveredBytes room data part, here]
        rw [if_pos wrong, if_pos ⟨part, unsummed⟩]
        exact ⟨_, rfl⟩
      · have whole :
            (coveredBytes udpip).set index new = coveredBytes udpip := by
          apply List.set_eq_of_length_le
          rwa [length_coveredBytes room inside]
        rw [whole, if_neg (not_not.mpr sum),
          if_neg (fun both => Nat.not_lt.mpr after both.1)]
        exact ⟨_, rfl⟩

end Change

section Example

/-- The first byte of the message changes. -/
theorem udpipchk_changed_four :
    ∃ memory, udpipchk .little ([6, 6] ++ examplePacket.set 28 9) 2 =
      some (-2, memory) :=
  udpipchk_changed (by decide) rfl rfl (by decide)
    (by decide : udpipchk .little ([6, 6] ++ examplePacket) 2 =
      some (0, [6, 6] ++ examplePacket))
    (by decide) rfl (by decide) (by decide)

end Example

end NodeIdentity
