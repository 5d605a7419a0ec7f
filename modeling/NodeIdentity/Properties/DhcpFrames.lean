import NodeIdentity.DhcpClient
import NodeIdentity.Properties.UdpipChecksums

/-!
# Frames in the buffer of the DHCP client

Which frames make the client read outside its buffer.
-/

namespace NodeIdentity

open NodeIdentity.Library

/-- The length of the header at an index, as it says itself. -/
def headerLen (memory : List UInt8) (udpip : Nat) : Nat :=
  (memory.getD udpip 0).toNat % 16 * 4

/-- `uh_ulen` behind the header. -/
def ulenAt (memory : List UInt8) (udpip : Nat) : Nat :=
  ntohs ((memory.drop (udpip + headerLen memory udpip + 4)).take 2)

/-- `uh_sum` behind the header. -/
def sumAt (memory : List UInt8) (udpip : Nat) : List UInt8 :=
  (memory.drop (udpip + headerLen memory udpip + 6)).take 2

def headerAt (memory : List UInt8) (udpip : Nat) : List UInt8 :=
  (memory.drop udpip).take (headerLen memory udpip)

section Check

variable {order : ByteOrder} {memory : List UInt8} {udpip : Nat}

theorem headerLen_le (memory : List UInt8) (udpip : Nat) :
    headerLen memory udpip ≤ 60 := by
  rw [headerLen]
  omega

theorem length_ipovly_read {save_ip uh_ulen : List UInt8}
    (header : save_ip.length = ipLen) (length : uh_ulen.length = 2)
    (protocol : UInt8) :
    (ipovly protocol uh_ulen (save_ip.drop 12)).length = ipLen := by
  rw [ipovly, List.length_append, List.length_append, length,
    List.length_drop, header]
  rfl

theorem udpipchk_eq_none_iff (room : udpip + 68 ≤ memory.length) :
    udpipchk order memory udpip = none ↔
      inCksum order (headerAt memory udpip) = 0 ∧
        (udpip + headerLen memory udpip < ipLen ∨
          sumAt memory udpip ≠ [0, 0] ∧
            memory.length < udpip + headerLen memory udpip +
              ulenAt memory udpip) := by
  have inside : udpip < memory.length := by omega
  have start : memory[udpip]? = some (memory.getD udpip 0) := by
    rw [List.getD_eq_getElem?_getD, List.getElem?_eq_getElem inside,
      Option.getD_some]
  have counted : (memory.getD udpip 0).toNat % 16 * 4 =
      headerLen memory udpip := rfl
  have small := headerLen_le memory udpip
  have header : readAt memory udpip (headerLen memory udpip) =
      some (headerAt memory udpip) := readAt_eq (by omega)
  have save : readAt memory udpip ipLen =
      some ((memory.drop udpip).take ipLen) := readAt_eq (by rw [ipLen]; omega)
  simp only [udpipchk, start, counted, header, save, Option.bind_eq_bind,
    Option.bind_some]
  by_cases damaged : inCksum order (headerAt memory udpip) ≠ 0
  · simp [damaged]
  rw [if_neg damaged, and_iff_right (not_not.mp damaged)]
  by_cases short : udpip + headerLen memory udpip < ipLen
  · simp [short]
  rw [if_neg short, Option.bind_some]
  have saved : ((memory.drop udpip).take ipLen).length = ipLen :=
    (readAt_eq_some_iff.mp save).2.1
  have sum : readAt memory (udpip + headerLen memory udpip + 6) 2 =
      some (sumAt memory udpip) := readAt_eq (by omega)
  have ulen : readAt memory (udpip + headerLen memory udpip + 4) 2 =
      some ((memory.drop (udpip + headerLen memory udpip + 4)).take 2) :=
    readAt_eq (by omega)
  have ulenLength := (readAt_eq_some_iff.mp ulen).2.1
  rw [ulenAt]
  generalize (memory.drop (udpip + headerLen memory udpip + 4)).take 2 =
    uh_ulen at ulen ulenLength ⊢
  generalize sumAt memory udpip = uh_sum at sum ⊢
  generalize (memory.drop udpip).take ipLen = save_ip at saved save ⊢
  generalize headerLen memory udpip = hl at *
  obtain ⟨moved, move, length, behind⟩ : ∃ moved,
      (if hl = ipLen then some memory
        else writeAt memory (udpip + hl - ipLen) save_ip) = some moved ∧
      moved.length = memory.length ∧
      ∀ place count, udpip + hl ≤ place →
        readAt moved place count = readAt memory place count := by
    by_cases plain : hl = ipLen
    · rw [if_pos plain]
      exact ⟨memory, rfl, rfl, fun _ _ _ => rfl⟩
    · rw [if_neg plain]
      have past : udpip + hl - ipLen + save_ip.length = udpip + hl := by
        rw [saved]
        exact Nat.sub_add_cancel (Nat.not_lt.mp short)
      have fits : udpip + hl - ipLen + save_ip.length ≤ memory.length :=
        past.trans_le (by omega)
      have done := writeAt_eq fits
      exact ⟨_, done, length_of_writeAt done, fun place count after =>
        readAt_behind done (past.trans_le after) count⟩
  have place₁ : udpip + hl - ipLen + 26 = udpip + hl + 6 := by
    rw [ipLen] at short ⊢
    omega
  have place₂ : udpip + hl - ipLen + 24 = udpip + hl + 4 := by
    rw [ipLen] at short ⊢
    omega
  have sum₂ : readAt moved (udpip + hl + 6) 2 = some uh_sum :=
    (behind _ _ (Nat.le_add_right _ _)).trans sum
  have ulen₂ : readAt moved (udpip + hl + 4) 2 = some uh_ulen :=
    (behind _ _ (Nat.le_add_right _ _)).trans ulen
  rw [move, Option.bind_some, place₁, place₂, sum₂, Option.bind_some]
  by_cases unsummed : uh_sum = [0, 0]
  · simp [unsummed, short]
  obtain ⟨overlaid, overlay⟩ : ∃ overlaid, writeAt moved
      (udpip + hl - ipLen) (ipovly (save_ip.getD 9 0) uh_ulen
        (save_ip.drop 12)) = some overlaid := by
    refine ⟨_, writeAt_eq ?_⟩
    rw [length_ipovly_read saved ulenLength, length]
    omega
  have length₂ := (length_of_writeAt overlay).trans length
  obtain ⟨restored, restore⟩ : ∃ restored,
      writeAt overlaid udpip save_ip = some restored := by
    refine ⟨_, writeAt_eq ?_⟩
    rw [saved, length₂, ipLen]
    omega
  rw [if_neg unsummed, ulen₂, Option.bind_some, overlay, Option.bind_some]
  have place₃ : udpip + hl - ipLen + (ntohs uh_ulen + ipLen) =
      udpip + hl + ntohs uh_ulen := by
    rw [ipLen] at short ⊢
    omega
  constructor
  · intro outside
    refine .inr ⟨unsummed, ?_⟩
    rw [← length₂, ← place₃]
    apply readAt_eq_none_iff.mp
    by_contra read
    obtain ⟨summed, read⟩ := Option.ne_none_iff_exists'.mp read
    rw [read, Option.bind_some] at outside
    split at outside
    · cases outside
    · rw [restore] at outside
      cases outside
  · rintro (front | ⟨_, outside⟩)
    · exact absurd front short
    · rw [← length₂, ← place₃] at outside
      rw [readAt_eq_none_iff.mpr outside, Option.bind_none]

theorem length_of_udpipchk {damage : Int} {after : List UInt8}
    (checked : udpipchk order memory udpip = some (damage, after)) :
    after.length = memory.length := by
  rw [udpipchk] at checked
  obtain ⟨first, _, checked⟩ := Option.bind_eq_some_iff.mp checked
  obtain ⟨header, _, checked⟩ := Option.bind_eq_some_iff.mp checked
  split at checked
  · cases checked
    rfl
  obtain ⟨save_ip, _, checked⟩ := Option.bind_eq_some_iff.mp checked
  obtain ⟨nudpip, _, checked⟩ := Option.bind_eq_some_iff.mp checked
  obtain ⟨moved, move, checked⟩ := Option.bind_eq_some_iff.mp checked
  have length : moved.length = memory.length := by
    split at move
    · cases move
      rfl
    · exact length_of_writeAt move
  obtain ⟨uh_sum, _, checked⟩ := Option.bind_eq_some_iff.mp checked
  split at checked
  · cases checked
    exact length
  obtain ⟨uh_ulen, _, checked⟩ := Option.bind_eq_some_iff.mp checked
  obtain ⟨overlaid, overlay, checked⟩ := Option.bind_eq_some_iff.mp checked
  obtain ⟨summed, _, checked⟩ := Option.bind_eq_some_iff.mp checked
  split at checked
  · cases checked
    exact (length_of_writeAt overlay).trans length
  obtain ⟨restored, restore, checked⟩ := Option.bind_eq_some_iff.mp checked
  cases checked
  exact (length_of_writeAt restore).trans
    ((length_of_writeAt overlay).trans length)

/-- A header of one word with a right sum says that the packet is longer than
any frame. -/
theorem inCksum_word_ne_zero {a b c d : UInt8} (version : a.toNat % 16 = 1)
    (short : ntohs [c, d] < 3584) : inCksum order [a, b, c, d] ≠ 0 := by
  intro right
  have sum := (inCksum_eq_zero_iff (Nat.lt_of_sub_eq_succ rfl)).mp right
  have turned : sumWords .big [a, b, c, d] % 65535 =
      256 * sumWords .little [a, b, c, d] % 65535 :=
    sumWords_big_mod ⟨2, rfl⟩
  have bound := a.toNat_lt
  have bound₂ := b.toNat_lt
  have length : ntohs [c, d] = 256 * c.toNat + d.toNat := rfl
  have words : sumWords .big [a, b, c, d] =
      256 * a.toNat + b.toNat + (256 * c.toNat + d.toNat) := rfl
  have multiple : sumWords .big [a, b, c, d] % 65535 = 0 := by
    cases order with
    | little =>
        rw [turned]
        omega
    | big => exact sum.2
  have below : sumWords .big [a, b, c, d] < 65535 := by omega
  rw [Nat.mod_eq_of_lt below] at multiple
  omega

end Check

def ipRecv (frame : List UInt8) : List UInt8 :=
  ((udpIpMsgRecv frame).drop (tmpIp (udpIpMsgRecv frame))).take ipLen

/-- The client looks at the checksums of a frame. -/
structure Examined (frame : List UInt8) : Prop where
  ether_type : ((udpIpMsgRecv frame).drop 12).take 2 = etherTypeIp
  ip_p : (ipRecv frame).getD 9 0 = ipProtoUdp
  ip_len : (ntohs ((ipRecv frame).drop 2) : Int) ≤
    min (frame.length : Int) udpipMessageLen - etherHeaderLen
  uh_ulen : (ntohs (((udpIpMsgRecv frame).drop
    (tmpIp (udpIpMsgRecv frame) + 24)).take 2) : Int) ≤
      ntohs ((ipRecv frame).drop 2) -
        headerLen (udpIpMsgRecv frame) (tmpIp (udpIpMsgRecv frame))

section Frames

variable {order : ByteOrder} {doCheckSum : Bool} {xid : Vector UInt8 4}
  {frame : List UInt8}

theorem length_udpIpMsgRecv (frame : List UInt8) :
    (udpIpMsgRecv frame).length = udpipMessageLen := by
  rw [udpIpMsgRecv, List.length_append, List.length_take,
    List.length_replicate]
  omega

theorem tmpIp_le (memory : List UInt8) :
    tmpIp memory ≤ etherHeaderLen + 16 := by
  rw [tmpIp]
  split
  case h_1 index found =>
    have member := List.mem_of_find?_eq_some found
    have below := List.mem_range.mp member
    omega
  case h_2 => exact Nat.le_add_right _ _

theorem etherHeaderLen_le_tmpIp (memory : List UInt8) :
    etherHeaderLen ≤ tmpIp memory := by
  rw [tmpIp]
  split
  case h_1 => exact Nat.le_add_right _ _
  case h_2 => exact Nat.le_refl _

theorem ipRecv_take (frame : List UInt8) :
    readAt (udpIpMsgRecv frame) (tmpIp (udpIpMsgRecv frame)) ipLen =
      some (ipRecv frame) := by
  have place := tmpIp_le (udpIpMsgRecv frame)
  have total : udpipMessageLen = 1554 := rfl
  have front : etherHeaderLen + 16 + ipLen = 50 := rfl
  rw [ipRecv, readAt_eq]
  rw [length_udpIpMsgRecv]
  omega

theorem headerLen_ipRecv (frame : List UInt8) :
    headerLen (udpIpMsgRecv frame) (tmpIp (udpIpMsgRecv frame)) =
      ((ipRecv frame).getD 0 0).toNat % 16 * 4 := by
  rw [headerLen, ipRecv, List.getD_eq_getElem?_getD,
    List.getD_eq_getElem?_getD, List.getElem?_take_of_lt (by decide),
    List.getElem?_drop, Nat.add_zero]

theorem Examined.header_long {frame : List UInt8} (examined : Examined frame)
    (right : inCksum order (headerAt (udpIpMsgRecv frame)
      (tmpIp (udpIpMsgRecv frame))) = 0) :
    8 ≤ headerLen (udpIpMsgRecv frame) (tmpIp (udpIpMsgRecv frame)) := by
  have place := tmpIp_le (udpIpMsgRecv frame)
  have short := examined.ip_len
  have size := length_udpIpMsgRecv frame
  have counted := headerLen_ipRecv frame
  rw [headerAt] at right
  rw [ipRecv] at short counted
  generalize headerLen (udpIpMsgRecv frame) (tmpIp (udpIpMsgRecv frame)) = hl
    at right counted ⊢
  generalize tmpIp (udpIpMsgRecv frame) = tmp_ip at *
  generalize udpIpMsgRecv frame = memory at *
  have total : udpipMessageLen = 1554 := rfl
  have front : etherHeaderLen = 14 := rfl
  have room : 4 ≤ (memory.drop tmp_ip).length := by
    rw [List.length_drop]
    omega
  by_contra less
  have word : hl = 0 ∨ hl = 4 := by omega
  obtain ⟨a, b, c, d, rest, bytes⟩ : ∃ a b c d rest,
      memory.drop tmp_ip = a :: b :: c :: d :: rest := by
    match memory.drop tmp_ip, room with
    | a :: b :: c :: d :: rest, _ => exact ⟨a, b, c, d, rest, rfl⟩
  rw [bytes] at right short counted
  have same : ntohs (((a :: b :: c :: d :: rest).take ipLen).drop 2) =
      ntohs [c, d] := rfl
  have first : ((a :: b :: c :: d :: rest).take ipLen).getD 0 0 = a := rfl
  rw [same] at short
  rw [first] at counted
  rcases word with rfl | rfl
  · rw [List.take_zero] at right
    cases order with
    | little => exact absurd right (by decide)
    | big => exact absurd right (by decide)
  · apply inCksum_word_ne_zero _ _ right
    · omega
    · omega

theorem exists_dhcpAnswer (xid : Vector UInt8 4) {memory : List UInt8}
    {dhcpMsgRecv : Nat} (room : dhcpMsgRecv + 20 ≤ memory.length)
    (longer : 30 ≤ memory.length) :
    ∃ result, dhcpAnswer xid memory dhcpMsgRecv = some result ∧
      ∀ m ∈ result,
        m.options = memory.drop (dhcpMsgRecv + dhcpOptionsOffset) := by
  have answered : readAt memory (dhcpMsgRecv + 4) 4 = _ :=
    readAt_eq (by omega)
  have yiaddr : readAt memory (dhcpMsgRecv + 16) 4 = _ := readAt_eq (by omega)
  have ip_src : readAt memory (etherHeaderLen + 12) 4 = _ := readAt_eq longer
  have first : dhcpMsgRecv < memory.length := by omega
  have second : dhcpMsgRecv + 1 < memory.length := by omega
  simp only [dhcpAnswer, answered, yiaddr, ip_src, Option.bind_eq_bind,
    Option.bind_some, List.getElem?_eq_getElem first,
    List.getElem?_eq_getElem second]
  split_ifs
  · exact ⟨none, rfl, fun _ absent => nomatch absent⟩
  · exact ⟨none, rfl, fun _ absent => nomatch absent⟩
  · exact ⟨none, rfl, fun _ absent => nomatch absent⟩
  · refine ⟨_, rfl, fun m here => ?_⟩
    cases here
    rfl

section Receive

variable (order doCheckSum xid)

theorem dhcpRecv_of_not_examined (other : ¬ Examined frame) :
    dhcpRecv order doCheckSum xid frame = some none := by
  have place := tmpIp_le (udpIpMsgRecv frame)
  have size := length_udpIpMsgRecv frame
  have total : udpipMessageLen = 1554 := rfl
  have front : etherHeaderLen + 16 = 30 := rfl
  have type : readAt (udpIpMsgRecv frame) 12 2 = _ := readAt_eq (by omega)
  have ulen : readAt (udpIpMsgRecv frame)
      (tmpIp (udpIpMsgRecv frame) + 24) 2 = _ := readAt_eq (by omega)
  simp only [dhcpRecv, type, ipRecv_take, ulen, Option.bind_eq_bind,
    Option.bind_some, ← headerLen_ipRecv]
  by_cases ether_type :
      ((udpIpMsgRecv frame).drop 12).take 2 = etherTypeIp
  case neg => rw [if_pos ether_type, Option.pure_def]
  rw [if_neg (not_not.mpr ether_type)]
  by_cases ip_p : (ipRecv frame).getD 9 0 = ipProtoUdp
  case neg => rw [if_pos ip_p, Option.pure_def]
  rw [if_neg (not_not.mpr ip_p)]
  split
  · rfl
  case isFalse ip_len =>
    split
    · rfl
    case isFalse uh_ulen =>
      exact (other ⟨ether_type, ip_p, not_lt.mp ip_len,
        not_lt.mp uh_ulen⟩).elim

theorem dhcpRecv_of_examined (examined : Examined frame) :
    dhcpRecv order doCheckSum xid frame =
      (if doCheckSum then
          udpipchk order (udpIpMsgRecv frame) (tmpIp (udpIpMsgRecv frame))
        else some (0, udpIpMsgRecv frame)).bind fun result =>
          if result.1 ≠ 0 then some none
          else dhcpAnswer xid result.2 (tmpIp (udpIpMsgRecv frame) +
            headerLen (udpIpMsgRecv frame) (tmpIp (udpIpMsgRecv frame)) +
              udphdrLen) := by
  have place := tmpIp_le (udpIpMsgRecv frame)
  have size := length_udpIpMsgRecv frame
  have total : udpipMessageLen = 1554 := rfl
  have front : etherHeaderLen + 16 = 30 := rfl
  have type : readAt (udpIpMsgRecv frame) 12 2 = _ := readAt_eq (by omega)
  have ulen : readAt (udpIpMsgRecv frame)
      (tmpIp (udpIpMsgRecv frame) + 24) 2 = _ := readAt_eq (by omega)
  simp only [dhcpRecv, type, ipRecv_take, ulen, Option.bind_eq_bind,
    Option.bind_some, ← headerLen_ipRecv]
  rw [if_neg (not_not.mpr examined.ether_type),
    if_neg (not_not.mpr examined.ip_p), if_neg (not_lt.mpr examined.ip_len),
    if_neg (not_lt.mpr examined.uh_ulen)]
  rfl

end Receive

/-- There is room for a message behind every header, and for one more option
behind its options. -/
theorem exists_answer {memory : List UInt8}
    (length : memory.length = udpipMessageLen) (xid : Vector UInt8 4)
    (frame : List UInt8) :
    ∃ result, dhcpAnswer xid memory (tmpIp (udpIpMsgRecv frame) +
      headerLen (udpIpMsgRecv frame) (tmpIp (udpIpMsgRecv frame)) +
        udphdrLen) = some result ∧
      ∀ m ∈ result, dhcpOptionsLen + 256 ≤ m.options.length := by
  have place := tmpIp_le (udpIpMsgRecv frame)
  have small := headerLen_le (udpIpMsgRecv frame) (tmpIp (udpIpMsgRecv frame))
  have total : udpipMessageLen = 1554 := rfl
  have front : etherHeaderLen + 16 = 30 := rfl
  have udp : udphdrLen = 8 := rfl
  have offset : dhcpOptionsOffset = 236 := rfl
  have options : dhcpOptionsLen + 256 = 568 := rfl
  have room : tmpIp (udpIpMsgRecv frame) +
      headerLen (udpIpMsgRecv frame) (tmpIp (udpIpMsgRecv frame)) +
        udphdrLen + 20 ≤ memory.length := by omega
  obtain ⟨result, answer, found⟩ := exists_dhcpAnswer xid room (by omega)
  refine ⟨result, answer, fun m here => ?_⟩
  rw [found m here, List.length_drop]
  omega

/-- Exactly the frames which make the client read outside its buffer. -/
theorem dhcpRecv_eq_none_iff :
    dhcpRecv order doCheckSum xid frame = none ↔
      doCheckSum = true ∧ Examined frame ∧
        inCksum order (headerAt (udpIpMsgRecv frame)
          (tmpIp (udpIpMsgRecv frame))) = 0 ∧
        sumAt (udpIpMsgRecv frame) (tmpIp (udpIpMsgRecv frame)) ≠ [0, 0] ∧
        udpipMessageLen < tmpIp (udpIpMsgRecv frame) +
          headerLen (udpIpMsgRecv frame) (tmpIp (udpIpMsgRecv frame)) +
          ulenAt (udpIpMsgRecv frame) (tmpIp (udpIpMsgRecv frame)) := by
  by_cases examined : Examined frame
  case neg =>
    rw [dhcpRecv_of_not_examined order doCheckSum xid examined]
    exact ⟨fun found => (nomatch found),
      fun outside => (examined outside.2.1).elim⟩
  rw [dhcpRecv_of_examined order doCheckSum xid examined]
  have place := tmpIp_le (udpIpMsgRecv frame)
  have place₂ := etherHeaderLen_le_tmpIp (udpIpMsgRecv frame)
  have size := length_udpIpMsgRecv frame
  have total : udpipMessageLen = 1554 := rfl
  have front : etherHeaderLen = 14 := rfl
  have room : tmpIp (udpIpMsgRecv frame) + 68 ≤
      (udpIpMsgRecv frame).length := by omega
  cases doCheckSum with
  | false =>
      obtain ⟨result, answer, _⟩ := exists_answer size xid frame
      rw [if_neg (by decide), Option.bind_some, if_neg (not_not.mpr rfl),
        answer]
      exact ⟨fun found => (nomatch found),
        fun outside => (nomatch outside.1)⟩
  | true =>
      rw [if_pos rfl, ← size, and_iff_right rfl, and_iff_right examined]
      constructor
      · intro outside
        have none : udpipchk order (udpIpMsgRecv frame)
            (tmpIp (udpIpMsgRecv frame)) = none := by
          by_contra some
          obtain ⟨⟨damage, memory⟩, checked⟩ :=
            Option.ne_none_iff_exists'.mp some
          have length := (length_of_udpipchk checked).trans size
          obtain ⟨result, answer, _⟩ := exists_answer length xid frame
          rw [checked, Option.bind_some] at outside
          split at outside
          · cases outside
          · rw [answer] at outside
            cases outside
        obtain ⟨right, short | long⟩ := (udpipchk_eq_none_iff room).mp none
        · have words := examined.header_long right
          rw [ipLen] at short
          omega
        · exact ⟨right, long⟩
      · rintro ⟨right, long⟩
        rw [(udpipchk_eq_none_iff room).mpr ⟨right, .inr long⟩,
          Option.bind_none]

/-- A header of 24 bytes, and a port as small as the length of UDP ought to be
where a packet without options has this length. -/
example : dhcpRecv .little true #v[0, 0, 0, 0]
    (List.replicate 12 0 ++ [8, 0] ++
      [70, 1, 0, 32, 0, 0, 0, 0, 64, 17, 121, 205] ++ List.replicate 12 0 ++
        [0, 8, 0, 68, 255, 255, 1, 1]) = none := by
  decide +kernel

theorem room_of_dhcpRecv {m : DhcpMessage}
    (received : dhcpRecv order doCheckSum xid frame = some (some m)) :
    dhcpOptionsLen + 256 ≤ m.options.length := by
  by_cases examined : Examined frame
  case neg =>
    rw [dhcpRecv_of_not_examined order doCheckSum xid examined] at received
    cases received
  rw [dhcpRecv_of_examined order doCheckSum xid examined] at received
  obtain ⟨⟨damage, memory⟩, checked, answered⟩ :=
    Option.bind_eq_some_iff.mp received
  have length : memory.length = udpipMessageLen := by
    have size := length_udpIpMsgRecv frame
    split at checked
    · exact (length_of_udpipchk checked).trans size
    · cases checked
      exact size
  obtain ⟨result, answer, room⟩ := exists_answer length xid frame
  split at answered
  · cases answered
  · rw [answer] at answered
    cases answered
    exact room m rfl

end Frames

end NodeIdentity
