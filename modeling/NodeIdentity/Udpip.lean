import NodeIdentity.Library.ByteMemory
import NodeIdentity.Library.OnesComplement
import NodeIdentity.DnsHandler

/-!
# Headers of the DHCP client

`udpipgen.c`.  The client makes and checks IP and UDP headers itself, since it
has no address yet.  For the checksum of UDP the front of the IP header is
overlaid in place with a pseudo header and written anew afterwards.  Checksums
are sums of words as the machine loads them; `none` is an access outside the
memory which begins with the packet.
-/

namespace NodeIdentity

open NodeIdentity.Library

/-- `sizeof(struct ip)`. -/
def ipLen : Nat := 20

/-- `sizeof(struct udphdr)`. -/
def udphdrLen : Nat := 8

def udpiphdrLen : Nat := ipLen + udphdrLen

/-- `IPPROTO_UDP`. -/
def ipProtoUdp : UInt8 := 17

/-- `IPDEFTTL`. -/
def ipDefTtl : UInt8 := 64

def inCksum (order : ByteOrder) (bytes : List UInt8) : Nat :=
  65535 - foldCarries (sumWords order bytes)

/-- `struct ipovly` over an IP header. -/
def ipovly (ih_pr : UInt8) (ih_len addresses : List UInt8) : List UInt8 :=
  List.replicate 9 0 ++ [ih_pr] ++ ih_len ++ addresses

/-- Ports are the bytes they have in memory, and so are the addresses.  What
has been in the header before makes no difference. -/
def udpipgen (order : ByteOrder) (ip_id : Nat) (saddr daddr : NID32)
    (sport dport : Vector UInt8 2) (msglen : Nat) (udpip : List UInt8) :
    Option (List UInt8 × Nat) :=
  if udpiphdrLen + msglen ≤ udpip.length then
    let addresses := saddr.toList ++ daddr.toList
    let uh_ulen := htons (msglen + udphdrLen)
    let udp (uh_sum : List UInt8) :=
      sport.toList ++ dport.toList ++ uh_ulen ++ uh_sum
    let msg := udpip.drop udpiphdrLen
    let sum := inCksum order (ipovly ipProtoUdp uh_ulen addresses ++
      udp [0, 0] ++ msg.take msglen)
    let uh_sum := if sum = 0 then 65535 else sum
    let ip (ip_sum : List UInt8) :=
      [69, 0] ++ htons (msglen + udpiphdrLen) ++ htons ip_id ++ [0, 0] ++
        [ipDefTtl, ipProtoUdp] ++ ip_sum ++ addresses
    let ip_sum := inCksum order (ip [0, 0])
    some (ip (order.halves ip_sum) ++ udp (order.halves uh_sum) ++ msg,
      (ip_id + 1) % 65536)
  else none

/-- `ntohs` of two bytes. -/
def ntohs (bytes : List UInt8) : Nat :=
  256 * (bytes.getD 0 0).toNat + (bytes.getD 1 0).toNat

/-- The result and what is in the buffer afterwards, for a packet which begins
at `udpip`.  The header of a packet with options is moved behind them; if it
says that it is shorter than `struct ip`, it is moved to the front. -/
def udpipchk (order : ByteOrder) (memory : List UInt8) (udpip : Nat) :
    Option (Int × List UInt8) := do
  let first ← memory[udpip]?
  let hl := first.toNat % 16 * 4
  let header ← readAt memory udpip hl
  if inCksum order header ≠ 0 then return (-1, memory)
  let save_ip ← readAt memory udpip ipLen
  let place :=
    if udpip + hl < ipLen then none else some (udpip + hl - ipLen)
  let nudpip ← place
  let thrashed :=
    if hl = ipLen then some memory else writeAt memory nudpip save_ip
  let memory ← thrashed
  let uh_sum ← readAt memory (nudpip + 26) 2
  if uh_sum = [0, 0] then return (0, memory)
  let uh_ulen ← readAt memory (nudpip + 24) 2
  let memory ← writeAt memory nudpip
    (ipovly (save_ip.getD 9 0) uh_ulen (save_ip.drop 12))
  let summed ← readAt memory nudpip (ntohs uh_ulen + ipLen)
  if inCksum order summed ≠ 0 then return (-2, memory)
  let memory ← writeAt memory udpip save_ip
  return (0, memory)

end NodeIdentity
