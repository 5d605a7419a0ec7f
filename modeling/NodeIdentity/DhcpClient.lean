import NodeIdentity.Library.Machine
import NodeIdentity.Library.OptionField
import NodeIdentity.Dhcp
import NodeIdentity.Udpip

/-!
# The DHCP client

What `client.c` does with a frame, on an Ethernet interface: the receiving part
of `dhcpSendAndRecv`, `parseDhcpMsgRecv` and `releaseDhcpOptions`, and what
`dhcpConfig` does with the options.  `none` is an access outside the buffer of
the frame or outside an option, or through a null pointer, or the end of the
process.
-/

namespace NodeIdentity

open NodeIdentity.Library

/-- `sizeof` of the options of a message. -/
def dhcpOptionsLen : Nat := 312

def padOption : UInt8 := 0
def subnetMask : UInt8 := 1
def routersOnSubnet : UInt8 := 3
def dnsOption : UInt8 := 6
def hostName : UInt8 := 12
def domainName : UInt8 := 15
def rootPath : UInt8 := 17
def broadcastAddr : UInt8 := 28
def staticRoute : UInt8 := 33
def nisDomainName : UInt8 := 40
def nisServers : UInt8 := 41
def ntpServers : UInt8 := 42
def dhcpIPaddrLeaseTime : UInt8 := 51
def dhcpMessageType : UInt8 := 53
def dhcpServerIdentifier : UInt8 := 54
def dhcpT1value : UInt8 := 58
def dhcpT2value : UInt8 := 59
def endOption : UInt8 := 255

/-- `dhcpOptions`.  What `malloc` has returned is a list of bytes. -/
structure DhcpOptions where
  len : UInt8 → UInt8
  val : UInt8 → Option (List UInt8)

/-- What a received message and its packet contribute; `sname` and `options` go
on to the end of the buffer. -/
structure DhcpMessage where
  sname : List UInt8
  options : List UInt8
  yiaddr : NID32
  ip_src : NID32

namespace DhcpOptions

/-- `releaseDhcpOptions`. -/
def released : DhcpOptions := ⟨fun _ => 0, fun _ => none⟩

/-- Memory for an option, and its length. -/
def allocate (code length : UInt8) (bytes : List UInt8) (o : DhcpOptions) :
    DhcpOptions where
  len := Function.update o.len code length
  val := Function.update o.val code (some bytes)

/-- `memcpy` into the memory an option has. -/
def overwrite (code : UInt8) (data : List UInt8) (o : DhcpOptions) :
    Option DhcpOptions := do
  let old ← o.val code
  let new ← writeAt old 0 data
  return { o with val := Function.update o.val code (some new) }

/-- Timers of earlier messages are forgotten. -/
def clear (code : UInt8) (o : DhcpOptions) : Option DhcpOptions :=
  if o.val code ≠ none ∧ 0 < o.len code then
    o.overwrite code (List.replicate (o.len code).toNat 0)
  else some o

def store (code length : UInt8) (data : List UInt8) (o : DhcpOptions) :
    Option DhcpOptions :=
  if o.len code = length then o.overwrite code data
  else some (o.allocate code length (data ++ [0]))

/-- The loop over the options, of which `fuel` rounds are enough. -/
def parseOptions (options : List UInt8) :
    Nat → Nat → DhcpOptions → Option DhcpOptions
  | 0, _, o => some o
  | fuel + 1, p, o =>
      if p < dhcpOptionsLen then do
        let code ← options[p]?
        if code = endOption then return o
        if code = padOption then parseOptions options fuel (p + 1) o
        else
          let length ← options[p + 1]?
          let o ←
            if length ≠ 0 then do
              let data ← readAt options (p + 2) length.toNat
              o.store code length data
            else some o
          parseOptions options fuel (p + 2 + length.toNat) o
      else some o

/-- An option the message did not bring. -/
def assume (code : UInt8) (bytes : Option (List UInt8)) (o : DhcpOptions) :
    Option DhcpOptions :=
  if o.val code = none then do
    let bytes ← bytes
    return o.allocate code 4 bytes
  else some o

/-- Four bytes of an option. -/
def word (code : UInt8) (o : DhcpOptions) : Option (List UInt8) := do
  let bytes ← o.val code
  readAt bytes 0 4

/-- A time which is missing, zero or no word is the one given. -/
def assumeTime (code : UInt8) (time : List UInt8) (o : DhcpOptions) :
    Option DhcpOptions :=
  if o.val code ≠ none ∧ o.len code = 4 then do
    let given ← o.word code
    if given = [0, 0, 0, 0] then o.overwrite code time else some o
  else some (o.allocate code 4 time)

end DhcpOptions

/-- The mask which belongs to the class of an address. -/
def classMask (yiaddr : NID32) : List UInt8 :=
  let first := (yiaddr.toList.getD 0 0).toNat
  if first < 128 then [255, 0, 0, 0]
  else if first < 192 then [255, 255, 0, 0]
  else if first < 224 then [255, 255, 255, 0]
  else [255, 255, 255, 255]

/-- Part of a time, all in network order. -/
def partOf (part : Nat → Nat) (time : List UInt8) : List UInt8 :=
  let seconds := time.foldl (fun number byte => byte.toNat + 256 * number) 0
  (ByteOrder.big.bytes (UInt32.ofNat (part seconds))).toList

def dhcpT1 (lease : List UInt8) : List UInt8 :=
  partOf (fun seconds => seconds / 2) lease

def dhcpT2 (lease : List UInt8) : List UInt8 :=
  partOf (fun seconds => 7 * seconds / 8) lease

/-- What is left when the options have been read.  `ciaddr` is the address in
the message which was sent. -/
def DhcpOptions.complete (nleaseTime : Vector UInt8 4) (ciaddr : NID32)
    (m : DhcpMessage) (o : DhcpOptions) : Option DhcpOptions := do
  let yiaddr := if m.yiaddr = NID32.zero then ciaddr else m.yiaddr
  let o ← o.assume dhcpServerIdentifier (some m.ip_src.toList)
  let o ← o.assume dnsOption (o.word dhcpServerIdentifier)
  let o ← o.assume subnetMask (some (classMask yiaddr))
  let o ← o.assume broadcastAddr
    ((o.word subnetMask).map fun mask =>
      List.zipWith (fun address mask => address ||| ~~~mask) yiaddr.toList mask)
  let o ← o.assumeTime dhcpIPaddrLeaseTime nleaseTime.toList
  let lease ← o.word dhcpIPaddrLeaseTime
  let o ← o.assumeTime dhcpT1value (dhcpT1 lease)
  o.assumeTime dhcpT2value (dhcpT2 lease)

/-- The type of the message, what is written to the daemon, and the options. -/
def DhcpOptions.parseDhcpMsgRecv (nleaseTime : Vector UInt8 4) (ciaddr : NID32)
    (m : DhcpMessage) (o : DhcpOptions) :
    Option (DhcpOptions × UInt8 × Option (List UInt8)) := do
  let o ← o.clear dhcpT1value
  let o ← o.clear dhcpT2value
  let o ← o.parseOptions m.options dhcpOptionsLen 4
  let messageType ← o.val dhcpMessageType
  let messageType ← messageType.head?
  let written ←
    if messageType = dhcpAck then do
      let option17 ← o.val rootPath
      if 0 ∈ option17 then
        some (NodeIdentity.parseDhcpMsgRecv messageType option17 m.yiaddr)
      else none
    else some none
  let o ← o.complete nleaseTime ciaddr m
  return (o, messageType, written)

/-- Quotes in a string become spaces. -/
def withoutQuotes (cstr : List UInt8) : List UInt8 :=
  (cstringOf cstr).map (fun c => if c = 39 then 32 else c) ++
    cstr.dropWhile (· ≠ 0)

/-- `cleanmetas`, which works in place and needs an end of the string. -/
def cleanmetas (cstr : List UInt8) : Option (List UInt8) :=
  if 0 ∈ cstr then some (withoutQuotes cstr) else none

/-- The settings of `dhcpConfig`, and what the system answers it.  `testCase`
leads to the files of the client at once, and `address` and `netmask` are the
results of `ioctl`.  A file counts if it is wanted and can be opened, and a
name if it is wanted and `gethostbyaddr` finds it. -/
structure DhcpConfigCalls where
  testCase : Bool
  address : Bool
  netmask : Bool
  defaultRoutes : Bool
  resolvConf : Bool
  nisConf : Bool
  ntpConf : Bool
  host : Option (List UInt8)
  domain : Option (List UInt8)
  hostinfo : Bool

/-- A read which is made only if it is wanted. -/
def readIf {α : Type} (wanted : Bool) (read : Option α) : Option Unit :=
  if wanted then read.map fun _ => () else some ()

namespace DhcpOptions

/-- The string of an option. -/
def text (code : UInt8) (o : DhcpOptions) : Option (List UInt8) := do
  let bytes ← o.val code
  if 0 ∈ bytes then return cstringOf bytes else none

/-- The addresses of an option, or pairs of them, read until its length is
reached. -/
def addresses (code : UInt8) (size : Nat) (o : DhcpOptions) :
    Option (List (List UInt8)) :=
  if o.len code = 0 then some []
  else do
    let bytes ← o.val code
    readBlocks bytes size 0 (o.len code).toNat

/-- The same, but the first one is read in any case. -/
def listed (code : UInt8) (size : Nat) (o : DhcpOptions) :
    Option (List (List UInt8)) := do
  let bytes ← o.val code
  let first ← readAt bytes 0 size
  let others ← readBlocks bytes size size (o.len code).toNat
  return first :: others

/-- A name which was looked up; only eight bits of its length are kept. -/
def lookedUp (code : UInt8) (name : Option (List UInt8)) (o : DhcpOptions) :
    DhcpOptions :=
  match name with
  | some name =>
      if o.len code = 0 then
        o.allocate code (UInt8.ofNat name.length) (name ++ [0])
      else o
  | none => o

/-- What the string of an option is written as. -/
def cleaned (code : UInt8) (o : DhcpOptions) : Option DhcpOptions :=
  if o.len code ≠ 0 then do
    let bytes ← o.val code
    let bytes ← cleanmetas bytes
    return { o with val := Function.update o.val code (some bytes) }
  else some o

/-- What is read to set up the routes. -/
def readRoutes (calls : DhcpConfigCalls) (o : DhcpOptions) : Option Unit := do
  let _ ← o.word broadcastAddr
  let _ ← o.addresses staticRoute 8
  readIf (calls.defaultRoutes && decide (3 < o.len routersOnSubnet))
    (o.word routersOnSubnet)

/-- What is read for `RESOLV_CONF`, `NIS_CONF` and `NTP_CONF`. -/
def readServers (calls : DhcpConfigCalls) (o : DhcpOptions) : Option Unit := do
  readIf calls.resolvConf (o.addresses dnsOption 4)
  readIf (calls.resolvConf && decide (o.len domainName ≠ 0)) (o.text domainName)
  readIf (calls.nisConf && decide (o.len nisDomainName ≠ 0))
    (o.text nisDomainName)
  readIf (calls.nisConf && decide (o.len nisDomainName = 0) &&
    (o.val domainName).isSome) (o.text domainName)
  readIf calls.nisConf (o.addresses nisServers 4)
  readIf calls.ntpConf (o.word subnetMask)
  readIf (calls.ntpConf && decide (4 ≤ o.len ntpServers))
    (o.addresses ntpServers 4)

/-- `DHCP_HOSTINFO`, the strings of which are cleaned. -/
def writeHostinfo (m : DhcpMessage) (o : DhcpOptions) : Option DhcpOptions := do
  let _ ← o.word subnetMask
  let _ ← o.word broadcastAddr
  readIf (decide (3 < o.len routersOnSubnet)) (o.listed routersOnSubnet 4)
  readIf (decide (o.len staticRoute ≠ 0)) (o.listed staticRoute 8)
  let o ← o.cleaned hostName
  let o ← o.cleaned domainName
  let o ← o.cleaned nisDomainName
  let o ← o.cleaned rootPath
  let _ ← o.listed dnsOption 4
  readIf (decide (4 ≤ o.len ntpServers)) (o.listed ntpServers 4)
  readIf (decide (4 ≤ o.len nisServers)) (o.listed nisServers 4)
  let _ ← o.word dhcpServerIdentifier
  let _ ← cleanmetas m.sname
  let _ ← o.word dhcpIPaddrLeaseTime
  let _ ← o.word dhcpT1value
  let _ ← o.word dhcpT2value
  return o

/-- The end of `dhcpConfig`.  After an infinite lease there is nothing left to
do for the process. -/
def writeFiles (calls : DhcpConfigCalls) (m : DhcpMessage) (o : DhcpOptions) :
    Option DhcpOptions := do
  let o ← if calls.hostinfo then o.writeHostinfo m else some o
  let lease ← o.word dhcpIPaddrLeaseTime
  if lease = [255, 255, 255, 255] then none else return o

/-- What `dhcpConfig` does with the options.  It returns early if the address
or the mask cannot be set. -/
def dhcpConfig (calls : DhcpConfigCalls) (m : DhcpMessage) (o : DhcpOptions) :
    Option DhcpOptions :=
  if calls.testCase then o.writeFiles calls m
  else if calls.address then do
    let _ ← o.word subnetMask
    if calls.netmask then do
      o.readRoutes calls
      o.readServers calls
      let o := (o.lookedUp hostName calls.host).lookedUp domainName
        (calls.domain.filter fun name => name ≠ [])
      o.writeFiles calls m
    else return o
  else some o

end DhcpOptions

/-- `sizeof(struct packed_ether_header)`. -/
def etherHeaderLen : Nat := 14

/-- `sizeof(udpipMessage)`: the header, `IPPACKET_SIZE` and the headers of Token
Ring. -/
def udpipMessageLen : Nat := etherHeaderLen + 1500 + 40

/-- `ETHERTYPE_IP`. -/
def etherTypeIp : List UInt8 := [8, 0]

/-- `ARPHRD_ETHER`, and `ARPHRD_IEEE802_TR` in one byte. -/
def arphrdEther : UInt8 := 1
def arphrdTr : UInt8 := 32

def dhcpBootReply : UInt8 := 2

/-- Where the name of the server and the options of a message are. -/
def dhcpSnameOffset : Nat := 44
def dhcpOptionsOffset : Nat := 236

/-- The packet begins where a header without options does, or at once. -/
def tmpIp (memory : List UInt8) : Nat :=
  match (List.range 9).find? fun index =>
      readAt memory (etherHeaderLen + 2 * index) 2 = some [69, 0] with
  | some index => etherHeaderLen + 2 * index
  | none => etherHeaderLen

/-- What `recvfrom` leaves in `UdpIpMsgRecv`. -/
def udpIpMsgRecv (frame : List UInt8) : List UInt8 :=
  frame.take udpipMessageLen ++
    List.replicate (udpipMessageLen - frame.length) 0

/-- The message at an index, if it answers the one which was sent with `xid`. -/
def dhcpAnswer (xid : Vector UInt8 4) (memory : List UInt8)
    (dhcpMsgRecv : Nat) : Option (Option DhcpMessage) := do
  let answered ← readAt memory (dhcpMsgRecv + 4) 4
  if answered ≠ xid.toList then return none
  let htype ← memory[dhcpMsgRecv + 1]?
  if htype ≠ arphrdEther ∧ htype ≠ arphrdTr then return none
  let op ← memory[dhcpMsgRecv]?
  if op ≠ dhcpBootReply then return none
  let yiaddr ← readAt memory (dhcpMsgRecv + 16) 4
  let ip_src ← readAt memory (etherHeaderLen + 12) 4
  return some {
    sname := memory.drop (dhcpMsgRecv + dhcpSnameOffset)
    options := memory.drop (dhcpMsgRecv + dhcpOptionsOffset)
    yiaddr := nid32Codec.decode yiaddr
    ip_src := nid32Codec.decode ip_src }

/-- The message of a frame, if there is one for the client. -/
def dhcpRecv (order : ByteOrder) (doCheckSum : Bool) (xid : Vector UInt8 4)
    (frame : List UInt8) : Option (Option DhcpMessage) := do
  let len : Int := min frame.length udpipMessageLen
  let memory := udpIpMsgRecv frame
  let ether_type ← readAt memory 12 2
  if ether_type ≠ etherTypeIp then return none
  let tmp_ip := tmpIp memory
  let ip ← readAt memory tmp_ip ipLen
  if ip.getD 9 0 ≠ ipProtoUdp then return none
  let ip_len := ntohs (ip.drop 2)
  if len - etherHeaderLen < ip_len then return none
  let hl := (ip.getD 0 0).toNat % 16 * 4
  let uh_ulen ← readAt memory (tmp_ip + 24) 2
  if (ip_len : Int) - hl < ntohs uh_ulen then return none
  let checked :=
    if doCheckSum then udpipchk order memory tmp_ip else some (0, memory)
  let (damage, memory) ← checked
  if damage ≠ 0 then return none
  dhcpAnswer xid memory (tmp_ip + hl + udphdrLen)

/-- The transaction and the address of a frame are those of the message which
was sent before.  In `dhcpRequest` and `dhcpInform` an acknowledgement is
followed by `dhcpConfig`. -/
inductive DhcpClientEvent where
  | release
  | frame (xid : Vector UInt8 4) (ciaddr : NID32) (frame : List UInt8)
      (config : Option DhcpConfigCalls)

/-- The options after a message of some type has been taken. -/
def DhcpOptions.configured (config : Option DhcpConfigCalls)
    (messageType : UInt8) (m : DhcpMessage) (o : DhcpOptions) :
    Option DhcpOptions :=
  match config with
  | some calls => if messageType = dhcpAck then o.dhcpConfig calls m else some o
  | none => some o

/-- The answer to a message is its type and what was written to the daemon. -/
def dhcpClient (order : ByteOrder) (doCheckSum : Bool)
    (nleaseTime : Vector UInt8 4) :
    Machine DhcpOptions DhcpClientEvent
      (Option (UInt8 × Option (List UInt8))) where
  step o
    | .release => some (.released, none)
    | .frame xid ciaddr frame config => do
        match ← dhcpRecv order doCheckSum xid frame with
        | none => return (o, none)
        | some m =>
            let (o, reply) ← o.parseDhcpMsgRecv nleaseTime ciaddr m
            let o ← o.configured config reply.1 m
            return (o, some reply)

/-- The client together with `thread_dhcp` of the daemon, which handles what is
written to it before it accepts another connection. -/
def dhcpHost (order : ByteOrder) (doCheckSum : Bool)
    (nleaseTime : Vector UInt8 4) :
    Machine (DhcpOptions × DhcpState) DhcpClientEvent
      (Option (UInt8 × Option (List UInt8))) where
  step host event := do
    let (o, reply) ←
      (dhcpClient order doCheckSum nleaseTime).step host.1 event
    match reply.bind Prod.snd with
    | none => return ((o, host.2), reply)
    | some message =>
        let s ← threadDhcp message host.2
        return ((o, s), reply)

end NodeIdentity
