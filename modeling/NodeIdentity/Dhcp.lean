import NodeIdentity.Library.Strtok
import NodeIdentity.DnsHandler
import NodeIdentity.Mobility
import NodeIdentity.PacketHandler

/-!
# Configuration by DHCP

`dhcp.c`, `set_conf_dhcp` of `configuration.c`, and what was added to
`parseDhcpMsgRecv` of the DHCP client.  The client hands the text of option 17
and the address it got to the daemon; `none` is an access outside an array or
through a null pointer.
-/

namespace NodeIdentity

open NodeIdentity.Library

/-- `MAXBUFLEN` of `dhcp.c`. -/
def dhcpMaxBufLen : Nat := 128

/-- `INET_ADDRSTRLEN`. -/
def inetAddrStrLen : Nat := 16

/-- The delimiter of the fields. -/
def bar : UInt8 := 124

/-- The type of a message which acknowledges a request. -/
def dhcpAck : UInt8 := 5

/-- What the client writes to the daemon: the option, the address and a bar,
in an array of zeros.  Other messages than acknowledgements write nothing. -/
def parseDhcpMsgRecv (messageType : UInt8) (option17 : List UInt8)
    (yiaddr : NID32) : Option (List UInt8) :=
  if messageType = dhcpAck then
    let option := cstringOf option17
    let size := option.length + inetAddrStrLen + 1
    let str := option ++ inetNtop4 yiaddr ++ [bar]
    if str.length < size then
      some (str ++ List.replicate (size - str.length) 0)
    else none
  else none

/-- The variables which `set_conf_dhcp` and the functions it calls change;
`serverAddress` is the one of the DNS handler. -/
structure DhcpState where
  config : Configuration
  ip : NID32
  mobility : MobilityType
  serverAddress : List UInt8
  nm : NidMapper
  ph : PhOutput

/-- `inet_pton` into four bytes. -/
def inetPtonNID32 (src : List UInt8) : Option NID32 :=
  (inetPton4 src).map nid32Codec.decode

/-- The address the handler finds the name server at. -/
def updateDnsServerAddress (niddnsserver : NID) (s : DhcpState) : DhcpState :=
  { s with serverAddress := inetNtop4 (dnsNid32 niddnsserver) }

/-- A token which is missing or no address leaves the variable as it is. -/
def setConfDhcp (str : List UInt8) (s : DhcpState) : DhcpState :=
  let (nidcore, str) := strtok bar str
  let (nidgw, str) := strtok bar str
  let (gatewayIP, str) := strtok bar str
  let (nidrvs, str) := strtok bar str
  let (rvsIP, str) := strtok bar str
  let (niddns, str) := strtok bar str
  let (ip, _) := strtok bar str
  let config :=
    { s.config with
      nidcore := (nidcore.bind inetPton6).getD s.config.nidcore
      nidgw := (nidgw.bind inetPton6).getD s.config.nidgw
      gatewayIP := (gatewayIP.bind inetPtonNID32).getD s.config.gatewayIP
      nidrvs := (nidrvs.bind inetPton6).getD s.config.nidrvs
      rvsIP := (rvsIP.bind inetPtonNID32).getD s.config.rvsIP
      niddns := (niddns.bind inetPton6).getD s.config.niddns }
  let s :=
    { s with
      config := config
      ip := (ip.bind inetPtonNID32).getD s.ip }
  let s := updateDnsServerAddress config.niddns s
  { s with nm := updateNM config s.nm, ph := updatePH config s.ph }

/-- One connection of `thread_dhcp`.  The node has left its domain if the
gateway is not written as the old one is. -/
def threadDhcp (message : List UInt8) (s : DhcpState) : Option DhcpState := do
  let buf := (Buffer.zero dhcpMaxBufLen).receive message
  let dhcp_response ← buf.cstring 0
  let token ← (strtok bar (strtok bar dhcp_response).2).1
  let aux := inetNtop6 s.config.nidgw
  let mobility := if token = aux then MobilityType.intradomain else .interdomain
  return setConfDhcp dhcp_response { s with mobility := mobility }

/-- `AF_INET` and `AF_INET6`. -/
inductive AddressFamily where
  | inet
  | inet6

def AddressFamily.Address : AddressFamily → Type
  | .inet => NID32
  | .inet6 => NID

/-- `inet_pton`. -/
def inetPton : (family : AddressFamily) → List UInt8 → Option family.Address
  | .inet, src => inetPtonNID32 src
  | .inet6, src => inetPton6 src

/-- The variables which `set_conf_dhcp` reads, in its order. -/
inductive DhcpSetting where
  | nidcore
  | nidgw
  | gatewayIP
  | nidrvs
  | rvsIP
  | niddns
  | ip

namespace DhcpSetting

def index : DhcpSetting → Nat
  | .nidcore => 0
  | .nidgw => 1
  | .gatewayIP => 2
  | .nidrvs => 3
  | .rvsIP => 4
  | .niddns => 5
  | .ip => 6

def family : DhcpSetting → AddressFamily
  | .nidcore | .nidgw | .nidrvs | .niddns => .inet6
  | .gatewayIP | .rvsIP | .ip => .inet

def value : (setting : DhcpSetting) → DhcpState → setting.family.Address
  | .nidcore, s => s.config.nidcore
  | .nidgw, s => s.config.nidgw
  | .gatewayIP, s => s.config.gatewayIP
  | .nidrvs, s => s.config.nidrvs
  | .rvsIP, s => s.config.rvsIP
  | .niddns, s => s.config.niddns
  | .ip, s => s.ip

/-- A setting reads the token at its index, and keeps its value if there is
none or if it is no address of the family. -/
theorem value_setConfDhcp (setting : DhcpSetting) (str : List UInt8)
    (s : DhcpState) :
    setting.value (setConfDhcp str s) =
      ((tokens bar str)[setting.index]?.bind (inetPton setting.family)).getD
        (setting.value s) := by
  rw [← strtok_iterate, setConfDhcp]
  generalize strtok bar = next
  cases setting with
  | nidcore => rfl
  | nidgw => rfl
  | gatewayIP => rfl
  | nidrvs => rfl
  | rvsIP => rfl
  | niddns => rfl
  | ip => rfl

theorem value_of_token (setting : DhcpSetting) {str text : List UInt8}
    {address : setting.family.Address}
    (token : (tokens bar str)[setting.index]? = some text)
    (accepted : inetPton setting.family text = some address) (s : DhcpState) :
    setting.value (setConfDhcp str s) = address := by
  rw [value_setConfDhcp, token, Option.bind_some, accepted, Option.getD_some]

end DhcpSetting

theorem nm_setConfDhcp (str : List UInt8) (s : DhcpState) :
    (setConfDhcp str s).nm = updateNM (setConfDhcp str s).config s.nm := by
  rw [setConfDhcp]
  generalize strtok bar = next
  rfl

theorem mobility_setConfDhcp (str : List UInt8) (s : DhcpState) :
    (setConfDhcp str s).mobility = s.mobility := by
  rw [setConfDhcp]
  generalize strtok bar = next
  rfl

theorem threadDhcp_tokens {message text gateway : List UInt8}
    (arrived : ((Buffer.zero dhcpMaxBufLen).receive message).cstring 0 =
      some text) (token : (tokens bar text)[1]? = some gateway)
    (s : DhcpState) :
    threadDhcp message s = some (setConfDhcp text { s with
      mobility :=
        if gateway = inetNtop6 s.config.nidgw then .intradomain
        else .interdomain }) := by
  have second : (strtok bar (strtok bar text).2).1 = some gateway :=
    (strtok_iterate bar 1 text).trans token
  simp only [threadDhcp, arrived, second, Option.bind_eq_bind,
    Option.bind_some, Option.pure_def]

theorem inetPtonNID32_inetNtop4 (address : NID32) :
    inetPtonNID32 (inetNtop4 address) = some address := by
  rw [inetPtonNID32, inetPton4_inetNtop4, Option.map_some]
  exact congrArg some (nid32Codec.decode_encode address)

theorem inetPtonNID32_extend (address : NID32) {rest : List UInt8}
    (more : rest ≠ []) :
    inetPtonNID32 (inetNtop4 address ++ rest) ≠ some address := by
  intro same
  obtain ⟨octets, accepted, decoded⟩ := Option.map_eq_some_iff.mp same
  have written : octets = address.toList := by
    rw [← decoded]
    exact (FixedCodec.encode_decode_bytes (length_inetPton4 accepted)).symm
  rw [written] at accepted
  exact inetPton4_extend (inetPton4_inetNtop4 address) more accepted

end NodeIdentity
