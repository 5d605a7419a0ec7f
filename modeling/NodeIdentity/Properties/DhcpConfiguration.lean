import NodeIdentity.Dhcp

/-!
# Configuration from the DHCP client to the daemon

The client writes the six fields of the option and the address of the node as
one text.  The daemon takes the text apart again, if its array has room for the
text and a NUL behind it.
-/

namespace NodeIdentity

open NodeIdentity.Library

theorem bar_notMem {text : List UInt8}
    (chars : ∀ character ∈ text, AddressChar character) : bar ∉ text :=
  notMem_of_addressChars chars rfl (by decide) (by decide)

theorem nul_notMem {text : List UInt8}
    (chars : ∀ character ∈ text, AddressChar character) : 0 ∉ text :=
  notMem_of_addressChars chars rfl (by decide) (by decide)

/-- A text which survives the trip: it is not empty, and it has neither bars
nor NULs. -/
structure PlainText (text : List UInt8) : Prop where
  nonempty : text ≠ []
  noBar : bar ∉ text
  noNul : 0 ∉ text

theorem plainText_of_pton6 {text : List UInt8} {nid : NID}
    (accepted : inetPton6 text = some nid) : PlainText text := by
  have chars := inetPton6_chars accepted
  refine ⟨?_, bar_notMem chars, nul_notMem chars⟩
  rintro rfl
  rw [inetPton6_nil] at accepted
  cases accepted

theorem plainText_of_ptonNID32 {text : List UInt8} {address : NID32}
    (accepted : inetPtonNID32 text = some address) : PlainText text := by
  obtain ⟨octets, quad, _⟩ := Option.map_eq_some_iff.mp accepted
  have chars := inetPton4_chars quad
  refine ⟨?_, bar_notMem chars, nul_notMem chars⟩
  rintro rfl
  cases quad

/-- What DHCP configures. -/
structure DhcpValues where
  nidcore : NID
  nidgw : NID
  gatewayIP : NID32
  nidrvs : NID
  rvsIP : NID32
  niddns : NID
  ip : NID32

/-- All variables are set. -/
structure Configured (values : DhcpValues) (s : DhcpState) : Prop where
  nidcore : s.config.nidcore = values.nidcore
  nidgw : s.config.nidgw = values.nidgw
  gatewayIP : s.config.gatewayIP = values.gatewayIP
  nidrvs : s.config.nidrvs = values.nidrvs
  rvsIP : s.config.rvsIP = values.rvsIP
  niddns : s.config.niddns = values.niddns
  ip : s.ip = values.ip

/-- Texts of the six values the option carries, in any form. -/
structure DhcpOption (values : DhcpValues) where
  nidcore : List UInt8
  nidgw : List UInt8
  gatewayIP : List UInt8
  nidrvs : List UInt8
  rvsIP : List UInt8
  niddns : List UInt8
  nidcore_eq : inetPton6 nidcore = some values.nidcore
  nidgw_eq : inetPton6 nidgw = some values.nidgw
  gatewayIP_eq : inetPtonNID32 gatewayIP = some values.gatewayIP
  nidrvs_eq : inetPton6 nidrvs = some values.nidrvs
  rvsIP_eq : inetPtonNID32 rvsIP = some values.rvsIP
  niddns_eq : inetPton6 niddns = some values.niddns

namespace DhcpOption

variable {values : DhcpValues} (option : DhcpOption values)

def fields : List (List UInt8) :=
  [option.nidcore, option.nidgw, option.gatewayIP, option.nidrvs, option.rvsIP,
    option.niddns]

def text : List UInt8 := delimited bar option.fields

def wholeText : List UInt8 :=
  delimited bar (option.fields ++ [inetNtop4 values.ip])

theorem fields_plain : ∀ field ∈ option.fields, PlainText field := by
  simp only [fields, List.forall_mem_cons]
  exact ⟨plainText_of_pton6 option.nidcore_eq,
    plainText_of_pton6 option.nidgw_eq,
    plainText_of_ptonNID32 option.gatewayIP_eq,
    plainText_of_pton6 option.nidrvs_eq,
    plainText_of_ptonNID32 option.rvsIP_eq,
    plainText_of_pton6 option.niddns_eq, fun _ member => nomatch member⟩

end DhcpOption

/-- The six texts, and one of the address of the node. -/
structure DhcpResponse (values : DhcpValues) extends DhcpOption values where
  ip : List UInt8
  ip_eq : inetPtonNID32 ip = some values.ip

namespace DhcpResponse

variable {values : DhcpValues} (response : DhcpResponse values)

def texts : List (List UInt8) :=
  response.fields ++ [response.ip]

theorem texts_plain : ∀ text ∈ response.texts, PlainText text := by
  intro text member
  rcases List.mem_append.mp member with sent | last
  · exact response.fields_plain text sent
  · cases List.mem_singleton.mp last
    exact plainText_of_ptonNID32 response.ip_eq

theorem texts_noBar : ∀ text ∈ response.texts, bar ∉ text :=
  fun text member => (response.texts_plain text member).noBar

theorem filter_texts : response.texts.filter (· ≠ []) = response.texts := by
  apply List.filter_eq_self.mpr
  intro text member
  exact decide_eq_true (response.texts_plain text member).nonempty

theorem configured {str : List UInt8} (read : tokens bar str = response.texts)
    (s : DhcpState) : Configured values (setConfDhcp str s) := by
  have token : ∀ index : Nat, (tokens bar str)[index]? =
      response.texts[index]? := by
    intro index
    rw [read]
  exact {
    nidcore := DhcpSetting.value_of_token .nidcore (token 0)
      response.nidcore_eq s
    nidgw := DhcpSetting.value_of_token .nidgw (token 1) response.nidgw_eq s
    gatewayIP := DhcpSetting.value_of_token .gatewayIP (token 2)
      response.gatewayIP_eq s
    nidrvs := DhcpSetting.value_of_token .nidrvs (token 3) response.nidrvs_eq s
    rvsIP := DhcpSetting.value_of_token .rvsIP (token 4) response.rvsIP_eq s
    niddns := DhcpSetting.value_of_token .niddns (token 5) response.niddns_eq s
    ip := DhcpSetting.value_of_token .ip (token 6) response.ip_eq s }

end DhcpResponse

def DhcpOption.response {values : DhcpValues} (option : DhcpOption values) :
    DhcpResponse values :=
  { option with
    ip := inetNtop4 values.ip
    ip_eq := inetPtonNID32_inetNtop4 values.ip }

theorem nul_notMem_delimited {fields : List (List UInt8)}
    (plain : ∀ field ∈ fields, PlainText field) : 0 ∉ delimited bar fields := by
  rw [delimited, List.mem_flatMap]
  rintro ⟨field, member, here⟩
  rcases List.mem_append.mp here with inField | last
  · exact (plain field member).noNul inField
  · cases List.mem_singleton.mp last

theorem cstringOf_eq {text : List UInt8} (proper : 0 ∉ text) :
    cstringOf text = text := by
  rw [cstringOf, List.takeWhile_eq_self_iff]
  intro character member
  apply decide_eq_true
  rintro rfl
  exact proper member

namespace DhcpOption

variable {values : DhcpValues} (option : DhcpOption values)

theorem wholeText_eq :
    option.wholeText = option.text ++ inetNtop4 values.ip ++ [bar] := by
  have last : delimited bar [inetNtop4 values.ip] =
      inetNtop4 values.ip ++ [bar] := by simp [delimited]
  rw [wholeText, delimited_append, text, List.append_assoc, last]

theorem nul_notMem_wholeText : 0 ∉ option.wholeText :=
  nul_notMem_delimited option.response.texts_plain

theorem tokens_wholeText :
    tokens bar option.wholeText = option.response.texts :=
  (tokens_delimited option.response.texts_noBar).trans
    option.response.filter_texts

theorem parseDhcpMsgRecv_eq :
    ∃ count, 0 < count ∧ parseDhcpMsgRecv dhcpAck option.text values.ip =
      some (option.wholeText ++ List.replicate count 0) := by
  have proper : 0 ∉ option.text := nul_notMem_delimited option.fields_plain
  have short := length_inetNtop4 values.ip
  have fits : option.wholeText.length <
      option.text.length + inetAddrStrLen + 1 := by
    rw [option.wholeText_eq, inetAddrStrLen]
    simp only [List.length_append, List.length_singleton]
    omega
  refine ⟨_, Nat.sub_pos_of_lt fits, ?_⟩
  simp only [parseDhcpMsgRecv, if_true, cstringOf_eq proper,
    ← option.wholeText_eq, if_pos fits]

/-- The daemon sets the variables if the text and a NUL fit into its array,
and otherwise looks for the end of the text behind the array. -/
theorem threadDhcp_wholeText {count : Nat} (positive : 0 < count)
    (s : DhcpState) :
    (option.wholeText.length < dhcpMaxBufLen →
      ∃ next, threadDhcp (option.wholeText ++ List.replicate count 0) s =
        some next ∧ Configured values next) ∧
    (dhcpMaxBufLen ≤ option.wholeText.length →
      threadDhcp (option.wholeText ++ List.replicate count 0) s = none) := by
  have read : ((Buffer.zero dhcpMaxBufLen).receive
      (option.wholeText ++ List.replicate count 0)).cstring 0 =
        if option.wholeText.length < dhcpMaxBufLen then some option.wholeText
        else none :=
    Buffer.cstring_receive_zero option.nul_notMem_wholeText positive
  constructor
  · intro room
    rw [if_pos room] at read
    have token : (tokens bar option.wholeText)[1]? = some option.nidgw := by
      rw [option.tokens_wholeText]
      rfl
    exact ⟨_, threadDhcp_tokens read token s,
      option.response.configured option.tokens_wholeText _⟩
  · intro full
    rw [if_neg (not_lt.mpr full)] at read
    simp only [threadDhcp, read, Option.bind_eq_bind, Option.bind_none]

end DhcpOption

def DhcpDelivered {values : DhcpValues} (option : DhcpOption values)
    (s : DhcpState) : Prop :=
  ∃ message next, parseDhcpMsgRecv dhcpAck option.text values.ip =
      some message ∧
    threadDhcp message s = some next ∧ Configured values next

def DhcpSurvives : Prop :=
  ∀ (values : DhcpValues) (option : DhcpOption values) (s : DhcpState),
    option.text.length ≤ 255 → DhcpDelivered option s

/-- It does exactly if the option and the text of the address are shorter than
the array of the daemon, with one byte for the last bar and one for a NUL. -/
theorem dhcp_delivered_iff {values : DhcpValues} (option : DhcpOption values)
    (s : DhcpState) :
    DhcpDelivered option s ↔
      option.text.length + (inetNtop4 values.ip).length + 1 ≤ 127 := by
  obtain ⟨count, positive, sent⟩ := option.parseDhcpMsgRecv_eq
  obtain ⟨delivered, lost⟩ := option.threadDhcp_wholeText positive s
  have length : option.wholeText.length =
      option.text.length + (inetNtop4 values.ip).length + 1 := by
    rw [option.wholeText_eq]
    simp only [List.length_append, List.length_singleton]
  rw [DhcpDelivered, ← length]
  constructor
  · rintro ⟨message, next, written, received, _⟩
    cases sent.symm.trans written
    by_contra long
    have full : dhcpMaxBufLen ≤ option.wholeText.length := by
      rw [dhcpMaxBufLen]
      omega
    rw [lost full] at received
    cases received
  · intro short
    have room : option.wholeText.length < dhcpMaxBufLen := by
      rw [dhcpMaxBufLen]
      omega
    obtain ⟨next, received, configured⟩ := delivered room
    exact ⟨_, next, sent, received, configured⟩

/-- An address which is written with fifteen characters: `200.200.200.200`. -/
def longAddress : NID32 := #v[200, 200, 200, 200]

def longValues : DhcpValues :=
  { nidcore := NID.ofNat 1
    nidgw := NID.ofNat 1
    gatewayIP := longAddress
    nidrvs := NID.ofNat 1
    rvsIP := longAddress
    niddns := NID.ofNat 1
    ip := longAddress }

/-- A NID with all its zeros, as the comments of the handler write NIDs. -/
def longNid : List UInt8 :=
  (List.replicate 7 [48, 48, 48, 48, colon]).flatten ++ [48, 48, 48, 49]

theorem inetPton6_longNid : inetPton6 longNid = some (NID.ofNat 1) := by
  decide +kernel

def longOption : DhcpOption longValues :=
  { nidcore := longNid
    nidgw := longNid
    gatewayIP := inetNtop4 longAddress
    nidrvs := longNid
    rvsIP := inetNtop4 longAddress
    niddns := longNid
    nidcore_eq := inetPton6_longNid
    nidgw_eq := inetPton6_longNid
    gatewayIP_eq := inetPtonNID32_inetNtop4 longAddress
    nidrvs_eq := inetPton6_longNid
    rvsIP_eq := inetPtonNID32_inetNtop4 longAddress
    niddns_eq := inetPton6_longNid }

def freshDhcp : DhcpState :=
  let config := Configuration.sample .node (NID.ofNat 1)
  { config := config
    ip := config.locator
    mobility := .intradomain
    serverAddress := []
    nm := initNidMapper true
    ph := initPhOutput config }

theorem length_longOption : longOption.text.length = 192 := by
  have nid : longNid.length = 39 := rfl
  have address : (inetNtop4 longAddress).length = 15 := by decide
  simp [DhcpOption.text, DhcpOption.fields, delimited, longOption, nid, address]

/-- The option has 192 bytes, and the daemon looks at 128 of them. -/
theorem not_dhcpSurvives : ¬ DhcpSurvives := by
  intro survives
  obtain ⟨message, next, written, received, _⟩ :=
    survives longValues longOption freshDhcp
      (length_longOption.trans_le (by decide))
  obtain ⟨count, positive, sent⟩ := longOption.parseDhcpMsgRecv_eq
  cases sent.symm.trans written
  have full : dhcpMaxBufLen ≤ longOption.wholeText.length := by
    rw [longOption.wholeText_eq, List.length_append, List.length_append,
      length_longOption, dhcpMaxBufLen]
    omega
  rw [(longOption.threadDhcp_wholeText positive freshDhcp).2 full] at received
  cases received

end NodeIdentity
