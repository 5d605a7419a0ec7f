import NodeIdentity.InetText
import NodeIdentity.Properties.DhcpConfiguration

/-!
# Handover by DHCP

A response says which gateway the node has now, and whether it has left its
domain.  The configuration gets the address the text stands for, but the thread
compares the text itself with what `inet_ntop` writes for the old gateway.
-/

namespace NodeIdentity

open NodeIdentity.Library

/-- A message which leaves a response in the array of the daemon, with or
without a bar behind the last text. -/
structure DhcpArrival (values : DhcpValues) extends DhcpResponse values where
  message : List UInt8
  str : List UInt8
  written : str = [bar].intercalate toDhcpResponse.texts ∨
    str = delimited bar toDhcpResponse.texts
  arrived : ((Buffer.zero dhcpMaxBufLen).receive message).cstring 0 = some str

namespace DhcpArrival

variable {values : DhcpValues} (arrival : DhcpArrival values)

theorem tokens_str : tokens bar arrival.str = arrival.texts := by
  have split : tokens bar arrival.str = arrival.texts.filter (· ≠ []) := by
    rcases arrival.written with joined | closed
    · rw [joined]
      exact tokens_intercalate arrival.texts_noBar
    · rw [closed]
      exact tokens_delimited arrival.texts_noBar
  exact split.trans arrival.filter_texts

/-- The new state: the mode is a matter of the text, the gateway one of the
value. -/
theorem threadDhcp_message (s : DhcpState) :
    ∃ next, threadDhcp arrival.message s = some next ∧
      next.config.nidgw = values.nidgw ∧
      next.mobility =
        if arrival.nidgw = inetNtop6 s.config.nidgw then .intradomain
        else .interdomain := by
  have token : (tokens bar arrival.str)[1]? = some arrival.nidgw := by
    rw [arrival.tokens_str]
    rfl
  refine ⟨_, threadDhcp_tokens arrival.arrived token s, ?_, ?_⟩
  · exact (arrival.configured arrival.tokens_str _).nidgw
  · exact mobility_setConfDhcp _ _

end DhcpArrival

/-- The mode two configurations call for: the node is where it was if it has the
same gateway. -/
def handoverKind (old new : Configuration) : MobilityType :=
  if new.nidgw = old.nidgw then .intradomain else .interdomain

/-- The message sets the mode which the old and the new gateway call for. -/
def DecidedByIdentity {values : DhcpValues} (arrival : DhcpArrival values)
    (s : DhcpState) : Prop :=
  ∃ next, threadDhcp arrival.message s = some next ∧
    next.mobility = handoverKind s.config next.config

def HandoverByIdentity : Prop :=
  ∀ (values : DhcpValues) (arrival : DhcpArrival values) (s : DhcpState),
    DecidedByIdentity arrival s

theorem decidedByIdentity_iff {values : DhcpValues}
    (arrival : DhcpArrival values) (s : DhcpState) :
    DecidedByIdentity arrival s ↔
      (arrival.nidgw = inetNtop6 s.config.nidgw ↔
        values.nidgw = s.config.nidgw) := by
  obtain ⟨next, threaded, gateway, mode⟩ := arrival.threadDhcp_message s
  have decided : DecidedByIdentity arrival s ↔
      next.mobility = handoverKind s.config next.config := by
    constructor
    · rintro ⟨other, run, right⟩
      cases threaded.symm.trans run
      exact right
    · intro right
      exact ⟨next, threaded, right⟩
  rw [decided, mode, handoverKind, gateway]
  by_cases texts : arrival.nidgw = inetNtop6 s.config.nidgw
  · by_cases gateways : values.nidgw = s.config.nidgw
    · simp [texts, gateways]
    · simp [texts, gateways]
  · by_cases gateways : values.nidgw = s.config.nidgw
    · simp [texts, gateways]
    · simp [texts, gateways]

/-- The mode is right exactly if a gateway which stays is written as `inet_ntop`
writes it.  A new gateway is always told from the old one, since what
`inet_ntop` writes stands for the old one only. -/
theorem decidedByIdentity_iff_canonical {values : DhcpValues}
    (arrival : DhcpArrival values) (s : DhcpState) :
    DecidedByIdentity arrival s ↔
      (values.nidgw = s.config.nidgw →
        arrival.nidgw = inetNtop6 s.config.nidgw) := by
  have same : arrival.nidgw = inetNtop6 s.config.nidgw →
      values.nidgw = s.config.nidgw := by
    intro text
    have read := arrival.nidgw_eq
    rw [text, inetPton6_inetNtop6] at read
    exact (Option.some.inj read).symm
  rw [decidedByIdentity_iff]
  constructor
  · intro both
    exact both.mpr
  · intro canonical
    exact ⟨same, canonical⟩

/-- The gateway is written with all its zeros, the other NIDs are written as
`::1`. -/
def respelledResponse : DhcpResponse longValues :=
  { nidcore := inetNtop6 (NID.ofNat 1)
    nidgw := longNid
    gatewayIP := inetNtop4 longAddress
    nidrvs := inetNtop6 (NID.ofNat 1)
    rvsIP := inetNtop4 longAddress
    niddns := inetNtop6 (NID.ofNat 1)
    ip := inetNtop4 longAddress
    nidcore_eq := inetPton6_inetNtop6 (NID.ofNat 1)
    nidgw_eq := inetPton6_longNid
    gatewayIP_eq := inetPtonNID32_inetNtop4 longAddress
    nidrvs_eq := inetPton6_inetNtop6 (NID.ofNat 1)
    rvsIP_eq := inetPtonNID32_inetNtop4 longAddress
    niddns_eq := inetPton6_inetNtop6 (NID.ofNat 1)
    ip_eq := inetPtonNID32_inetNtop4 longAddress }

def respelledArrival : DhcpArrival longValues :=
  { respelledResponse with
    message := delimited bar respelledResponse.texts ++ List.replicate 1 0
    str := delimited bar respelledResponse.texts
    written := .inr rfl
    arrived := (Buffer.cstring_receive_zero
      (nul_notMem_delimited respelledResponse.texts_plain) Nat.one_pos).trans
        (if_pos (by decide +kernel)) }

/-- The gateway of the node is `::1` already. -/
def settledDhcp : DhcpState :=
  { freshDhcp with
    config := { freshDhcp.config with nidgw := NID.ofNat 1 } }

/-- The node keeps its gateway and is said to have left the domain. -/
theorem not_handoverByIdentity : ¬ HandoverByIdentity := by
  intro identity
  have decided := identity longValues respelledArrival settledDhcp
  rw [decidedByIdentity_iff] at decided
  have written : longNid = inetNtop6 (NID.ofNat 1) := decided.mpr rfl
  have different : longNid ≠ inetNtop6 (NID.ofNat 1) := by decide +kernel
  exact different written

end NodeIdentity
