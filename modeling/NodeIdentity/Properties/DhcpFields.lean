import NodeIdentity.InetText
import NodeIdentity.Properties.DhcpConfiguration

/-!
# Positions of the DHCP fields

Any field may be empty: a node of the core network has no gateway.  But
`strtok` passes over empty fields, and the fields behind them move up.
-/

namespace NodeIdentity

open NodeIdentity.Library

namespace DhcpSetting

def all : List DhcpSetting :=
  [.nidcore, .nidgw, .gatewayIP, .nidrvs, .rvsIP, .niddns, .ip]

theorem getElem?_all (setting : DhcpSetting) :
    all[setting.index]? = some setting := by
  cases setting with
  | nidcore => rfl
  | nidgw => rfl
  | gatewayIP => rfl
  | nidrvs => rfl
  | rvsIP => rfl
  | niddns => rfl
  | ip => rfl

end DhcpSetting

theorem inetPton_nil (family : AddressFamily) : inetPton family [] = none := by
  cases family with
  | inet => rfl
  | inet6 => exact inetPton6_nil

/-- A text without bars for each setting. -/
structure DhcpFields where
  text : DhcpSetting → List UInt8
  noBar : ∀ setting, bar ∉ text setting

namespace DhcpFields

variable (fields : DhcpFields)

def list : List (List UInt8) := DhcpSetting.all.map fields.text

def str : List UInt8 := [bar].intercalate fields.list

/-- The field at the index of the setting when the empty fields are left out;
empty if there are not so many others. -/
def taken (setting : DhcpSetting) : List UInt8 :=
  (fields.list.filter (· ≠ []))[setting.index]?.getD []

theorem getElem?_list (setting : DhcpSetting) :
    fields.list[setting.index]? = some (fields.text setting) := by
  rw [list, List.getElem?_map, setting.getElem?_all, Option.map_some]

theorem tokens_str : tokens bar fields.str = fields.list.filter (· ≠ []) := by
  apply tokens_intercalate
  intro field member
  obtain ⟨setting, _, rfl⟩ := List.mem_map.mp member
  exact fields.noBar setting

theorem taken_eq_text {setting : DhcpSetting}
    (nonempty : [] ∉ fields.list.take (setting.index + 1)) :
    fields.taken setting = fields.text setting := by
  rw [taken, getElem?_filter_nonempty nonempty, fields.getElem?_list,
    Option.getD_some]

theorem value_setConfDhcp_str (setting : DhcpSetting) (s : DhcpState) :
    setting.value (setConfDhcp fields.str s) =
      (inetPton setting.family (fields.taken setting)).getD
        (setting.value s) := by
  rw [DhcpSetting.value_setConfDhcp, fields.tokens_str, taken]
  cases (fields.list.filter (· ≠ []))[setting.index]? with
  | none => rw [Option.getD_none, inetPton_nil, Option.bind_none]
  | some text => rw [Option.getD_some, Option.bind_some]

end DhcpFields

/-- Each setting gets the address of its own field, and keeps its value if the
field is no address. -/
def Positional (fields : DhcpFields) (s : DhcpState) : Prop :=
  ∀ setting : DhcpSetting,
    setting.value (setConfDhcp fields.str s) =
      (inetPton setting.family (fields.text setting)).getD (setting.value s)

def AlwaysPositional : Prop :=
  ∀ (fields : DhcpFields) (s : DhcpState), Positional fields s

/-- The texts are the same address, or neither of them is an address the setting
does not have already. -/
def SameChange (setting : DhcpSetting) (s : DhcpState)
    (first second : List UInt8) : Prop :=
  ∀ address, address ≠ setting.value s →
    (inetPton setting.family first = some address ↔
      inetPton setting.family second = some address)

theorem getD_eq_iff_of_ne {α : Type} {read : Option α} {old value : α}
    (different : value ≠ old) : read.getD old = value ↔ read = some value := by
  rw [Option.getD_eq_iff]
  simp [different.symm]

theorem getD_eq_getD_iff {α : Type} {first second : Option α} {old : α} :
    first.getD old = second.getD old ↔
      ∀ value, value ≠ old → (first = some value ↔ second = some value) := by
  constructor
  · intro same value different
    rw [← getD_eq_iff_of_ne different, ← getD_eq_iff_of_ne different, same]
  · intro agree
    by_cases kept : first.getD old = old
    · by_cases also : second.getD old = old
      · rw [kept, also]
      · have read := (getD_eq_iff_of_ne also).mp rfl
        exact (getD_eq_iff_of_ne also).mpr ((agree _ also).mpr read)
    · have read := (getD_eq_iff_of_ne kept).mp rfl
      exact ((getD_eq_iff_of_ne kept).mpr ((agree _ kept).mp read)).symm

/-- Fields are positional exactly if those which move up behind an empty one
make no other change than the fields whose places they take. -/
theorem positional_iff (fields : DhcpFields) (s : DhcpState) :
    Positional fields s ↔
      ∀ setting : DhcpSetting, [] ∈ fields.list.take (setting.index + 1) →
        SameChange setting s (fields.taken setting) (fields.text setting) := by
  constructor
  · intro positional setting _
    have same := positional setting
    rw [fields.value_setConfDhcp_str] at same
    exact getD_eq_getD_iff.mp same
  · intro harmless setting
    rw [fields.value_setConfDhcp_str]
    by_cases moved : [] ∈ fields.list.take (setting.index + 1)
    · exact getD_eq_getD_iff.mpr (harmless setting moved)
    · rw [fields.taken_eq_text moved]

/-- Neither the NID nor the address of a gateway is given, and all others are
`::1` and `200.200.200.200`. -/
def gatewayless : DhcpFields :=
  { text := fun
      | .nidgw | .gatewayIP => []
      | .nidcore | .nidrvs | .niddns => inetNtop6 (NID.ofNat 1)
      | .rvsIP | .ip => inetNtop4 longAddress
    noBar := by
      have nid : bar ∉ inetNtop6 (NID.ofNat 1) := by decide +kernel
      have address : bar ∉ inetNtop4 longAddress := by decide +kernel
      intro setting
      cases setting with
      | nidcore => exact nid
      | nidgw => exact List.not_mem_nil
      | gatewayIP => exact List.not_mem_nil
      | nidrvs => exact nid
      | rvsIP => exact address
      | niddns => exact nid
      | ip => exact address }

/-- The rendezvous server becomes the gateway. -/
theorem not_alwaysPositional : ¬ AlwaysPositional := by
  intro always
  have positional := always gatewayless freshDhcp .nidgw
  have taken : gatewayless.taken .nidgw = inetNtop6 (NID.ofNat 1) := by
    decide +kernel
  rw [gatewayless.value_setConfDhcp_str, taken] at positional
  have new : (inetPton6 (inetNtop6 (NID.ofNat 1))).getD
      freshDhcp.config.nidgw = freshDhcp.config.nidgw := positional
  rw [inetPton6_inetNtop6, Option.getD_some] at new
  have different : NID.ofNat 1 ≠ freshDhcp.config.nidgw := by decide
  exact different new

end NodeIdentity
