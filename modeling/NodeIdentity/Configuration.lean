import NodeIdentity.Nid

/-!
# Configuration of a node

The variables of `configuration.c` which the modelled modules read, and the
derivation of a 32-bit identity from a NID.  `locator` is what
`get_locator(getPrimaryIface())` reports for the primary interface.
-/

namespace NodeIdentity

structure Configuration where
  type : NodeType
  nid : NID
  nidgw : NID
  nidrvs : NID
  nidcore : NID
  nidcorehome : NID
  niddns : NID
  gatewayIP : NID32
  rvsIP : NID32
  locator : NID32

/-- Small numbers for identities and locators, for the examples. -/
def Configuration.sample (type : NodeType) (nid : NID) : Configuration :=
  { type := type
    nid := nid
    nidgw := NID.ofNat 2
    nidrvs := NID.ofNat 3
    nidcore := NID.ofNat 2
    nidcorehome := NID.ofNat 2
    niddns := NID.ofNat 4
    gatewayIP := NID32.ofNat 20
    rvsIP := NID32.ofNat 30
    locator := NID32.ofNat 10 }

/-- The last four bytes of the NID, with the first of them overwritten by 1. -/
def nid2nid32 (nid : NID) : NID32 :=
  #v[1, nid[13], nid[14], nid[15]]

/-- The address of the interface of the node itself, from the NID of the
node. -/
def setNID32 (nid : NID) : NID32 :=
  let nid32 : NID32 := Vector.ofFn fun index =>
    have inside := index.isLt
    nid[12 + index.val]
  nid32.setIfInBounds 0 1

theorem setNID32_eq (nid : NID) : setNID32 nid = nid2nid32 nid := by
  apply Vector.ext
  intro index below
  match index with
  | 0 => rfl
  | 1 => rfl
  | 2 => rfl
  | 3 => rfl

end NodeIdentity
