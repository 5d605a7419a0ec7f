import NodeIdentity.Hash
import NodeIdentity.Configuration

/-!
# NID mapper

`nid_mapper.c`: the gateway of each known NID, and the NID behind each 32-bit
identity.  Updating a known entry and adding a new one leave the same table.
-/

namespace NodeIdentity

open NodeIdentity.Library

structure NMEntry where
  nidgw : NID
  deriving DecidableEq

structure NMEntry32 where
  nid : NID
  nidgw : NID
  deriving DecidableEq

structure NidMapper where
  nidTable : HashTable NMEntry
  nid32Table : HashTable32 NMEntry32

def newNMEntry32 (nid32 : NID32) (nid nidgw : NID) (nm : NidMapper) :
    NidMapper :=
  { nm with nid32Table := (hashInsert32 nid32 ⟨nid, nidgw⟩ nm.nid32Table).2 }

def newNMEntry (nid nidgw : NID) (nm : NidMapper) : NidMapper :=
  newNMEntry32 (nid2nid32 nid) nid nidgw
    { nm with nidTable := (hashInsert nid ⟨nidgw⟩ nm.nidTable).2 }

def getNMEntry (nid : NID) (nm : NidMapper) : Option NMEntry :=
  hashLookup nid nm.nidTable

def getNMEntry32 (nid32 : NID32) (nm : NidMapper) : Option NMEntry32 :=
  hashLookup32 nid32 nm.nid32Table

/-- `niddns` and `nid32dns`, which are deleted first, are never assigned. -/
def updateNM (config : Configuration) (nm : NidMapper) : NidMapper :=
  let nm : NidMapper :=
    { nidTable := (hashDel NID.zero nm.nidTable).2
      nid32Table := (hashDel32 NID32.zero nm.nid32Table).2 }
  newNMEntry32 (nid2nid32 config.niddns) config.niddns config.nidcore
    (newNMEntry config.niddns config.nidcore nm)

/-- The entries of a mapper which works without a name server. -/
def builtinEntries : List (NID32 × NID × NID) :=
  let node (number : Nat) := NID.ofNat (0x3ffe * 2 ^ 112 + number)
  let gwB := NID.ofNat (0xbbbb * 2 ^ 112 + 0xb)
  let gwF := NID.ofNat (0xffffffff * 2 ^ 96 + 0xf)
  [ (#v[1, 0, 0, 1], node 1, gwB),
    (#v[1, 0, 0, 2], node 2, node 7),
    (#v[1, 0, 0, 3], node 3, node 4),
    (#v[1, 0, 0, 4], node 4, node 4),
    (#v[1, 0, 0, 5], node 5, node 4),
    (#v[1, 0, 0, 6], node 6, gwB),
    (#v[1, 0, 0, 7], node 7, node 7),
    (#v[1, 0, 0, 8], node 8, gwB),
    (#v[1, 0, 0, 9], node 9, node 7),
    (#v[1, 0, 0, 11], node (0x3 * 2 ^ 96 + 0x11), gwF),
    (#v[1, 0, 1, 1], node 0x101, gwF),
    (#v[1, 0, 1, 2], node 0x102, gwF),
    (#v[1, 0, 1, 3], node 0x103, gwF),
    (#v[1, 0, 0, 16], node 0x10, gwF) ]

def initNidMapper (get_dns : Bool) : NidMapper :=
  let nm : NidMapper :=
    { nidTable := constructHashTable 10 ten_pos
      nid32Table := constructHashTable32 10 ten_pos }
  if get_dns then nm
  else builtinEntries.foldl
    (fun nm entry => newNMEntry32 entry.1 entry.2.1 entry.2.2 nm) nm

theorem getNMEntry32_newNMEntry32_self (nid32 : NID32) (nid nidgw : NID)
    (nm : NidMapper) :
    getNMEntry32 nid32 (newNMEntry32 nid32 nid nidgw nm) =
      some ⟨nid, nidgw⟩ :=
  ChainedTable.find_insert_self nm.nid32Table nid32 _

theorem getNMEntry32_newNMEntry32_of_ne {nid32 other : NID32}
    (different : other ≠ nid32) (nid nidgw : NID) (nm : NidMapper) :
    getNMEntry32 other (newNMEntry32 nid32 nid nidgw nm) =
      getNMEntry32 other nm :=
  ChainedTable.find_insert_of_ne nm.nid32Table different _

theorem getNMEntry32_newNMEntry (nid32 : NID32) (nid nidgw : NID)
    (nm : NidMapper) :
    getNMEntry32 nid32 (newNMEntry nid nidgw nm) =
      if nid32 = nid2nid32 nid then some ⟨nid, nidgw⟩
      else getNMEntry32 nid32 nm := by
  by_cases same : nid32 = nid2nid32 nid
  · subst same
    rw [if_pos rfl]
    exact getNMEntry32_newNMEntry32_self _ _ _ _
  · rw [if_neg same]
    exact getNMEntry32_newNMEntry32_of_ne same _ _ _

theorem getNMEntry_newNMEntry (other nid nidgw : NID) (nm : NidMapper) :
    getNMEntry other (newNMEntry nid nidgw nm) =
      if other = nid then some ⟨nidgw⟩ else getNMEntry other nm := by
  by_cases same : other = nid
  · subst same
    rw [if_pos rfl]
    exact ChainedTable.find_insert_self nm.nidTable other _
  · rw [if_neg same]
    exact ChainedTable.find_insert_of_ne nm.nidTable same _

theorem getNMEntry_updateNM (other : NID) (config : Configuration)
    (nm : NidMapper) :
    getNMEntry other (updateNM config nm) =
      if other = config.niddns then some ⟨config.nidcore⟩
      else if other = NID.zero then none else getNMEntry other nm := by
  have entry : getNMEntry other (updateNM config nm) =
      getNMEntry other (newNMEntry config.niddns config.nidcore
        { nidTable := (hashDel NID.zero nm.nidTable).2
          nid32Table := (hashDel32 NID32.zero nm.nid32Table).2 }) := rfl
  rw [entry, getNMEntry_newNMEntry]
  congr 1
  by_cases zero : other = NID.zero
  · subst zero
    rw [if_pos rfl]
    exact ChainedTable.find_erase_self nm.nidTable _
  · rw [if_neg zero]
    exact ChainedTable.find_erase_of_ne nm.nidTable zero

theorem getNMEntry32_updateNM (nid32 : NID32) (config : Configuration)
    (nm : NidMapper) :
    getNMEntry32 nid32 (updateNM config nm) =
      if nid32 = nid2nid32 config.niddns then
        some ⟨config.niddns, config.nidcore⟩
      else if nid32 = NID32.zero then none else getNMEntry32 nid32 nm := by
  rw [updateNM]
  by_cases same : nid32 = nid2nid32 config.niddns
  · subst same
    rw [if_pos rfl]
    exact getNMEntry32_newNMEntry32_self _ _ _ _
  · rw [if_neg same, getNMEntry32_newNMEntry32_of_ne same,
      getNMEntry32_newNMEntry, if_neg same]
    by_cases zero : nid32 = NID32.zero
    · subst zero
      rw [if_pos rfl]
      exact ChainedTable.find_erase_self nm.nid32Table _
    · rw [if_neg zero]
      exact ChainedTable.find_erase_of_ne nm.nid32Table zero

theorem nid2nid32_ne_zero (nid : NID) : nid2nid32 nid ≠ NID32.zero := by
  intro zero
  have first : (nid2nid32 nid)[0] = NID32.zero[0] := by rw [zero]
  have one : (nid2nid32 nid)[0] = 1 := rfl
  rw [one] at first
  cases first

end NodeIdentity
