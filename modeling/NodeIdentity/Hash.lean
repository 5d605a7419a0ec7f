import NodeIdentity.Library.ChainedTable
import NodeIdentity.Nid

/-!
# The hash tables of the daemon

`hash.c`, `hash32.c` and `fqdn_hash.c` are three copies of one chained table
which differ in the key and its hash.  Each copy is the library table at its
own hash function.  An insertion returns the data it replaced, or the new data
for a new key; a deletion returns the data it removed.
-/

namespace NodeIdentity

open NodeIdentity.Library

universe u

variable {α : Type u}

/-- The loop of the three hash functions: xor in a character, shift left. -/
def hashLoop (characters : List UInt32) : UInt32 :=
  characters.foldl (fun ret_val i => (ret_val ^^^ i) <<< 1) 0

def hash (nid : NID) : UInt32 :=
  hashLoop (nid.toList.map UInt8.toUInt32)

def hash32 (nid32 : NID32) : UInt32 :=
  hashLoop (nid32.toList.map UInt8.toUInt32)

/-- A plain `char` converted to `int`: negative from 128 on. -/
def signedChar (character : UInt8) : UInt32 :=
  if character < 128 then character.toUInt32
  else character.toUInt32 ||| 0xFFFFFF00

def fqdnHash (string : List UInt8) : UInt32 :=
  hashLoop (string.map signedChar)

abbrev HashTable (α : Type u) :=
  ChainedTable (fun nid : NID => (hash nid).toNat) α

abbrev HashTable32 (α : Type u) :=
  ChainedTable (fun nid32 : NID32 => (hash32 nid32).toNat) α

abbrev FqdnHashTable (α : Type u) :=
  ChainedTable (fun key : List UInt8 => (fqdnHash key).toNat) α

theorem ten_pos : 0 < 10 := by decide

theorem twenty_pos : 0 < 20 := by decide

theorem thirty_pos : 0 < 30 := by decide

theorem hundred_pos : 0 < 100 := by decide

def constructHashTable (size : Nat) (size_pos : 0 < size) : HashTable α :=
  ChainedTable.empty _ α size size_pos

def constructHashTable32 (size : Nat) (size_pos : 0 < size) : HashTable32 α :=
  ChainedTable.empty _ α size size_pos

def constructFqdnHashTable (size : Nat) (size_pos : 0 < size) :
    FqdnHashTable α :=
  ChainedTable.empty _ α size size_pos

def hashInsert (nid : NID) (data : α) (table : HashTable α) :
    α × HashTable α :=
  ((table.find nid).getD data, table.insert nid data)

def hashLookup (nid : NID) (table : HashTable α) : Option α :=
  table.find nid

def hashDel (nid : NID) (table : HashTable α) : Option α × HashTable α :=
  (table.find nid, table.erase nid)

def hashInsert32 (nid32 : NID32) (data : α) (table : HashTable32 α) :
    α × HashTable32 α :=
  ((table.find nid32).getD data, table.insert nid32 data)

def hashLookup32 (nid32 : NID32) (table : HashTable32 α) : Option α :=
  table.find nid32

def hashDel32 (nid32 : NID32) (table : HashTable32 α) :
    Option α × HashTable32 α :=
  (table.find nid32, table.erase nid32)

def fqdnHashInsert (key : List UInt8) (data : α) (table : FqdnHashTable α) :
    α × FqdnHashTable α :=
  ((table.find key).getD data, table.insert key data)

def fqdnHashLookup (key : List UInt8) (table : FqdnHashTable α) : Option α :=
  table.find key

/-- `hash_enumerate` appends every static or recent entry to the list.  A list
node also holds the locator as text; here it is the locator itself. -/
def hashEnumerate (now : Timeval) (table : HashTable ConnEntry)
    (ll : List (NID × NID32)) : List (NID × NID32) :=
  ll ++ (table.nodes.filter fun node =>
      node.2.tstamp + rvsUpdateTimeout > now.tvSec ∨ node.2.tstamp = 0).map
    fun node => (node.1, node.2.ip)

end NodeIdentity
