import Mathlib.Logic.Function.Basic
import Mathlib.Data.List.Nodup

/-!
# Chained hash tables

A table is an array of chains, and a key may only live in the chain its hash
selects.  Both that placement and the absence of duplicate keys are fields of
the structure, so every operation below rebuilds them and no later proof has
to ask for them.  `find` is the abstract content: a partial map from keys to
data.  Insertion and removal are `Function.update` on it, whatever collides.
-/

namespace NodeIdentity.Library

universe u v

/-- The nodes which collided in one slot, newest first. -/
abbrev Chain (κ : Type u) (α : Type v) := List (κ × α)

namespace Chain

variable {κ : Type u} {α : Type v} [DecidableEq κ]

/-- Data of the first node holding `key`. -/
def find (key : κ) : Chain κ α → Option α
  | [] => none
  | node :: rest => if key = node.1 then some node.2 else find key rest

/-- Replace the data of the first node holding `key`. -/
def overwrite (key : κ) (data : α) : Chain κ α → Chain κ α
  | [] => []
  | node :: rest =>
      if key = node.1 then (node.1, data) :: rest
      else node :: overwrite key data rest

/-- Unlink the first node holding `key`. -/
def unlink (key : κ) : Chain κ α → Chain κ α
  | [] => []
  | node :: rest => if key = node.1 then rest else node :: unlink key rest

/-- A known key keeps its node, a new key becomes the head of the chain. -/
def insert (key : κ) (data : α) (chain : Chain κ α) : Chain κ α :=
  if (find key chain).isSome then overwrite key data chain
  else (key, data) :: chain

theorem find_eq_none_iff {key : κ} {chain : Chain κ α} :
    find key chain = none ↔ key ∉ chain.map Prod.fst := by
  induction chain with
  | nil => simp [find]
  | cons node rest ih =>
      by_cases same : key = node.1
      · simp [find, same]
      · simp [find, same, ih]

theorem map_fst_overwrite (key : κ) (data : α) (chain : Chain κ α) :
    (overwrite key data chain).map Prod.fst = chain.map Prod.fst := by
  induction chain with
  | nil => rfl
  | cons node rest ih =>
      by_cases same : key = node.1
      · simp [overwrite, same]
      · simp [overwrite, same, ih]

theorem unlink_sublist (key : κ) (chain : Chain κ α) :
    (unlink key chain).Sublist chain := by
  induction chain with
  | nil => exact List.Sublist.refl _
  | cons node rest ih =>
      by_cases same : key = node.1
      · simp [unlink, same]
      · simpa [unlink, same] using ih

theorem unlink_of_absent {key : κ} {chain : Chain κ α}
    (absent : find key chain = none) : unlink key chain = chain := by
  induction chain with
  | nil => rfl
  | cons node rest ih =>
      by_cases same : key = node.1
      · simp [find, same] at absent
      · rw [find, if_neg same] at absent
        rw [unlink, if_neg same, ih absent]

theorem find_overwrite_self {key : κ} (data : α) {chain : Chain κ α}
    (present : (find key chain).isSome) :
    find key (overwrite key data chain) = some data := by
  induction chain with
  | nil => simp [find] at present
  | cons node rest ih =>
      by_cases same : key = node.1
      · simp [overwrite, find, same]
      · have inRest : (find key rest).isSome := by
          simpa [find, same] using present
        simp [overwrite, find, same, ih inRest]

theorem find_overwrite_of_ne {key other : κ} (different : other ≠ key)
    (data : α) (chain : Chain κ α) :
    find other (overwrite key data chain) = find other chain := by
  induction chain with
  | nil => rfl
  | cons node rest ih =>
      by_cases same : key = node.1
      · subst same
        simp [overwrite, find, different]
      · simp [overwrite, find, same, ih]

theorem find_insert_self (key : κ) (data : α) (chain : Chain κ α) :
    find key (insert key data chain) = some data := by
  unfold insert
  split
  · next present => exact find_overwrite_self data present
  · simp [find]

theorem find_insert_of_ne {key other : κ} (different : other ≠ key)
    (data : α) (chain : Chain κ α) :
    find other (insert key data chain) = find other chain := by
  unfold insert
  split
  · exact find_overwrite_of_ne different data chain
  · simp [find, different]

/-- Removing one node removes the key only because no second node holds it. -/
theorem find_unlink_self {key : κ} {chain : Chain κ α}
    (nodup : (chain.map Prod.fst).Nodup) :
    find key (unlink key chain) = none := by
  induction chain with
  | nil => rfl
  | cons node rest ih =>
      rw [List.map_cons, List.nodup_cons] at nodup
      by_cases same : key = node.1
      · subst same
        simpa [unlink] using find_eq_none_iff.mpr nodup.1
      · simp [unlink, find, same, ih nodup.2]

theorem find_unlink_of_ne {key other : κ} (different : other ≠ key)
    (chain : Chain κ α) :
    find other (unlink key chain) = find other chain := by
  induction chain with
  | nil => rfl
  | cons node rest ih =>
      by_cases same : key = node.1
      · subst same
        simp [unlink, find, different]
      · simp [unlink, find, same, ih]

theorem mem_iff_find_eq_some {key : κ} {data : α} {chain : Chain κ α}
    (nodup : (chain.map Prod.fst).Nodup) :
    (key, data) ∈ chain ↔ find key chain = some data := by
  induction chain with
  | nil => simp [find]
  | cons node rest ih =>
      rw [List.map_cons, List.nodup_cons] at nodup
      by_cases same : key = node.1
      · subst same
        have absent : (node.1, data) ∉ rest := fun member =>
          nodup.1 (List.mem_map.mpr ⟨_, member, rfl⟩)
        simp [find, absent, Prod.ext_iff, eq_comm]
      · have notHead : (key, data) ≠ node := fun equality =>
          same (congrArg Prod.fst equality)
        simp [find, same, notHead, ih nodup.2]

theorem nodup_insert {key : κ} {data : α} {chain : Chain κ α}
    (nodup : (chain.map Prod.fst).Nodup) :
    ((insert key data chain).map Prod.fst).Nodup := by
  unfold insert
  split
  · rwa [map_fst_overwrite]
  · next absent =>
      rw [List.map_cons, List.nodup_cons]
      exact ⟨find_eq_none_iff.mp (by simpa using absent), nodup⟩

theorem key_of_mem_insert {key : κ} {data : α} {chain : Chain κ α}
    {node : κ × α} (member : node ∈ insert key data chain) :
    node.1 = key ∨ node.1 ∈ chain.map Prod.fst := by
  have keyMember : node.1 ∈ (insert key data chain).map Prod.fst :=
    List.mem_map.mpr ⟨node, member, rfl⟩
  unfold insert at keyMember
  split at keyMember
  · rw [map_fst_overwrite] at keyMember
    exact .inr keyMember
  · simpa using keyMember

end Chain

/-- An array of chains in which every key sits in the slot of its hash and
occurs at most once. -/
structure ChainedTable {κ : Type u} (hash : κ → Nat) (α : Type v) where
  size : Nat
  size_pos : 0 < size
  chains : Vector (Chain κ α) size
  placed : ∀ slot : Fin size, ∀ node ∈ chains[slot], hash node.1 % size = slot
  nodup : ∀ slot : Fin size, (chains[slot].map Prod.fst).Nodup

namespace ChainedTable

variable {κ : Type u} {α : Type v} {hash : κ → Nat}

def slot (table : ChainedTable hash α) (key : κ) : Fin table.size :=
  ⟨hash key % table.size, Nat.mod_lt _ table.size_pos⟩

def empty (hash : κ → Nat) (α : Type v) (size : Nat) (size_pos : 0 < size) :
    ChainedTable hash α :=
  { size := size
    size_pos := size_pos
    chains := Vector.replicate size []
    placed := by simp
    nodup := by simp }

/-- Put another chain in the slot of `key`. -/
def setChain (table : ChainedTable hash α) (key : κ) (chain : Chain κ α)
    (placed : ∀ node ∈ chain, hash node.1 % table.size = table.slot key)
    (nodup : (chain.map Prod.fst).Nodup) : ChainedTable hash α :=
  { table with
    chains := table.chains.set (table.slot key) chain
    placed := by
      intro slot node member
      by_cases same : table.slot key = slot
      · subst same
        exact placed node (by simpa using member)
      · have apart : (table.slot key).val ≠ slot.val := fun h => same (Fin.ext h)
        exact table.placed slot node (by
          simpa [Vector.getElem_set, apart] using member)
    nodup := by
      intro slot
      by_cases same : table.slot key = slot
      · subst same
        simpa using nodup
      · have apart : (table.slot key).val ≠ slot.val := fun h => same (Fin.ext h)
        simpa [Vector.getElem_set, apart] using table.nodup slot }

variable [DecidableEq κ]

/-- The data stored under a key: the abstract content of the table. -/
def find (table : ChainedTable hash α) (key : κ) : Option α :=
  Chain.find key table.chains[table.slot key]

def insert (table : ChainedTable hash α) (key : κ) (data : α) :
    ChainedTable hash α :=
  table.setChain key (Chain.insert key data table.chains[table.slot key])
    (by
      intro node member
      rcases Chain.key_of_mem_insert member with same | known
      · rw [same]
        rfl
      · obtain ⟨old, oldMember, oldKey⟩ := List.mem_map.mp known
        rw [← oldKey]
        exact table.placed _ old oldMember)
    (Chain.nodup_insert (table.nodup _))

def erase (table : ChainedTable hash α) (key : κ) : ChainedTable hash α :=
  table.setChain key (Chain.unlink key table.chains[table.slot key])
    (fun node member =>
      table.placed _ node ((Chain.unlink_sublist key _).subset member))
    (((Chain.unlink_sublist key _).map Prod.fst).nodup (table.nodup _))

def nodes (table : ChainedTable hash α) : List (κ × α) :=
  table.chains.toList.flatten

@[simp] theorem find_empty (size : Nat) (size_pos : 0 < size) (key : κ) :
    (empty hash α size size_pos).find key = none := by
  have noNodes : ∀ slot : Fin size,
      (Vector.replicate size ([] : Chain κ α))[slot] = [] := by simp
  exact congrArg (Chain.find key) (noNodes ⟨hash key % size, _⟩)

theorem find_setChain (table : ChainedTable hash α) (key other : κ)
    (chain : Chain κ α) (placed nodup) :
    (table.setChain key chain placed nodup).find other =
      if table.slot other = table.slot key then Chain.find other chain
      else table.find other := by
  change Chain.find other
    (table.chains.set (table.slot key) chain)[table.slot other] = _
  split
  · next same =>
      simp [same]
  · next apart =>
      have values : (table.slot key).val ≠ (table.slot other).val :=
        fun h => apart (Fin.ext h.symm)
      simp [find, values]

theorem find_insert (table : ChainedTable hash α) (key : κ) (data : α) :
    (table.insert key data).find =
      Function.update table.find key (some data) := by
  funext other
  unfold insert
  rw [find_setChain]
  by_cases same : other = key
  · subst same
    simp [Chain.find_insert_self]
  · rw [Function.update_of_ne same, Chain.find_insert_of_ne same]
    split
    · next slotEq => simp [find, slotEq]
    · rfl

theorem find_erase (table : ChainedTable hash α) (key : κ) :
    (table.erase key).find = Function.update table.find key none := by
  funext other
  unfold erase
  rw [find_setChain]
  by_cases same : other = key
  · subst same
    rw [if_pos rfl, Function.update_self]
    exact Chain.find_unlink_self (table.nodup _)
  · rw [Function.update_of_ne same, Chain.find_unlink_of_ne same]
    split
    · next slotEq => simp [find, slotEq]
    · rfl

@[simp] theorem find_insert_self (table : ChainedTable hash α) (key : κ)
    (data : α) : (table.insert key data).find key = some data := by
  simp [find_insert]

@[simp] theorem find_erase_self (table : ChainedTable hash α) (key : κ) :
    (table.erase key).find key = none := by
  simp [find_erase]

theorem find_insert_of_ne (table : ChainedTable hash α) {key other : κ}
    (different : other ≠ key) (data : α) :
    (table.insert key data).find other = table.find other := by
  simp [find_insert, different]

theorem find_erase_of_ne (table : ChainedTable hash α) {key other : κ}
    (different : other ≠ key) :
    (table.erase key).find other = table.find other := by
  simp [find_erase, different]

theorem find_foldl_erase {β : Type v} (project : β → κ) (items : List β)
    (table : ChainedTable hash α) (key : κ) :
    (items.foldl (fun table item => table.erase (project item)) table).find key =
      if key ∈ items.map project then none else table.find key := by
  induction items generalizing table with
  | nil => simp
  | cons item items ih =>
      rw [List.foldl_cons, ih]
      by_cases same : key = project item
      · simp [same]
      · simp [find_erase_of_ne _ same, same]

theorem mem_nodes_iff (table : ChainedTable hash α) {key : κ} {data : α} :
    (key, data) ∈ table.nodes ↔ table.find key = some data := by
  rw [nodes, List.mem_flatten]
  constructor
  · rintro ⟨chain, chainMember, nodeMember⟩
    obtain ⟨index, below, rfl⟩ := List.getElem_of_mem chainMember
    have inRange : index < table.size := by simpa using below
    have found : (key, data) ∈ table.chains[(⟨index, inRange⟩ : Fin _)] := by
      simpa using nodeMember
    have slotEq : table.slot key = ⟨index, inRange⟩ :=
      Fin.ext (table.placed ⟨index, inRange⟩ _ found)
    have inSlot : (key, data) ∈ table.chains[table.slot key] := by
      simpa only [slotEq] using found
    exact (Chain.mem_iff_find_eq_some (table.nodup _)).mp inSlot
  · intro found
    refine ⟨table.chains[table.slot key], ?_, ?_⟩
    · simp
    · exact (Chain.mem_iff_find_eq_some (table.nodup _)).mpr found

omit [DecidableEq κ] in
/-- Walking over all chains meets no key twice: equal keys share a slot, and
within one chain keys are different. -/
theorem nodup_nodes (table : ChainedTable hash α) :
    (table.nodes.map Prod.fst).Nodup := by
  rw [nodes, List.map_flatten, List.nodup_flatten]
  constructor
  · intro keys member
    obtain ⟨chain, chainMember, rfl⟩ := List.mem_map.mp member
    obtain ⟨index, below, rfl⟩ := List.getElem_of_mem chainMember
    have inRange : index < table.size := by simpa using below
    simpa using table.nodup ⟨index, inRange⟩
  · rw [List.pairwise_map, List.pairwise_iff_getElem]
    intro first second firstBelow secondBelow order
    have firstRange : first < table.size := by simpa using firstBelow
    have secondRange : second < table.size := by simpa using secondBelow
    intro key inFirst inSecond
    obtain ⟨left, leftMember, rfl⟩ := List.mem_map.mp inFirst
    obtain ⟨right, rightMember, same⟩ := List.mem_map.mp inSecond
    have leftSlot := table.placed ⟨first, firstRange⟩ left
      (by simpa using leftMember)
    have rightSlot := table.placed ⟨second, secondRange⟩ right
      (by simpa using rightMember)
    rw [same] at rightSlot
    exact Nat.ne_of_lt order (leftSlot.symm.trans rightSlot)

omit [DecidableEq κ]

def chain (table : ChainedTable hash α) (index : Nat) : Chain κ α :=
  if below : index < table.size then table.chains[index] else []

theorem chain_eq (table : ChainedTable hash α) (slot : Fin table.size) :
    table.chain slot = table.chains[slot] :=
  dif_pos slot.isLt

theorem placed_chain (table : ChainedTable hash α) {index : Nat}
    {node : κ × α} (member : node ∈ table.chain index) :
    hash node.1 % table.size = index := by
  by_cases below : index < table.size
  · rw [table.chain_eq ⟨index, below⟩] at member
    exact table.placed ⟨index, below⟩ node member
  · rw [chain, dif_neg below] at member
    cases member

theorem chain_empty (size : Nat) (size_pos : 0 < size) (index : Nat) :
    (empty hash α size size_pos).chain index = [] := by
  by_cases below : index < size
  · rw [(empty hash α size size_pos).chain_eq ⟨index, below⟩]
    exact Vector.getElem_replicate below
  · exact dif_neg below

theorem chain_setChain (table : ChainedTable hash α) (key : κ)
    (chain : Chain κ α) (placed nodup) (index : Nat) :
    (table.setChain key chain placed nodup).chain index =
      if index = hash key % table.size then chain else table.chain index := by
  by_cases below : index < table.size
  · have list : (table.setChain key chain placed nodup).chain index =
        (table.chains.set (table.slot key) chain)[index] := dif_pos below
    rw [list, Vector.getElem_set]
    by_cases same : index = hash key % table.size
    · have here : (table.slot key).val = index := same.symm
      rw [if_pos here, if_pos same]
    · have apart : (table.slot key).val ≠ index := fun equal => same equal.symm
      rw [if_neg apart, if_neg same, ChainedTable.chain, dif_pos below]
  · have outside : index ≠ hash key % table.size := by
      intro same
      exact below (same ▸ Nat.mod_lt _ table.size_pos)
    rw [if_neg outside, ChainedTable.chain, ChainedTable.chain, dif_neg below]
    exact dif_neg below

theorem nodes_eq_chains (table : ChainedTable hash α) :
    table.nodes = ((List.range table.size).map table.chain).flatten := by
  rw [nodes]
  congr 1
  apply List.ext_getElem
  · simp
  · intro index below _
    have inside : index < table.size := by simpa using below
    simp [chain, inside]

variable [DecidableEq κ]

theorem find_eq_chain (table : ChainedTable hash α) (key : κ) :
    table.find key = Chain.find key (table.chain (hash key % table.size)) := by
  have slot := table.chain_eq (table.slot key)
  rw [find, ← slot]
  rfl

theorem chain_insert (table : ChainedTable hash α) (key : κ) (data : α)
    (index : Nat) :
    (table.insert key data).chain index =
      if index = hash key % table.size then
        Chain.insert key data (table.chain index)
      else table.chain index := by
  rw [insert, chain_setChain]
  split
  · next same =>
      subst same
      rw [← table.chain_eq (table.slot key)]
      rfl
  · rfl

theorem chain_erase (table : ChainedTable hash α) (key : κ) (index : Nat) :
    (table.erase key).chain index =
      if index = hash key % table.size then
        Chain.unlink key (table.chain index)
      else table.chain index := by
  rw [erase, chain_setChain]
  split
  · next same =>
      subst same
      rw [← table.chain_eq (table.slot key)]
      rfl
  · rfl

end ChainedTable

end NodeIdentity.Library
