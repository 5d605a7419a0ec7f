import Mathlib.Data.List.Induction
import NodeIdentity.DnsHandler

/-!
# Keys of the NID mapper

Frames, answers of the name server, a new configuration and the entries built
in all write to the table of 32-bit identities, and each works out the key for
itself.  One of the entries built in has another key than its NID.
-/

namespace NodeIdentity

open NodeIdentity.Library

/-- What is recorded of a frame, and what the DNS handler adds to that for an
answer. -/
inductive MapperWrite where
  | entry (nid nidgw : NID)
  | answer (nid nidgw : NID)

namespace MapperWrite

def nid : MapperWrite → NID
  | entry nid _ => nid
  | answer nid _ => nid

def nidgw : MapperWrite → NID
  | entry _ nidgw => nidgw
  | answer _ nidgw => nidgw

def apply (nm : NidMapper) : MapperWrite → NidMapper
  | entry nid nidgw => newNMEntry nid nidgw nm
  | answer nid nidgw => newNMEntry32 (dnsNid32 nid) nid nidgw nm

theorem getNMEntry32_apply (nid32 : NID32) (write : MapperWrite)
    (nm : NidMapper) :
    getNMEntry32 nid32 (write.apply nm) =
      if nid32 = nid2nid32 write.nid then some ⟨write.nid, write.nidgw⟩
      else getNMEntry32 nid32 nm := by
  cases write with
  | entry nid nidgw => exact getNMEntry32_newNMEntry nid32 nid nidgw nm
  | answer nid nidgw =>
      rw [apply, dnsNid32_eq]
      by_cases same : nid32 = nid2nid32 nid
      · subst same
        rw [MapperWrite.nid, if_pos rfl]
        exact getNMEntry32_newNMEntry32_self _ _ _ _
      · rw [MapperWrite.nid, if_neg same]
        exact getNMEntry32_newNMEntry32_of_ne same _ _ _

theorem getNMEntry_apply_of_ne {nid : NID} {write : MapperWrite}
    (different : nid ≠ write.nid) (nm : NidMapper) :
    getNMEntry nid (write.apply nm) = getNMEntry nid nm := by
  cases write with
  | entry other nidgw =>
      rw [apply, getNMEntry_newNMEntry]
      exact if_neg different
  | answer other nidgw => rfl

end MapperWrite

/-- The operations on the mapper of a running daemon. -/
inductive MapperOp where
  | write (made : MapperWrite)
  | updateNM (config : Configuration)

def MapperOp.nid : MapperOp → NID
  | write made => made.nid
  | updateNM config => config.niddns

def NidMapper.operate (nm : NidMapper) : MapperOp → NidMapper
  | .write made => made.apply nm
  | .updateNM config => NodeIdentity.updateNM config nm

/-- The mapper some operations after the daemon has set it up. -/
def NidMapper.after (get_dns : Bool) (ops : List MapperOp) : NidMapper :=
  ops.foldl NidMapper.operate (initNidMapper get_dns)

/-- The key is the one the mapper derives from the NID, and the address the
node with that NID gives its interface. -/
def KeyOf (nid32 : NID32) (nid : NID) : Prop :=
  nid32 = nid2nid32 nid ∧ nid32 = setNID32 nid

def KeysCanonical (nm : NidMapper) : Prop :=
  ∀ nid32 entry, (nid32, entry) ∈ nm.nid32Table.nodes → KeyOf nid32 entry.nid

def AlwaysCanonical : Prop :=
  ∀ get_dns ops, KeysCanonical (NidMapper.after get_dns ops)

/-- 1.0.0.11, the key of the entry for `3ffe:3::11`. -/
def builtinKey : NID32 := NID32.ofNat (2 ^ 24 + 11)

theorem keyOf_iff {nid32 : NID32} {nid : NID} :
    KeyOf nid32 nid ↔ nid32 = nid2nid32 nid := by
  rw [KeyOf, setNID32_eq, and_self_iff]

theorem keysCanonical_iff {nm : NidMapper} :
    KeysCanonical nm ↔ ∀ nid32 entry, getNMEntry32 nid32 nm = some entry →
      nid32 = nid2nid32 entry.nid := by
  simp only [KeysCanonical, ChainedTable.mem_nodes_iff, keyOf_iff]
  exact Iff.rfl

theorem forall_builtin {Holds : NID32 → NMEntry32 → Prop}
    (entries : List (NID32 × NID × NID))
    (listed : ∀ entry ∈ entries, Holds entry.1 ⟨entry.2.1, entry.2.2⟩)
    {nm : NidMapper}
    (before : ∀ nid32 entry, getNMEntry32 nid32 nm = some entry →
      Holds nid32 entry) :
    ∀ nid32 entry, getNMEntry32 nid32 (entries.foldl
      (fun nm entry => newNMEntry32 entry.1 entry.2.1 entry.2.2 nm) nm) =
        some entry → Holds nid32 entry := by
  induction entries generalizing nm with
  | nil => exact before
  | cons first entries ih =>
      obtain ⟨here, listed⟩ := List.forall_mem_cons.mp listed
      apply ih listed
      intro nid32 entry found
      by_cases same : nid32 = first.1
      · subst same
        rw [getNMEntry32_newNMEntry32_self] at found
        cases found
        exact here
      · rw [getNMEntry32_newNMEntry32_of_ne same] at found
        exact before nid32 entry found

theorem getNMEntry32_empty (nid32 : NID32) :
    getNMEntry32 nid32 (initNidMapper true) = none :=
  ChainedTable.find_empty 10 ten_pos nid32

theorem builtin_canonical {nid32 : NID32} {entry : NMEntry32}
    (found : getNMEntry32 nid32 (initNidMapper false) = some entry) :
    nid32 = nid2nid32 entry.nid ∨ nid32 = builtinKey := by
  have built : initNidMapper false = builtinEntries.foldl
      (fun nm entry => newNMEntry32 entry.1 entry.2.1 entry.2.2 nm)
      (initNidMapper true) := rfl
  rw [built] at found
  apply forall_builtin builtinEntries _ _ nid32 entry found
  · decide +kernel
  · intro nid32 entry stored
    have empty := (getNMEntry32_empty nid32).symm.trans stored
    cases empty

theorem builtin_slip : ∃ entry,
    getNMEntry32 builtinKey (initNidMapper false) = some entry ∧
      builtinKey ≠ nid2nid32 entry.nid := by
  have found : (getNMEntry32 builtinKey (initNidMapper false)).any
      (fun entry => builtinKey ≠ nid2nid32 entry.nid) = true := by
    decide +kernel
  obtain ⟨entry, stored, slip⟩ := (Option.any_eq_true _ _).mp found
  exact ⟨entry, stored, of_decide_eq_true slip⟩

theorem NidMapper.after_snoc (get_dns : Bool) (ops : List MapperOp)
    (op : MapperOp) :
    NidMapper.after get_dns (ops ++ [op]) =
      (NidMapper.after get_dns ops).operate op := by
  rw [after, List.foldl_append]
  rfl

theorem getNMEntry32_operate_self (nm : NidMapper) (op : MapperOp) :
    ∃ nidgw, getNMEntry32 (nid2nid32 op.nid) (nm.operate op) =
      some ⟨op.nid, nidgw⟩ := by
  cases op with
  | write made =>
      refine ⟨made.nidgw, ?_⟩
      rw [NidMapper.operate, MapperOp.nid, MapperWrite.getNMEntry32_apply,
        if_pos rfl]
  | updateNM config =>
      refine ⟨config.nidcore, ?_⟩
      rw [NidMapper.operate, MapperOp.nid, getNMEntry32_updateNM, if_pos rfl]

/-- Under another key nothing is stored; with a new configuration what is there
under the key of zeros is deleted. -/
theorem getNMEntry32_operate_of_ne {nid32 : NID32} {op : MapperOp}
    (different : nid32 ≠ nid2nid32 op.nid) (nm : NidMapper) :
    getNMEntry32 nid32 (nm.operate op) = getNMEntry32 nid32 nm ∨
      nid32 = NID32.zero ∧ getNMEntry32 nid32 (nm.operate op) = none := by
  cases op with
  | write made =>
      left
      rw [NidMapper.operate, MapperWrite.getNMEntry32_apply]
      exact if_neg different
  | updateNM config =>
      rw [NidMapper.operate, getNMEntry32_updateNM]
      rw [MapperOp.nid] at different
      rw [if_neg different]
      by_cases zero : nid32 = NID32.zero
      · exact .inr ⟨zero, if_pos zero⟩
      · exact .inl (if_neg zero)

/-- After any operations an entry is stored under its key, or it is the one
which was built in under another key. -/
theorem canonical_or_builtin {get_dns : Bool} {ops : List MapperOp}
    {nid32 : NID32} {entry : NMEntry32}
    (found : getNMEntry32 nid32 (NidMapper.after get_dns ops) = some entry) :
    nid32 = nid2nid32 entry.nid ∨ nid32 = builtinKey ∧ get_dns = false ∧
      ∀ op ∈ ops, nid2nid32 op.nid ≠ builtinKey := by
  induction ops using List.reverseRecOn with
  | nil =>
      cases get_dns with
      | true =>
          have empty := (getNMEntry32_empty nid32).symm.trans found
          cases empty
      | false =>
          apply (builtin_canonical found).imp_right
          intro key
          refine ⟨key, rfl, ?_⟩
          intro op member
          cases member
  | append_singleton ops op ih =>
      rw [NidMapper.after_snoc] at found
      by_cases same : nid32 = nid2nid32 op.nid
      · subst same
        obtain ⟨nidgw, stored⟩ :=
          getNMEntry32_operate_self (NidMapper.after get_dns ops) op
        cases stored.symm.trans found
        exact .inl rfl
      · rcases getNMEntry32_operate_of_ne same (NidMapper.after get_dns ops)
          with kept | ⟨_, deleted⟩
        · apply (ih (kept.symm.trans found)).imp_right
          intro ⟨key, disabled, spared⟩
          refine ⟨key, disabled, ?_⟩
          intro other member
          rcases List.mem_append.mp member with member | member
          · exact spared other member
          · cases List.mem_singleton.mp member
            rw [← key]
            exact Ne.symm same
        · cases deleted.symm.trans found

theorem builtin_kept {ops : List MapperOp}
    (spared : ∀ op ∈ ops, nid2nid32 op.nid ≠ builtinKey) :
    getNMEntry32 builtinKey (NidMapper.after false ops) =
      getNMEntry32 builtinKey (initNidMapper false) := by
  induction ops using List.reverseRecOn with
  | nil => rfl
  | append_singleton ops op ih =>
      have here := spared op (List.mem_append_right ops List.mem_cons_self)
      have before := ih fun other member =>
        spared other (List.mem_append_left [op] member)
      rw [NidMapper.after_snoc]
      rcases getNMEntry32_operate_of_ne here.symm (NidMapper.after false ops)
        with kept | ⟨zero, _⟩
      · rw [kept, before]
      · have nonzero : builtinKey ≠ NID32.zero := by decide
        exact (nonzero zero).elim

/-- Without a name server, and as long as that entry stays, there is an entry
under another key. -/
theorem not_keysCanonical_of_spared {ops : List MapperOp}
    (spared : ∀ op ∈ ops, nid2nid32 op.nid ≠ builtinKey) :
    ¬ KeysCanonical (NidMapper.after false ops) := by
  obtain ⟨entry, stored, slip⟩ := builtin_slip
  rw [← builtin_kept spared] at stored
  intro canonical
  exact slip (keysCanonical_iff.mp canonical builtinKey entry stored)

/-- The keys are canonical exactly if the daemon works with a name server, or a
NID with the key of that entry has been recorded since. -/
theorem keysCanonical_after_iff (get_dns : Bool) (ops : List MapperOp) :
    KeysCanonical (NidMapper.after get_dns ops) ↔
      get_dns = true ∨ ∃ op ∈ ops, nid2nid32 op.nid = builtinKey := by
  constructor
  · intro canonical
    by_contra conditions
    rw [not_or, Bool.not_eq_true] at conditions
    obtain ⟨rfl, spared⟩ := conditions
    apply not_keysCanonical_of_spared _ canonical
    intro op member key
    exact spared ⟨op, member, key⟩
  · intro conditions
    apply keysCanonical_iff.mpr
    intro nid32 entry found
    rcases canonical_or_builtin found with key | ⟨_, disabled, spared⟩
    · exact key
    · rcases conditions with enabled | ⟨op, member, key⟩
      · cases enabled.symm.trans disabled
      · exact (spared op member key).elim

/-- It is there from the start. -/
theorem not_alwaysCanonical : ¬ AlwaysCanonical := by
  intro always
  apply not_keysCanonical_of_spared _ (always false [])
  intro op member
  cases member

end NodeIdentity
