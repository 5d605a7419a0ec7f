import Mathlib.Data.List.Induction
import Mathlib.Logic.Function.Basic
import NodeIdentity.Library.History

/-!
# Tables of leases

A lease binds a key to a value from some moment on.  A lease since moment zero
is permanent: refreshing leaves it alone and it never runs out.  Any other
lease serves its value for a term and is dead from then on.  Keys do not
interact, so a table is a partial function and every operation is an update
of it at one key.
-/

namespace NodeIdentity.Library

universe u v

structure Lease (α : Type v) where
  value : α
  since : Nat
  deriving DecidableEq

namespace Lease

variable {α : Type v}

def Permanent (lease : Lease α) : Prop := lease.since = 0

/-- The lease still serves its value at `now`, for leases of length `term`. -/
def Live (term now : Nat) (lease : Lease α) : Prop :=
  lease.Permanent ∨ now < lease.since + term

instance (lease : Lease α) : Decidable lease.Permanent :=
  inferInstanceAs (Decidable (lease.since = 0))

instance (term now : Nat) (lease : Lease α) : Decidable (lease.Live term now) :=
  inferInstanceAs (Decidable (_ ∨ _))

theorem Live.earlier {lease : Lease α} {term now later : Nat}
    (order : now ≤ later) (live : lease.Live term later) :
    lease.Live term now :=
  live.imp id (fun before => Nat.lt_of_le_of_lt order before)

end Lease

abbrev LeaseTable (κ : Type u) (α : Type v) := κ → Option (Lease α)

namespace LeaseTable

variable {κ : Type u} {α : Type v} [DecidableEq κ]

/-- What a new grant makes of the lease in place: a permanent one stays. -/
def renewed (value : α) (now : Nat) : Option (Lease α) → Option (Lease α)
  | some lease => if lease.Permanent then some lease else some ⟨value, now⟩
  | none => some ⟨value, now⟩

/-- A known key keeps its moment, a new key becomes permanent. -/
def installed (value : α) : Option (Lease α) → Option (Lease α)
  | some lease => some ⟨value, lease.since⟩
  | none => some ⟨value, 0⟩

def refresh (table : LeaseTable κ α) (key : κ) (value : α) (now : Nat) :
    LeaseTable κ α :=
  Function.update table key (renewed value now (table key))

def install (table : LeaseTable κ α) (key : κ) (value : α) :
    LeaseTable κ α :=
  Function.update table key (installed value (table key))

def drop (table : LeaseTable κ α) (key : κ) : LeaseTable κ α :=
  Function.update table key none

/-- The key has a lease which still serves its value. -/
def Serves (table : LeaseTable κ α) (term now : Nat) (key : κ) (value : α) :
    Prop :=
  ∃ lease, table key = some lease ∧ lease.Live term now ∧ lease.value = value

theorem refresh_of_ne (table : LeaseTable κ α) {key other : κ}
    (different : other ≠ key) (value : α) (now : Nat) :
    table.refresh key value now other = table other :=
  Function.update_of_ne different _ _

theorem refresh_permanent (table : LeaseTable κ α) {key : κ} (other : κ)
    {lease : Lease α} (held : table key = some lease)
    (permanent : lease.Permanent) (value : α) (now : Nat) :
    table.refresh other value now key = some lease := by
  by_cases same : key = other
  · subst same
    simp [refresh, renewed, held, permanent]
  · rw [refresh_of_ne table same, held]

theorem refresh_self (table : LeaseTable κ α) {key : κ}
    (renewable : ∀ lease, table key = some lease → ¬ lease.Permanent)
    (value : α) (now : Nat) :
    table.refresh key value now key = some ⟨value, now⟩ := by
  rw [refresh, Function.update_self]
  cases held : table key with
  | none => rfl
  | some lease => exact if_neg (renewable lease held)

/-- A refresh serves its value, also behind a permanent lease which says the
same. -/
theorem refresh_serves {table : LeaseTable κ α} {key : κ} {value : α}
    {term now later : Nat}
    (agreed : ∀ lease, table key = some lease → lease.Permanent →
      lease.value = value)
    (current : later < now + term) :
    (table.refresh key value now).Serves term later key value := by
  rw [Serves, refresh, Function.update_self]
  cases held : table key with
  | none => exact ⟨⟨value, now⟩, rfl, .inr current, rfl⟩
  | some lease =>
      by_cases permanent : lease.Permanent
      · exact ⟨lease, if_pos permanent, .inl permanent,
          agreed lease held permanent⟩
      · exact ⟨⟨value, now⟩, if_neg permanent, .inr current, rfl⟩

theorem refresh_eq_some {table : LeaseTable κ α} {key other : κ} {value : α}
    {now : Nat} {lease : Lease α}
    (held : table.refresh key value now other = some lease) :
    table other = some lease ∨ (other = key ∧ lease = ⟨value, now⟩) := by
  by_cases same : other = key
  · subst same
    rw [refresh, Function.update_self] at held
    cases before : table other with
    | none =>
        rw [before] at held
        exact .inr ⟨rfl, (Option.some.inj held).symm⟩
    | some old =>
        simp only [before, renewed] at held
        split at held
        · exact .inl held
        · exact .inr ⟨rfl, (Option.some.inj held).symm⟩
  · rw [refresh_of_ne table same] at held
    exact .inl held

theorem install_of_ne (table : LeaseTable κ α) {key other : κ}
    (different : other ≠ key) (value : α) :
    table.install key value other = table other :=
  Function.update_of_ne different _ _

theorem install_self (table : LeaseTable κ α) (key : κ) (value : α) :
    table.install key value key = installed value (table key) :=
  Function.update_self _ _ _

/-- Installing makes a lease permanent exactly if there was none which had to
be renewed. -/
theorem installed_permanent_iff {held : Option (Lease α)} {value : α} :
    installed value held = some ⟨value, 0⟩ ↔
      ∀ lease, held = some lease → lease.Permanent := by
  cases held with
  | none => simp [installed]
  | some lease =>
      rw [installed, Option.some.injEq, Lease.mk.injEq]
      constructor
      · rintro ⟨_, permanent⟩ other same
        cases same
        exact permanent
      · intro permanent
        exact ⟨rfl, permanent lease rfl⟩

theorem installed_installed (first second : α) (held : Option (Lease α)) :
    installed second (installed first held) = installed second held := by
  cases held with
  | none => rfl
  | some lease => rfl

/-- Entries installed in an empty table are permanent; the last one for a key
has its value. -/
theorem foldl_install (entries : List (κ × α)) (key : κ) :
    entries.foldl (fun (table : LeaseTable κ α) entry =>
        table.install entry.1 entry.2) (fun _ => none) key =
      (lastOf (fun entry => if entry.1 = key then some entry.2 else none)
        entries).map fun value => ⟨value, 0⟩ := by
  induction entries using List.reverseRecOn with
  | nil => rfl
  | append_singleton entries entry ih =>
      rw [List.foldl_concat, lastOf_snoc]
      by_cases same : entry.1 = key
      · rw [same, install_self, if_pos rfl, ih]
        cases lastOf (fun entry => if entry.1 = key then some entry.2 else none)
          entries with
        | none => rfl
        | some value => rfl
      · rw [install_of_ne _ (Ne.symm same), if_neg same]
        exact ih

theorem drop_self (table : LeaseTable κ α) (key : κ) :
    table.drop key key = none :=
  Function.update_self _ _ _

theorem drop_of_ne (table : LeaseTable κ α) {key other : κ}
    (different : other ≠ key) : table.drop key other = table other :=
  Function.update_of_ne different _ _

end LeaseTable

namespace LeaseTable

variable {κ : Type u} {α : Type v}

/-- The key has the lease granted last, which can be renewed, or has lost it
because its term was over. -/
structure Remembers (table : LeaseTable κ α) (term clock : Nat) (key : κ)
    (last : Option (Lease α)) : Prop where
  held : table key = last ∨
    (table key = none ∧
      ∀ lease, last = some lease → ¬ lease.Live term clock)
  renewable : ∀ lease, last = some lease → ¬ lease.Permanent

namespace Remembers

variable {table next : LeaseTable κ α} {term clock later : Nat} {key : κ}
  {last : Option (Lease α)}

theorem of_none (empty : table key = none) :
    table.Remembers term clock key none :=
  ⟨.inl empty, fun _ given => by cases given⟩

theorem held_renewable (remembers : table.Remembers term clock key last)
    (lease : Lease α) (held : table key = some lease) : ¬ lease.Permanent := by
  rcases remembers.held with same | ⟨lost, _⟩
  · exact remembers.renewable lease (same.symm.trans held)
  · cases lost.symm.trans held

theorem pass (remembers : table.Remembers term clock key last)
    (order : clock ≤ later)
    (kept : next key = table key ∨
      (next key = none ∧
        ∀ lease, table key = some lease → ¬ lease.Live term later)) :
    next.Remembers term later key last := by
  refine ⟨?_, remembers.renewable⟩
  rcases remembers.held with same | ⟨lost, dead⟩
  · rw [same] at kept
    exact kept
  · right
    refine ⟨?_, fun lease known live => dead lease known (live.earlier order)⟩
    rcases kept with kept | ⟨lapsed, _⟩
    · exact kept.trans lost
    · exact lapsed

theorem refresh [DecidableEq κ]
    (remembers : table.Remembers term clock key last)
    (positive : 0 < later) (value : α) :
    (table.refresh key value later).Remembers term later key
      (some ⟨value, later⟩) := by
  refine ⟨.inl (refresh_self table remembers.held_renewable value later), ?_⟩
  intro lease given
  cases given
  exact Nat.ne_of_gt positive

theorem serves_iff (remembers : table.Remembers term clock key last)
    (order : clock ≤ later) {value : α} :
    table.Serves term later key value ↔
      ∃ lease, last = some lease ∧ later < lease.since + term ∧
        lease.value = value := by
  constructor
  · rintro ⟨lease, held, live, given⟩
    have alive : later < lease.since + term :=
      live.resolve_left (remembers.held_renewable lease held)
    rcases remembers.held with same | ⟨lost, _⟩
    · exact ⟨lease, same.symm.trans held, alive, given⟩
    · cases lost.symm.trans held
  · rintro ⟨lease, known, alive, given⟩
    rcases remembers.held with same | ⟨_, dead⟩
    · exact ⟨lease, same.trans known, .inr alive, given⟩
    · have live : lease.Live term later := .inr alive
      exact (dead lease known (live.earlier order)).elim

end Remembers

end LeaseTable

end NodeIdentity.Library
