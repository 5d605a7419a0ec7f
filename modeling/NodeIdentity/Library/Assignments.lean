import Mathlib.Data.List.Basic
import Mathlib.Data.List.Perm.Basic
import Mathlib.Logic.Function.Basic

/-!
# Assignments to several variables

Each assignment has a key and some data; what it stores depends on the data and
on the old value of the variable of that key, and may fail.  After a run each
variable has the value which the assignments of its own key leave, whatever
lies between them.  Hence two runs with the same assignments for a key leave
the same there.
-/

namespace NodeIdentity.Library

variable {Key Data : Type} {Value : Key → Type}

namespace Assignments

variable (store : (key : Key) → Data → Value key → Option (Value key))

def result (key : Key) (data : List Data) (old : Value key) :
    Option (Value key) :=
  data.foldlM (fun old data => store key data old) old

theorem result_cons (key : Key) (first : Data) (rest : List Data)
    (old : Value key) :
    result store key (first :: rest) old =
      (store key first old).bind (result store key rest) := by
  rw [result, List.foldlM_cons]
  rfl

variable [DecidableEq Key]

def ofKey (key : Key) (assignments : List (Key × Data)) : List Data :=
  assignments.filterMap fun item =>
    if item.1 = key then some item.2 else none

theorem ofKey_cons_self (key : Key) (data : Data)
    (rest : List (Key × Data)) :
    ofKey key ((key, data) :: rest) = data :: ofKey key rest := by
  simp [ofKey]

theorem ofKey_cons_of_ne {key other : Key} (different : other ≠ key)
    (data : Data) (rest : List (Key × Data)) :
    ofKey key ((other, data) :: rest) = ofKey key rest := by
  simp [ofKey, different]

theorem mem_ofKey {key : Key} {data : Data} {assignments : List (Key × Data)} :
    data ∈ ofKey key assignments ↔ (key, data) ∈ assignments := by
  rw [ofKey, List.mem_filterMap]
  constructor
  · rintro ⟨⟨other, found⟩, member, taken⟩
    by_cases same : other = key
    · simp only [same, if_true, Option.some.injEq] at taken
      rwa [← taken, ← same]
    · simp [same] at taken
  · intro member
    exact ⟨(key, data), member, by simp⟩

def assign (vars : (key : Key) → Value key) (item : Key × Data) :
    Option ((key : Key) → Value key) :=
  (store item.1 item.2 (vars item.1)).map (Function.update vars item.1)

/-- By induction on the assignments: the first one is the first of its own key
and changes no other variable. -/
theorem foldlM_assign_iff (assignments : List (Key × Data))
    (vars vars' : (key : Key) → Value key) :
    assignments.foldlM (assign store) vars = some vars' ↔
      ∀ key, result store key (ofKey key assignments) (vars key) =
        some (vars' key) := by
  induction assignments generalizing vars with
  | nil =>
      constructor
      · intro same key
        rw [← Option.some.inj same]
        rfl
      · intro same
        apply congrArg some
        funext key
        exact Option.some.inj (same key)
  | cons item rest ih =>
      obtain ⟨first, data⟩ := item
      rw [List.foldlM_cons]
      cases stored : store first data (vars first) with
      | none =>
          constructor
          · intro same
            simp [assign, stored] at same
          · intro same
            have failed := same first
            rw [ofKey_cons_self, result_cons, stored] at failed
            cases failed
      | some value =>
          have step : assign store vars (first, data) =
              some (Function.update vars first value) := by
            rw [assign, stored, Option.map_some]
          have agree : ∀ key,
              result store key (ofKey key ((first, data) :: rest))
                (vars key) =
              result store key (ofKey key rest)
                (Function.update vars first value key) := by
            intro key
            by_cases same : first = key
            · subst key
              rw [ofKey_cons_self, result_cons, stored, Option.bind_some,
                Function.update_self]
            · rw [ofKey_cons_of_ne same,
                Function.update_of_ne (Ne.symm same)]
          rw [step, Option.bind_eq_bind, Option.bind_some, ih]
          simp only [agree]

/-- Two runs end with the same variables if and only if each variable gets the
same from its own assignments. -/
theorem same_foldlM_iff (left right : List (Key × Data))
    (vars : (key : Key) → Value key) :
    (∃ vars', left.foldlM (assign store) vars = some vars' ∧
        right.foldlM (assign store) vars = some vars') ↔
      ∀ key, ∃ value,
        result store key (ofKey key left) (vars key) = some value ∧
        result store key (ofKey key right) (vars key) = some value := by
  simp only [foldlM_assign_iff]
  constructor
  · rintro ⟨vars', first, second⟩ key
    exact ⟨vars' key, first key, second key⟩
  · intro each
    choose vars' same using each
    exact ⟨vars', fun key => (same key).1, fun key => (same key).2⟩

end Assignments

theorem eq_of_perm_of_length_le_one {Item : Type} {left right : List Item}
    (order : left.Perm right) (short : left.length ≤ 1) : left = right := by
  match left, short with
  | [], _ => exact (List.nil_perm.mp order).symm
  | [item], _ => exact (List.singleton_perm.mp order)

end NodeIdentity.Library
