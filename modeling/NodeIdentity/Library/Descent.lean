import Mathlib.Data.List.Chain
import Mathlib.Data.List.Induction
import NodeIdentity.Library.Walk

/-!
# Climbing to a chain and down it

One chain of places, written from its lower end, is known to lead down; from
any other place the way goes up.  A walk which climbs until it meets the chain
and then descends ends at the lower end of the chain.
-/

namespace NodeIdentity.Library

universe u

variable {α : Type u} [DecidableEq α]

/-- The place just below `a` in the chain. -/
def below : List α → α → Option α
  | first :: second :: rest, a =>
      if a = second then some first else below (second :: rest) a
  | _, _ => none

def descent (up : α → α) (chain : List α) (a : α) : Option α :=
  if a ∈ chain then below chain a else some (up a)

theorem below_first {first : α} {rest : List α} (distinct : first ∉ rest) :
    below (first :: rest) first = none := by
  induction rest generalizing first with
  | nil => rfl
  | cons second rest ih =>
      rw [List.mem_cons, not_or] at distinct
      rw [below, if_neg distinct.1]
      cases rest with
      | nil => rfl
      | cons third rest =>
          have apart : first ≠ third := by
            intro same
            exact distinct.2 (same ▸ List.mem_cons_self)
          rw [below, if_neg apart]
          have shorter : below (first :: third :: rest) first = none :=
            ih distinct.2
          rw [below, if_neg apart] at shorter
          exact shorter

theorem below_at {lower upper : List α} {b a : α}
    (distinct : (lower ++ b :: a :: upper).Nodup) :
    below (lower ++ b :: a :: upper) a = some b := by
  induction lower with
  | nil => exact if_pos rfl
  | cons first lower ih =>
      have later := ih (List.nodup_cons.mp distinct).2
      cases lower with
      | nil =>
          rw [List.nil_append] at later
          rw [List.singleton_append, below, if_neg]
          · exact later
          · intro same
            subst same
            simp at distinct
      | cons second lower =>
          rw [List.cons_append, List.cons_append, below, if_neg]
          · exact later
          · intro same
            subst same
            simp at distinct

variable (up : α → α) {chain : List α}

variable {up} in
theorem descent_of_not_mem {a : α} (away : a ∉ chain) :
    descent up chain a = some (up a) :=
  if_neg away

/-- From a place of the chain the walk goes straight down.  The induction is
on what lies below. -/
theorem walk_down {lower upper : List α} {a : α}
    (whole : chain = lower ++ a :: upper) (distinct : chain.Nodup) :
    walk (descent up chain) (lower.length + 1) a =
      some (a :: lower.reverse) := by
  have here : a ∈ chain := by simp [whole]
  induction lower using List.reverseRecOn generalizing a upper with
  | nil =>
      rw [List.nil_append] at whole
      subst whole
      apply walk_of_stop
      rw [descent, if_pos here]
      exact below_first (List.nodup_cons.mp distinct).1
  | append_singleton lower b ih =>
      have split : chain = lower ++ b :: a :: upper := by simp [whole]
      have move : descent up chain a = some b := by
        rw [descent, if_pos here, split]
        rw [split] at distinct
        exact below_at distinct
      have rest := ih split (by simp [split])
      rw [walk_of_move move, List.length_append, List.length_singleton, rest,
        List.reverse_concat]
      rfl

theorem walk_inside {first a : α} (lowest : chain.head? = some first)
    (distinct : chain.Nodup) (here : a ∈ chain) :
    ∃ path, walk (descent up chain) chain.length a = some path ∧
      path.getLast? = some first ∧ ∀ b ∈ path, b ∈ chain := by
  obtain ⟨lower, upper, whole⟩ := List.append_of_mem here
  have down := walk_down up whole distinct
  refine ⟨a :: lower.reverse, walk_more down ?_, ?_, ?_⟩
  · rw [whole, List.length_append, List.length_cons]
    omega
  · rw [whole] at lowest
    cases lower with
    | nil => exact lowest
    | cons bottom lower =>
        cases lowest
        simp [List.getLast?_cons]
  · intro b member
    rcases List.mem_cons.mp member with same | inside
    · exact same ▸ here
    · rw [whole]
      exact List.mem_append_left _ (List.mem_reverse.mp inside)

/-- A climb which meets the chain leads to the lower end of the chain, over
nothing but the climb and the chain. -/
theorem walk_descent {first last : α} (lowest : chain.head? = some first)
    (distinct : chain.Nodup) {a : α} {rest : List α}
    (climb : List.IsChain (fun a b => up a = b) (a :: rest))
    (top : (a :: rest).getLast? = some last) (meets : last ∈ chain) :
    ∃ path,
      walk (descent up chain) (rest.length + chain.length) a = some path ∧
        path.getLast? = some first ∧
        ∀ b ∈ path, b ∈ a :: rest ∨ b ∈ chain := by
  induction rest generalizing a with
  | nil =>
      rw [List.getLast?_singleton, Option.some.injEq] at top
      obtain ⟨path, walked, ends, inside⟩ :=
        walk_inside up lowest distinct (top ▸ meets)
      refine ⟨path, walk_more walked (Nat.le_add_left _ _), ends, ?_⟩
      intro b member
      exact .inr (inside b member)
  | cons b rest ih =>
      by_cases here : a ∈ chain
      · obtain ⟨path, walked, ends, inside⟩ :=
          walk_inside up lowest distinct here
        refine ⟨path, walk_more walked (Nat.le_add_left _ _), ends, ?_⟩
        intro c member
        exact .inr (inside c member)
      · obtain ⟨next, climb⟩ := List.isChain_cons_cons.mp climb
        rw [List.getLast?_cons_cons] at top
        obtain ⟨path, walked, ends, inside⟩ := ih climb top
        have move : descent up chain a = some b := by
          rw [descent_of_not_mem here, next]
        refine ⟨a :: path, ?_, ?_, ?_⟩
        · rw [List.length_cons, Nat.add_right_comm, walk_of_move move, walked]
          rfl
        · obtain ⟨later, rfl⟩ := walk_head walked
          rw [List.getLast?_cons_cons]
          exact ends
        · intro c member
          rcases List.mem_cons.mp member with same | later
          · exact .inl (same ▸ List.mem_cons_self)
          · exact (inside c later).imp (List.mem_cons_of_mem _) id

end NodeIdentity.Library
