import Mathlib.Data.List.Basic
import Mathlib.Data.List.Induction

/-!
# Event-driven machines

A machine answers each event with a new state and an output, or refuses it.
A run grows at its end, so an invariant is proved by induction over the events
handled so far: what one step preserves, a run preserves.  `Visited` and
`Taken` speak about the states a run passes through and the steps it makes.
-/

namespace NodeIdentity.Library

universe u v w

/-- `step` returns `none` when the event cannot happen in the state. -/
structure Machine (σ : Type u) (ε : Type v) (ο : Type w) where
  step : σ → ε → Option (σ × ο)

namespace Machine

variable {σ : Type u} {ε : Type v} {ο : Type w} {machine : Machine σ ε ο}

/-- The events handled since `start`, in order, with one output each. -/
inductive Run (machine : Machine σ ε ο) (start : σ) :
    List ε → List ο → σ → Prop where
  | nil : Run machine start [] [] start
  | snoc {events : List ε} {outputs : List ο} {state next : σ} {event : ε}
      {output : ο} :
      Run machine start events outputs state →
      machine.step state event = some (next, output) →
      Run machine start (events ++ [event]) (outputs ++ [output]) next

/-- Handle a list of events, as far as it can be evaluated. -/
def exec (machine : Machine σ ε ο) : σ → List ε → Option (σ × List ο)
  | state, [] => some (state, [])
  | state, event :: events =>
      match machine.step state event with
      | none => none
      | some (next, output) =>
          match machine.exec next events with
          | none => none
          | some (final, outputs) => some (final, output :: outputs)

theorem Run.cons {start next final : σ} {event : ε} {output : ο}
    {events : List ε} {outputs : List ο}
    (first : machine.step start event = some (next, output))
    (rest : machine.Run next events outputs final) :
    machine.Run start (event :: events) (output :: outputs) final := by
  induction rest with
  | nil =>
      have here : machine.Run start [] [] start := .nil
      exact here.snoc first
  | snoc _ last ih => exact ih.snoc last

theorem run_of_exec {start final : σ} {events : List ε} {outputs : List ο}
    (evaluated : machine.exec start events = some (final, outputs)) :
    machine.Run start events outputs final := by
  induction events generalizing start outputs with
  | nil =>
      simp only [exec, Option.some.injEq, Prod.mk.injEq] at evaluated
      obtain ⟨rfl, rfl⟩ := evaluated
      exact .nil
  | cons event events ih =>
      rw [exec] at evaluated
      split at evaluated
      · cases evaluated
      · next next output first =>
          split at evaluated
          · cases evaluated
          · next rest evaluatedRest =>
              simp only [Option.some.injEq, Prod.mk.injEq] at evaluated
              obtain ⟨rfl, rfl⟩ := evaluated
              exact .cons first (ih evaluatedRest)

theorem exists_run_of_exec {start : σ} {events : List ε}
    {property : σ × List ο → Bool}
    (found : (machine.exec start events).any property = true) :
    ∃ outputs final, machine.Run start events outputs final ∧
      property (final, outputs) = true := by
  obtain ⟨⟨final, outputs⟩, evaluated, holds⟩ :=
    (Option.any_eq_true _ _).mp found
  exact ⟨outputs, final, run_of_exec evaluated, holds⟩

theorem exists_run {machine : Machine σ ε ο}
    (defined : ∀ state event, ∃ result, machine.step state event = some result)
    (start : σ) (events : List ε) :
    ∃ outputs final, machine.Run start events outputs final := by
  induction events using List.reverseRecOn with
  | nil => exact ⟨[], start, .nil⟩
  | append_singleton events event ih =>
      obtain ⟨outputs, state, run⟩ := ih
      obtain ⟨⟨next, output⟩, stepped⟩ := defined state event
      exact ⟨_, next, run.snoc stepped⟩

theorem run_snoc_iff {start final : σ} {events : List ε} {event : ε}
    {outputs : List ο} :
    machine.Run start (events ++ [event]) outputs final ↔
      ∃ initial output state, outputs = initial ++ [output] ∧
        machine.Run start events initial state ∧
        machine.step state event = some (final, output) := by
  constructor
  · intro run
    generalize whole : events ++ [event] = all at run
    cases run with
    | nil => simp at whole
    | snoc earlier last =>
        obtain ⟨rfl, rfl⟩ := List.append_inj' whole rfl |>.imp id
          (fun equality => List.singleton_injective equality)
        exact ⟨_, _, _, rfl, earlier, last⟩
  · intro split
    obtain ⟨initial, output, state, rfl, earlier, last⟩ := split
    exact earlier.snoc last

theorem run_nil_iff {start final : σ} {outputs : List ο} :
    machine.Run start [] outputs final ↔ outputs = [] ∧ final = start := by
  constructor
  · intro run
    generalize whole : ([] : List ε) = all at run
    cases run with
    | nil => exact ⟨rfl, rfl⟩
    | snoc => simp at whole
  · rintro ⟨rfl, rfl⟩
    exact .nil

theorem Run.unique {start left right : σ} {events : List ε}
    {leftOutputs rightOutputs : List ο}
    (leftRun : machine.Run start events leftOutputs left)
    (rightRun : machine.Run start events rightOutputs right) :
    leftOutputs = rightOutputs ∧ left = right := by
  induction leftRun generalizing rightOutputs right with
  | nil =>
      obtain ⟨rfl, rfl⟩ := run_nil_iff.mp rightRun
      exact ⟨rfl, rfl⟩
  | snoc _ last ih =>
      obtain ⟨initial, output, state, rfl, earlier, lastRight⟩ :=
        run_snoc_iff.mp rightRun
      obtain ⟨rfl, rfl⟩ := ih earlier
      rw [last] at lastRight
      simp only [Option.some.injEq, Prod.mk.injEq] at lastRight
      obtain ⟨rfl, rfl⟩ := lastRight
      exact ⟨rfl, rfl⟩

/-- `state` is reached after some prefix of `events`. -/
def Visited (machine : Machine σ ε ο) (start : σ) (events : List ε)
    (state : σ) : Prop :=
  ∃ before after outputs, events = before ++ after ∧
    machine.Run start before outputs state

/-- `event` is handled in `state` somewhere along `events`. -/
def Taken (machine : Machine σ ε ο) (start : σ) (events : List ε)
    (state : σ) (event : ε) : Prop :=
  ∃ before after outputs, events = before ++ event :: after ∧
    machine.Run start before outputs state

theorem visited_nil_iff {start state : σ} :
    machine.Visited start [] state ↔ state = start := by
  constructor
  · rintro ⟨before, after, outputs, whole, run⟩
    obtain ⟨rfl, rfl⟩ := List.append_eq_nil_iff.mp whole.symm
    exact (run_nil_iff.mp run).2
  · rintro rfl
    exact ⟨[], [], [], rfl, .nil⟩

theorem not_taken_nil {start state : σ} {event : ε} :
    ¬ machine.Taken start [] state event := by
  rintro ⟨before, after, outputs, whole, _⟩
  simp at whole

theorem visited_snoc_iff {start final reached : σ} {events : List ε}
    {event : ε} {outputs : List ο}
    (run : machine.Run start (events ++ [event]) outputs final) :
    machine.Visited start (events ++ [event]) reached ↔
      machine.Visited start events reached ∨ reached = final := by
  constructor
  · rintro ⟨before, after, seen, whole, prefixRun⟩
    rcases List.eq_nil_or_concat after with rfl | ⟨front, last, rfl⟩
    · rw [List.append_nil] at whole
      subst whole
      exact .inr (prefixRun.unique run).2
    · rw [List.concat_eq_append, ← List.append_assoc] at whole
      have front_eq := (List.append_inj' whole rfl).1
      exact .inl ⟨before, front, seen, front_eq, prefixRun⟩
  · rintro (⟨before, after, seen, rfl, prefixRun⟩ | rfl)
    · exact ⟨before, after ++ [event], seen, by simp, prefixRun⟩
    · exact ⟨events ++ [event], [], outputs, by simp, run⟩

theorem taken_snoc_iff {start state reached : σ} {events : List ε}
    {event taken : ε} {outputs : List ο}
    (run : machine.Run start events outputs state) :
    machine.Taken start (events ++ [event]) reached taken ↔
      machine.Taken start events reached taken ∨
        (reached = state ∧ taken = event) := by
  constructor
  · rintro ⟨before, after, seen, whole, prefixRun⟩
    rcases List.eq_nil_or_concat after with rfl | ⟨front, last, rfl⟩
    · obtain ⟨rfl, lastEq⟩ := List.append_inj' whole rfl
      exact .inr ⟨(prefixRun.unique run).2,
        (List.singleton_injective lastEq).symm⟩
    · rw [List.concat_eq_append, ← List.cons_append, ← List.append_assoc] at whole
      have front_eq := (List.append_inj' whole rfl).1
      exact .inl ⟨before, front, seen, front_eq, prefixRun⟩
  · rintro (⟨before, after, seen, rfl, prefixRun⟩ | ⟨rfl, rfl⟩)
    · exact ⟨before, after ++ [event], seen, by simp, prefixRun⟩
    · exact ⟨events, [], outputs, rfl, run⟩

theorem Run.length_eq {start final : σ} {events : List ε} {outputs : List ο}
    (run : machine.Run start events outputs final) :
    events.length = outputs.length := by
  induction run with
  | nil => rfl
  | snoc _ _ ih => simp [ih]

theorem Run.taken_of_mem {start final : σ} {events : List ε}
    {outputs : List ο} (run : machine.Run start events outputs final)
    {event : ε} (member : event ∈ events) :
    ∃ state, machine.Taken start events state event := by
  induction run with
  | nil => cases member
  | @snoc events outputs state next last output earlier _ ih =>
      rcases List.mem_append.mp member with before | here
      · obtain ⟨reached, taken⟩ := ih before
        exact ⟨reached, (taken_snoc_iff earlier).mpr (.inl taken)⟩
      · cases List.mem_singleton.mp here
        exact ⟨state, (taken_snoc_iff earlier).mpr (.inr ⟨rfl, rfl⟩)⟩

theorem Taken.mem {start state : σ} {events : List ε} {event : ε}
    (taken : machine.Taken start events state event) : event ∈ events := by
  obtain ⟨before, after, _, rfl, _⟩ := taken
  simp

/-- What one step with an admitted event keeps, every run of such events
keeps. -/
theorem Run.invariant_among {start final : σ} {events : List ε}
    {outputs : List ο} {Invariant : σ → Prop} {Admitted : ε → Prop}
    (initial : Invariant start)
    (preserved : ∀ {state next event output}, Invariant state →
      Admitted event → machine.step state event = some (next, output) →
        Invariant next)
    (admitted : ∀ event ∈ events, Admitted event)
    (run : machine.Run start events outputs final) : Invariant final := by
  induction run with
  | nil => exact initial
  | @snoc events _ _ _ event _ _ last ih =>
      have before := ih fun event member =>
        admitted event (List.mem_append_left _ member)
      have here := admitted event (List.mem_append_right _ List.mem_cons_self)
      exact preserved before here last

theorem Run.invariant {start final : σ} {events : List ε} {outputs : List ο}
    {Invariant : σ → Prop}
    (initial : Invariant start)
    (preserved : ∀ {state next event output}, Invariant state →
      machine.step state event = some (next, output) → Invariant next)
    (run : machine.Run start events outputs final) : Invariant final :=
  run.invariant_among initial
    (fun holds _ stepped => preserved holds stepped) (fun _ _ => trivial)

theorem Run.outputs {start final : σ} {events : List ε} {outputs : List ο}
    (Produced : ο → Prop)
    (produced : ∀ {state next event output},
      machine.step state event = some (next, output) → Produced output)
    (run : machine.Run start events outputs final) :
    ∀ output ∈ outputs, Produced output := by
  induction run with
  | nil =>
      intro output member
      cases member
  | snoc _ last ih =>
      intro output member
      rcases List.mem_append.mp member with before | here
      · exact ih output before
      · cases List.mem_singleton.mp here
        exact produced last

/-- When a step gives a good output exactly if it is allowed, as long as an
invariant holds, the outputs of a run are good exactly if all its steps are
allowed. -/
theorem Run.outputs_iff_allowed_of_invariant {start final : σ}
    {events : List ε} {outputs : List ο} {Invariant : σ → Prop}
    {Good : ο → Prop} {Allowed : σ → ε → Prop}
    (initial : Invariant start)
    (preserved : ∀ {state next event output}, Invariant state →
      machine.step state event = some (next, output) → Invariant next)
    (exact_step : ∀ {state next event output}, Invariant state →
      machine.step state event = some (next, output) →
        (Good output ↔ Allowed state event))
    (run : machine.Run start events outputs final) :
    (∀ output ∈ outputs, Good output) ↔
      ∀ state event, machine.Taken start events state event →
        Allowed state event := by
  induction run with
  | nil =>
      constructor
      · intro _ state event taken
        exact (not_taken_nil taken).elim
      · intro _ output member
        cases member
  | @snoc events outputs state next event output earlier last ih =>
      have here := exact_step (earlier.invariant initial preserved) last
      constructor
      · intro good reached taken occurred
        rcases (taken_snoc_iff earlier).mp occurred with before | ⟨rfl, rfl⟩
        · apply ih.mp _ reached taken before
          intro seen member
          exact good seen (List.mem_append_left _ member)
        · exact here.mp (good output (by simp))
      · intro allowed seen member
        rcases List.mem_append.mp member with before | last
        · apply ih.mpr _ seen before
          intro reached taken occurred
          exact allowed reached taken ((taken_snoc_iff earlier).mpr (.inl occurred))
        · rw [List.mem_singleton.mp last, here]
          exact allowed _ _ ((taken_snoc_iff earlier).mpr (.inr ⟨rfl, rfl⟩))

theorem Run.outputs_iff_allowed {start final : σ} {events : List ε}
    {outputs : List ο} {Good : ο → Prop} {Allowed : σ → ε → Prop}
    (exact_step : ∀ {state next event output},
      machine.step state event = some (next, output) →
        (Good output ↔ Allowed state event))
    (run : machine.Run start events outputs final) :
    (∀ output ∈ outputs, Good output) ↔
      ∀ state event, machine.Taken start events state event →
        Allowed state event :=
  run.outputs_iff_allowed_of_invariant trivial
    (fun _ _ => trivial) (fun _ stepped => exact_step stepped)

/-- When a safe state stays safe exactly under allowed steps, a run is safe
throughout exactly if all its steps are allowed.  Only steps with admitted
events need to be looked at when the run has no others. -/
theorem Run.safe_iff_allowed_among {start final : σ} {events : List ε}
    {outputs : List ο} {Invariant Safe : σ → Prop} {Admitted : ε → Prop}
    {Allowed : σ → ε → Prop}
    (initial : Invariant start) (safeStart : Safe start)
    (preserved : ∀ {state next event output}, Invariant state →
      Admitted event → machine.step state event = some (next, output) →
        Invariant next)
    (exact_step : ∀ {state next event output}, Invariant state → Safe state →
      Admitted event → machine.step state event = some (next, output) →
        (Safe next ↔ Allowed state event))
    (admitted : ∀ event ∈ events, Admitted event)
    (run : machine.Run start events outputs final) :
    (∀ state, machine.Visited start events state → Safe state) ↔
      ∀ state event, machine.Taken start events state event →
        Allowed state event := by
  induction run with
  | nil =>
      constructor
      · intro _ state event taken
        exact (not_taken_nil taken).elim
      · intro _ state visited
        rwa [visited_nil_iff.mp visited]
  | @snoc events outputs state next event output earlier last ih =>
      have whole := earlier.snoc last
      have admittedBefore : ∀ event ∈ events, Admitted event :=
        fun event member => admitted event (List.mem_append_left _ member)
      have here := admitted event (List.mem_append_right _ List.mem_cons_self)
      have invariant := earlier.invariant_among initial preserved admittedBefore
      constructor
      · intro safe reached taken occurred
        have safeBefore : ∀ visited,
            machine.Visited start events visited → Safe visited :=
          fun visited seen => safe visited ((visited_snoc_iff whole).mpr (.inl seen))
        rcases (taken_snoc_iff earlier).mp occurred with before | ⟨rfl, rfl⟩
        · exact (ih admittedBefore).mp safeBefore reached taken before
        · have safeHere := safeBefore _ ⟨events, [], outputs, by simp, earlier⟩
          have safeNext := safe _ ((visited_snoc_iff whole).mpr (.inr rfl))
          exact (exact_step invariant safeHere here last).mp safeNext
      · intro allowed reached visited
        have safeBefore := (ih admittedBefore).mpr fun seen taken occurred =>
          allowed seen taken ((taken_snoc_iff earlier).mpr (.inl occurred))
        rcases (visited_snoc_iff whole).mp visited with before | rfl
        · exact safeBefore reached before
        · have safeHere := safeBefore _ ⟨events, [], outputs, by simp, earlier⟩
          exact (exact_step invariant safeHere here last).mpr
            (allowed _ _ ((taken_snoc_iff earlier).mpr (.inr ⟨rfl, rfl⟩)))

theorem Run.safe_iff_allowed {start final : σ} {events : List ε}
    {outputs : List ο} {Invariant Safe : σ → Prop} {Allowed : σ → ε → Prop}
    (initial : Invariant start) (safeStart : Safe start)
    (preserved : ∀ {state next event output}, Invariant state →
      machine.step state event = some (next, output) → Invariant next)
    (exact_step : ∀ {state next event output}, Invariant state → Safe state →
      machine.step state event = some (next, output) →
        (Safe next ↔ Allowed state event))
    (run : machine.Run start events outputs final) :
    (∀ state, machine.Visited start events state → Safe state) ↔
      ∀ state event, machine.Taken start events state event →
        Allowed state event :=
  run.safe_iff_allowed_among initial safeStart
    (fun holds _ stepped => preserved holds stepped)
    (fun holds safe _ stepped => exact_step holds safe stepped)
    (fun _ _ => trivial)

/-- What comes in with the events goes out with the outputs, in the same order,
or is still held, when every step keeps that balance. -/
theorem Run.conserved {γ : Type*} {start final : σ} {events : List ε}
    {outputs : List ο} {Invariant : σ → Prop} {Admitted : ε → Prop}
    {given : ε → List γ} {taken : ο → List γ} {held : σ → List γ}
    (initial : Invariant start)
    (preserved : ∀ {state next event output}, Invariant state →
      Admitted event → machine.step state event = some (next, output) →
        Invariant next)
    (balanced : ∀ {state next event output}, Invariant state →
      Admitted event → machine.step state event = some (next, output) →
        held state ++ given event = taken output ++ held next)
    (admitted : ∀ event ∈ events, Admitted event)
    (run : machine.Run start events outputs final) :
    held start ++ events.flatMap given = outputs.flatMap taken ++ held final := by
  induction run with
  | nil => simp
  | @snoc events outputs state next event output earlier last ih =>
      have admittedBefore : ∀ event ∈ events, Admitted event :=
        fun event member => admitted event (List.mem_append_left _ member)
      have here := admitted event (List.mem_append_right _ List.mem_cons_self)
      have invariant := earlier.invariant_among initial preserved admittedBefore
      have balance := balanced invariant here last
      rw [List.flatMap_append, List.flatMap_append, ← List.append_assoc,
        ih admittedBefore, List.append_assoc, List.flatMap_singleton, balance,
        List.flatMap_singleton, List.append_assoc]

/-- A machine which can get nearer to its end, as long as it is not there, can
get there. -/
theorem exists_run_until {Invariant Done : σ → Prop} {Turn : ε → Prop}
    {distance : σ → Nat}
    (progress : ∀ state, Invariant state → ¬ Done state →
      ∃ event next output, Turn event ∧
        machine.step state event = some (next, output) ∧ Invariant next ∧
        distance next < distance state)
    {start : σ} (initial : Invariant start) :
    ∃ events outputs final, (∀ event ∈ events, Turn event) ∧
      machine.Run start events outputs final ∧ Done final := by
  induction near : distance start using Nat.strongRecOn
    generalizing start with
  | ind left ih =>
      by_cases done : Done start
      · refine ⟨[], [], start, ?_, .nil, done⟩
        intro event member
        cases member
      · obtain ⟨event, next, output, turn, stepped, invariant, nearer⟩ :=
          progress start initial done
        obtain ⟨events, outputs, final, turns, run, done⟩ :=
          ih _ (near ▸ nearer) invariant rfl
        refine ⟨event :: events, output :: outputs, final, ?_,
          .cons stepped run, done⟩
        intro taken member
        rcases List.mem_cons.mp member with rfl | later
        · exact turn
        · exact turns taken later

/-- A machine which answers only while it is alive handles all events, and is
alive behind the last one, exactly if every event is allowed where it comes. -/
theorem completes_iff {start : σ} {Alive : σ → Prop}
    {Allowed : List ο → σ → ε → Prop} (alive : Alive start)
    (answered : ∀ {state next event output},
      machine.step state event = some (next, output) → Alive state)
    {events : List ε}
    (exact_step : ∀ {before outputs state event}, event ∈ events →
      machine.Run start before outputs state → Alive state →
        ((∃ next output, machine.step state event = some (next, output) ∧
          Alive next) ↔ Allowed outputs state event)) :
    (∃ outputs final, machine.Run start events outputs final ∧ Alive final) ↔
      ∀ before event after outputs state, events = before ++ event :: after →
        machine.Run start before outputs state → Alive state →
          Allowed outputs state event := by
  induction events using List.reverseRecOn with
  | nil =>
      constructor
      · intro _ before event after outputs state whole
        simp at whole
      · intro _
        exact ⟨[], start, .nil, alive⟩
  | append_singleton events last ih =>
      have earlier := ih fun member => exact_step (List.mem_append_left _ member)
      have here : last ∈ events ++ [last] :=
        List.mem_append_right _ List.mem_cons_self
      constructor
      · rintro ⟨outputs, final, run, aliveFinal⟩
        obtain ⟨initial, output, reached, rfl, front, stepped⟩ :=
          run_snoc_iff.mp run
        have aliveReached := answered stepped
        have allowed := earlier.mp ⟨initial, reached, front, aliveReached⟩
        intro before event after seen state whole prefixRun aliveState
        rcases List.eq_nil_or_concat after with rfl | ⟨rest, tail, rfl⟩
        · obtain ⟨rfl, single⟩ := List.append_inj' whole rfl
          cases List.singleton_injective single
          obtain ⟨rfl, rfl⟩ := front.unique prefixRun
          exact (exact_step here front aliveReached).mp
            ⟨final, output, stepped, aliveFinal⟩
        · rw [List.concat_eq_append, ← List.cons_append,
            ← List.append_assoc] at whole
          have front_eq := (List.append_inj' whole rfl).1
          exact allowed before event rest seen state front_eq prefixRun
            aliveState
      · intro allowed
        obtain ⟨outputs, reached, front, aliveReached⟩ := earlier.mpr
          fun before event after seen state whole =>
            allowed before event (after ++ [last]) seen state (by simp [whole])
        obtain ⟨final, output, stepped, aliveFinal⟩ :=
          (exact_step here front aliveReached).mpr
            (allowed events last [] outputs reached rfl front aliveReached)
        exact ⟨_, final, front.snoc stepped, aliveFinal⟩

/-- A machine handles all events exactly if each one is accepted behind those
before it. -/
theorem exists_run_iff {start : σ} {Accepted : List ε → ε → Prop}
    (exact_step : ∀ {before outputs state event},
      machine.Run start before outputs state →
        (Accepted before event ↔
          ∃ result, machine.step state event = some result))
    (events : List ε) :
    (∃ outputs final, machine.Run start events outputs final) ↔
      ∀ before event after, events = before ++ event :: after →
        Accepted before event := by
  induction events using List.reverseRecOn with
  | nil =>
      constructor
      · intro _ before event after whole
        simp at whole
      · intro _
        exact ⟨[], start, .nil⟩
  | append_singleton events last ih =>
      constructor
      · rintro ⟨outputs, final, run⟩ before event after whole
        obtain ⟨initial, output, reached, rfl, front, stepped⟩ :=
          run_snoc_iff.mp run
        rcases List.eq_nil_or_concat after with rfl | ⟨rest, tail, rfl⟩
        · obtain ⟨rfl, single⟩ := List.append_inj' whole rfl
          cases List.singleton_injective single
          exact (exact_step front).mpr ⟨_, stepped⟩
        · rw [List.concat_eq_append, ← List.cons_append,
            ← List.append_assoc] at whole
          have front_eq := (List.append_inj' whole rfl).1
          exact ih.mp ⟨initial, reached, front⟩ before event rest front_eq
      · intro accepted
        obtain ⟨outputs, reached, front⟩ := ih.mpr
          fun before event after whole =>
            accepted before event (after ++ [last]) (by simp [whole])
        obtain ⟨⟨final, output⟩, stepped⟩ :=
          (exact_step front).mp (accepted events last [] rfl)
        exact ⟨_, final, front.snoc stepped⟩

def total (apply : σ → ε → σ × ο) : Machine σ ε ο :=
  { step := fun state event => some (apply state event) }

theorem total_step_iff {apply : σ → ε → σ × ο} {state next : σ} {event : ε}
    {output : ο} :
    (total apply).step state event = some (next, output) ↔
      next = (apply state event).1 ∧ output = (apply state event).2 := by
  constructor
  · intro stepped
    injection stepped with result
    exact ⟨(congrArg Prod.fst result).symm, (congrArg Prod.snd result).symm⟩
  · intro result
    obtain ⟨rfl, rfl⟩ := result
    rfl

/-- The machine together with a clock which its events never turn back. -/
def timed (machine : Machine σ ε ο) (time : ε → Nat) :
    Machine (σ × Nat) ε ο :=
  { step := fun (state, clock) event =>
      if clock ≤ time event then
        (machine.step state event).map fun (next, output) =>
          ((next, time event), output)
      else none }

theorem timed_step_iff {time : ε → Nat} {state next : σ} {clock later : Nat}
    {event : ε} {output : ο} :
    (machine.timed time).step (state, clock) event =
        some ((next, later), output) ↔
      clock ≤ time event ∧ machine.step state event = some (next, output) ∧
        later = time event := by
  by_cases order : clock ≤ time event
  · cases result : machine.step state event with
    | none => simp [timed, order, result]
    | some pair =>
        obtain ⟨reached, produced⟩ := pair
        simp only [timed, order, result, if_true, Option.map_some,
          Option.some.injEq, Prod.mk.injEq, true_and]
        constructor
        · intro equalities
          obtain ⟨⟨stateEq, clockEq⟩, outputEq⟩ := equalities
          exact ⟨⟨stateEq, outputEq⟩, clockEq.symm⟩
        · intro equalities
          obtain ⟨⟨stateEq, outputEq⟩, clockEq⟩ := equalities
          exact ⟨⟨stateEq, clockEq.symm⟩, outputEq⟩
  · simp [timed, order]

theorem timed_total_step_iff {apply : σ → ε → σ × ο} {time : ε → Nat}
    {state next : σ} {clock later : Nat} {event : ε} {output : ο} :
    ((total apply).timed time).step (state, clock) event =
        some ((next, later), output) ↔
      clock ≤ time event ∧ next = (apply state event).1 ∧
        output = (apply state event).2 ∧ later = time event := by
  rw [timed_step_iff, total_step_iff, and_assoc]

/-- What holds at the start, and after every event which comes in time when it
held before, holds at the end, with the events and outputs of the run. -/
theorem Run.timed_total_record {apply : σ → ε → σ × ο} {time : ε → Nat}
    {start final : σ} {began clock : Nat} {events : List ε}
    {outputs : List ο} {Recorded : List ε → List ο → σ → Nat → Prop}
    (initial : Recorded [] [] start began)
    (recorded : ∀ {events outputs state clock event},
      Recorded events outputs state clock → clock ≤ time event →
        Recorded (events ++ [event]) (outputs ++ [(apply state event).2])
          (apply state event).1 (time event))
    (run : ((total apply).timed time).Run (start, began) events outputs
      (final, clock)) : Recorded events outputs final clock := by
  generalize reached : (final, clock) = last at run
  induction run generalizing final clock with
  | nil =>
      cases reached
      exact initial
  | @snoc events outputs state next event output _ stepped ih =>
      subst reached
      obtain ⟨before, earlier⟩ := state
      obtain ⟨order, rfl, rfl, rfl⟩ := timed_total_step_iff.mp stepped
      exact recorded (ih rfl) order

end Machine

end NodeIdentity.Library
