import NodeIdentity.Library.ThreadNetwork

/-!
# What flows through a network of threads

A channel gives out what is put into it, in the same order, as long as one
thread puts there what is looked at.  A thread between two channels which turns
each message of the one into a message of the other is a stage; along stages
in a row, what comes out at the end is a prefix of what went in at the start,
and all of it once the network is drained.
-/

namespace NodeIdentity.Library

namespace ThreadNetwork

variable {Θ C μ ι ε σ γ : Type*} [DecidableEq Θ] [DecidableEq C]
  {net : ThreadNetwork Θ C μ ι ε σ} {s next : State Θ C μ σ}
  {thread : Θ} {channel : C} {now : ι} {input : ε} {move : Move C μ}

/-- What the messages of a channel carry, the oldest first: those in the
channel, and those its carrier still writes. -/
def carried (carry : μ → List γ) (carrier : Θ) (channel : C)
    (s : State Θ C μ σ) : List γ :=
  (s.queue channel).flatMap carry ++
    (s.pending carrier).flatMap fun write =>
      if write.1 = channel then carry write.2 else []

def Move.put (carry : μ → List γ) (channel : C) (move : Move C μ) : List γ :=
  move.writes.flatMap fun write =>
    if write.1 = channel then carry write.2 else []

def Move.got (carry : μ → List γ) (channel : C) (move : Move C μ) : List γ :=
  match move.taken with
  | some taken => if taken.1 = channel then carry taken.2 else []
  | none => []

/-- Only one thread puts into a channel what a flow carries. -/
structure SoleCarrier (net : ThreadNetwork Θ C μ ι ε σ) (carry : μ → List γ)
    (carrier : Θ) (channel : C) : Prop where
  turn : ∀ other source now message memory, other ≠ carrier →
    net.reads memory other source = true →
      ∀ write ∈ (net.turn other source now message memory).2,
        write.1 = channel → carry write.2 = []
  input : ∀ other input memory, other ≠ carrier →
    net.takes memory other input = true →
      ∀ write ∈ (net.input other input memory).2,
        write.1 = channel → carry write.2 = []

/-- No other thread is about to write what the flow carries. -/
def Silent (carry : μ → List γ) (carrier : Θ) (channel : C)
    (s : State Θ C μ σ) : Prop :=
  ∀ other, other ≠ carrier → ∀ write ∈ s.pending other,
    write.1 = channel → carry write.2 = []

variable {carry : μ → List γ} {carrier : Θ}

theorem flatMap_silent {writes : List (C × μ)}
    (silent : ∀ write ∈ writes, write.1 = channel → carry write.2 = []) :
    (writes.flatMap fun write =>
      if write.1 = channel then carry write.2 else []) = [] := by
  apply List.flatMap_eq_nil_iff.mpr
  intro write member
  split
  · next here => exact silent write member here
  · rfl

omit [DecidableEq C] in
theorem silent_begin {turn : σ × List (C × μ)} {queue : C → List μ}
    (silent : Silent carry carrier channel s)
    (quiet : thread ≠ carrier → ∀ write ∈ turn.2,
      write.1 = channel → carry write.2 = []) :
    Silent carry carrier channel (s.begin thread turn queue) := by
  intro other different write member
  by_cases same : other = thread
  · subst same
    simp only [State.begin, Function.update_self] at member
    exact quiet different write member
  · simp only [State.begin, Function.update_of_ne same] at member
    exact silent other different write member

theorem silent_step {event : Event Θ C ι ε}
    (sole : net.SoleCarrier carry carrier channel)
    (silent : Silent carry carrier channel s)
    (stepped : net.step s event = some (next, move)) :
    Silent carry carrier channel next := by
  cases event with
  | input thread input =>
      obtain ⟨_, _, takes, rfl, _⟩ := step_input stepped
      apply silent_begin silent
      intro different
      exact sole.input thread input s.memory different takes
  | read thread source now =>
      obtain ⟨_, _, reads, message, _, _, rfl, _⟩ := step_read stepped
      apply silent_begin silent
      intro different
      exact sole.turn thread source now message s.memory different reads
  | write thread =>
      obtain ⟨_, target, message, rest, front, _, rfl, _⟩ := step_write stepped
      intro other different write member
      apply silent other different write
      by_cases same : other = thread
      · subst same
        simp only [Function.update_self] at member
        rw [front]
        exact List.mem_cons_of_mem _ member
      · simp only [Function.update_of_ne same] at member
        exact member

/-- A turn of the carrier puts its writes behind what is carried, that of
another thread puts nothing there. -/
theorem carried_begin {turn : σ × List (C × μ)} {queue : C → List μ}
    (idle : s.pending thread = [])
    (quiet : thread ≠ carrier → ∀ write ∈ turn.2,
      write.1 = channel → carry write.2 = []) :
    carried carry carrier channel (s.begin thread turn queue) =
      carried carry carrier channel { s with queue := queue } ++
        Move.put carry channel ⟨none, turn.2⟩ := by
  by_cases same : carrier = thread
  · subst same
    simp only [carried, State.begin, Function.update_self, idle,
      List.flatMap_nil, List.append_nil, Move.put]
  · rw [Move.put, flatMap_silent (quiet (Ne.symm same)), List.append_nil]
    simp only [carried, State.begin, Function.update_of_ne same]

/-- What a step puts into the channel comes behind what is carried there, and
what it gets comes from the front. -/
theorem carried_step {event : Event Θ C ι ε}
    (sole : net.SoleCarrier carry carrier channel)
    (silent : Silent carry carrier channel s)
    (stepped : net.step s event = some (next, move)) :
    carried carry carrier channel s ++ move.put carry channel =
      move.got carry channel ++ carried carry carrier channel next := by
  cases event with
  | input thread input =>
      obtain ⟨_, idle, takes, rfl, rfl⟩ := step_input stepped
      rw [carried_begin idle fun different =>
        sole.input thread input s.memory different takes]
      rfl
  | read thread source now =>
      obtain ⟨_, idle, reads, message, rest, front, rfl, rfl⟩ :=
        step_read stepped
      rw [carried_begin idle fun different =>
        sole.turn thread source now message s.memory different reads,
        ← List.append_assoc]
      apply congrArg (· ++ _)
      by_cases same : source = channel
      · subst same
        simp only [carried, Move.got, front, if_true, List.flatMap_cons,
          Function.update_self, List.append_assoc]
      · simp only [carried, Move.got, if_neg same, List.nil_append,
          Function.update_of_ne (Ne.symm same)]
  | write thread =>
      obtain ⟨_, target, message, rest, front, _, rfl, rfl⟩ :=
        step_write stepped
      simp only [Move.put, Move.got, List.flatMap_nil, List.append_nil,
        List.nil_append, carried]
      by_cases own : carrier = thread
      · subst own
        by_cases same : target = channel
        · subst same
          simp only [Function.update_self, front, List.flatMap_cons, if_true,
            List.flatMap_append, List.flatMap_nil, List.append_nil,
            List.append_assoc]
        · simp only [Function.update_self, front, List.flatMap_cons,
            if_neg same, List.nil_append, Function.update_of_ne (Ne.symm same)]
      · rw [Function.update_of_ne own]
        apply congrArg (· ++ _)
        by_cases same : channel = target
        · subst same
          have nothing : carry message = [] := by
            apply silent thread (Ne.symm own) (channel, message) _ rfl
            rw [front]
            exact List.mem_cons_self
          simp only [Function.update_self, List.flatMap_append,
            List.flatMap_singleton, nothing, List.append_nil]
        · rw [Function.update_of_ne same]

theorem carried_run {start final : State Θ C μ σ}
    {events : List (Event Θ C ι ε)} {moves : List (Move C μ)}
    (sole : net.SoleCarrier carry carrier channel)
    (silent : Silent carry carrier channel start)
    (run : net.machine.Run start events moves final) :
    carried carry carrier channel start ++
        moves.flatMap (Move.put carry channel) =
      moves.flatMap (Move.got carry channel) ++
        carried carry carrier channel final := by
  induction run with
  | nil => simp
  | @snoc _ moves state _ _ move earlier last ih =>
      have quiet : Silent carry carrier channel state :=
        earlier.invariant silent fun silent stepped =>
          silent_step sole silent stepped
      have balance := carried_step sole quiet last
      rw [List.flatMap_append, List.flatMap_append, ← List.append_assoc, ih,
        List.append_assoc, List.flatMap_singleton, balance,
        List.flatMap_singleton, List.append_assoc]

/-- A channel nobody reads only grows. -/
theorem queue_grows {event : Event Θ C ι ε}
    (unread : ∀ memory thread, net.reads memory thread channel = false)
    (stepped : net.step s event = some (next, move)) :
    s.queue channel <+: next.queue channel := by
  cases event with
  | input thread input =>
      obtain ⟨_, _, _, rfl, _⟩ := step_input stepped
      exact List.prefix_rfl
  | read thread source now =>
      obtain ⟨_, _, reads, _, _, _, rfl, _⟩ := step_read stepped
      have other : channel ≠ source := by
        intro here
        subst here
        cases (unread s.memory thread).symm.trans reads
      simp only [State.begin, Function.update_of_ne other]
      exact List.prefix_rfl
  | write thread =>
      obtain ⟨_, target, _, _, _, _, rfl, _⟩ := step_write stepped
      by_cases same : channel = target
      · subst same
        simp only [Function.update_self]
        exact List.prefix_append _ _
      · simp only [Function.update_of_ne same]
        exact List.prefix_rfl

def Event.Admits (Admitted : ε → Prop) : Event Θ C ι ε → Prop
  | .input _ input => Admitted input
  | .read _ _ _ => True
  | .write _ => True

omit [DecidableEq Θ] [DecidableEq C] in
theorem Event.admits_true (event : Event Θ C ι ε) :
    event.Admits fun _ => True := by
  cases event <;> trivial

/-- Turns keep what holds of the memory, and threads write what fits a channel,
as long as they read what fits. -/
structure Keeps (net : ThreadNetwork Θ C μ ι ε σ) (Admitted : ε → Prop)
    (Holds : σ → Prop) (Fits : C → μ → Prop) : Prop where
  turn_holds : ∀ {memory thread source now message},
    net.reads memory thread source = true → Holds memory →
      Fits source message →
        Holds (net.turn thread source now message memory).1
  turn_fits : ∀ {memory thread source now message write},
    net.reads memory thread source = true → Holds memory →
      Fits source message →
        write ∈ (net.turn thread source now message memory).2 →
          Fits write.1 write.2
  input_holds : ∀ {memory thread input},
    net.takes memory thread input = true → Holds memory → Admitted input →
      Holds (net.input thread input memory).1
  input_fits : ∀ {memory thread input write},
    net.takes memory thread input = true → Holds memory → Admitted input →
      write ∈ (net.input thread input memory).2 → Fits write.1 write.2

/-- Every message fits its channel, also those about to be written. -/
structure State.Fit (Holds : σ → Prop) (Fits : C → μ → Prop)
    (s : State Θ C μ σ) : Prop where
  memory : Holds s.memory
  queue : ∀ channel, ∀ message ∈ s.queue channel, Fits channel message
  pending : ∀ thread, ∀ write ∈ s.pending thread, Fits write.1 write.2

variable {Admitted : ε → Prop} {Holds : σ → Prop} {Fits : C → μ → Prop}

omit [DecidableEq Θ] [DecidableEq C] in
/-- With nothing in the channels only the memory counts. -/
theorem fit_of_empty (holds : Holds s.memory)
    (empty : (∀ channel, s.queue channel = []) ∧
      ∀ thread, s.pending thread = []) : s.Fit Holds Fits := by
  refine ⟨holds, ?_, ?_⟩
  · intro channel message member
    rw [empty.1] at member
    cases member
  · intro thread write member
    rw [empty.2] at member
    cases member

omit [DecidableEq C] in
theorem fit_begin {turn : σ × List (C × μ)} {queue : C → List μ}
    (holds : Holds turn.1)
    (queues : ∀ channel, ∀ message ∈ queue channel, Fits channel message)
    (fit : s.Fit Holds Fits) (writes : ∀ write ∈ turn.2, Fits write.1 write.2) :
    (s.begin thread turn queue).Fit Holds Fits := by
  refine ⟨holds, queues, ?_⟩
  intro other write member
  by_cases same : other = thread
  · subst same
    simp only [State.begin, Function.update_self] at member
    exact writes write member
  · simp only [State.begin, Function.update_of_ne same] at member
    exact fit.pending other write member

theorem Keeps.step {event : Event Θ C ι ε}
    (keeps : net.Keeps Admitted Holds Fits) (fit : s.Fit Holds Fits)
    (admits : event.Admits Admitted)
    (stepped : net.step s event = some (next, move)) :
    next.Fit Holds Fits := by
  cases event with
  | input thread input =>
      obtain ⟨_, _, takes, rfl, _⟩ := step_input stepped
      apply fit_begin (keeps.input_holds takes fit.memory admits) fit.queue fit
      intro write member
      exact keeps.input_fits takes fit.memory admits member
  | read thread source now =>
      obtain ⟨_, _, reads, message, rest, front, rfl, _⟩ := step_read stepped
      have taken : Fits source message := by
        apply fit.queue source message
        rw [front]
        exact List.mem_cons_self
      apply fit_begin (keeps.turn_holds reads fit.memory taken) _ fit
      · intro write member
        exact keeps.turn_fits reads fit.memory taken member
      · intro channel other member
        apply fit.queue channel other
        by_cases same : channel = source
        · subst same
          rw [Function.update_self] at member
          rw [front]
          exact List.mem_cons_of_mem _ member
        · rwa [Function.update_of_ne same] at member
  | write thread =>
      obtain ⟨_, target, message, rest, front, _, rfl, _⟩ := step_write stepped
      have written : Fits target message := by
        apply fit.pending thread (target, message)
        rw [front]
        exact List.mem_cons_self
      refine ⟨fit.memory, ?_, ?_⟩
      · intro channel other member
        by_cases same : channel = target
        · subst same
          simp only [Function.update_self] at member
          rcases List.mem_append.mp member with before | here
          · exact fit.queue channel other before
          · cases List.mem_singleton.mp here
            exact written
        · simp only [Function.update_of_ne same] at member
          exact fit.queue channel other member
      · intro other write member
        apply fit.pending other
        by_cases same : other = thread
        · subst same
          simp only [Function.update_self] at member
          rw [front]
          exact List.mem_cons_of_mem _ member
        · simp only [Function.update_of_ne same] at member
          exact member

/-- Only the worker reads the source and writes the target, and it puts into
the target what it gets out of the source. -/
structure Stage (layers : net.Layers) (Holds : σ → Prop) (Fits : C → μ → Prop)
    (source : C) (carryIn : μ → List γ) (target : C) (carryOut : μ → List γ)
    (worker : Θ) : Prop where
  reader : ∀ {memory thread}, net.reads memory thread source = true →
    thread = worker
  writer : ∀ {thread}, layers.writes thread target = true → thread = worker
  waits : ∀ {memory input}, net.takes memory worker input = false
  passes : ∀ {memory now message}, Holds memory → Fits source message →
    Move.put carryOut target
        ⟨none, (net.turn worker source now message memory).2⟩ =
      carryIn message
  others : ∀ {memory other now message}, other ≠ source →
    net.reads memory worker other = true → Fits other message →
      Move.put carryOut target
        ⟨none, (net.turn worker other now message memory).2⟩ = []

omit [DecidableEq Θ] in
theorem put_eq_nil {layers : net.Layers} {writes : List (C × μ)}
    {taken : Option (C × μ)}
    (allowed : ∀ write ∈ writes, layers.writes thread write.1 = true)
    (elsewhere : layers.writes thread channel ≠ true) (carry : μ → List γ) :
    Move.put carry channel ⟨taken, writes⟩ = [] := by
  apply flatMap_silent
  intro write member here
  subst here
  exact (elsewhere (allowed write member)).elim

variable {layers : net.Layers} {source target : C} {carryIn carryOut : μ → List γ}
  {worker : Θ}

theorem Stage.step {event : Event Θ C ι ε}
    (stage : Stage layers Holds Fits source carryIn target carryOut worker)
    (fit : s.Fit Holds Fits) (stepped : net.step s event = some (next, move)) :
    move.put carryOut target = move.got carryIn source := by
  cases event with
  | input thread input =>
      obtain ⟨_, _, takes, _, rfl⟩ := step_input stepped
      apply put_eq_nil (fun write member => layers.input_writes takes member)
      intro writes
      cases stage.writer writes
      cases stage.waits.symm.trans takes
  | read thread channel now =>
      obtain ⟨_, _, reads, message, rest, front, _, rfl⟩ := step_read stepped
      have taken : Fits channel message := by
        apply fit.queue channel message
        rw [front]
        exact List.mem_cons_self
      by_cases here : channel = source
      · subst here
        cases stage.reader reads
        simp only [Move.got, if_true]
        exact stage.passes fit.memory taken
      · simp only [Move.got, if_neg here]
        by_cases own : thread = worker
        · subst own
          exact stage.others here reads taken
        · apply put_eq_nil (fun write member => layers.turn_writes reads member)
          intro writes
          exact own (stage.writer writes)
  | write thread =>
      obtain ⟨_, _, _, _, _, _, _, rfl⟩ := step_write stepped
      rfl

omit [DecidableEq Θ] [DecidableEq C] in
theorem soleCarrier_of_writer {carrier : Θ} (layers : net.Layers)
    (writer : ∀ thread, layers.writes thread channel = true → thread = carrier)
    (carry : μ → List γ) : net.SoleCarrier carry carrier channel := by
  constructor
  · intro other source now message memory different reads write member here
    subst here
    exact (different (writer other (layers.turn_writes reads member))).elim
  · intro other input memory different takes write member here
    subst here
    exact (different (writer other (layers.input_writes takes member))).elim

def Event.entering (enters : ε → List γ) : Event Θ C ι ε → List γ
  | .input _ input => enters input
  | .read _ _ _ => []
  | .write _ => []

/-- A thread which reads no channel puts into one what comes in with its
inputs. -/
structure Inlet (net : ThreadNetwork Θ C μ ι ε σ) (Admitted : ε → Prop)
    (Holds : σ → Prop) (enters : ε → List γ) (target : C) (carry : μ → List γ)
    (carrier : Θ) : Prop where
  sole : net.SoleCarrier carry carrier target
  waits : ∀ {memory channel}, net.reads memory carrier channel = false
  passes : ∀ {memory input}, net.takes memory carrier input = true →
    Holds memory → Admitted input →
      Move.put carry target ⟨none, (net.input carrier input memory).2⟩ =
        enters input
  others : ∀ {memory other input}, other ≠ carrier →
    net.takes memory other input = true → enters input = []

theorem Inlet.step {enters : ε → List γ} {carry : μ → List γ} {carrier : Θ}
    {event : Event Θ C ι ε}
    (inlet : net.Inlet Admitted Holds enters target carry carrier)
    (holds : Holds s.memory) (admits : event.Admits Admitted)
    (stepped : net.step s event = some (next, move)) :
    move.put carry target = event.entering enters := by
  cases event with
  | input thread input =>
      obtain ⟨_, _, takes, _, rfl⟩ := step_input stepped
      by_cases own : thread = carrier
      · subst own
        exact inlet.passes takes holds admits
      · rw [Event.entering, inlet.others own takes]
        apply flatMap_silent
        exact inlet.sole.input thread input s.memory own takes
  | read thread source now =>
      obtain ⟨_, _, reads, message, _, _, _, rfl⟩ := step_read stepped
      apply flatMap_silent
      apply inlet.sole.turn thread source now message s.memory _ reads
      intro own
      subst own
      cases inlet.waits.symm.trans reads
  | write thread =>
      obtain ⟨_, _, _, _, _, _, _, rfl⟩ := step_write stepped
      rfl

/-- What a move puts into a channel for what it takes out of another. -/
def Move.sent (carry : μ → List γ) (source target : C) (move : Move C μ) :
    List γ :=
  match move.taken with
  | some taken => if taken.1 = source then move.put carry target else []
  | none => []

/-- A thread puts into the target what it gets out of the source, whatever else
it puts there. -/
structure Outlet (net : ThreadNetwork Θ C μ ι ε σ) (Holds : σ → Prop)
    (Fits : C → μ → Prop) (source : C) (carryIn : μ → List γ) (target : C)
    (carryOut : μ → List γ) (worker : Θ) : Prop where
  reader : ∀ {memory thread}, net.reads memory thread source = true →
    thread = worker
  passes : ∀ {memory now message}, Holds memory → Fits source message →
    Move.put carryOut target
        ⟨none, (net.turn worker source now message memory).2⟩ =
      carryIn message

theorem Outlet.step {event : Event Θ C ι ε}
    (outlet : net.Outlet Holds Fits source carryIn target carryOut worker)
    (fit : s.Fit Holds Fits) (stepped : net.step s event = some (next, move)) :
    move.sent carryOut source target = move.got carryIn source := by
  cases event with
  | input thread input =>
      obtain ⟨_, _, _, _, rfl⟩ := step_input stepped
      rfl
  | read thread channel now =>
      obtain ⟨_, _, reads, message, rest, front, _, rfl⟩ := step_read stepped
      by_cases here : channel = source
      · subst here
        cases outlet.reader reads
        simp only [Move.sent, Move.got, if_true]
        apply outlet.passes fit.memory
        apply fit.queue channel message
        rw [front]
        exact List.mem_cons_self
      · simp only [Move.sent, Move.got, if_neg here]
  | write thread =>
      obtain ⟨_, _, _, _, _, _, _, rfl⟩ := step_write stepped
      rfl

section Run

variable {start final : State Θ C μ σ} {events : List (Event Θ C ι ε)}
  {moves : List (Move C μ)}

theorem got_prefix_put {carrier : Θ} {carry : μ → List γ}
    (sole : net.SoleCarrier carry carrier channel)
    (empty : start.queue channel = [] ∧ ∀ thread, start.pending thread = [])
    (run : net.machine.Run start events moves final) :
    moves.flatMap (Move.got carry channel) <+:
      moves.flatMap (Move.put carry channel) := by
  have silent : Silent carry carrier channel start := by
    intro other _ write member
    rw [empty.2 other] at member
    cases member
  have balance := carried_run sole silent run
  simp only [carried, empty.1, empty.2 carrier, List.flatMap_nil,
    List.nil_append] at balance
  exact ⟨_, balance.symm⟩

theorem got_eq_put {carrier : Θ} {carry : μ → List γ}
    (sole : net.SoleCarrier carry carrier channel)
    (empty : start.queue channel = [] ∧ ∀ thread, start.pending thread = [])
    (left : final.queue channel = [] ∧ final.pending carrier = [])
    (run : net.machine.Run start events moves final) :
    moves.flatMap (Move.got carry channel) =
      moves.flatMap (Move.put carry channel) := by
  have silent : Silent carry carrier channel start := by
    intro other _ write member
    rw [empty.2 other] at member
    cases member
  have balance := carried_run sole silent run
  simp only [carried, empty.1, empty.2 carrier, left.1, left.2,
    List.flatMap_nil, List.nil_append, List.append_nil] at balance
  exact balance.symm

/-- What is left in a channel nobody reads is the first part of what went in,
and all of it when its carrier has nothing left to write. -/
theorem queue_prefix_put {carrier : Θ} {carry : μ → List γ}
    (sole : net.SoleCarrier carry carrier channel)
    (empty : start.queue channel = [] ∧ ∀ thread, start.pending thread = [])
    (unread : ∀ memory thread, net.reads memory thread channel = false)
    (run : net.machine.Run start events moves final) :
    (final.queue channel).flatMap carry <+:
        moves.flatMap (Move.put carry channel) ∧
      (final.pending carrier = [] →
        (final.queue channel).flatMap carry =
          moves.flatMap (Move.put carry channel)) := by
  have silent : Silent carry carrier channel start := by
    intro other _ write member
    rw [empty.2 other] at member
    cases member
  have balance := carried_run sole silent run
  have nothing : moves.flatMap (Move.got carry channel) = [] := by
    apply List.flatMap_eq_nil_iff.mpr
    apply run.outputs
    intro s next event move stepped
    cases event with
    | input thread input =>
        obtain ⟨_, _, _, _, rfl⟩ := step_input stepped
        rfl
    | read thread source now =>
        obtain ⟨_, _, reads, _, _, _, _, rfl⟩ := step_read stepped
        apply if_neg
        intro here
        subst here
        cases (unread s.memory thread).symm.trans reads
    | write thread =>
        obtain ⟨_, _, _, _, _, _, _, rfl⟩ := step_write stepped
        rfl
  simp only [carried, empty.1, empty.2 carrier, List.flatMap_nil,
    List.nil_append, nothing] at balance
  refine ⟨⟨_, balance.symm⟩, fun idle => ?_⟩
  rw [balance, idle, List.flatMap_nil, List.append_nil]

theorem Keeps.run (keeps : net.Keeps Admitted Holds Fits)
    (fit : start.Fit Holds Fits)
    (admitted : ∀ event ∈ events, event.Admits Admitted)
    (run : net.machine.Run start events moves final) : final.Fit Holds Fits :=
  run.invariant_among fit
    (fun fit admits stepped => keeps.step fit admits stepped) admitted

theorem Keeps.moves_run {view other : Move C μ → List γ}
    (keeps : net.Keeps Admitted Holds Fits) (fit : start.Fit Holds Fits)
    (same : ∀ {s next event move}, s.Fit Holds Fits →
      net.step s event = some (next, move) → view move = other move)
    (admitted : ∀ event ∈ events, event.Admits Admitted)
    (run : net.machine.Run start events moves final) :
    moves.flatMap view = moves.flatMap other := by
  induction run with
  | nil => rfl
  | @snoc events moves state next event move earlier last ih =>
      have before : ∀ event ∈ events, event.Admits Admitted :=
        fun event member => admitted event (List.mem_append_left _ member)
      have here := same (keeps.run fit before earlier) last
      rw [List.flatMap_append, List.flatMap_append, ih before,
        List.flatMap_singleton, List.flatMap_singleton, here]

theorem Stage.run
    (stage : Stage layers Holds Fits source carryIn target carryOut worker)
    (keeps : net.Keeps Admitted Holds Fits) (fit : start.Fit Holds Fits)
    (admitted : ∀ event ∈ events, event.Admits Admitted)
    (run : net.machine.Run start events moves final) :
    moves.flatMap (Move.put carryOut target) =
      moves.flatMap (Move.got carryIn source) :=
  keeps.moves_run fit stage.step admitted run

theorem Outlet.run
    (outlet : net.Outlet Holds Fits source carryIn target carryOut worker)
    (keeps : net.Keeps Admitted Holds Fits) (fit : start.Fit Holds Fits)
    (admitted : ∀ event ∈ events, event.Admits Admitted)
    (run : net.machine.Run start events moves final) :
    moves.flatMap (Move.sent carryOut source target) =
      moves.flatMap (Move.got carryIn source) :=
  keeps.moves_run fit outlet.step admitted run

theorem Inlet.run {enters : ε → List γ} {carrier : Θ}
    (inlet : net.Inlet Admitted Holds enters target carryOut carrier)
    (keeps : net.Keeps Admitted Holds Fits) (fit : start.Fit Holds Fits)
    (admitted : ∀ event ∈ events, event.Admits Admitted)
    (run : net.machine.Run start events moves final) :
    moves.flatMap (Move.put carryOut target) =
      events.flatMap (Event.entering enters) := by
  have balanced : ∀ {s next : State Θ C μ σ} {event : Event Θ C ι ε}
      {move : Move C μ}, s.Fit Holds Fits → event.Admits Admitted →
      net.machine.step s event = some (next, move) →
        [] ++ event.entering enters = move.put carryOut target ++ [] := by
    intro s next event move fit admits stepped
    rw [List.nil_append, List.append_nil]
    exact (inlet.step fit.memory admits stepped).symm
  have kept : [] ++ events.flatMap (Event.entering enters) =
      moves.flatMap (Move.put carryOut target) ++ [] :=
    run.conserved fit
      (fun fit admits stepped => keeps.step fit admits stepped) balanced
      admitted
  rw [List.nil_append, List.append_nil] at kept
  exact kept.symm

end Run

end ThreadNetwork

end NodeIdentity.Library
