import Mathlib.Algebra.BigOperators.Group.Finset.Piecewise
import Mathlib.Algebra.BigOperators.Ring.Finset
import Mathlib.Algebra.Group.Action.Defs
import Mathlib.Algebra.Order.BigOperators.Group.Finset
import Mathlib.Algebra.Order.BigOperators.Group.List
import Mathlib.Algebra.Order.Ring.Nat
import Mathlib.Data.Fintype.Basic
import NodeIdentity.Library.Machine

/-!
# Networks of threads

Threads which share a memory and pass messages through channels.  A thread
takes a turn on a message of a channel it reads, or on an input from outside.
The turn changes the memory and leaves a list of writes, which the thread
makes one by one before it takes another.  A write returns once there is room,
and nothing is said about which thread moves when.

Channels which can be ordered in layers are emptied in a bounded number of
moves.  What stops such a network is a write to a full channel nobody reads,
or a thread which writes back to a higher layer.
-/

namespace NodeIdentity.Library

variable {Θ C μ ι ε σ : Type*}

/-- `ι` is what a turn depends on besides the message and the memory, such as
the time, and `ε` are the inputs.  A channel without a capacity is never
full. -/
structure ThreadNetwork (Θ C μ ι ε σ : Type*) where
  reads : σ → Θ → C → Bool
  turn : Θ → C → ι → μ → σ → σ × List (C × μ)
  takes : σ → Θ → ε → Bool
  input : Θ → ε → σ → σ × List (C × μ)
  halted : σ → Bool
  capacity : C → Option Nat

namespace ThreadNetwork

/-- `pending` are the writes a thread has left of its turn. -/
structure State (Θ C μ σ : Type*) where
  memory : σ
  queue : C → List μ
  pending : Θ → List (C × μ)

/-- The messages in the channels which count, with those about to be
written. -/
def State.messages [Fintype Θ] [Fintype C] (s : State Θ C μ σ)
    (counts : C → Bool) : Nat :=
  ∑ channel with counts channel, (s.queue channel).length +
    ∑ thread, (s.pending thread).length

inductive Event (Θ C ι ε : Type*) where
  | input (thread : Θ) (input : ε)
  | read (thread : Θ) (channel : C) (now : ι)
  | write (thread : Θ)

/-- The threads move by themselves, without an input. -/
def Event.Internal : Event Θ C ι ε → Prop
  | .input _ _ => False
  | .read _ _ _ => True
  | .write _ => True

def Event.reader : Event Θ C ι ε → Option Θ
  | .input _ _ => none
  | .read thread _ _ => some thread
  | .write _ => none

/-- What a thread has read, if it has, and what it will write for it. -/
structure Move (C μ : Type*) where
  taken : Option (C × μ)
  writes : List (C × μ)

variable [DecidableEq Θ] [DecidableEq C]

def HasRoom (net : ThreadNetwork Θ C μ ι ε σ) (channel : C)
    (queue : List μ) : Bool :=
  (net.capacity channel).all fun capacity => queue.length < capacity

/-- A turn begins: the thread has nothing left to write before. -/
def State.begin (thread : Θ) (turn : σ × List (C × μ)) (queue : C → List μ)
    (s : State Θ C μ σ) : State Θ C μ σ :=
  { memory := turn.1
    queue := queue
    pending := Function.update s.pending thread turn.2 }

def step (net : ThreadNetwork Θ C μ ι ε σ) (s : State Θ C μ σ) :
    Event Θ C ι ε → Option (State Θ C μ σ × Move C μ)
  | .input thread input =>
      if net.halted s.memory = false ∧ (s.pending thread).isEmpty ∧
          net.takes s.memory thread input then
        let turn := net.input thread input s.memory
        some (s.begin thread turn s.queue, ⟨none, turn.2⟩)
      else none
  | .read thread channel now =>
      if net.halted s.memory = false ∧ (s.pending thread).isEmpty ∧
          net.reads s.memory thread channel then
        match s.queue channel with
        | message :: rest =>
            let turn := net.turn thread channel now message s.memory
            some (s.begin thread turn (Function.update s.queue channel rest),
              ⟨some (channel, message), turn.2⟩)
        | [] => none
      else none
  | .write thread =>
      if net.halted s.memory = false then
        match s.pending thread with
        | (channel, message) :: rest =>
            if net.HasRoom channel (s.queue channel) then
              some ({ s with
                queue := Function.update s.queue channel
                  (s.queue channel ++ [message])
                pending := Function.update s.pending thread rest },
                ⟨none, []⟩)
            else none
        | [] => none
      else none

def machine (net : ThreadNetwork Θ C μ ι ε σ) :
    Machine (State Θ C μ σ) (Event Θ C ι ε) (Move C μ) :=
  ⟨net.step⟩

def Settled (net : ThreadNetwork Θ C μ ι ε σ) (s : State Θ C μ σ) : Prop :=
  ∀ event : Event Θ C ι ε, event.Internal → net.step s event = none

/-- Every turn is completed, and every message which would be read has
been. -/
def Drained (net : ThreadNetwork Θ C μ ι ε σ) (s : State Θ C μ σ) : Prop :=
  (∀ thread, s.pending thread = []) ∧
    ∀ thread channel, net.reads s.memory thread channel = true →
      s.queue channel = []

/-- The next write of a thread is to a channel without room. -/
def Blocked (net : ThreadNetwork Θ C μ ι ε σ) (s : State Θ C μ σ)
    (thread : Θ) (channel : C) : Prop :=
  ∃ message rest, s.pending thread = (channel, message) :: rest ∧
    net.HasRoom channel (s.queue channel) = false

variable {net : ThreadNetwork Θ C μ ι ε σ} {s next : State Θ C μ σ}
  {thread : Θ} {channel : C} {now : ι} {input : ε} {move : Move C μ}

theorem step_input
    (stepped : net.step s (.input thread input) = some (next, move)) :
    net.halted s.memory = false ∧ s.pending thread = [] ∧
      net.takes s.memory thread input = true ∧
      next = s.begin thread (net.input thread input s.memory) s.queue ∧
      move = ⟨none, (net.input thread input s.memory).2⟩ := by
  simp only [step] at stepped
  split at stepped
  · next ready =>
      cases stepped
      exact ⟨ready.1, List.isEmpty_iff.mp ready.2.1, ready.2.2, rfl, rfl⟩
  · cases stepped

theorem step_read
    (stepped : net.step s (.read thread channel now) = some (next, move)) :
    net.halted s.memory = false ∧ s.pending thread = [] ∧
      net.reads s.memory thread channel = true ∧
      ∃ message rest, s.queue channel = message :: rest ∧
        next = s.begin thread (net.turn thread channel now message s.memory)
          (Function.update s.queue channel rest) ∧
        move = ⟨some (channel, message),
          (net.turn thread channel now message s.memory).2⟩ := by
  simp only [step] at stepped
  split at stepped
  · next ready =>
      split at stepped
      · next message rest front =>
          cases stepped
          exact ⟨ready.1, List.isEmpty_iff.mp ready.2.1, ready.2.2,
            message, rest, front, rfl, rfl⟩
      · cases stepped
  · cases stepped

theorem step_write
    (stepped : net.step s (.write thread) = some (next, move)) :
    net.halted s.memory = false ∧
      ∃ channel message rest,
        s.pending thread = (channel, message) :: rest ∧
        net.HasRoom channel (s.queue channel) = true ∧
        next = { s with
          queue := Function.update s.queue channel
            (s.queue channel ++ [message])
          pending := Function.update s.pending thread rest } ∧
        move = ⟨none, []⟩ := by
  simp only [step] at stepped
  split at stepped
  · next running =>
      split at stepped
      · next channel message rest front =>
          split at stepped
          · next room =>
              cases stepped
              exact ⟨running, channel, message, rest, front, room, rfl, rfl⟩
          · cases stepped
      · cases stepped
  · cases stepped

/-- Threads move messages from higher channels to lower ones, except those
which feed back, and a turn makes a bounded number of writes. -/
structure Layers (net : ThreadNetwork Θ C μ ι ε σ) where
  height : C → Nat
  writes : Θ → C → Bool
  feedback : Θ → Bool
  fanout : Nat
  turn_writes : ∀ {memory thread source now message write},
    net.reads memory thread source = true →
      write ∈ (net.turn thread source now message memory).2 →
        writes thread write.1 = true
  input_writes : ∀ {memory thread input write},
    net.takes memory thread input = true →
      write ∈ (net.input thread input memory).2 →
        writes thread write.1 = true
  turn_length : ∀ {memory thread source now message},
    net.reads memory thread source = true →
      (net.turn thread source now message memory).2.length ≤ fanout
  descends : ∀ {memory thread source target},
    feedback thread = false → net.reads memory thread source = true →
      writes thread target = true → height target < height source
  positive : ∀ {memory thread source},
    net.reads memory thread source = true → 0 < height source

namespace Layers

/-- The moves a message can cause from the height of its channel on. -/
def weight (fanout : Nat) : Nat → Nat
  | 0 => 0
  | height + 1 => fanout * (weight fanout height + 1) + 1

theorem weight_mono (fanout : Nat) : Monotone (weight fanout) := by
  apply monotone_nat_of_le_succ
  intro height
  induction height with
  | zero => exact Nat.zero_le _
  | succ height ih =>
      apply Nat.succ_le_succ
      apply Nat.mul_le_mul_left
      exact Nat.succ_le_succ ih

variable (layers : net.Layers)

def messageWeight (channel : C) : Nat :=
  weight layers.fanout (layers.height channel)

def writeWeight (write : C × μ) : Nat := layers.messageWeight write.1 + 1

def queueWeight (queue : C → List μ) (channel : C) : Nat :=
  (queue channel).length * layers.messageWeight channel

def writesWeight (writes : List (C × μ)) : Nat :=
  (writes.map layers.writeWeight).sum

def potential [Fintype Θ] [Fintype C] (s : State Θ C μ σ) : Nat :=
  ∑ channel, layers.queueWeight s.queue channel +
    ∑ thread, layers.writesWeight (s.pending thread)

/-- What a turn of a thread which feeds back can add. -/
def feedbackWeight [Fintype C] : Nat :=
  layers.fanout * ∑ channel, (layers.messageWeight channel + 1)

theorem sum_change {α : Type*} [Fintype α] [DecidableEq α] {f g : α → Nat}
    (place : α) (same : ∀ other, other ≠ place → g other = f other) :
    ∑ other, g other + f place = ∑ other, f other + g place := by
  have rest : ∑ other ∈ Finset.univ.erase place, g other =
      ∑ other ∈ Finset.univ.erase place, f other := by
    apply Finset.sum_congr rfl
    intro other member
    exact same other (Finset.ne_of_mem_erase member)
  have wholeF := Finset.add_sum_erase Finset.univ f (Finset.mem_univ place)
  have wholeG := Finset.add_sum_erase Finset.univ g (Finset.mem_univ place)
  omega

omit [DecidableEq Θ] in
theorem sum_queues_update [Fintype C] (queue : C → List μ) (channel : C)
    (messages : List μ) :
    ∑ other, layers.queueWeight (Function.update queue channel messages) other +
        (queue channel).length * layers.messageWeight channel =
      ∑ other, layers.queueWeight queue other +
        messages.length * layers.messageWeight channel := by
  have change := sum_change channel fun other different =>
    show layers.queueWeight (Function.update queue channel messages) other =
      layers.queueWeight queue other by
    rw [queueWeight, Function.update_of_ne different, queueWeight]
  rwa [queueWeight, queueWeight, Function.update_self] at change

omit [DecidableEq C] in
theorem sum_pending_update [Fintype Θ] (pending : Θ → List (C × μ))
    (thread : Θ) (writes : List (C × μ)) :
    ∑ other, layers.writesWeight (Function.update pending thread writes other) +
        layers.writesWeight (pending thread) =
      ∑ other, layers.writesWeight (pending other) +
        layers.writesWeight writes := by
  have change := sum_change thread fun other different =>
    show layers.writesWeight (Function.update pending thread writes other) =
      layers.writesWeight (pending other) by
    rw [Function.update_of_ne different]
  rwa [Function.update_self] at change

omit [DecidableEq Θ] [DecidableEq C] in
/-- All writes of a turn weigh less than the message it was taken on, when
they go to lower channels. -/
theorem writesWeight_lt {writes : List (C × μ)} {height : Nat}
    (short : writes.length ≤ layers.fanout)
    (lower : ∀ write ∈ writes, layers.height write.1 < height)
    (positive : 0 < height) :
    layers.writesWeight writes < weight layers.fanout height := by
  obtain ⟨below, rfl⟩ := Nat.exists_eq_add_one_of_ne_zero positive.ne'
  apply Nat.lt_succ_of_le
  have each : ∀ weighed ∈ writes.map layers.writeWeight,
      weighed ≤ weight layers.fanout below + 1 := by
    intro weighed member
    obtain ⟨write, written, rfl⟩ := List.mem_map.mp member
    apply Nat.succ_le_succ
    exact weight_mono layers.fanout (Nat.le_of_lt_succ (lower write written))
  calc layers.writesWeight writes
      ≤ (writes.map layers.writeWeight).length •
          (weight layers.fanout below + 1) :=
        List.sum_le_card_nsmul _ _ each
    _ = writes.length * (weight layers.fanout below + 1) := by
        rw [List.length_map, smul_eq_mul]
    _ ≤ layers.fanout * (weight layers.fanout below + 1) :=
        Nat.mul_le_mul_right _ short

omit [DecidableEq Θ] [DecidableEq C] in
theorem writesWeight_le [Fintype C] {writes : List (C × μ)}
    (short : writes.length ≤ layers.fanout) :
    layers.writesWeight writes ≤ layers.feedbackWeight := by
  have each : ∀ weighed ∈ writes.map layers.writeWeight,
      weighed ≤ ∑ channel, (layers.messageWeight channel + 1) := by
    intro weighed member
    obtain ⟨write, _, rfl⟩ := List.mem_map.mp member
    exact Finset.single_le_sum
      (fun channel _ => Nat.zero_le (layers.messageWeight channel + 1))
      (Finset.mem_univ write.1)
  calc layers.writesWeight writes
      ≤ (writes.map layers.writeWeight).length •
          ∑ channel, (layers.messageWeight channel + 1) :=
        List.sum_le_card_nsmul _ _ each
    _ = writes.length * ∑ channel, (layers.messageWeight channel + 1) := by
        rw [List.length_map, smul_eq_mul]
    _ ≤ layers.feedbackWeight := Nat.mul_le_mul_right _ short

variable [Fintype Θ] [Fintype C]

theorem potential_write
    (stepped : net.step s (.write thread) = some (next, move)) :
    layers.potential next + 1 = layers.potential s := by
  obtain ⟨_, target, message, rest, front, _, rfl, _⟩ := step_write stepped
  have queues := layers.sum_queues_update s.queue target
    (s.queue target ++ [message])
  have pendings := layers.sum_pending_update s.pending thread rest
  simp only [front, writesWeight, List.map_cons, List.sum_cons, writeWeight]
    at pendings
  simp only [List.length_append, List.length_singleton, Nat.add_mul,
    Nat.one_mul] at queues
  simp only [potential, writesWeight]
  omega

theorem potential_read
    (stepped : net.step s (.read thread channel now) = some (next, move)) :
    layers.potential next + layers.messageWeight channel =
      layers.potential s + layers.writesWeight move.writes := by
  obtain ⟨_, idle, _, message, rest, front, rfl, rfl⟩ := step_read stepped
  have queues := layers.sum_queues_update s.queue channel rest
  have pendings := layers.sum_pending_update s.pending thread
    (net.turn thread channel now message s.memory).2
  simp only [idle, writesWeight, List.map_nil, List.sum_nil] at pendings
  simp only [front, List.length_cons, Nat.add_mul, Nat.one_mul] at queues
  simp only [potential, State.begin, writesWeight]
  omega

omit [DecidableEq Θ] [DecidableEq C] in
theorem potential_le {top : Nat} {counts : C → Bool}
    (below : ∀ channel, layers.height channel ≤ top)
    (bottom : ∀ channel, counts channel = false → layers.height channel = 0)
    (s : State Θ C μ σ) :
    layers.potential s ≤
      (weight layers.fanout top + 1) * s.messages counts := by
  have light : ∀ channel, layers.messageWeight channel ≤
      weight layers.fanout top :=
    fun channel => weight_mono layers.fanout (below channel)
  have queues : ∀ channel, layers.queueWeight s.queue channel ≤
      (weight layers.fanout top + 1) * (s.queue channel).length := by
    intro channel
    rw [queueWeight, Nat.mul_comm]
    exact Nat.mul_le_mul_right _ (Nat.le_succ_of_le (light channel))
  have pendings : ∀ thread, layers.writesWeight (s.pending thread) ≤
      (weight layers.fanout top + 1) * (s.pending thread).length := by
    intro thread
    generalize s.pending thread = writes
    induction writes with
    | nil => exact Nat.zero_le _
    | cons write writes ih =>
        have first := Nat.succ_le_succ (light write.1)
        simp only [writesWeight, List.map_cons, List.sum_cons, writeWeight,
          List.length_cons, Nat.mul_add, Nat.mul_one] at ih ⊢
        omega
  have counted : ∑ channel, layers.queueWeight s.queue channel =
      ∑ channel with counts channel, layers.queueWeight s.queue channel := by
    symm
    apply Finset.sum_filter_of_ne
    intro channel _ heavy
    by_contra other
    have height := bottom channel (Bool.eq_false_iff.mpr other)
    rw [queueWeight, messageWeight, height, weight, Nat.mul_zero] at heavy
    exact heavy rfl
  rw [potential, counted, State.messages, Nat.mul_add, Finset.mul_sum,
    Finset.mul_sum]
  exact Nat.add_le_add (Finset.sum_le_sum fun channel _ => queues channel)
    (Finset.sum_le_sum fun thread _ => pendings thread)

/-- The threads which feed back, among the turns of a run. -/
def feedbacks (events : List (Event Θ C ι ε)) : Nat :=
  events.countP fun event => event.reader.any layers.feedback

theorem potential_step {event : Event Θ C ι ε} (internal : event.Internal)
    (stepped : net.step s event = some (next, move)) :
    layers.potential next + 1 ≤
      layers.potential s + layers.feedbackWeight * layers.feedbacks [event] := by
  cases event with
  | input => exact internal.elim
  | write thread =>
      rw [layers.potential_write stepped]
      exact Nat.le_add_right _ _
  | read thread source now =>
      have balance := layers.potential_read stepped
      obtain ⟨_, _, reads, message, _, _, _, rfl⟩ := step_read stepped
      have short := @layers.turn_length _ _ _ now message reads
      have positive := layers.positive reads
      cases back : layers.feedback thread with
      | true =>
          have bound := layers.writesWeight_le short
          have taken : 0 < layers.messageWeight source := by
            obtain ⟨below, height⟩ :=
              Nat.exists_eq_add_one_of_ne_zero positive.ne'
            rw [messageWeight, height]
            exact Nat.succ_pos _
          simp only [feedbacks, List.countP_singleton, Event.reader,
            Option.any_some, back, if_true]
          dsimp only at balance
          omega
      | false =>
          have lighter := layers.writesWeight_lt short
            (fun write member => layers.descends back reads
              (layers.turn_writes reads member)) positive
          simp only [feedbacks, List.countP_singleton, Event.reader,
            Option.any_some, back]
          dsimp only at balance
          rw [messageWeight] at balance
          omega

/-- A run without inputs is as long as its start allows, and longer only by
what is fed back. -/
theorem potential_run {start final : State Θ C μ σ}
    {events : List (Event Θ C ι ε)} {moves : List (Move C μ)}
    (internal : ∀ event ∈ events, event.Internal)
    (run : net.machine.Run start events moves final) :
    events.length + layers.potential final ≤
      layers.potential start +
        layers.feedbackWeight * layers.feedbacks events := by
  induction run with
  | nil => simp [feedbacks]
  | @snoc events _ _ _ event _ _ last ih =>
      have before := ih fun event member =>
        internal event (List.mem_append_left _ member)
      have here := layers.potential_step
        (internal event (List.mem_append_right _ List.mem_cons_self)) last
      have count : layers.feedbacks (events ++ [event]) =
          layers.feedbacks events + layers.feedbacks [event] :=
        List.countP_append
      rw [List.length_append, List.length_singleton, count, Nat.mul_add]
      omega

end Layers

namespace Settled

theorem blocked (settled : net.Settled s)
    (running : net.halted s.memory = false) {message : μ}
    {rest : List (C × μ)}
    (front : s.pending thread = (channel, message) :: rest) :
    net.Blocked s thread channel := by
  refine ⟨message, rest, front, ?_⟩
  have refused := settled (.write thread) trivial
  simp only [step, if_pos running, front] at refused
  split at refused
  · cases refused
  · next noRoom => exact Bool.eq_false_iff.mpr noRoom

variable [Inhabited ι]

theorem read_up (settled : net.Settled s)
    (running : net.halted s.memory = false) (idle : s.pending thread = [])
    (reads : net.reads s.memory thread channel = true) :
    s.queue channel = [] := by
  have refused := settled (.read thread channel default) trivial
  have ready : net.halted s.memory = false ∧ (s.pending thread).isEmpty ∧
      net.reads s.memory thread channel = true :=
    ⟨running, List.isEmpty_iff.mpr idle, reads⟩
  simp only [step, if_pos ready] at refused
  split at refused
  · cases refused
  · next empty => exact empty

theorem blocked_reader (settled : net.Settled s)
    (running : net.halted s.memory = false)
    (wide : ∀ channel, net.HasRoom channel [] = true)
    (blocked : net.Blocked s thread channel) {reader : Θ}
    (reads : net.reads s.memory reader channel = true) :
    ∃ target, net.Blocked s reader target := by
  obtain ⟨_, _, _, full⟩ := blocked
  cases front : s.pending reader with
  | nil =>
      rw [settled.read_up running front reads, wide] at full
      cases full
  | cons write rest => exact ⟨write.1, settled.blocked running front⟩

end Settled

theorem Drained.settled (drained : net.Drained s) : net.Settled s := by
  intro event internal
  obtain ⟨idle, empty⟩ := drained
  cases event with
  | input => exact internal.elim
  | read thread channel now =>
      cases stepped : net.step s (.read thread channel now) with
      | none => rfl
      | some result =>
          obtain ⟨_, _, reads, message, rest, front, _⟩ := step_read stepped
          cases front.symm.trans (empty thread channel reads)
  | write thread =>
      cases stepped : net.step s (.write thread) with
      | none => rfl
      | some result =>
          obtain ⟨_, channel, message, rest, front, _⟩ := step_write stepped
          cases front.symm.trans (idle thread)

/-- The writes a thread has left go where its writes may go. -/
def Layers.Sound (layers : net.Layers) (s : State Θ C μ σ) : Prop :=
  ∀ thread, ∀ write ∈ s.pending thread, layers.writes thread write.1 = true

omit [DecidableEq C] in
theorem Layers.sound_begin {layers : net.Layers} (sound : layers.Sound s)
    {turn : σ × List (C × μ)} {queue : C → List μ}
    (allowed : ∀ write ∈ turn.2, layers.writes thread write.1 = true) :
    layers.Sound (s.begin thread turn queue) := by
  intro other write member
  by_cases same : other = thread
  · subst same
    simp only [State.begin, Function.update_self] at member
    exact allowed write member
  · simp only [State.begin, Function.update_of_ne same] at member
    exact sound other write member

theorem Layers.sound_step {layers : net.Layers} {event : Event Θ C ι ε}
    (sound : layers.Sound s)
    (stepped : net.step s event = some (next, move)) : layers.Sound next := by
  cases event with
  | input thread input =>
      obtain ⟨_, _, takes, rfl, _⟩ := step_input stepped
      apply sound_begin sound
      intro write member
      exact layers.input_writes takes member
  | read thread source now =>
      obtain ⟨_, _, reads, _, _, _, rfl, _⟩ := step_read stepped
      apply sound_begin sound
      intro write member
      exact layers.turn_writes reads member
  | write thread =>
      obtain ⟨_, target, message, rest, front, _, rfl, _⟩ := step_write stepped
      intro other write member
      apply sound other
      by_cases same : other = thread
      · subst same
        simp only [Function.update_self] at member
        rw [front]
        exact List.mem_cons_of_mem _ member
      · simp only [Function.update_of_ne same] at member
        exact member

omit [DecidableEq Θ] [DecidableEq C] in
theorem Layers.Sound.blocked {layers : net.Layers} (sound : layers.Sound s)
    (blocked : net.Blocked s thread channel) :
    layers.writes thread channel = true := by
  obtain ⟨message, rest, front, _⟩ := blocked
  apply sound thread (channel, message)
  rw [front]
  exact List.mem_cons_self

/-- Nobody reads the channel, or who reads it feeds back and is blocked. -/
def Layers.Jammed (layers : net.Layers) (s : State Θ C μ σ) (channel : C) :
    Prop :=
  (∀ reader, net.reads s.memory reader channel = false) ∨
    ∃ reader target, layers.feedback reader = true ∧
      net.reads s.memory reader channel = true ∧ net.Blocked s reader target

/-- A blocked thread waits for one further down, and the last one cannot be
helped by its reader. -/
theorem Layers.exists_jammed [Inhabited ι] (layers : net.Layers)
    (sound : layers.Sound s) (settled : net.Settled s)
    (running : net.halted s.memory = false)
    (wide : ∀ channel, net.HasRoom channel [] = true)
    (blocked : net.Blocked s thread channel) :
    ∃ last target, net.Blocked s last target ∧ layers.Jammed s target := by
  induction height : layers.height channel using Nat.strongRecOn
    generalizing thread channel with
  | ind height ih =>
      by_cases read : ∃ reader, net.reads s.memory reader channel = true
      · obtain ⟨reader, reads⟩ := read
        obtain ⟨target, waits⟩ :=
          settled.blocked_reader running wide blocked reads
        cases back : layers.feedback reader with
        | true =>
            exact ⟨thread, channel, blocked, .inr ⟨reader, target, back, reads,
              waits⟩⟩
        | false =>
            have lower := layers.descends back reads (sound.blocked waits)
            exact ih _ (height ▸ lower) waits rfl
      · refine ⟨thread, channel, blocked, .inl fun reader => ?_⟩
        exact Bool.eq_false_iff.mpr fun reads => read ⟨reader, reads⟩

theorem Layers.drained_or_jammed [Inhabited ι] (layers : net.Layers)
    (sound : layers.Sound s) (settled : net.Settled s)
    (running : net.halted s.memory = false)
    (wide : ∀ channel, net.HasRoom channel [] = true) :
    net.Drained s ∨
      ∃ thread channel, net.Blocked s thread channel ∧
        layers.Jammed s channel := by
  by_cases idle : ∀ thread, s.pending thread = []
  · refine .inl ⟨idle, fun thread channel reads => ?_⟩
    exact settled.read_up running (idle thread) reads
  · obtain ⟨thread, busy⟩ := not_forall.mp idle
    obtain ⟨write, rest, front⟩ := List.exists_cons_of_ne_nil busy
    right
    exact layers.exists_jammed sound settled running wide
      (settled.blocked running front)

end ThreadNetwork

end NodeIdentity.Library
