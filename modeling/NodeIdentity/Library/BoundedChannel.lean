/-!
# Bounded channels

A channel delivers messages in order and holds at most `capacity` of them.
Its writer hands over one message at a time; the write returns once there is
room, and until then the writer is blocked.  The load counts the message of
the writer as well, so a channel is at its greatest load exactly when it
blocks its writer.
-/

namespace NodeIdentity.Library

universe u

/-- `pending` is the message of a write which has not returned. -/
structure Channel (α : Type u) (capacity : Nat) where
  queue : List α
  pending : Option α
  bounded : queue.length ≤ capacity

namespace Channel

variable {α : Type u} {capacity : Nat}

def empty : Channel α capacity := ⟨[], none, Nat.zero_le capacity⟩

def Idle (channel : Channel α capacity) : Prop := channel.pending = none

def Full (channel : Channel α capacity) : Prop :=
  channel.queue.length = capacity

def Blocked (channel : Channel α capacity) : Prop :=
  channel.pending.isSome = true ∧ channel.Full

instance (channel : Channel α capacity) : Decidable channel.Idle :=
  decidable_of_iff (channel.pending.isNone = true) Option.isNone_iff_eq_none

instance (channel : Channel α capacity) : Decidable channel.Full :=
  inferInstanceAs (Decidable (channel.queue.length = capacity))

instance (channel : Channel α capacity) : Decidable channel.Blocked :=
  inferInstanceAs (Decidable (_ ∧ _))

/-- An idle writer begins a write, if it has a message. -/
def offer (message : Option α) (channel : Channel α capacity) :
    Channel α capacity :=
  { channel with pending := message }

def accept (channel : Channel α capacity) : Option (Channel α capacity) :=
  match channel.pending with
  | some message =>
      if room : channel.queue.length < capacity then
        some
          { queue := channel.queue ++ [message]
            pending := none
            bounded := by
              rw [List.length_append]
              exact room }
      else none
  | none => none

def take (channel : Channel α capacity) : Option (α × Channel α capacity) :=
  match shape : channel.queue with
  | [] => none
  | message :: rest =>
      some (message,
        { channel with
          queue := rest
          bounded := by
            have bounded := channel.bounded
            rw [shape] at bounded
            exact Nat.le_of_succ_le bounded })

/-- The messages a channel holds, with the one its writer is writing. -/
def load (channel : Channel α capacity) : Nat :=
  channel.queue.length + channel.pending.toList.length

@[simp] theorem load_empty : (empty : Channel α capacity).load = 0 :=
  rfl

theorem load_le (channel : Channel α capacity) :
    channel.load ≤ capacity + 1 := by
  have bounded := channel.bounded
  unfold load
  cases channel.pending with
  | none => exact Nat.le_succ_of_le bounded
  | some message => exact Nat.succ_le_succ bounded

theorem load_of_idle {channel : Channel α capacity} (idle : channel.Idle) :
    channel.load = channel.queue.length := by
  rw [load, show channel.pending = none from idle]
  rfl

theorem blocked_iff {channel : Channel α capacity} :
    channel.Blocked ↔ channel.load = capacity + 1 := by
  have bounded := channel.bounded
  unfold Blocked Full load
  cases channel.pending with
  | none =>
      simp
      omega
  | some message => simp

theorem load_offer {channel : Channel α capacity} (idle : channel.Idle)
    (message : Option α) :
    (channel.offer message).load = channel.load + message.toList.length := by
  rw [load_of_idle idle]
  rfl

theorem load_accept {channel next : Channel α capacity}
    (accepted : channel.accept = some next) : next.load = channel.load := by
  unfold accept at accepted
  split at accepted
  · next message waiting =>
      split at accepted
      · cases accepted
        simp [load, waiting]
      · cases accepted
  · cases accepted

theorem load_take {channel rest : Channel α capacity} {message : α}
    (taken : channel.take = some (message, rest)) :
    channel.load = rest.load + 1 := by
  unfold take at taken
  split at taken
  · cases taken
  · next shape =>
      cases taken
      simp only [load, shape, List.length_cons]
      omega

end Channel

end NodeIdentity.Library
