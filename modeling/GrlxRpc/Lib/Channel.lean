import Mathlib.Data.List.Basic

/-
  A bounded FIFO channel with one consumer and any number
  of producers, with asynchronous sends and receives.

  A send on a full channel waits; a receive on an empty one
  waits. `close` completes a waiting receive and makes later
  sends fail, but leaves a waiting send where it is: only a
  receive or `cancel` releases it. `cancel` completes what
  waits at that moment and has no effect on later calls.

  `accepted` and `delivered` are histories: every payload
  that entered the buffer or went to the receiver, and every
  payload handed to the receiver. The proof fields are the
  invariants every channel keeps.

  Main declarations:
    * `Channel`
    * `Channel.trySend`, `Channel.asyncSend`
    * `Channel.asyncReceive`, `Channel.consume`
    * `Channel.cancel`, `Channel.close`
    * `Channel.admitted` and how each operation changes it
    * `Channel.asyncSend_receiver` and its siblings
-/

------------------------------------------------------------
-- Receivers
------------------------------------------------------------

/- Why a receive completed without a payload. -/
inductive ChannelError
  | closed
  | cancelled
  deriving DecidableEq, Repr

/- The consumer: not receiving, suspended, or completed. -/
inductive Receiver (α : Type)
  | idle
  | waiting
  | completed (result : Except ChannelError α)

namespace Receiver

variable {α : Type}

/- Is the consumer suspended in a receive? -/
def isWaiting : Receiver α → Bool
  | .waiting => true
  | .idle => false
  | .completed _ => false

/- Is there a completed receive to resume with? -/
def isCompleted : Receiver α → Bool
  | .completed _ => true
  | .idle => false
  | .waiting => false

/- How `error` ends the consumer's wait, if it waits. -/
def interrupt
    (error : ChannelError) :
    Receiver α → Receiver α
  | .waiting => .completed (.error error)
  | .idle => .idle
  | .completed result => .completed result

@[simp] theorem isWaiting_iff
    {r : Receiver α} :
    r.isWaiting = true ↔ r = .waiting := by
  cases r <;> simp [isWaiting]

theorem interrupt_eq_idle_iff
    (error : ChannelError)
    (r : Receiver α) :
    r.interrupt error = .idle ↔ r = .idle := by
  cases r <;> simp [interrupt]

theorem interrupt_ne_waiting
    (error : ChannelError)
    (r : Receiver α) :
    r.interrupt error ≠ .waiting := by
  cases r <;> simp [interrupt]

theorem ok_of_interrupt
    {error : ChannelError}
    {r : Receiver α}
    {a : α}
    (hOk : r.interrupt error = .completed (.ok a)) :
    r = .completed (.ok a) := by
  cases r with
  | idle => simp [interrupt] at hOk
  | waiting => simp [interrupt] at hOk
  | completed result => simpa [interrupt] using hOk

end Receiver

------------------------------------------------------------
-- Channels
------------------------------------------------------------

structure Channel (α : Type) where
  capacity : Nat
  isOpen : Bool
  buffer : List α
  senders : List α
  receiver : Receiver α
  aborted : List α
  accepted : List α
  delivered : List α
  bounded : buffer.length ≤ capacity
  parked :
    receiver = .waiting →
      isOpen = true ∧ buffer = [] ∧ senders = []
  blocked : senders ≠ [] → buffer.length = capacity
  fifo : accepted = delivered ++ buffer
  handed :
    ∀ a, receiver = .completed (.ok a) → a ∈ delivered

namespace Channel

variable {α : Type}

/- An open channel with room for `capacity` payloads. -/
def make (capacity : Nat) : Channel α where
  capacity := capacity
  isOpen := true
  buffer := []
  senders := []
  receiver := .idle
  aborted := []
  accepted := []
  delivered := []
  bounded := Nat.zero_le _
  parked := by simp
  blocked := by simp
  fifo := rfl
  handed := by simp

/-
  The payloads that were accepted or wait to be, in the
  order their sends started.
-/
def admitted (c : Channel α) : List α :=
  c.accepted ++ c.senders

/- Those that nobody has received yet. -/
def pending (c : Channel α) : List α :=
  c.buffer ++ c.senders

theorem admitted_eq
    (c : Channel α) :
    c.admitted = c.delivered ++ c.pending := by
  rw [admitted, c.fifo, pending, List.append_assoc]

theorem accepted_prefix_admitted
    (c : Channel α) :
    c.accepted <+: c.admitted :=
  List.prefix_append _ _

theorem delivered_prefix_accepted
    (c : Channel α) :
    c.delivered <+: c.accepted := by
  rw [c.fifo]
  exact List.prefix_append _ _

/- A channel that is not full has no waiting sender. -/
theorem senders_eq_nil
    (c : Channel α)
    (hRoom : c.buffer.length < c.capacity) :
    c.senders = [] := by
  by_contra hSenders
  exact Nat.ne_of_lt hRoom (c.blocked hSenders)

------------------------------------------------------------
-- Sending
------------------------------------------------------------

/- Hand a payload to the receiver that waits for it. -/
def handOver
    (c : Channel α)
    (a : α)
    (hWaiting : c.receiver.isWaiting = true) :
    Channel α :=
  { c with
    receiver := .completed (.ok a)
    accepted := c.accepted ++ [a]
    delivered := c.delivered ++ [a]
    parked := by simp
    fifo := by
      have hParked :=
        c.parked (Receiver.isWaiting_iff.mp hWaiting)
      simp [c.fifo, hParked.2.1]
    handed := by simp }

/- Append a payload to a buffer that has room for it. -/
def push
    (c : Channel α)
    (a : α)
    (hBusy : ¬ c.receiver.isWaiting = true)
    (hRoom : c.buffer.length < c.capacity) :
    Channel α :=
  { c with
    buffer := c.buffer ++ [a]
    accepted := c.accepted ++ [a]
    bounded := by
      simp only [List.length_append, List.length_singleton]
      omega
    parked := fun hWaiting =>
      absurd (Receiver.isWaiting_iff.mpr hWaiting) hBusy
    blocked := fun hSenders =>
      absurd (c.senders_eq_nil hRoom) hSenders
    fifo := by simp [c.fifo] }

/- Suspend a sender behind a full buffer. -/
def park
    (c : Channel α)
    (a : α)
    (hBusy : ¬ c.receiver.isWaiting = true)
    (hFull : ¬ c.buffer.length < c.capacity) :
    Channel α :=
  { c with
    senders := c.senders ++ [a]
    parked := fun hWaiting =>
      absurd (Receiver.isWaiting_iff.mpr hWaiting) hBusy
    blocked := fun _ =>
      Nat.le_antisymm c.bounded (Nat.le_of_not_lt hFull) }

/- Can a send be accepted now? -/
def hasRoom (c : Channel α) : Bool :=
  c.isOpen &&
    (c.receiver.isWaiting ||
      decide (c.buffer.length < c.capacity))

/-
  Send without waiting. The payload is accepted when
  `hasRoom` holds, which is also the value returned.
-/
def trySend (c : Channel α) (a : α) : Channel α :=
  if c.isOpen = true then
    if hWaiting : c.receiver.isWaiting = true then
      c.handOver a hWaiting
    else if hRoom : c.buffer.length < c.capacity then
      c.push a hWaiting hRoom
    else
      c
  else
    c

/-
  Start a send. On a closed channel it fails and changes
  nothing; otherwise the payload is accepted, or its sender
  waits until a receive frees a slot.
-/
def asyncSend (c : Channel α) (a : α) : Channel α :=
  if c.isOpen = true then
    if hWaiting : c.receiver.isWaiting = true then
      c.handOver a hWaiting
    else if hRoom : c.buffer.length < c.capacity then
      c.push a hWaiting hRoom
    else
      c.park a hWaiting hRoom
  else
    c

------------------------------------------------------------
-- Receiving
------------------------------------------------------------

/-
  Start a receive. A buffered payload completes it at once,
  and the sender that waited longest takes the freed slot.
-/
def asyncReceive (c : Channel α) : Channel α :=
  match hBuffer : c.buffer, hSenders : c.senders with
  | a :: rest, [] =>
      { c with
        buffer := rest
        senders := []
        receiver := .completed (.ok a)
        delivered := c.delivered ++ [a]
        bounded := by
          have hBound := c.bounded
          rw [hBuffer, List.length_cons] at hBound
          omega
        parked := by simp
        blocked := by simp
        fifo := by simp [c.fifo, hBuffer]
        handed := by simp }
  | a :: rest, b :: more =>
      { c with
        buffer := rest ++ [b]
        senders := more
        receiver := .completed (.ok a)
        accepted := c.accepted ++ [b]
        delivered := c.delivered ++ [a]
        bounded := by
          have hBound := c.bounded
          rw [hBuffer, List.length_cons] at hBound
          simpa using hBound
        parked := by simp
        blocked := fun _ => by
          have hFull := c.blocked (by simp [hSenders])
          rw [hBuffer, List.length_cons] at hFull
          simpa using hFull
        fifo := by simp [c.fifo, hBuffer]
        handed := by simp }
  | [], b :: more =>
      { c with
        buffer := []
        senders := more
        receiver := .completed (.ok b)
        accepted := c.accepted ++ [b]
        delivered := c.delivered ++ [b]
        bounded := Nat.zero_le _
        parked := by simp
        blocked := fun _ => by
          simpa [hBuffer] using
            c.blocked (by simp [hSenders])
        fifo := by simp [c.fifo, hBuffer]
        handed := by simp }
  | [], [] =>
      if hOpen : c.isOpen = true then
        { c with
          receiver := .waiting
          parked := fun _ => ⟨hOpen, hBuffer, hSenders⟩
          handed := by simp }
      else
        { c with
          receiver := .completed (.error .closed)
          parked := by simp
          handed := by simp }

/- The consumer resumes with its completed receive. -/
def consume (c : Channel α) : Channel α :=
  { c with
    receiver := .idle
    parked := by simp
    handed := by simp }

------------------------------------------------------------
-- Cancelling And Closing
------------------------------------------------------------

/- Complete everything that waits now with an error. -/
def cancel (c : Channel α) : Channel α :=
  { c with
    senders := []
    receiver := c.receiver.interrupt .cancelled
    aborted := c.aborted ++ c.senders
    parked := fun hWaiting =>
      absurd hWaiting (Receiver.interrupt_ne_waiting _ _)
    blocked := by simp
    handed := fun a hOk =>
      c.handed a (Receiver.ok_of_interrupt hOk) }

/-
  Close the channel. Waiting senders stay: nothing here
  completes them.
-/
def close (c : Channel α) : Channel α :=
  { c with
    isOpen := false
    receiver := c.receiver.interrupt .closed
    parked := fun hWaiting =>
      absurd hWaiting (Receiver.interrupt_ne_waiting _ _)
    handed := fun a hOk =>
      c.handed a (Receiver.ok_of_interrupt hOk) }

------------------------------------------------------------
-- Case Rules
------------------------------------------------------------

/- What a send does, by the state of the channel. -/
theorem asyncSend_cases
    {P : Channel α → Prop}
    (c : Channel α)
    (a : α)
    (hClosed : c.isOpen = false → P c)
    (hHand :
      ∀ hWaiting, c.isOpen = true →
        P (c.handOver a hWaiting))
    (hPush :
      ∀ hBusy hRoom, c.isOpen = true →
        P (c.push a hBusy hRoom))
    (hPark :
      ∀ hBusy hFull, c.isOpen = true →
        P (c.park a hBusy hFull)) :
    P (c.asyncSend a) := by
  unfold asyncSend
  split
  · next hOpen =>
      split
      · next hWaiting => exact hHand hWaiting hOpen
      · next hBusy =>
          split
          · next hRoom => exact hPush hBusy hRoom hOpen
          · next hFull => exact hPark hBusy hFull hOpen
  · next hShut => exact hClosed (by simpa using hShut)

/- A send that does not wait: accepted, or refused. -/
theorem trySend_cases
    {P : Channel α → Prop}
    (c : Channel α)
    (a : α)
    (hRefused : c.hasRoom = false → P c)
    (hHand :
      ∀ hWaiting, c.isOpen = true →
        P (c.handOver a hWaiting))
    (hPush :
      ∀ hBusy hRoom, c.isOpen = true →
        P (c.push a hBusy hRoom)) :
    P (c.trySend a) := by
  unfold trySend
  split
  · next hOpen =>
      split
      · next hWaiting => exact hHand hWaiting hOpen
      · next hBusy =>
          split
          · next hRoom => exact hPush hBusy hRoom hOpen
          · next hFull =>
              exact hRefused (by
                simp [hasRoom, hBusy, hFull])
  · next hShut =>
      exact hRefused (by simp [hasRoom, hShut])

------------------------------------------------------------
-- Evolution Of The Histories
------------------------------------------------------------

theorem handOver_admitted
    (c : Channel α)
    (a : α)
    (hWaiting : c.receiver.isWaiting = true) :
    (c.handOver a hWaiting).admitted =
      c.admitted ++ [a] := by
  have hParked :=
    c.parked (Receiver.isWaiting_iff.mp hWaiting)
  simp [admitted, handOver, hParked.2.2]

theorem push_admitted
    (c : Channel α)
    (a : α)
    (hBusy : ¬ c.receiver.isWaiting = true)
    (hRoom : c.buffer.length < c.capacity) :
    (c.push a hBusy hRoom).admitted =
      c.admitted ++ [a] := by
  simp [admitted, push, c.senders_eq_nil hRoom]

theorem asyncSend_admitted
    (c : Channel α)
    (a : α) :
    (c.asyncSend a).admitted =
      if c.isOpen = true then
        c.admitted ++ [a]
      else
        c.admitted := by
  refine asyncSend_cases
    (P := fun c' => c'.admitted =
      if c.isOpen = true then c.admitted ++ [a]
      else c.admitted) c a ?_ ?_ ?_ ?_
  · intro hClosed
    simp [hClosed]
  · intro hWaiting hOpen
    simp [hOpen, handOver_admitted]
  · intro hBusy hRoom hOpen
    simp [hOpen, push_admitted]
  · intro hBusy hFull hOpen
    simp [hOpen, admitted, park]

theorem trySend_admitted
    (c : Channel α)
    (a : α) :
    (c.trySend a).admitted =
      if c.hasRoom = true then
        c.admitted ++ [a]
      else
        c.admitted := by
  refine trySend_cases
    (P := fun c' => c'.admitted =
      if c.hasRoom = true then c.admitted ++ [a]
      else c.admitted) c a ?_ ?_ ?_
  · intro hRefused
    simp [hRefused]
  · intro hWaiting hOpen
    simp [hasRoom, hOpen, hWaiting, handOver_admitted]
  · intro hBusy hRoom hOpen
    simp [hasRoom, hOpen, hRoom, push_admitted]

@[simp] theorem asyncReceive_admitted
    (c : Channel α) :
    c.asyncReceive.admitted = c.admitted := by
  unfold asyncReceive
  split
  · next hSenders => simp [admitted, hSenders]
  · next hSenders => simp [admitted, hSenders]
  · next hSenders => simp [admitted, hSenders]
  · split <;> rfl

@[simp] theorem consume_admitted
    (c : Channel α) :
    c.consume.admitted = c.admitted := rfl

@[simp] theorem close_admitted
    (c : Channel α) :
    c.close.admitted = c.admitted := rfl

/- Histories only grow, and what was admitted stays ordered. -/
theorem delivered_prefix_admitted
    (c : Channel α) :
    c.delivered <+: c.admitted :=
  c.delivered_prefix_accepted.trans
    c.accepted_prefix_admitted

theorem accepted_prefix_asyncSend
    (c : Channel α)
    (a : α) :
    c.accepted <+: (c.asyncSend a).accepted := by
  apply asyncSend_cases
    (P := fun c' => c.accepted <+: c'.accepted) c a
  · exact fun _ => List.prefix_rfl
  · exact fun _ _ => List.prefix_append _ _
  · exact fun _ _ _ => List.prefix_append _ _
  · exact fun _ _ _ => List.prefix_rfl

/- `try_send` says whether it accepted the payload. -/
theorem trySend_accepted
    (c : Channel α)
    (a : α) :
    (c.trySend a).accepted =
      if c.hasRoom = true then
        c.accepted ++ [a]
      else
        c.accepted := by
  refine trySend_cases
    (P := fun c' => c'.accepted =
      if c.hasRoom = true then c.accepted ++ [a]
      else c.accepted) c a ?_ ?_ ?_
  · intro hRefused
    simp [hRefused]
  · intro hWaiting hOpen
    simp [hasRoom, hOpen, hWaiting, handOver]
  · intro hBusy hRoom hOpen
    simp [hasRoom, hOpen, hRoom, push]

theorem accepted_prefix_trySend
    (c : Channel α)
    (a : α) :
    c.accepted <+: (c.trySend a).accepted := by
  rw [trySend_accepted]
  split
  · exact List.prefix_append _ _
  · exact List.prefix_rfl

theorem accepted_prefix_asyncReceive
    (c : Channel α) :
    c.accepted <+: c.asyncReceive.accepted := by
  unfold asyncReceive
  split
  · exact List.prefix_rfl
  · exact List.prefix_append _ _
  · exact List.prefix_append _ _
  · split <;> exact List.prefix_rfl

------------------------------------------------------------
-- Waiting Senders
------------------------------------------------------------

@[simp] theorem isOpen_asyncSend
    (c : Channel α)
    (a : α) :
    (c.asyncSend a).isOpen = c.isOpen := by
  refine asyncSend_cases
    (P := fun c' => c'.isOpen = c.isOpen) c a ?_ ?_ ?_ ?_ <;>
    intros <;> rfl

@[simp] theorem isOpen_trySend
    (c : Channel α)
    (a : α) :
    (c.trySend a).isOpen = c.isOpen := by
  refine trySend_cases
    (P := fun c' => c'.isOpen = c.isOpen) c a ?_ ?_ ?_ <;>
    intros <;> rfl

@[simp] theorem isOpen_asyncReceive
    (c : Channel α) :
    c.asyncReceive.isOpen = c.isOpen := by
  unfold asyncReceive
  split
  · rfl
  · rfl
  · rfl
  · split <;> rfl

@[simp] theorem isOpen_cancel
    (c : Channel α) :
    c.cancel.isOpen = c.isOpen := rfl

@[simp] theorem isOpen_close
    (c : Channel α) :
    c.close.isOpen = false := rfl

@[simp] theorem capacity_asyncSend
    (c : Channel α)
    (a : α) :
    (c.asyncSend a).capacity = c.capacity := by
  refine asyncSend_cases
    (P := fun c' => c'.capacity = c.capacity) c a
    ?_ ?_ ?_ ?_ <;>
    intros <;> rfl

@[simp] theorem capacity_asyncReceive
    (c : Channel α) :
    c.asyncReceive.capacity = c.capacity := by
  unfold asyncReceive
  split
  · rfl
  · rfl
  · rfl
  · split <;> rfl

/- A closed channel refuses a send. -/
theorem asyncSend_of_closed
    (c : Channel α)
    (a : α)
    (hClosed : c.isOpen = false) :
    c.asyncSend a = c := by
  simp [asyncSend, hClosed]

/- A send that is accepted at once does not wait. -/
theorem senders_asyncSend_of_hasRoom
    (c : Channel α)
    (a : α)
    (hRoom : c.hasRoom = true) :
    (c.asyncSend a).senders = c.senders := by
  refine asyncSend_cases
    (P := fun c' => c'.senders = c.senders) c a ?_ ?_ ?_ ?_
  · exact fun _ => rfl
  · exact fun _ _ => rfl
  · exact fun _ _ _ => rfl
  · intro hBusy hFull _
    simp [hasRoom, hBusy, hFull] at hRoom

/- Nor does a send that finds a free slot. -/
theorem senders_asyncSend_of_room
    (c : Channel α)
    (a : α)
    (hRoom : c.buffer.length < c.capacity) :
    (c.asyncSend a).senders = c.senders := by
  cases hOpen : c.isOpen with
  | false => rw [asyncSend_of_closed c a hOpen]
  | true =>
      apply senders_asyncSend_of_hasRoom
      simp [hasRoom, hOpen, hRoom]

/- A send that finds an open channel without room waits. -/
theorem senders_asyncSend_of_full
    (c : Channel α)
    (a : α)
    (hOpen : c.isOpen = true)
    (hFull : c.hasRoom = false) :
    (c.asyncSend a).senders = c.senders ++ [a] := by
  simp only [hasRoom, hOpen, Bool.true_and, Bool.or_eq_false_iff,
    decide_eq_false_iff_not] at hFull
  simp [asyncSend, hOpen, hFull.1, hFull.2, park]

/- A send releases no sender that waits. -/
theorem senders_subset_asyncSend
    (c : Channel α)
    (a : α) :
    c.senders ⊆ (c.asyncSend a).senders := by
  refine asyncSend_cases
    (P := fun c' => c.senders ⊆ c'.senders) c a ?_ ?_ ?_ ?_
  · exact fun _ => List.Subset.refl _
  · exact fun _ _ => List.Subset.refl _
  · exact fun _ _ _ => List.Subset.refl _
  · exact fun _ _ _ => List.subset_append_left _ _

/- A send adds no waiting sender but its own. -/
theorem mem_senders_asyncSend
    (c : Channel α)
    {a b : α}
    (hMem : b ∈ (c.asyncSend a).senders) :
    b ∈ c.senders ∨ (c.isOpen = true ∧ b = a) := by
  revert hMem
  refine asyncSend_cases
    (P := fun c' => b ∈ c'.senders →
      b ∈ c.senders ∨ (c.isOpen = true ∧ b = a)) c a
    ?_ ?_ ?_ ?_
  · exact fun _ hMem => .inl hMem
  · exact fun _ _ hMem => .inl hMem
  · exact fun _ _ _ hMem => .inl hMem
  · intro _ _ hOpen hMem
    simp only [park, List.mem_append, List.mem_singleton]
      at hMem
    exact hMem.imp id fun hEq => ⟨hOpen, hEq⟩

/- A send that does not wait adds none. -/
@[simp] theorem senders_trySend
    (c : Channel α)
    (a : α) :
    (c.trySend a).senders = c.senders := by
  refine trySend_cases
    (P := fun c' => c'.senders = c.senders) c a ?_ ?_ ?_ <;>
    intros <;> rfl

/- A receive releases senders and adds none. -/
theorem senders_asyncReceive_subset
    (c : Channel α) :
    c.asyncReceive.senders ⊆ c.senders := by
  unfold asyncReceive
  split
  · simp
  · next hSenders => simp [hSenders]
  · next hSenders => simp [hSenders]
  · next hSenders => split <;> simp [hSenders]

------------------------------------------------------------
-- What The Receiver Sees
------------------------------------------------------------

/-
  A send leaves the receiver alone or hands it the payload
  it was waiting for.
-/
theorem asyncSend_receiver
    (c : Channel α)
    (a : α) :
    ((c.asyncSend a).receiver = c.receiver ∧
        (c.asyncSend a).delivered = c.delivered) ∨
      (c.receiver = .waiting ∧
        (c.asyncSend a).receiver = .completed (.ok a) ∧
        (c.asyncSend a).delivered = c.delivered ++ [a]) := by
  refine asyncSend_cases
    (P := fun c' =>
      (c'.receiver = c.receiver ∧
          c'.delivered = c.delivered) ∨
        (c.receiver = .waiting ∧
          c'.receiver = .completed (.ok a) ∧
          c'.delivered = c.delivered ++ [a])) c a ?_ ?_ ?_ ?_
  · exact fun _ => .inl ⟨rfl, rfl⟩
  · exact fun hWaiting _ =>
      .inr ⟨Receiver.isWaiting_iff.mp hWaiting, rfl, rfl⟩
  · exact fun _ _ _ => .inl ⟨rfl, rfl⟩
  · exact fun _ _ _ => .inl ⟨rfl, rfl⟩

theorem trySend_receiver
    (c : Channel α)
    (a : α) :
    ((c.trySend a).receiver = c.receiver ∧
        (c.trySend a).delivered = c.delivered) ∨
      (c.receiver = .waiting ∧
        (c.trySend a).receiver = .completed (.ok a) ∧
        (c.trySend a).delivered = c.delivered ++ [a]) := by
  refine trySend_cases
    (P := fun c' =>
      (c'.receiver = c.receiver ∧
          c'.delivered = c.delivered) ∨
        (c.receiver = .waiting ∧
          c'.receiver = .completed (.ok a) ∧
          c'.delivered = c.delivered ++ [a])) c a ?_ ?_ ?_
  · exact fun _ => .inl ⟨rfl, rfl⟩
  · exact fun hWaiting _ =>
      .inr ⟨Receiver.isWaiting_iff.mp hWaiting, rfl, rfl⟩
  · exact fun _ _ _ => .inl ⟨rfl, rfl⟩

/- A receive delivers a payload, waits, or finds it closed. -/
theorem asyncReceive_receiver
    (c : Channel α) :
    (∃ a, c.asyncReceive.receiver = .completed (.ok a) ∧
        c.asyncReceive.delivered = c.delivered ++ [a]) ∨
      ((c.asyncReceive.receiver = .waiting ∨
          c.asyncReceive.receiver =
            .completed (.error .closed)) ∧
        c.asyncReceive.delivered = c.delivered) := by
  unfold asyncReceive
  split
  · exact .inl ⟨_, rfl, rfl⟩
  · exact .inl ⟨_, rfl, rfl⟩
  · exact .inl ⟨_, rfl, rfl⟩
  · split
    · exact .inr ⟨.inl rfl, rfl⟩
    · exact .inr ⟨.inr rfl, rfl⟩

/- A receive takes the first payload, if there is any. -/
theorem asyncReceive_pending
    (c : Channel α) :
    (∃ a, c.asyncReceive.receiver = .completed (.ok a) ∧
        c.pending = a :: c.asyncReceive.pending) ∨
      ((c.asyncReceive.receiver = .waiting ∨
          c.asyncReceive.receiver =
            .completed (.error .closed)) ∧
        c.pending = c.asyncReceive.pending) := by
  have hSame := c.asyncReceive_admitted
  rw [admitted_eq, admitted_eq] at hSame
  rcases c.asyncReceive_receiver with
    ⟨a, hReceiver, hDelivered⟩ | ⟨hReceiver, hDelivered⟩
  · rw [hDelivered, List.append_assoc] at hSame
    exact .inl
      ⟨a, hReceiver, (List.append_cancel_left hSame).symm⟩
  · rw [hDelivered] at hSame
    exact .inr
      ⟨hReceiver, (List.append_cancel_left hSame).symm⟩

/- What was delivered stays delivered. -/
theorem delivered_subset_asyncSend
    (c : Channel α)
    (a : α) :
    c.delivered ⊆ (c.asyncSend a).delivered := by
  rcases c.asyncSend_receiver a with
    ⟨-, hSame⟩ | ⟨-, -, hMore⟩
  · simp [hSame]
  · simp [hMore]

/- Closing ends a wait without a payload. -/
theorem close_receiver
    (c : Channel α) :
    c.close.receiver = c.receiver ∨
      (c.receiver = .waiting ∧
        c.close.receiver = .completed (.error .closed)) := by
  cases hReceiver : c.receiver <;>
    simp [close, Receiver.interrupt, hReceiver]

/- A receive leaves the consumer waiting or completed. -/
theorem asyncReceive_ne_idle
    (c : Channel α) :
    c.asyncReceive.receiver ≠ .idle := by
  rcases c.asyncReceive_receiver with
    ⟨a, hReceiver, -⟩ | ⟨hWaiting | hClosed, -⟩
  · simp [hReceiver]
  · simp [hWaiting]
  · simp [hClosed]

/- While the consumer waits, all that came was delivered. -/
theorem admitted_of_waiting
    (c : Channel α)
    (hWaiting : c.receiver = .waiting) :
    c.admitted = c.delivered := by
  rcases c.parked hWaiting with ⟨-, hBuffer, hSenders⟩
  rw [admitted, c.fifo, hBuffer, hSenders, List.append_nil,
    List.append_nil]

/- A send never starts a wait. -/
theorem asyncSend_waiting
    (c : Channel α)
    (a : α)
    (hWaiting : (c.asyncSend a).receiver = .waiting) :
    c.receiver = .waiting ∧
      (c.asyncSend a).delivered = c.delivered := by
  rcases c.asyncSend_receiver a with
    ⟨hReceiver, hDelivered⟩ | ⟨-, hReceiver, -⟩
  · exact ⟨hReceiver ▸ hWaiting, hDelivered⟩
  · simp [hReceiver] at hWaiting

/- Only a closed channel with nothing left fails a receive. -/
theorem asyncReceive_error
    (c : Channel α)
    {e : ChannelError}
    (hError : c.asyncReceive.receiver = .completed (.error e)) :
    c.isOpen = false ∧ c.asyncReceive.senders = [] := by
  unfold asyncReceive at hError ⊢
  split at hError
  · simp at hError
  · simp at hError
  · simp at hError
  · next hSenders =>
      split at hError
      · simp at hError
      · next hShut =>
          rw [dif_neg hShut]
          exact ⟨by simpa using hShut, hSenders⟩

/- With nothing to deliver, a receive waits. -/
theorem asyncReceive_waits
    (c : Channel α)
    (hOpen : c.isOpen = true)
    (hBuffer : c.buffer = [])
    (hSenders : c.senders = []) :
    c.asyncReceive.receiver = .waiting := by
  unfold asyncReceive
  split
  · next hFull _ => simp [hBuffer] at hFull
  · next hFull _ => simp [hBuffer] at hFull
  · next hFull => simp [hSenders] at hFull
  · rw [dif_pos hOpen]

/- Cancelling admits nothing. -/
theorem admitted_cancel_subset
    (c : Channel α) :
    c.cancel.admitted ⊆ c.admitted := by
  simp [admitted, cancel]

/- Cancelling drops waiting senders only. -/
theorem cancel_admitted
    (c : Channel α)
    (hSenders : c.senders = []) :
    c.cancel.admitted = c.admitted := by
  simp [admitted, cancel, hSenders]

end Channel
