import GrlxRpc.Lib.Channel

/-
  Channels whose payloads are seen through a function.

  What a channel does never depends on its payloads, so
  every operation commutes with a change of them.

  Main declarations:
    * `Receiver.map` and `Channel.map`
    * `Channel.map_asyncSend` and `Channel.map_asyncReceive`
    * `Channel.map_cancel` and `Channel.map_close`
-/

------------------------------------------------------------
-- Receivers
------------------------------------------------------------

namespace Receiver

variable {α β : Type}

def map (f : α → β) : Receiver α → Receiver β
  | idle => idle
  | waiting => waiting
  | completed result => completed (result.map f)

@[simp] theorem isWaiting_map
    (f : α → β)
    (r : Receiver α) :
    (r.map f).isWaiting = r.isWaiting := by
  cases r <;> rfl

@[simp] theorem isCompleted_map
    (f : α → β)
    (r : Receiver α) :
    (r.map f).isCompleted = r.isCompleted := by
  cases r <;> rfl

@[simp] theorem map_interrupt
    (f : α → β)
    (error : ChannelError)
    (r : Receiver α) :
    (r.interrupt error).map f = (r.map f).interrupt error := by
  cases r <;> rfl

theorem map_eq_waiting
    {f : α → β}
    {r : Receiver α}
    (hWaiting : r.map f = .waiting) :
    r = .waiting := by
  cases r with
  | waiting => rfl
  | idle => cases hWaiting
  | completed result => cases hWaiting

theorem map_eq_ok
    {f : α → β}
    {r : Receiver α}
    {b : β}
    (hOk : r.map f = .completed (.ok b)) :
    ∃ a, r = .completed (.ok a) ∧ f a = b := by
  cases r with
  | idle => cases hOk
  | waiting => cases hOk
  | completed result =>
      cases result with
      | error error => cases hOk
      | ok a =>
          refine ⟨a, rfl, ?_⟩
          injection hOk with hResult
          injection hResult

end Receiver

------------------------------------------------------------
-- Channels
------------------------------------------------------------

attribute [ext] Channel

namespace Channel

variable {α β : Type}

def map
    (f : α → β)
    (c : Channel α) : Channel β where
  capacity := c.capacity
  isOpen := c.isOpen
  buffer := c.buffer.map f
  senders := c.senders.map f
  receiver := c.receiver.map f
  aborted := c.aborted.map f
  accepted := c.accepted.map f
  delivered := c.delivered.map f
  bounded := by
    rw [List.length_map]
    exact c.bounded
  parked := by
    intro hWaiting
    rcases c.parked (Receiver.map_eq_waiting hWaiting) with
      ⟨hOpen, hBuffer, hSenders⟩
    simp [hOpen, hBuffer, hSenders]
  blocked := by
    intro hSenders
    rw [List.length_map]
    exact c.blocked fun hNone => hSenders (by simp [hNone])
  fifo := by simp [c.fifo]
  handed := by
    intro b hOk
    rcases Receiver.map_eq_ok hOk with ⟨a, hDone, rfl⟩
    exact List.mem_map_of_mem (c.handed a hDone)

@[simp] theorem isOpen_map
    (f : α → β)
    (c : Channel α) :
    (c.map f).isOpen = c.isOpen :=
  rfl

@[simp] theorem senders_map
    (f : α → β)
    (c : Channel α) :
    (c.map f).senders = c.senders.map f :=
  rfl

@[simp] theorem receiver_map
    (f : α → β)
    (c : Channel α) :
    (c.map f).receiver = c.receiver.map f :=
  rfl

theorem admitted_map
    (f : α → β)
    (c : Channel α) :
    (c.map f).admitted = c.admitted.map f := by
  simp [admitted, map]

@[simp] theorem hasRoom_map
    (f : α → β)
    (c : Channel α) :
    (c.map f).hasRoom = c.hasRoom := by
  simp [hasRoom, map]

@[simp] theorem map_make
    (f : α → β)
    (capacity : Nat) :
    (make capacity).map f = make capacity :=
  rfl

theorem map_asyncSend
    (f : α → β)
    (c : Channel α)
    (a : α) :
    (c.asyncSend a).map f = (c.map f).asyncSend (f a) := by
  unfold asyncSend
  by_cases hOpen : c.isOpen = true
  · have hOpen' : (c.map f).isOpen = true := hOpen
    rw [if_pos hOpen, if_pos hOpen']
    by_cases hWaiting : c.receiver.isWaiting = true
    · have hWaiting' :
          (c.map f).receiver.isWaiting = true := by
        simpa using hWaiting
      rw [dif_pos hWaiting, dif_pos hWaiting']
      simp [handOver, map, Receiver.map, Except.map]
    · have hBusy :
          ¬ (c.map f).receiver.isWaiting = true := by
        simpa using hWaiting
      rw [dif_neg hWaiting, dif_neg hBusy]
      by_cases hRoom : c.buffer.length < c.capacity
      · have hRoom' :
            (c.map f).buffer.length < (c.map f).capacity := by
          simpa [map] using hRoom
        rw [dif_pos hRoom, dif_pos hRoom']
        simp [push, map]
      · have hFull :
            ¬ (c.map f).buffer.length <
              (c.map f).capacity := by
          simpa [map] using hRoom
        rw [dif_neg hRoom, dif_neg hFull]
        simp [park, map]
  · have hShut : ¬ (c.map f).isOpen = true := hOpen
    rw [if_neg hOpen, if_neg hShut]

theorem map_asyncReceive
    (f : α → β)
    (c : Channel α) :
    c.asyncReceive.map f = (c.map f).asyncReceive := by
  rcases c with ⟨capacity, isOpen, buffer, senders, receiver,
    aborted, accepted, delivered, _, _, _, _, _⟩
  cases buffer with
  | nil =>
      cases senders with
      | nil => cases isOpen <;> rfl
      | cons b more =>
          apply Channel.ext <;>
            first | rfl | exact List.map_append
  | cons a rest =>
      cases senders with
      | nil =>
          apply Channel.ext <;>
            first | rfl | exact List.map_append
      | cons b more =>
          apply Channel.ext <;>
            first | rfl | exact List.map_append

theorem map_cancel
    (f : α → β)
    (c : Channel α) :
    c.cancel.map f = (c.map f).cancel := by
  simp [cancel, map]

theorem map_close
    (f : α → β)
    (c : Channel α) :
    c.close.map f = (c.map f).close := by
  simp [close, map]

end Channel
