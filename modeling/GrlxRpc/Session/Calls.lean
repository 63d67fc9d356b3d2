import GrlxRpc.Session.Writer
import GrlxRpc.Lib.Records
import GrlxRpc.Manager.Tokens

/-
  Pending calls: their tokens, the table, and who will
  complete their response channels.

  A registered call whose channel has received nothing is in
  the table, or in the hands of the reader that took it out
  to complete it, or on the list that `close()` works off.

  Main declarations:
    * `FewCalls`
    * `CallInv` and `CallsInv`
    * `Session.callsInv`
-/

------------------------------------------------------------
-- Starting Calls
------------------------------------------------------------

namespace GrlxRpc

namespace Session

variable {ω : Type}
variable {cfg : Config ω}

/- Does the action start a `call()`? -/
def generates : Action ω → Bool
  | .generateToken _ _ => true
  | _ => false

/- Fewer than `2 ^ 64` calls have started after the step. -/
def FewCalls
    (s : Session)
    (a : Action ω) : Prop :=
  generates a = true → s.calls.length + 1 < 2 ^ 64

instance
    (s : Session)
    (a : Action ω) : Decidable (s.FewCalls a) :=
  inferInstanceAs (Decidable (_ → _))

------------------------------------------------------------
-- The Write Channel And Teardown
------------------------------------------------------------

/- Only `close()` closes the write channel. -/
theorem isOpen_eq
    {ok : Session → Action ω → Prop}
    {s : Session}
    (hReach : ReachableBy cfg ok s) :
    s.writeChannel.isOpen = !s.teardown.hasClosed := by
  refine invariant
    (fun s => s.writeChannel.isOpen = !s.teardown.hasClosed)
    rfl ?_ hReach
  intro s a _ hInv _ hEnabled
  cases a with
  | queueCall i =>
      cases hCall : s.calls[i]? <;>
        simpa [update, hCall] using hInv
  | notify callName buffer => simpa [update] using hInv
  | tryNotify callName buffer => simpa [update] using hInv
  | tryPing => simpa [update] using hInv
  | sendPong => simpa [update] using hInv
  | rejectRequest rid header closes =>
      simpa [update] using hInv
  | sendReply rid header answer => simpa [update] using hInv
  | writerReceive => simpa [update] using hInv
  | close => simpa [update] using hInv
  | readerClose again => simpa [update] using hInv
  | writerClose => simpa [update] using hInv
  | closeWriteChannel => rfl
  | takeTable =>
      have hAt : s.teardown = .table := hEnabled
      simpa [update, hAt, Teardown.hasClosed] using hInv
  | cancelChannel i =>
      rw [hEnabled.1] at hInv
      simpa [update, Teardown.hasClosed] using hInv
  | closeChannel i =>
      have hAt : s.teardown = .channel i s.teardown.todo :=
        hEnabled
      rw [hAt] at hInv
      simpa [update, Teardown.hasClosed] using hInv
  | closeStream =>
      have hAt : s.teardown = .channels [] := hEnabled
      simpa [update, hAt, Teardown.hasClosed] using hInv
  | _ => exact hInv

/- A session that is open now was open before. -/
theorem teardown_eq_idle
    {s : Session}
    {a : Action ω}
    (hIdle : (s.update cfg a).teardown = .idle) :
    s.teardown = .idle := by
  have hBegin :
      s.teardown.begin = .idle → s.teardown = .idle := by
    cases s.teardown <;> simp [Teardown.begin]
  cases a with
  | close => exact hBegin hIdle
  | readerClose again => exact hBegin hIdle
  | writerClose => exact hBegin hIdle
  | closeWriteChannel => cases hIdle
  | takeTable => cases hIdle
  | cancelChannel i => cases hIdle
  | closeChannel i => cases hIdle
  | closeStream => cases hIdle
  | _ => exact hIdle

/- The writer closes the session before it exits. -/
theorem teardown_ne_idle
    {ok : Session → Action ω → Prop}
    {s : Session}
    (hReach : ReachableBy cfg ok s)
    (hExited : s.writer = .exited) :
    s.teardown ≠ .idle := by
  revert hExited
  refine invariant
    (fun s => s.writer = .exited → s.teardown ≠ .idle)
    (by simp [start]) ?_ hReach
  intro s a _ hInv _ hEnabled hExited
  cases a with
  | writerReceive => cases hExited
  | writerTake =>
      simp only [update] at hExited
      rcases hReceiver : s.writeChannel.receiver with
        _ | _ | ⟨_ | _⟩ <;>
        simp [hReceiver, WriterPc.resume] at hExited
  | writerWrite chunk rest => cases hExited
  | writerFinish => cases hExited
  | writerFail rest => cases hExited
  | writerClose =>
      intro hIdle
      have hWas : s.teardown = .idle :=
        teardown_eq_idle hIdle
      simp only [update, hWas] at hExited
      cases hExited
  | writerClosed =>
      intro hIdle
      cases hEnabled.2.symm.trans hIdle
  | _ =>
      intro hIdle
      exact hInv hExited (teardown_eq_idle hIdle)

end Session

------------------------------------------------------------
-- One Call
------------------------------------------------------------

/- How one call stands towards those that complete it. -/
structure CallInv
    (channels : AList fun _ : UInt64 => Nat)
    (completes : Option Nat)
    (closing : List Nat)
    (hasTaken : Bool)
    (i : Nat)
    (call : PendingCall) : Prop where
  token : call.token = tokenOf i
  roomy : call.channel.capacity = 1
  unparked : call.channel.senders = []
  idle : call.pc ≠ .receiving → call.channel.receiver = .idle
  busy : call.pc = .receiving → call.channel.receiver ≠ .idle
  undelivered :
    (call.pc ≠ .receiving ∧ call.pc.isFinished = false) ∨
        call.channel.receiver = .waiting →
      call.channel.delivered = []
  stored : call.timer = .stored → call.timedOut = true
  created :
    call.pc = .created →
      ¬ Pending channels i ∧ completes ≠ some i ∧
        i ∉ closing ∧ call.channel.isOpen = true ∧
        call.channel.admitted = []
  pending :
    Pending channels i →
      completes ≠ some i ∧ i ∉ closing ∧
        call.channel.isOpen = true ∧
        call.channel.admitted = [] ∧
        (∀ e, call.channel.receiver = .completed (.error e) →
          call.timedOut = true) ∧
        (hasTaken = true →
          call.pc = .registered ∨ ∃ e, call.pc = .threw e)
  completing :
    completes = some i → call.channel.admitted = []
  live :
    call.pc ≠ .created → call.channel.isOpen = true →
      call.channel.admitted = [] →
        Pending channels i ∨ completes = some i ∨ i ∈ closing

namespace CallInv

variable {channels channels' : AList fun _ : UInt64 => Nat}
variable {completes completes' : Option Nat}
variable {closing closing' : List Nat}
variable {hasTaken hasTaken' : Bool}
variable {i : Nat}
variable {call : PendingCall}

/- What happens to other calls does not matter. -/
theorem frame
    (hInv :
      CallInv channels completes closing hasTaken i call)
    (hPending : Pending channels' i ↔ Pending channels i)
    (hCompletes : completes' = some i ↔ completes = some i)
    (hClosing : i ∈ closing' ↔ i ∈ closing)
    (hTaken : hasTaken' = true → hasTaken = true) :
    CallInv channels' completes' closing' hasTaken' i call where
  token := hInv.token
  roomy := hInv.roomy
  unparked := hInv.unparked
  idle := hInv.idle
  busy := hInv.busy
  undelivered := hInv.undelivered
  stored := hInv.stored
  created := by
    intro hPc
    rw [hPending, ne_eq, hCompletes, hClosing]
    exact hInv.created hPc
  pending := by
    rw [hPending, ne_eq, hCompletes, hClosing]
    intro hAt
    rcases hInv.pending hAt with ⟨h1, h2, h3, h4, h5, h6⟩
    exact ⟨h1, h2, h3, h4, h5, fun h => h6 (hTaken h)⟩
  completing := fun h => hInv.completing (hCompletes.mp h)
  live := by
    rw [hPending, hCompletes, hClosing]
    exact hInv.live

/- A registered call that is not in the table. -/
theorem ne_created
    (hInv :
      CallInv channels completes closing hasTaken i call)
    (hHeld :
      Pending channels i ∨ completes = some i ∨ i ∈ closing) :
    call.pc ≠ .created := by
  intro hPc
  rcases hInv.created hPc with ⟨hNot, hFree, hOut, -⟩
  rcases hHeld with hIn | hIn | hIn
  · exact hNot hIn
  · exact hFree hIn
  · exact hOut hIn

/- A registered call queues its request or throws. -/
theorem queue
    (hInv :
      CallInv channels completes closing hasTaken i call)
    (hPc : call.pc = .registered)
    {isOpen : Bool}
    (hShut : hasTaken = true → isOpen = false) :
    CallInv channels completes closing hasTaken i
      { call with
        pc :=
          if isOpen then .sending else .threw .queueClosed } := by
  have hIdle := hInv.idle (by simp [hPc])
  exact
    { hInv with
      idle := fun _ => hIdle
      busy := by split <;> simp
      undelivered := fun _ =>
        hInv.undelivered
          (.inl (by simp [hPc, CallPc.isFinished]))
      created := by split <;> simp
      pending := by
        intro hIn
        rcases hInv.pending hIn with ⟨h1, h2, h3, h4, h5, -⟩
        refine ⟨h1, h2, h3, h4, h5, fun hTaken => .inr ?_⟩
        exact ⟨.queueClosed, by simp [hShut hTaken]⟩
      live := fun _ => hInv.live (by simp [hPc]) }

/- A call that has queued its request is not left behind. -/
theorem not_taken
    (hInv :
      CallInv channels completes closing hasTaken i call)
    (hRegistered : call.pc ≠ .registered)
    (hThrew : ∀ e, call.pc ≠ .threw e)
    (hIn : Pending channels i) :
    hasTaken ≠ true := by
  intro hTaken
  rcases hInv.pending hIn with ⟨-, -, -, -, -, hLeft⟩
  rcases hLeft hTaken with hPc | ⟨e, hPc⟩
  · exact hRegistered hPc
  · exact hThrew e hPc

theorem arm
    (hInv :
      CallInv channels completes closing hasTaken i call)
    (hPc : call.pc = .sending) :
    CallInv channels completes closing hasTaken i
      { call with pc := .armed, timer := .armed } := by
  have hIdle := hInv.idle (by simp [hPc])
  exact
    { hInv with
      idle := fun _ => hIdle
      busy := by simp
      undelivered := fun _ =>
        hInv.undelivered
          (.inl (by simp [hPc, CallPc.isFinished]))
      stored := by simp
      created := by simp
      pending := by
        intro hIn
        have hNot :=
          hInv.not_taken (by simp [hPc]) (by simp [hPc]) hIn
        rcases hInv.pending hIn with ⟨h1, h2, h3, h4, h5, -⟩
        exact ⟨h1, h2, h3, h4, h5,
          fun hTaken => absurd hTaken hNot⟩
      live := fun _ => hInv.live (by simp [hPc]) }

theorem receive
    (hInv :
      CallInv channels completes closing hasTaken i call)
    (hPc : call.pc = .armed) :
    CallInv channels completes closing hasTaken i
      { call with
        pc := .receiving
        channel := call.channel.asyncReceive } where
  token := hInv.token
  roomy := by simpa using hInv.roomy
  unparked :=
    List.subset_nil.mp
      (hInv.unparked ▸
        call.channel.senders_asyncReceive_subset)
  idle := fun h => absurd rfl h
  busy := fun _ => call.channel.asyncReceive_ne_idle
  undelivered := by
    rintro (⟨hNot, -⟩ | hWaiting)
    · exact absurd rfl hNot
    · have hWaiting' :
          call.channel.asyncReceive.receiver = .waiting :=
        hWaiting
      rcases call.channel.asyncReceive_receiver with
        ⟨a, hReceiver, -⟩ | ⟨-, hDelivered⟩
      · rw [hReceiver] at hWaiting'
        cases hWaiting'
      · exact hDelivered.trans
          (hInv.undelivered
            (.inl (by simp [hPc, CallPc.isFinished])))
  stored := hInv.stored
  created := by simp
  pending := by
    intro hIn
    have hNot :=
      hInv.not_taken (by simp [hPc]) (by simp [hPc]) hIn
    rcases hInv.pending hIn with ⟨h1, h2, h3, h4, -, -⟩
    refine ⟨h1, h2, by simpa using h3, by simpa using h4, ?_,
      fun hTaken => absurd hTaken hNot⟩
    intro e hError
    simp [(call.channel.asyncReceive_error hError).1] at h3
  completing := by simpa using hInv.completing
  live := by simpa [hPc] using hInv.live

theorem resume
    (hInv :
      CallInv channels completes closing hasTaken i call)
    (hPc : call.pc = .receiving)
    (hDone : call.channel.receiver.isCompleted = true) :
    CallInv channels completes closing hasTaken i
      call.resume := by
  cases hReceiver : call.channel.receiver with
  | idle => simp [hReceiver, Receiver.isCompleted] at hDone
  | waiting => simp [hReceiver, Receiver.isCompleted] at hDone
  | completed result =>
      have hFinished :=
        PendingCall.isFinished_outcome call.timedOut result
      have hLeft :
          ∀ pc : CallPc, pc.isFinished = true →
            pc ≠ .receiving ∧ pc ≠ .created := by
        rintro (_ | _ | _) <;> simp [CallPc.isFinished]
      rw [PendingCall.resume, hReceiver]
      exact
        { hInv with
          idle := fun _ => rfl
          busy := fun h =>
            absurd h (hLeft _ hFinished).1
          undelivered := by
            rintro (⟨-, hNot⟩ | hWaiting)
            · simp [hFinished] at hNot
            · cases hWaiting
          created := fun h =>
            absurd h (hLeft _ hFinished).2
          pending := by
            intro hIn
            have hNot :=
              hInv.not_taken (by simp [hPc]) (by simp [hPc])
                hIn
            rcases hInv.pending hIn with
              ⟨h1, h2, h3, h4, -, -⟩
            exact ⟨h1, h2, h3, h4, fun _ h => (by cases h),
              fun hTaken => absurd hTaken hNot⟩
          live := fun _ => hInv.live (by simp [hPc]) }

theorem fire
    (hInv :
      CallInv channels completes closing hasTaken i call) :
    CallInv channels completes closing hasTaken i
      { call with
        timer := if call.finished then .over else .fired } :=
  { hInv with stored := by split <;> simp }

theorem store
    (hInv :
      CallInv channels completes closing hasTaken i call) :
    CallInv channels completes closing hasTaken i
      { call with timedOut := true, timer := .stored } :=
  { hInv with
    stored := fun _ => rfl
    pending := fun hIn => by
      rcases hInv.pending hIn with ⟨h1, h2, h3, h4, -, h6⟩
      exact ⟨h1, h2, h3, h4, fun _ _ => rfl, h6⟩ }

/- An interrupted channel keeps what it admitted. -/
theorem interrupted
    (hInv :
      CallInv channels completes closing hasTaken i call) :
    (call.channel.cancel.receiver = .idle ↔
        call.channel.receiver = .idle) ∧
      call.channel.cancel.receiver ≠ .waiting ∧
      call.channel.cancel.admitted = call.channel.admitted :=
  ⟨Receiver.interrupt_eq_idle_iff _ _,
    Receiver.interrupt_ne_waiting _ _,
    call.channel.cancel_admitted hInv.unparked⟩

/- Cancelling keeps what the channel admitted. -/
theorem cancel
    (hInv :
      CallInv channels completes closing hasTaken i call)
    {timer : TimerPc}
    (hStored : timer = .stored → call.timedOut = true)
    (hTimedOut :
      Pending channels i → call.timedOut = true) :
    CallInv channels completes closing hasTaken i
      { call with
        channel := call.channel.cancel
        timer := timer } := by
  rcases hInv.interrupted with ⟨hIdle, hWaiting, hAdmitted⟩
  exact
    { token := hInv.token
      roomy := hInv.roomy
      unparked := rfl
      idle := fun h => hIdle.mpr (hInv.idle h)
      busy := fun h hNow => hInv.busy h (hIdle.mp hNow)
      undelivered := by
        rintro (hBefore | hNow)
        · exact hInv.undelivered (.inl hBefore)
        · exact absurd hNow hWaiting
      stored := hStored
      created := fun h => by
        simpa only [hAdmitted, Channel.isOpen_cancel] using
          hInv.created h
      pending := fun h => by
        rcases hInv.pending h with ⟨h1, h2, h3, h4, -, h6⟩
        exact ⟨h1, h2, h3, hAdmitted.trans h4,
          fun _ _ => hTimedOut h, h6⟩
      completing := fun h =>
        hAdmitted.trans (hInv.completing h)
      live := fun hPc hOpen hEmpty =>
        hInv.live hPc hOpen (hAdmitted ▸ hEmpty) }

/- The timer handler cancels; it has set `timed_out`. -/
theorem timerCancel
    (hInv :
      CallInv channels completes closing hasTaken i call)
    (hTimer : call.timer = .stored) :
    CallInv channels completes closing hasTaken i
      { call with
        channel := call.channel.cancel
        timer := .over } :=
  hInv.cancel (by simp) fun _ => hInv.stored hTimer

/- `close()` cancels a channel on its list. -/
theorem teardownCancel
    (hInv :
      CallInv channels completes closing hasTaken i call)
    (hClosing : i ∈ closing) :
    CallInv channels completes closing hasTaken i
      { call with channel := call.channel.cancel } :=
  hInv.cancel hInv.stored fun hIn =>
    absurd hClosing (hInv.pending hIn).2.1

/- And then closes it. -/
theorem teardownClose
    (hInv :
      CallInv channels completes closing hasTaken i call)
    (hClosing : i ∈ closing) :
    CallInv channels completes closing' hasTaken i
      { call with channel := call.channel.close } := by
  have hNot : ¬ Pending channels i :=
    fun hIn => (hInv.pending hIn).2.1 hClosing
  have hIdle :
      call.channel.close.receiver = .idle ↔
        call.channel.receiver = .idle :=
    Receiver.interrupt_eq_idle_iff _ _
  exact
    { token := hInv.token
      roomy := hInv.roomy
      unparked := hInv.unparked
      idle := fun h => hIdle.mpr (hInv.idle h)
      busy := fun h hNow => hInv.busy h (hIdle.mp hNow)
      undelivered := by
        rintro (hBefore | hNow)
        · exact hInv.undelivered (.inl hBefore)
        · exact absurd hNow
            (Receiver.interrupt_ne_waiting _ _)
      stored := hInv.stored
      created := fun h =>
        absurd h (hInv.ne_created (.inr (.inr hClosing)))
      pending := fun h => absurd h hNot
      completing := hInv.completing
      live := by simp }

/- The reader sends the result it took out of the table. -/
theorem result
    (hInv :
      CallInv channels (some i) closing hasTaken i call)
    (r : OpResult) :
    CallInv channels none closing hasTaken i
      { call with channel := call.channel.asyncSend r } := by
  have hEmpty := hInv.completing rfl
  have hNot : ¬ Pending channels i :=
    fun hIn => (hInv.pending hIn).1 rfl
  -- Nothing was sent before, so the one slot is free.
  have hRoom :
      call.channel.buffer.length < call.channel.capacity := by
    rw [Channel.admitted, call.channel.fifo] at hEmpty
    simp only [List.append_eq_nil_iff] at hEmpty
    simp [hEmpty.1.2, hInv.roomy]
  exact
    { token := hInv.token
      roomy := by simpa using hInv.roomy
      unparked :=
        (call.channel.senders_asyncSend_of_room r hRoom).trans
          hInv.unparked
      idle := by
        intro hPc
        rcases call.channel.asyncSend_receiver r with
          ⟨hReceiver, -⟩ | ⟨hWaiting, -⟩
        · exact hReceiver.trans (hInv.idle hPc)
        · simp [hInv.idle hPc] at hWaiting
      busy := by
        intro hPc
        rcases call.channel.asyncSend_receiver r with
          ⟨hReceiver, -⟩ | ⟨-, hReceiver, -⟩
        · simpa only [hReceiver] using hInv.busy hPc
        · simp [hReceiver]
      undelivered := by
        rintro (hBefore | hNow)
        · rcases call.channel.asyncSend_receiver r with
            ⟨-, hDelivered⟩ | ⟨hWaiting, -⟩
          · exact hDelivered.trans
              (hInv.undelivered (.inl hBefore))
          · simp [hInv.idle hBefore.1] at hWaiting
        · rcases call.channel.asyncSend_waiting r hNow with
            ⟨hWaiting, hDelivered⟩
          exact hDelivered.trans
            (hInv.undelivered (.inr hWaiting))
      stored := hInv.stored
      created := fun h =>
        absurd h (hInv.ne_created (.inr (.inl rfl)))
      pending := fun h => absurd h hNot
      completing := by simp
      live := by
        intro _ hOpen hNone
        simp only [Channel.isOpen_asyncSend] at hOpen
        rw [Channel.asyncSend_admitted, if_pos hOpen] at hNone
        simp at hNone }

end CallInv

------------------------------------------------------------
-- All Calls
------------------------------------------------------------

structure CallsInv
    (calls : List PendingCall)
    (channels : AList fun _ : UInt64 => Nat)
    (nextToken : UInt64)
    (completes : Option Nat)
    (closing : List Nat)
    (hasTaken : Bool) : Prop where
  few : calls.length < 2 ^ 64
  numbered : nextToken = tokenOf calls.length
  keys :
    ∀ token i, channels.lookup token = some i →
      i < calls.length ∧ token = tokenOf i
  completed : ∀ i, completes = some i → i < calls.length
  closed : ∀ i ∈ closing, i < calls.length
  each :
    ∀ i call, calls[i]? = some call →
      CallInv channels completes closing hasTaken i call

namespace CallsInv

variable {calls : List PendingCall}
variable {channels : AList fun _ : UInt64 => Nat}
variable {nextToken : UInt64}
variable {completes : Option Nat}
variable {closing : List Nat}
variable {hasTaken : Bool}

/- Changing one call without moving it between owners. -/
theorem modify
    (hInv :
      CallsInv calls channels nextToken completes closing
        hasTaken)
    {i : Nat}
    {f : PendingCall → PendingCall}
    (hAt :
      ∀ call, calls[i]? = some call →
        CallInv channels completes closing hasTaken i
          (f call)) :
    CallsInv (calls.modify i f) channels nextToken completes
      closing hasTaken where
  few := by simpa using hInv.few
  numbered := by simpa using hInv.numbered
  keys := by simpa using hInv.keys
  completed := by simpa using hInv.completed
  closed := by simpa using hInv.closed
  each :=
    Records.forall_getElem?_modify
      (fun j call hGet _ => hInv.each j call hGet) hAt

/- Different calls have different tokens. -/
theorem token_ne
    (hInv :
      CallsInv calls channels nextToken completes closing
        hasTaken)
    {i j : Nat}
    (hI : i < calls.length)
    (hJ : j < calls.length)
    (hNe : j ≠ i) :
    tokenOf j ≠ tokenOf i := by
  have hFew := hInv.few
  exact fun hEq =>
    hNe (tokenOf_inj (by omega) (by omega) hEq)

/- `generate_token` and `create_channel`. -/
theorem generate
    (hInv :
      CallsInv calls channels nextToken completes closing
        hasTaken)
    (hFew : calls.length + 1 < 2 ^ 64)
    (callName : StdString)
    (reqBuffer : Buffer) :
    CallsInv
      (calls ++ [.create callName reqBuffer nextToken])
      channels (nextToken + 1) completes closing
      hasTaken where
  few := by simpa using hFew
  numbered := by
    rw [hInv.numbered, tokenOf_succ, List.length_append,
      List.length_singleton]
  keys := by
    intro token i hLookup
    rcases hInv.keys token i hLookup with ⟨hLt, hToken⟩
    exact ⟨by simp; omega, hToken⟩
  completed := by
    intro i hCompletes
    have hLt := hInv.completed i hCompletes
    simp
    omega
  closed := by
    intro i hClosing
    have hLt := hInv.closed i hClosing
    simp
    omega
  each := by
    intro i call hGet
    by_cases hOld : i < calls.length
    · rw [List.getElem?_append_left hOld] at hGet
      exact hInv.each i call hGet
    · obtain ⟨rfl, rfl⟩ :
          i = calls.length ∧
            PendingCall.create callName reqBuffer nextToken =
              call := by
        have hLe := Nat.le_of_not_lt hOld
        rw [List.getElem?_append_right hLe,
          List.getElem?_singleton] at hGet
        split at hGet
        · exact ⟨by omega, Option.some.inj hGet⟩
        · cases hGet
      have hNot : ¬ Pending channels calls.length :=
        fun hIn => absurd (hInv.keys _ _ hIn).1 (by omega)
      exact
        { token := hInv.numbered
          roomy := rfl
          unparked := rfl
          idle := fun _ => rfl
          busy := nofun
          undelivered := fun _ => rfl
          stored := nofun
          created := fun _ =>
            ⟨hNot,
              fun h => absurd (hInv.completed _ h) (by omega),
              fun h => absurd (hInv.closed _ h) (by omega),
              rfl, rfl⟩
          pending := fun h => absurd h hNot
          completing := fun h =>
            absurd (hInv.completed _ h) (by omega)
          live := fun h => absurd rfl h }

/- The locked insertion of `create_operation`. -/
theorem register
    (hInv :
      CallsInv calls channels nextToken completes closing
        hasTaken)
    {i : Nat}
    {call : PendingCall}
    (hGet : calls[i]? = some call)
    (hPc : call.pc = .created) :
    CallsInv
      (calls.modify i fun call =>
        { call with pc := .registered })
      (channels.insert call.token i) nextToken completes
      closing hasTaken := by
  have hLt := (List.getElem?_eq_some_iff.mp hGet).1
  have hCall := hInv.each i call hGet
  rw [hCall.token]
  refine
    { few := by simpa using hInv.few
      numbered := by simpa using hInv.numbered
      keys := ?_
      completed := by simpa using hInv.completed
      closed := by simpa using hInv.closed
      each := Records.forall_getElem?_modify ?_ ?_ }
  · intro token j hLookup
    rw [List.length_modify]
    by_cases hToken : token = tokenOf i
    · subst hToken
      rw [AList.lookup_insert] at hLookup
      rcases Option.some.inj hLookup with rfl
      exact ⟨hLt, rfl⟩
    · rw [AList.lookup_insert_ne hToken] at hLookup
      exact hInv.keys token j hLookup
  · intro j other hOther hNe
    have hToken := hInv.token_ne hLt
      (List.getElem?_eq_some_iff.mp hOther).1 hNe
    refine (hInv.each j other hOther).frame ?_ .rfl .rfl id
    rw [Pending, Pending, AList.lookup_insert_ne hToken]
  · refine Records.forall_of_getElem? hGet ?_
    rcases hCall.created hPc with
      ⟨-, hFree, hOut, hOpen, hEmpty⟩
    have hIdle := hCall.idle (by simp [hPc])
    exact
      { hCall with
        idle := fun _ => hIdle
        busy := by simp
        undelivered := fun _ =>
          hCall.undelivered (.inl (by simp [hPc,
            CallPc.isFinished]))
        created := by simp
        pending := fun _ =>
          ⟨hFree, hOut, hOpen, hEmpty,
            fun e hError => by simp [hIdle] at hError,
            fun _ => .inl rfl⟩
        live := fun _ _ _ =>
          .inl (AList.lookup_insert channels) }

/- `complete_operation` looks a token up and erases it. -/
theorem find
    (hInv :
      CallsInv calls channels nextToken none closing hasTaken)
    (token : UInt64) :
    CallsInv calls (channels.erase token) nextToken
      (channels.lookup token) closing hasTaken := by
  have hErased :
      ∀ {t i}, (channels.erase token).lookup t = some i →
        t ≠ token ∧ channels.lookup t = some i :=
    lookup_of_erase
  refine
    { few := hInv.few
      numbered := hInv.numbered
      keys := fun t i hLookup => hInv.keys t i
        (hErased hLookup).2
      completed := fun i hFound => (hInv.keys token i hFound).1
      closed := hInv.closed
      each := ?_ }
  intro i call hGet
  have hCall := hInv.each i call hGet
  by_cases hFound : channels.lookup token = some i
  · -- The entry moves from the table to the reader.
    have hToken := (hInv.keys token i hFound).2
    subst hToken
    rcases hCall.pending hFound with
      ⟨-, hOut, hOpen, hEmpty, -⟩
    have hGone :
        ¬ Pending (channels.erase (tokenOf i)) i :=
      fun h => (hErased h).1 rfl
    exact
      { hCall with
        created := fun h =>
          absurd h (hCall.ne_created (.inl hFound))
        pending := fun h => absurd h hGone
        completing := fun _ => hEmpty
        live := fun _ _ _ => .inr (.inl hFound) }
  · refine hCall.frame ?_ (by simp [hFound]) .rfl id
    constructor
    · exact fun h => (hErased h).2
    · intro h
      have hNe : tokenOf i ≠ token := by
        rintro rfl
        exact hFound h
      rw [Pending, AList.lookup_erase_ne hNe]
      exact h

/- The reader hands over the result. -/
theorem sendResult
    {i : Nat}
    (hInv :
      CallsInv calls channels nextToken (some i) closing
        hasTaken)
    (r : OpResult) :
    CallsInv
      (calls.modify i fun call =>
        { call with channel := call.channel.asyncSend r })
      channels nextToken none closing hasTaken where
  few := by simpa using hInv.few
  numbered := by simpa using hInv.numbered
  keys := by simpa using hInv.keys
  completed := by simp
  closed := by simpa using hInv.closed
  each :=
    Records.forall_getElem?_modify
      (fun j call hGet hNe =>
        (hInv.each j call hGet).frame .rfl
          (by simpa using Ne.symm hNe) .rfl id)
      fun call hGet => (hInv.each i call hGet).result r

/- `close()` empties the table onto its list. -/
theorem take
    (hInv :
      CallsInv calls channels nextToken completes []
        hasTaken) :
    CallsInv calls ∅ nextToken completes
      (channels.entries.map Sigma.snd) true := by
  have hValues :
      ∀ {i}, i ∈ channels.entries.map Sigma.snd →
        ∃ token, channels.lookup token = some i := by
    intro i hMem
    rcases List.mem_map.mp hMem with
      ⟨⟨token, j⟩, hEntry, rfl⟩
    exact ⟨token, AList.mem_lookup_iff.mpr hEntry⟩
  refine
    { few := hInv.few
      numbered := hInv.numbered
      keys := by simp
      completed := hInv.completed
      closed := fun i hMem => by
        rcases hValues hMem with ⟨token, hLookup⟩
        exact (hInv.keys token i hLookup).1
      each := ?_ }
  intro i call hGet
  have hCall := hInv.each i call hGet
  have hOnList :
      i ∈ channels.entries.map Sigma.snd →
        Pending channels i := by
    intro hMem
    rcases hValues hMem with ⟨token, hLookup⟩
    rcases (hInv.keys token i hLookup).2 with rfl
    exact hLookup
  exact
    { hCall with
      created := fun h => by
        rcases hCall.created h with
          ⟨hNot, hFree, -, hOpen, hEmpty⟩
        exact ⟨nofun, hFree, fun hMem => hNot (hOnList hMem),
          hOpen, hEmpty⟩
      pending := nofun
      live := fun hPc hOpen hEmpty => by
        rcases hCall.live hPc hOpen hEmpty with
          hIn | hIn | hIn
        · refine .inr (.inr ?_)
          exact List.mem_map.mpr
            ⟨⟨tokenOf i, i⟩, AList.mem_lookup_iff.mp hIn, rfl⟩
        · exact .inr (.inl hIn)
        · cases hIn }

/- `close()` cancels the next channel of its list. -/
theorem cancel
    (hInv :
      CallsInv calls channels nextToken completes closing
        hasTaken)
    {i : Nat}
    (hMem : i ∈ closing) :
    CallsInv
      (calls.modify i fun call =>
        { call with channel := call.channel.cancel })
      channels nextToken completes (i :: closing.erase i)
      hasTaken := by
  have hSame : ∀ j, j ∈ i :: closing.erase i ↔ j ∈ closing :=
    fun j => (List.perm_cons_erase hMem).symm.mem_iff
  have hCancelled :=
    hInv.modify fun call hGet =>
      (hInv.each i call hGet).teardownCancel hMem
  exact
    { few := hCancelled.few
      numbered := hCancelled.numbered
      keys := hCancelled.keys
      completed := hCancelled.completed
      closed := fun j hJ =>
        hCancelled.closed j ((hSame j).mp hJ)
      each := fun j call hGet =>
        (hCancelled.each j call hGet).frame .rfl .rfl (hSame j)
          id }

/- And closes it. -/
theorem close
    {i : Nat}
    (hInv :
      CallsInv calls channels nextToken completes
        (i :: closing) hasTaken) :
    CallsInv
      (calls.modify i fun call =>
        { call with channel := call.channel.close })
      channels nextToken completes closing hasTaken where
  few := by simpa using hInv.few
  numbered := by simpa using hInv.numbered
  keys := by simpa using hInv.keys
  completed := by simpa using hInv.completed
  closed := fun j hJ => by
    simpa using hInv.closed j (List.mem_cons_of_mem i hJ)
  each :=
    Records.forall_getElem?_modify
      (fun j call hGet hNe =>
        (hInv.each j call hGet).frame .rfl .rfl
          (by simp [hNe]) id)
      fun call hGet =>
        (hInv.each i call hGet).teardownClose
          List.mem_cons_self

end CallsInv

------------------------------------------------------------
-- Every Run
------------------------------------------------------------

namespace Session

variable {ω : Type}
variable {cfg : Config ω}

/- Does the reader look up or hand over a result? -/
def completesCall : Action ω → Bool
  | .findOperation _ _ => true
  | .sendResult _ _ => true
  | _ => false

/- Any other step leaves a reader that completes no call. -/
theorem reader_update
    (cfg : Config ω)
    (s : Session)
    {a : Action ω}
    (hEnabled : s.Enabled a)
    (hNot : completesCall a = false) :
    (s.update cfg a).reader = s.reader ∨
      (s.reader.completes = none ∧
        (s.update cfg a).reader.completes = none) := by
  cases a with
  | readHeader now =>
      right
      rw [hEnabled.1]
      simp only [update]
      cases s.nextIntake cfg now <;> exact ⟨rfl, rfl⟩
  | sendPong =>
      have hAt : s.reader = .pong := hEnabled
      right
      rw [hAt]
      exact ⟨rfl, rfl⟩
  | readBody header use =>
      right
      rw [hEnabled.1]
      simp only [update]
      cases use <;> exact ⟨rfl, rfl⟩
  | readFail =>
      have hReading : s.reader.isReading = true := hEnabled
      right
      cases hAt : s.reader with
      | header => exact ⟨rfl, rfl⟩
      | body header use => exact ⟨rfl, rfl⟩
      | _ => simp [hAt, ReaderPc.isReading] at hReading
  | findOperation token result => cases hNot
  | sendResult i result => cases hNot
  | resumeResult i =>
      right
      rw [hEnabled.1]
      exact ⟨rfl, rfl⟩
  | rejectRequest rid header closes =>
      have hAt : s.reader = .rejecting rid header closes :=
        hEnabled
      right
      rw [hAt]
      simp only [update]
      split <;> exact ⟨rfl, rfl⟩
  | resumeReject rid closes =>
      right
      rw [hEnabled.1]
      simp only [update]
      split <;> exact ⟨rfl, rfl⟩
  | readerClose again =>
      have hAt : s.reader = .close again := hEnabled
      right
      rw [hAt]
      simp only [update]
      split
      · exact ⟨rfl, rfl⟩
      · cases again <;> exact ⟨rfl, rfl⟩
  | readerClosed again =>
      right
      rw [hEnabled.1]
      cases again <;> exact ⟨rfl, rfl⟩
  | _ => exact .inl rfl

theorem completes_update
    (cfg : Config ω)
    (s : Session)
    {a : Action ω}
    (hEnabled : s.Enabled a)
    (hNot : completesCall a = false) :
    (s.update cfg a).reader.completes = s.reader.completes := by
  rcases reader_update cfg s hEnabled hNot with
    hSame | ⟨hBefore, hAfter⟩
  · rw [hSame]
  · rw [hBefore, hAfter]

theorem callsInv
    {ok : Session → Action ω → Prop}
    (hFew : ∀ s a, ok s a → FewCalls s a)
    {s : Session}
    (hReach : ReachableBy cfg ok s) :
    CallsInv s.calls s.channels s.nextToken
      s.reader.completes s.teardown.closing
      s.teardown.hasTaken := by
  refine invariant
    (fun s =>
      CallsInv s.calls s.channels s.nextToken
        s.reader.completes s.teardown.closing
        s.teardown.hasTaken) ?_ ?_ hReach
  · exact
      { few := Nat.two_pow_pos 64
        numbered := rfl
        keys := nofun
        completed := nofun
        closed := nofun
        each := by simp [start] }
  · intro s a hPrior hInv hOk hEnabled
    cases a with
    | generateToken callName reqBuffer =>
        exact hInv.generate (hFew _ _ hOk rfl) callName
          reqBuffer
    | registerOperation i =>
        rcases hEnabled with ⟨call, hGet, hPc⟩
        simpa [update, Option.mem_def.mp hGet] using
          hInv.register hGet hPc
    | queueCall i =>
        rcases hEnabled with ⟨call, hGet, hPc⟩
        have hShut :
            s.teardown.hasTaken = true →
              s.writeChannel.isOpen = false := by
          intro hTaken
          rw [isOpen_eq hPrior,
            Teardown.hasClosed_of_hasTaken hTaken]
          rfl
        refine hInv.modify
          (Records.forall_of_getElem? hGet ?_)
        exact (hInv.each i call hGet).queue hPc hShut
    | armTimer i =>
        rcases hEnabled with ⟨⟨call, hGet, hPc⟩, -⟩
        refine hInv.modify
          (Records.forall_of_getElem? hGet ?_)
        exact (hInv.each i call hGet).arm hPc
    | receiveReply i =>
        rcases hEnabled with ⟨call, hGet, hPc⟩
        refine hInv.modify
          (Records.forall_of_getElem? hGet ?_)
        exact (hInv.each i call hGet).receive hPc
    | resumeCall i =>
        rcases hEnabled with ⟨call, hGet, hPc, hDone⟩
        refine hInv.modify
          (Records.forall_of_getElem? hGet ?_)
        exact (hInv.each i call hGet).resume hPc hDone
    | timerFire i =>
        exact hInv.modify fun call hGet =>
          (hInv.each i call hGet).fire
    | timerStore i =>
        exact hInv.modify fun call hGet =>
          (hInv.each i call hGet).store
    | timerCancel i =>
        rcases hEnabled with ⟨call, hGet, hTimer⟩
        refine hInv.modify
          (Records.forall_of_getElem? hGet ?_)
        exact (hInv.each i call hGet).timerCancel hTimer
    | close => simpa [update] using hInv
    | writerClose => simpa [update] using hInv
    | closeWriteChannel =>
        have hAt : s.teardown = .writeChannel := hEnabled
        simpa [update, hAt, Teardown.closing,
          Teardown.hasTaken] using hInv
    | takeTable =>
        have hAt : s.teardown = .table := hEnabled
        rw [hAt] at hInv
        exact hInv.take
    | cancelChannel i =>
        have hClosing : s.teardown.closing = s.teardown.todo := by
          rw [hEnabled.1]
          rfl
        have hTaken : s.teardown.hasTaken = true := by
          rw [hEnabled.1]
          rfl
        rw [hClosing, hTaken] at hInv
        exact hInv.cancel hEnabled.2
    | closeChannel i =>
        have hAt : s.teardown = .channel i s.teardown.todo :=
          hEnabled
        have hClosing :
            s.teardown.closing = i :: s.teardown.todo := by
          rw [hAt]
          rfl
        have hTaken : s.teardown.hasTaken = true := by
          rw [hAt]
          rfl
        rw [hClosing, hTaken] at hInv
        exact hInv.close
    | closeStream =>
        have hAt : s.teardown = .channels [] := hEnabled
        simpa [update, hAt, Teardown.closing,
          Teardown.hasTaken] using hInv
    | findOperation token result =>
        have hAt : s.reader = .complete token result := hEnabled
        rw [hAt] at hInv
        have hFound := hInv.find token
        simp only [update]
        cases hLookup : s.channels.lookup token with
        | none => rw [hLookup] at hFound; exact hFound
        | some i => rw [hLookup] at hFound; exact hFound
    | sendResult i result =>
        have hAt : s.reader = .completing i result := hEnabled
        rw [hAt] at hInv
        have hSent := CallsInv.sendResult hInv result
        simp only [update]
        split <;> exact hSent
    | readerClose again =>
        rw [completes_update cfg s hEnabled rfl]
        simpa [update] using hInv
    | _ =>
        rw [completes_update cfg s hEnabled rfl]
        exact hInv

end Session

end GrlxRpc
