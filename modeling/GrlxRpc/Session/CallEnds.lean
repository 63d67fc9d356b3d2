import GrlxRpc.Session.Calls
import Mathlib.Data.List.Perm.Subperm

/-
  How calls end: on time, and without leaving their token in
  the table.

  Both laws break on one step each. A timer handler that runs
  to its end before `async_receive` starts cancels nothing,
  and a call that times out, or finds the queue closed, never
  erases its token.

  Main declarations:
    * `Session.not_lostTimeout`, `Session.receiveReply_lost`
    * `Session.noLeak`, `Session.abandoned_leaks`
-/

------------------------------------------------------------
-- Lost Timeouts
------------------------------------------------------------

namespace GrlxRpc

/-
  The timer's handler is over and has set `timed_out`, and
  the call waits in `async_receive` with no completion due.
-/
def PendingCall.TimeoutLost (call : PendingCall) : Prop :=
  call.timedOut = true ∧ call.timer = .over ∧
    call.pc = .receiving ∧ call.channel.receiver = .waiting

/- What a call's timer has done. -/
structure TimerInv (call : PendingCall) : Prop where
  unarmed :
    call.pc = .created ∨ call.pc = .registered ∨
        call.pc = .sending →
      call.timer = .unarmed
  told :
    call.timedOut = true →
      call.timer = .stored ∨ call.timer = .over
  awake :
    call.timedOut = true → call.timer = .over →
      call.channel.receiver ≠ .waiting

namespace TimerInv

variable {call : PendingCall}

/- The timer has not been told to fire yet. -/
theorem not_timedOut
    (hInv : TimerInv call)
    (hTimer : call.timer ≠ .stored)
    (hOver : call.timer ≠ .over) :
    call.timedOut = false := by
  cases hTimedOut : call.timedOut with
  | false => rfl
  | true =>
      rcases hInv.told hTimedOut with hStored | hOver'
      · exact absurd hStored hTimer
      · exact absurd hOver' hOver

/- A channel whose consumer does not begin to wait. -/
theorem channel
    (hInv : TimerInv call)
    {channel : Channel OpResult}
    (hWaiting :
      channel.receiver = .waiting →
        call.channel.receiver = .waiting) :
    TimerInv { call with channel := channel } where
  unarmed := hInv.unarmed
  told := hInv.told
  awake := fun hTimedOut hOver hNow =>
    hInv.awake hTimedOut hOver (hWaiting hNow)

/- The call moves on without touching timer or channel. -/
theorem move
    (hInv : TimerInv call)
    {pc : CallPc}
    (hUnarmed :
      pc = .created ∨ pc = .registered ∨ pc = .sending →
        call.timer = .unarmed) :
    TimerInv { call with pc := pc } where
  unarmed := hUnarmed
  told := hInv.told
  awake := hInv.awake

end TimerInv

namespace Session

variable {ω : Type}
variable {cfg : Config ω}

/- The call whose receive an action starts. -/
def receives : Action ω → Option Nat
  | .receiveReply i => some i
  | _ => none

/-
  No receive starts after the timer handler has run to its
  end, unless a reply or `close()` has completed the channel.
-/
def Timely
    (s : Session)
    (a : Action ω) : Prop :=
  ∀ i ∈ receives a, ∀ call ∈ s.calls[i]?,
    call.timedOut = true → call.timer = .over →
      call.channel.isOpen = false ∨ call.channel.buffer ≠ []

instance
    (s : Session)
    (a : Action ω) : Decidable (s.Timely a) :=
  inferInstanceAs (Decidable (∀ i ∈ receives a, _))

/- The receive finds something, so it does not wait. -/
theorem asyncReceive_not_waiting
    (c : Channel OpResult)
    (hReady : c.isOpen = false ∨ c.buffer ≠ []) :
    c.asyncReceive.receiver ≠ .waiting := by
  intro hWaiting
  rcases c.asyncReceive.parked hWaiting with
    ⟨hOpen, hBuffer, -⟩
  rw [Channel.isOpen_asyncReceive] at hOpen
  rcases hReady with hShut | hFull
  · simp [hShut] at hOpen
  · rcases c.asyncReceive_receiver with
      ⟨r, hReceiver, -⟩ | ⟨-, hDelivered⟩
    · simp [hReceiver] at hWaiting
    · -- Nothing was delivered, so the buffer cannot be empty.
      have hAdmitted := c.asyncReceive_admitted
      rw [c.asyncReceive.admitted_of_waiting hWaiting,
        hDelivered, Channel.admitted, c.fifo,
        List.append_assoc, List.self_eq_append_right,
        List.append_eq_nil_iff] at hAdmitted
      exact hFull hAdmitted.1

theorem timerInv
    {s : Session}
    (hReach : ReachableBy (ω := ω) cfg Timely s) :
    ∀ (i : Nat) (call : PendingCall),
      s.calls[i]? = some call → TimerInv call := by
  refine invariant
    (fun s : Session =>
      ∀ (i : Nat) (call : PendingCall),
        s.calls[i]? = some call → TimerInv call)
    (by simp [start]) ?_ hReach
  intro s a _ hInv hOk hEnabled
  have hModify :
      ∀ {i : Nat} {f : PendingCall → PendingCall},
        (∀ call, s.calls[i]? = some call →
          TimerInv (f call)) →
        ∀ j call, (s.calls.modify i f)[j]? = some call →
          TimerInv call :=
    fun hAt => Records.forall_getElem?_modify
      (P := fun _ call => TimerInv call)
      (fun j call hGet _ => hInv j call hGet) hAt
  cases a with
  | generateToken callName reqBuffer =>
      refine Records.forall_getElem?_concat
        (P := fun _ call => TimerInv call) hInv ?_
      exact ⟨fun _ => rfl, by simp [PendingCall.create],
        by simp [PendingCall.create]⟩
  | registerOperation i =>
      rcases hEnabled with ⟨call, hGet, hPc⟩
      refine hModify (Records.forall_of_getElem? hGet ?_)
      have hCall := hInv i call hGet
      exact hCall.move fun _ => hCall.unarmed (.inl hPc)
  | queueCall i =>
      rcases hEnabled with ⟨call, hGet, hPc⟩
      refine hModify (Records.forall_of_getElem? hGet ?_)
      have hCall := hInv i call hGet
      exact hCall.move fun _ =>
        hCall.unarmed (.inr (.inl hPc))
  | armTimer i =>
      rcases hEnabled with ⟨⟨call, hGet, hPc⟩, -⟩
      refine hModify (Records.forall_of_getElem? hGet ?_)
      have hCall := hInv i call hGet
      have hTimer := hCall.unarmed (.inr (.inr hPc))
      have hNot := hCall.not_timedOut (by simp [hTimer])
        (by simp [hTimer])
      exact ⟨by simp, by simp [hNot], by simp⟩
  | receiveReply i =>
      rcases hEnabled with ⟨call, hGet, hPc⟩
      refine hModify (Records.forall_of_getElem? hGet ?_)
      have hCall := hInv i call hGet
      exact
        { unarmed := by simp
          told := hCall.told
          awake := fun hTimedOut hOver =>
            asyncReceive_not_waiting _
              (hOk i rfl call hGet hTimedOut hOver) }
  | resumeCall i =>
      rcases hEnabled with ⟨call, hGet, hPc, hDone⟩
      refine hModify (Records.forall_of_getElem? hGet ?_)
      have hCall := hInv i call hGet
      have hFinished := call.isFinished_resume hDone
      refine ⟨fun hPc' => ?_, ?_, fun _ _ => ?_⟩
      · rcases hPc' with hPc' | hPc' | hPc' <;>
          simp [hPc', CallPc.isFinished] at hFinished
      · simpa using hCall.told
      · exact call.resume_ne_waiting hDone
  | timerFire i =>
      rcases hEnabled with ⟨call, hGet, hTimer⟩
      refine hModify (Records.forall_of_getElem? hGet ?_)
      have hCall := hInv i call hGet
      have hNot := hCall.not_timedOut (by simp [hTimer])
        (by simp [hTimer])
      refine ⟨fun hPc => ?_, by simp [hNot], by simp [hNot]⟩
      simp [hCall.unarmed hPc] at hTimer
  | timerStore i =>
      rcases hEnabled with ⟨call, hGet, hTimer⟩
      refine hModify (Records.forall_of_getElem? hGet ?_)
      have hCall := hInv i call hGet
      refine ⟨fun hPc => ?_, fun _ => .inl rfl, by simp⟩
      simp [hCall.unarmed hPc] at hTimer
  | timerCancel i =>
      rcases hEnabled with ⟨call, hGet, hTimer⟩
      refine hModify (Records.forall_of_getElem? hGet ?_)
      have hCall := hInv i call hGet
      refine ⟨fun hPc => ?_, fun _ => .inr rfl,
        fun _ _ => Receiver.interrupt_ne_waiting _ _⟩
      simp [hCall.unarmed hPc] at hTimer
  | cancelChannel i =>
      exact hModify fun call hGet =>
        (hInv i call hGet).channel fun hNow =>
          absurd hNow (Receiver.interrupt_ne_waiting _ _)
  | closeChannel i =>
      exact hModify fun call hGet =>
        (hInv i call hGet).channel fun hNow =>
          absurd hNow (Receiver.interrupt_ne_waiting _ _)
  | sendResult i result =>
      exact hModify fun call hGet =>
        (hInv i call hGet).channel fun hNow =>
          (call.channel.asyncSend_waiting result hNow).1
  | _ => exact hInv

/-
  No timeout is lost in a run whose receives start before the
  timer handler is over.
-/
theorem not_lostTimeout
    (cfg : Config ω)
    (s : Session)
    (hReach : ReachableBy cfg Timely s) :
    ∀ call ∈ s.calls, ¬ call.TimeoutLost := by
  rintro call hMem ⟨hTimedOut, hOver, -, hWaiting⟩
  rcases List.getElem?_of_mem hMem with ⟨i, hGet⟩
  exact (timerInv hReach i call hGet).awake hTimedOut hOver
    hWaiting

/- A receive that starts too late loses its timeout. -/
theorem receiveReply_lost
    {ok : Session → Action ω → Prop}
    (hFew : ∀ s a, ok s a → FewCalls s a)
    {s : Session}
    (hReach : ReachableBy cfg ok s)
    {i : Nat}
    (hEnabled : s.Enabled (.receiveReply i : Action ω))
    (hLate : ¬ s.Timely (.receiveReply i : Action ω)) :
    ∃ call ∈ (s.update cfg (.receiveReply i)).calls,
      call.TimeoutLost := by
  rcases hEnabled with ⟨call, hGet, -⟩
  have hOnly : ∀ call' ∈ s.calls[i]?, call' = call :=
    fun call' hGet' =>
      Option.some.inj (hGet'.symm.trans hGet)
  simp only [Timely, receives, Option.mem_some_iff,
    forall_eq', not_forall, not_or] at hLate
  rcases hLate with
    ⟨call', hGet', hTimedOut, hOver, hOpen, hBuffer⟩
  rcases hOnly call' hGet' with rfl
  have hCall := (callsInv hFew hReach).each i call' hGet
  exact ⟨_, Records.mem_modify_of_getElem? hGet _, hTimedOut, hOver,
    rfl, call'.channel.asyncReceive_waits
      (by simpa using hOpen) (by simpa using hBuffer)
      hCall.unparked⟩

/- A call that receives before its timer fires. -/
theorem not_lostTimeout_armed :
    ∃ s : Session, Reachable ({} : Config Unit) s ∧
      (∃ call ∈ s.calls, call.timedOut = true ∧
        call.timer = .over) ∧
      ∀ call ∈ s.calls, ¬ call.TimeoutLost := by
  obtain ⟨s, hReach, hRun⟩ :=
    Transition.exists_of_runBy (step ({} : Config Unit))
      Timely (start ({} : Config Unit))
      [.generateToken (literal "call") Buffer.empty,
        .registerOperation 0,
        .queueCall 0,
        .armTimer 0,
        .receiveReply 0,
        .timerFire 0,
        .timerStore 0,
        .timerCancel 0]
      (fun s =>
        decide (∃ call ∈ s.calls, call.timedOut = true ∧
          call.timer = .over))
      (by decide +kernel)
  exact ⟨s, hReach.reachable, of_decide_eq_true hRun,
    not_lostTimeout {} s hReach⟩

/- The handler runs to its end before the receive starts. -/
theorem timeout_lost :
    ∃ s : Session, Reachable ({} : Config Unit) s ∧
      ∃ call ∈ s.calls, call.TimeoutLost := by
  obtain ⟨s, hReach, hRun⟩ :=
    Transition.exists_of_run (step ({} : Config Unit))
      (start ({} : Config Unit))
      [.generateToken (literal "call") Buffer.empty,
        .registerOperation 0,
        .queueCall 0,
        .armTimer 0,
        .timerFire 0,
        .timerStore 0,
        .timerCancel 0,
        .receiveReply 0]
      (fun s =>
        decide (∃ call ∈ s.calls, call.timedOut = true ∧
          call.timer = .over ∧ call.pc = .receiving ∧
            call.channel.receiver.isWaiting = true))
      (by decide +kernel)
  rcases of_decide_eq_true hRun with
    ⟨call, hMem, hTimedOut, hOver, hPc, hWaiting⟩
  exact ⟨s, hReach, call, hMem, hTimedOut, hOver, hPc,
    Receiver.isWaiting_iff.mp hWaiting⟩

end Session

------------------------------------------------------------
-- Left Tokens
------------------------------------------------------------

/- No finished call is in the table. -/
def Cleared
    (channels : AList fun _ : UInt64 => Nat)
    (calls : List PendingCall) : Prop :=
  ∀ (i : Nat) (call : PendingCall),
    calls[i]? = some call → call.pc.isFinished = true →
      ¬ Pending channels i

namespace Cleared

variable {channels : AList fun _ : UInt64 => Nat}
variable {calls : List PendingCall}

/- A call that changes is finished and out, or goes on. -/
theorem modify
    (hInv : Cleared channels calls)
    {i : Nat}
    {f : PendingCall → PendingCall}
    (hAt :
      ∀ call, calls[i]? = some call →
        (f call).pc.isFinished = true → ¬ Pending channels i) :
    Cleared channels (calls.modify i f) := by
  exact Records.forall_getElem?_modify
    (P := fun i call =>
      call.pc.isFinished = true → ¬ Pending channels i)
    (fun j call hGet _ => hInv j call hGet) hAt

/- An entry leaves the table. -/
theorem erase
    (hInv : Cleared channels calls)
    (token : UInt64) :
    Cleared (channels.erase token) calls := by
  intro i call hGet hFinished hIn
  exact hInv i call hGet hFinished (lookup_of_erase hIn).2

end Cleared

namespace CallsInv

variable {calls : List PendingCall}
variable {channels : AList fun _ : UInt64 => Nat}
variable {nextToken : UInt64}
variable {completes : Option Nat}
variable {closing : List Nat}
variable {hasTaken : Bool}

/- A call's token is in the table when the call is. -/
theorem lookup_eq_none_iff
    (hInv :
      CallsInv calls channels nextToken completes closing
        hasTaken)
    {i : Nat}
    {call : PendingCall}
    (hGet : calls[i]? = some call) :
    channels.lookup call.token = none ↔
      ¬ Pending channels i := by
  have hLt := (List.getElem?_eq_some_iff.mp hGet).1
  rw [(hInv.each i call hGet).token, Pending]
  cases hLookup : channels.lookup (tokenOf i) with
  | none => simp
  | some j =>
      rcases hInv.keys _ j hLookup with ⟨hJ, hToken⟩
      by_contra hNot
      have hNe : j ≠ i := by simpa using hNot
      exact hInv.token_ne hLt hJ hNe hToken.symm

/- The table has an entry for each of its calls only. -/
theorem nodup_values
    (hInv :
      CallsInv calls channels nextToken completes closing
        hasTaken) :
    (channels.entries.map Sigma.snd).Nodup := by
  have hKeys : (channels.entries.map Sigma.fst).Nodup :=
    channels.nodupKeys
  refine List.Nodup.map_on ?_ (hKeys.of_map _)
  rintro ⟨token, i⟩ hLeft ⟨token', j⟩ hRight hSame
  obtain rfl : i = j := hSame
  have hToken :=
    (hInv.keys token i (AList.mem_lookup_iff.mpr hLeft)).2
  have hToken' :=
    (hInv.keys token' i (AList.mem_lookup_iff.mpr hRight)).2
  rw [hToken, hToken']

/- A cleared table is no larger than what it stands for. -/
theorem length_entries_le
    (hInv :
      CallsInv calls channels nextToken completes closing
        hasTaken)
    (hCleared : Cleared channels calls) :
    channels.entries.length ≤
      calls.countP fun call => !call.pc.isFinished := by
  have hSubset :
      channels.entries.map Sigma.snd ⊆
        calls.findIdxs fun call => !call.pc.isFinished := by
    intro i hMem
    rcases List.mem_map.mp hMem with
      ⟨⟨token, j⟩, hEntry, rfl⟩
    have hLookup := AList.mem_lookup_iff.mpr hEntry
    rcases hInv.keys token j hLookup with ⟨hLt, rfl⟩
    rw [List.mem_findIdxs_iff_exists_getElem_pos]
    refine ⟨hLt, ?_⟩
    rw [Bool.not_eq_true', ← Bool.not_eq_true]
    exact fun hFinished =>
      hCleared j _ (List.getElem?_eq_getElem hLt) hFinished
        hLookup
  calc channels.entries.length
      = (channels.entries.map Sigma.snd).length :=
        (List.length_map _).symm
    _ ≤ (calls.findIdxs fun call =>
          !call.pc.isFinished).length :=
        (List.Nodup.subperm hInv.nodup_values hSubset).length_le
    _ = _ := List.length_findIdxs

end CallsInv

namespace Session

variable {ω : Type}
variable {cfg : Config ω}

/- The call that a step ends without erasing its token. -/
def abandons
    (s : Session) : Action ω → Option PendingCall
  | .queueCall i =>
      if s.writeChannel.isOpen then none else s.calls[i]?
  | .resumeCall i =>
      s.calls[i]?.filter PendingCall.timedOut
  | _ => none

/-
  A call that times out, or finds the write channel closed,
  is out of the table by then. Tokens do not wrap.
-/
def Erased
    (s : Session)
    (a : Action ω) : Prop :=
  FewCalls s a ∧
    ∀ call ∈ s.abandons a,
      s.channels.lookup call.token = none

instance
    (s : Session)
    (a : Action ω) : Decidable (s.Erased a) :=
  inferInstanceAs (Decidable (_ ∧ ∀ call ∈ s.abandons a, _))

/- A call that resumes with a reply is out of the table. -/
theorem resume_timedOut
    {channels : AList fun _ : UInt64 => Nat}
    {completes : Option Nat}
    {closing : List Nat}
    {hasTaken : Bool}
    {i : Nat}
    {call : PendingCall}
    (hInv :
      CallInv channels completes closing hasTaken i call)
    (hDone : call.channel.receiver.isCompleted = true)
    (hIn : Pending channels i) :
    call.timedOut = true := by
  rcases hInv.pending hIn with ⟨-, -, -, hEmpty, hError, -⟩
  cases hReceiver : call.channel.receiver with
  | idle => simp [hReceiver, Receiver.isCompleted] at hDone
  | waiting => simp [hReceiver, Receiver.isCompleted] at hDone
  | completed result =>
      cases result with
      | error e => exact hError e hReceiver
      | ok r =>
          -- A result that was handed over was sent before.
          have hSent : r ∈ call.channel.admitted :=
            call.channel.delivered_prefix_admitted.subset
              (call.channel.handed r hReceiver)
          simp [hEmpty] at hSent

theorem cleared
    {s : Session}
    (hReach : ReachableBy (ω := ω) cfg Erased s) :
    Cleared s.channels s.calls := by
  refine invariant
    (fun s => Cleared s.channels s.calls)
    (by simp [Cleared, start]) ?_ hReach
  intro s a hPrior hInv hOk hEnabled
  have hCalls := callsInv (fun _ _ h => h.1) hPrior
  -- Changing a call's channel or timer does not end it.
  have hKeep :
      ∀ {i : Nat} {f : PendingCall → PendingCall},
        (∀ call : PendingCall, (f call).pc = call.pc) →
          Cleared s.channels (s.calls.modify i f) :=
    fun hPc => hInv.modify fun call hGet hFinished =>
      hInv _ call hGet (hPc call ▸ hFinished)
  cases a with
  | generateToken callName reqBuffer =>
      refine Records.forall_getElem?_concat
        (P := fun (i : Nat) (call : PendingCall) =>
          call.pc.isFinished = true →
            ¬ Pending s.channels i) hInv ?_
      intro hFinished
      simp [PendingCall.create, CallPc.isFinished] at hFinished
  | registerOperation i =>
      rcases hEnabled with ⟨call, hGet, hPc⟩
      have hLt := (List.getElem?_eq_some_iff.mp hGet).1
      simp only [update, Option.mem_def.mp hGet,
        Option.elim_some, (hCalls.each i call hGet).token]
      refine Records.forall_getElem?_modify
        (P := fun (j : Nat) (call : PendingCall) =>
          call.pc.isFinished = true →
            ¬ Pending (s.channels.insert (tokenOf i) i) j)
        ?_ ?_
      · intro j other hOther hNe hFinished hIn
        have hToken := hCalls.token_ne hLt
          (List.getElem?_eq_some_iff.mp hOther).1 hNe
        rw [Pending, AList.lookup_insert_ne hToken] at hIn
        exact hInv j other hOther hFinished hIn
      · intro call' _ hFinished
        simp [CallPc.isFinished] at hFinished
  | queueCall i =>
      refine hInv.modify fun call hGet hFinished => ?_
      cases hOpen : s.writeChannel.isOpen with
      | true => simp [hOpen, CallPc.isFinished] at hFinished
      | false =>
          refine (hCalls.lookup_eq_none_iff hGet).mp
            (hOk.2 call ?_)
          simpa [abandons, hOpen] using hGet
  | armTimer i =>
      exact hInv.modify fun call _ hFinished => by
        simp [CallPc.isFinished] at hFinished
  | receiveReply i =>
      exact hInv.modify fun call _ hFinished => by
        simp [CallPc.isFinished] at hFinished
  | resumeCall i =>
      rcases hEnabled with ⟨call, hGet, hPc, hDone⟩
      refine hInv.modify fun call' hGet' _ hIn => ?_
      obtain rfl : call = call' :=
        Option.some.inj (hGet.symm.trans hGet')
      have hTimedOut :=
        resume_timedOut (hCalls.each i call hGet) hDone hIn
      refine (hCalls.lookup_eq_none_iff hGet).mp
        (hOk.2 call ?_) hIn
      simpa [abandons, hTimedOut] using hGet
  | timerFire i => exact hKeep fun _ => rfl
  | timerStore i => exact hKeep fun _ => rfl
  | timerCancel i => exact hKeep fun _ => rfl
  | cancelChannel i => exact hKeep fun _ => rfl
  | closeChannel i => exact hKeep fun _ => rfl
  | sendResult i result => exact hKeep fun _ => rfl
  | takeTable =>
      intro i call _ _ hIn
      simp [update, Pending] at hIn
  | findOperation token result => exact hInv.erase token
  | _ => exact hInv

/-
  No token outlives its call in a run whose calls end out of
  the table.
-/
theorem noLeak
    (cfg : Config ω)
    (s : Session)
    (hReach : ReachableBy cfg Erased s) :
    (∀ call ∈ s.calls, call.pc.isFinished = true →
        s.channels.lookup call.token = none) ∧
      s.pendingOperationsCount ≤
        s.calls.countP fun call => !call.pc.isFinished := by
  have hCalls := callsInv (fun _ _ h => h.1) hReach
  have hCleared := cleared hReach
  refine ⟨?_, hCalls.length_entries_le hCleared⟩
  intro call hMem hFinished
  rcases List.getElem?_of_mem hMem with ⟨i, hGet⟩
  exact (hCalls.lookup_eq_none_iff hGet).mpr
    (hCleared i call hGet hFinished)

/- A step that abandons a call leaves its token behind. -/
theorem abandoned_leaks
    {s : Session}
    {a : Action ω}
    (hEnabled : s.Enabled a)
    {call : PendingCall}
    (hCall : call ∈ s.abandons a)
    (hLeft : s.channels.lookup call.token ≠ none) :
    ∃ call ∈ (s.update cfg a).calls,
      call.pc.isFinished = true ∧
        (s.update cfg a).channels.lookup call.token ≠ none := by
  cases a with
  | queueCall i =>
      have hOpen : s.writeChannel.isOpen = false := by
        by_contra hOpen
        simp [abandons, hOpen] at hCall
      have hGet : s.calls[i]? = some call := by
        simpa [abandons, hOpen] using hCall
      refine ⟨_, Records.mem_modify_of_getElem? hGet _, ?_, hLeft⟩
      simp [hOpen, CallPc.isFinished]
  | resumeCall i =>
      rcases hEnabled with ⟨call', hGet, -, hDone⟩
      obtain rfl : call' = call := by
        have hSame : call ∈ s.calls[i]? :=
          (Option.mem_filter_iff.mp hCall).1
        exact Option.some.inj (hGet.symm.trans hSame)
      exact ⟨_, Records.mem_modify_of_getElem? hGet _,
        call'.isFinished_resume hDone,
        by rwa [PendingCall.token_resume]⟩
  | _ => simp [abandons] at hCall

/- A call whose channel `close()` cancels and closes. -/
theorem noLeak_closed :
    ∃ s : Session, Reachable ({} : Config Unit) s ∧
      (∃ call ∈ s.calls, call.pc.isFinished = true) ∧
      (∀ call ∈ s.calls, call.pc.isFinished = true →
          s.channels.lookup call.token = none) ∧
        s.pendingOperationsCount ≤
          s.calls.countP fun call => !call.pc.isFinished := by
  obtain ⟨s, hReach, hRun⟩ :=
    Transition.exists_of_runBy (step ({} : Config Unit))
      Erased (start ({} : Config Unit))
      [.generateToken (literal "call") Buffer.empty,
        .registerOperation 0,
        .queueCall 0,
        .armTimer 0,
        .receiveReply 0,
        .close,
        .closeWriteChannel,
        .takeTable,
        .cancelChannel 0,
        .resumeCall 0]
      (fun s =>
        decide (∃ call ∈ s.calls, call.pc.isFinished = true))
      (by decide +kernel)
  exact ⟨s, hReach.reachable, of_decide_eq_true hRun,
    noLeak {} s hReach⟩

/- A call that times out leaves its token in the table. -/
theorem timeout_leaks :
    ∃ s : Session, Reachable ({} : Config Unit) s ∧
      (∃ call ∈ s.calls,
        call.pc = .threw .timeout ∧
          s.channels.lookup call.token ≠ none) ∧
      s.calls.countP (fun call => !call.pc.isFinished) <
        s.pendingOperationsCount := by
  obtain ⟨s, hReach, hRun⟩ :=
    Transition.exists_of_run (step ({} : Config Unit))
      (start ({} : Config Unit))
      [.generateToken (literal "call") Buffer.empty,
        .registerOperation 0,
        .queueCall 0,
        .armTimer 0,
        .receiveReply 0,
        .timerFire 0,
        .timerStore 0,
        .timerCancel 0,
        .resumeCall 0]
      (fun s =>
        decide ((∃ call ∈ s.calls,
            call.pc = .threw .timeout ∧
              s.channels.lookup call.token ≠ none) ∧
          s.calls.countP (fun call => !call.pc.isFinished) <
            s.pendingOperationsCount))
      (by decide +kernel)
  exact ⟨s, hReach, of_decide_eq_true hRun⟩

end Session

end GrlxRpc
