import GrlxRpc.Lib.ChannelMap
import GrlxRpc.Manager.Table
import GrlxRpc.Session.Calls

/-
  A session's pending calls are operations of its manager.

  Every run of a session is a run of an `async_manager`: what
  `call`, its timer, the reader and `close` do with the table
  and the response channels are steps of the manager, and the
  rest of the session leaves it alone.

  Main declarations:
    * `CallSimulates` and `Session.Simulates`
    * `Session.simulates_update`
    * `Session.PendingSound`
    * `Session.Simulated` and `Session.simulated`
-/

------------------------------------------------------------
-- The Relation
------------------------------------------------------------

namespace GrlxRpc

/- What a completed operation hands to its caller. -/
def Sent.payload (sent : Sent OpResult) : OpResult :=
  sent.result.2

/- Where the manager sees a call. -/
def CallPc.operationPc : CallPc → OperationPc
  | created => .created
  | receiving => .receiving
  | registered => .registered
  | sending => .registered
  | armed => .registered
  | returned _ => .registered
  | threw _ => .registered

/- A call is an operation that its caller awaits itself. -/
structure CallSimulates
    (call : PendingCall)
    (op : Operation OpResult) : Prop where
  token : op.token = call.token
  kind : op.kind = .awaited
  pc : op.pc = call.pc.operationPc
  channel : call.channel = op.channel.map Sent.payload
  timer : call.pc = .created → call.timer = .unarmed

namespace CallSimulates

variable {call : PendingCall}
variable {op : Operation OpResult}

/- Neither the channel nor the manager's view changes. -/
theorem keep
    (hSim : CallSimulates call op)
    {call' : PendingCall}
    (hToken : call'.token = call.token)
    (hPc : call'.pc.operationPc = call.pc.operationPc)
    (hChannel : call'.channel = call.channel)
    (hTimer : call'.pc = .created → call'.timer = .unarmed) :
    CallSimulates call' op where
  token := hSim.token.trans hToken.symm
  kind := hSim.kind
  pc := hSim.pc.trans hPc.symm
  channel := hChannel.trans hSim.channel
  timer := hTimer

/- An operation on the channel is one of the manager's. -/
theorem onChannel
    (hSim : CallSimulates call op)
    {f : Channel OpResult → Channel OpResult}
    {g : Channel (Sent OpResult) → Channel (Sent OpResult)}
    (hMap :
      (g op.channel).map Sent.payload =
        f (op.channel.map Sent.payload)) :
    CallSimulates
      { call with channel := f call.channel }
      { op with channel := g op.channel } where
  token := hSim.token
  kind := hSim.kind
  pc := hSim.pc
  channel := by
    rw [hMap, hSim.channel]
  timer := hSim.timer

/- Resuming a receive resumes the operation. -/
theorem resume
    (hSim : CallSimulates call op)
    (hDone : call.channel.receiver.isCompleted = true) :
    CallSimulates call.resume op.resume := by
  have hFinished := call.isFinished_resume hDone
  have hChannel :
      call.resume.channel = call.channel.consume := by
    unfold PendingCall.resume
    cases hReceiver : call.channel.receiver with
    | completed result => rfl
    | idle => simp [hReceiver, Receiver.isCompleted] at hDone
    | waiting =>
        simp [hReceiver, Receiver.isCompleted] at hDone
  constructor
  case token =>
    rw [call.token_resume]
    exact hSim.token
  case kind => exact hSim.kind
  case pc =>
    simp only [Operation.resume, hSim.kind,
      OperationKind.isHandled]
    cases hPc : call.resume.pc with
    | returned buffer => rfl
    | threw error => rfl
    | _ => simp [hPc, CallPc.isFinished] at hFinished
  case channel =>
    rw [hChannel, hSim.channel]
    rfl
  case timer =>
    intro hCreated
    rw [hCreated] at hFinished
    cases hFinished

end CallSimulates

namespace Session

/-
  The manager has the session's table and its calls. A call
  of `complete_operation` is where the reader is, and the
  `close()` that runs is a sweep.
-/
structure Simulates
    (s : Session)
    (m : AsyncManager OpResult) : Prop where
  nextToken : m.nextToken = s.nextToken
  channels : m.channels = s.channels
  calls : Records.Related CallSimulates s.calls m.operations
  completing :
    ∀ i result, s.reader = .completing i result →
      ∃ (k : Nat) (c : Completion OpResult),
        m.completions[k]? = some c ∧ c.operation = some i ∧
          c.pc = .found ∧ c.result.2 = result
  completed :
    ∀ i, s.reader = .completed i →
      ∃ (k : Nat) (c : Completion OpResult),
        m.completions[k]? = some c ∧ c.operation = some i ∧
          (c.pc = .returned ∨ c.pc = .sending)
  sweeping :
    ∀ todo, s.teardown = .channels todo →
      ∃ (b : Nat) (sweep : Sweep),
        m.sweeps[b]? = some sweep ∧ sweep.current = none ∧
          sweep.todo = todo
  closing :
    ∀ i todo, s.teardown = .channel i todo →
      ∃ (b : Nat) (sweep : Sweep),
        m.sweeps[b]? = some sweep ∧ sweep.current = some i ∧
          sweep.todo = todo

namespace Simulates

variable {s s' : Session}
variable {m : AsyncManager OpResult}

theorem start
    {ω : Type}
    (cfg : Config ω) :
    Simulates (.start cfg) AsyncManager.start where
  nextToken := rfl
  channels := rfl
  calls := fun _ => .none
  completing := fun _ _ hNot => by cases hNot
  completed := fun _ hNot => by cases hNot
  sweeping := fun _ hNot => by cases hNot
  closing := fun _ _ hNot => by cases hNot

/- Where no call of the manager is between its steps. -/
def Elsewhere (reader : ReaderPc) : Prop :=
  (∀ i result, reader ≠ .completing i result) ∧
    ∀ i, reader ≠ .completed i

/- The session moves and the manager does not. -/
theorem stutter
    (hSim : Simulates s m)
    (hToken : s'.nextToken = s.nextToken)
    (hChannels : s'.channels = s.channels)
    (hCalls :
      Records.Related CallSimulates s'.calls m.operations)
    (hReader :
      s'.reader = s.reader ∨ Elsewhere s'.reader)
    (hTeardown :
      s'.teardown = s.teardown ∨
        s'.teardown.hasTaken = false ∨
          s'.teardown = .finished) :
    Simulates s' m := by
  constructor
  case nextToken => exact hSim.nextToken.trans hToken.symm
  case channels => exact hSim.channels.trans hChannels.symm
  case calls => exact hCalls
  case completing =>
    intro i result hAt
    rcases hReader with hSame | hElse
    · exact hSim.completing i result (hSame ▸ hAt)
    · exact absurd hAt (hElse.1 i result)
  case completed =>
    intro i hAt
    rcases hReader with hSame | hElse
    · exact hSim.completed i (hSame ▸ hAt)
    · exact absurd hAt (hElse.2 i)
  case sweeping =>
    intro todo hAt
    rcases hTeardown with hSame | hEarly | hLate
    · exact hSim.sweeping todo (hSame ▸ hAt)
    · rw [hAt] at hEarly
      cases hEarly
    · rw [hAt] at hLate
      cases hLate
  case closing =>
    intro i todo hAt
    rcases hTeardown with hSame | hEarly | hLate
    · exact hSim.closing i todo (hSame ▸ hAt)
    · rw [hAt] at hEarly
      cases hEarly
    · rw [hAt] at hLate
      cases hLate

/- A step of the manager on operation `i` alone. -/
theorem onOperation
    (hSim : Simulates s m)
    {i : Nat}
    {f : PendingCall → PendingCall}
    {g : Operation OpResult → Operation OpResult}
    (hAt :
      ∀ call op, s.calls[i]? = some call →
        m.operations[i]? = some op → CallSimulates call op →
          CallSimulates (f call) (g op)) :
    Simulates { s with calls := s.calls.modify i f }
      { m with operations := m.operations.modify i g } :=
  { hSim with calls := hSim.calls.modify hAt }

end Simulates

------------------------------------------------------------
-- One Step
------------------------------------------------------------

variable {ω : Type}
variable {cfg : Config ω}
variable {s : Session}
variable {m : AsyncManager OpResult}

/-
  The manager follows a step of the session: it takes one of
  its own, or none.
-/
def Followed
    (m : AsyncManager OpResult)
    (s : Session)
    (a : Action ω)
    (s' : Session) : Prop :=
  ∃ m',
    Simulates s' m' ∧
      (m' = m ∨
        ∃ b,
          m.Enabled b ∧ m' = m.update b ∧
            (FewCalls s a → AsyncManager.FewTokens m b))

/- The manager stays where it is. -/
theorem Followed.stay
    {a : Action ω}
    {s' : Session}
    (hSim : Simulates s' m) :
    Followed m s a s' :=
  ⟨m, hSim, .inl rfl⟩

/- The manager takes step `b`. -/
theorem Followed.take
    {a : Action ω}
    {s' : Session}
    (b : ManagerAction OpResult)
    (hEnabled : m.Enabled b)
    (hFew : FewCalls s a → AsyncManager.FewTokens m b)
    (hSim : Simulates s' (m.update b)) :
    Followed m s a s' :=
  ⟨m.update b, hSim, .inr ⟨b, hEnabled, rfl, hFew⟩⟩

theorem followed_generateToken
    (hSim : Simulates s m)
    (callName : StdString)
    (reqBuffer : Buffer) :
    Followed m s (.generateToken callName reqBuffer : Action ω)
      (s.update cfg (.generateToken callName reqBuffer)) := by
  refine .take (.generateToken .awaited) trivial
    (fun hFew => ?_) ?_
  · change m.operations.length + 1 < 2 ^ 64
    rw [← hSim.calls.length_eq]
    exact hFew rfl
  · have hNew :
        CallSimulates
          (.create callName reqBuffer s.nextToken)
          (.create .awaited m.nextToken) :=
      ⟨hSim.nextToken, rfl, rfl, rfl, fun _ => rfl⟩
    exact
      { hSim with
        nextToken :=
          congrArg (· + 1) hSim.nextToken
        calls := hSim.calls.concat hNew }

theorem followed_registerOperation
    (hSim : Simulates s m)
    {i : Nat}
    (hEnabled :
      s.Enabled (.registerOperation i : Action ω)) :
    Followed m s (.registerOperation i : Action ω)
      (s.update cfg (.registerOperation i)) := by
  rcases hEnabled with ⟨call, hCall, hPc⟩
  rcases hSim.calls.some hCall with ⟨op, hOp, hRel⟩
  have hCreated : op.pc = .created := by
    rw [hRel.pc, hPc]
    rfl
  refine .take (.registerOperation i) ⟨op, hOp, hCreated⟩
    (fun _ => trivial) ?_
  constructor
  case nextToken => exact hSim.nextToken
  case channels =>
    simp only [AsyncManager.update, update, hOp,
      Option.mem_def.mp hCall, Option.map_some,
      Option.elim_some, hSim.channels, hRel.token]
  case calls =>
    refine hSim.calls.modify fun call op _ _ hRel => ?_
    exact ⟨hRel.token, hRel.kind, rfl, hRel.channel,
      fun hNot => by cases hNot⟩
  case completing => exact hSim.completing
  case completed => exact hSim.completed
  case sweeping => exact hSim.sweeping
  case closing => exact hSim.closing

theorem followed_receiveReply
    (hSim : Simulates s m)
    {i : Nat}
    (hEnabled : s.Enabled (.receiveReply i : Action ω)) :
    Followed m s (.receiveReply i : Action ω)
      (s.update cfg (.receiveReply i)) := by
  rcases hEnabled with ⟨call, hCall, hPc⟩
  rcases hSim.calls.some hCall with ⟨op, hOp, hRel⟩
  have hRegistered : op.pc = .registered := by
    rw [hRel.pc, hPc]
    rfl
  refine .take (.receive i) ⟨op, hOp, hRegistered⟩
    (fun _ => trivial) ?_
  refine hSim.onOperation fun call op _ _ hRel => ?_
  exact ⟨hRel.token, hRel.kind, rfl, by
      rw [hRel.channel, Channel.map_asyncReceive],
    fun hNot => by cases hNot⟩

theorem followed_resumeCall
    (hSim : Simulates s m)
    {i : Nat}
    (hEnabled : s.Enabled (.resumeCall i : Action ω)) :
    Followed m s (.resumeCall i : Action ω)
      (s.update cfg (.resumeCall i)) := by
  rcases hEnabled with ⟨call, hCall, hPc, hDone⟩
  rcases hSim.calls.some hCall with ⟨op, hOp, hRel⟩
  have hReceiving : op.pc = .receiving := by
    rw [hRel.pc, hPc]
    rfl
  have hCompleted :
      op.channel.receiver.isCompleted = true := by
    rw [hRel.channel] at hDone
    simpa using hDone
  refine .take (.resume i) ⟨op, hOp, hReceiving, hCompleted⟩
    (fun _ => trivial) ?_
  have hBoth :=
    hSim.onOperation (i := i) (f := PendingCall.resume)
      (g := Operation.resume) fun call' op' hCall' _ hRel' => by
        obtain rfl : call = call' :=
          Option.some.inj (hCall.symm.trans hCall')
        exact hRel'.resume hDone
  exact { hBoth with }

theorem followed_timerCancel
    (hSim : Simulates s m)
    {i : Nat}
    (hEnabled : s.Enabled (.timerCancel i : Action ω)) :
    Followed m s (.timerCancel i : Action ω)
      (s.update cfg (.timerCancel i)) := by
  rcases hEnabled with ⟨call, hCall, hTimer⟩
  rcases hSim.calls.some hCall with ⟨op, hOp, hRel⟩
  have hStarted : op.pc ≠ .created := by
    intro hCreated
    rw [hRel.pc] at hCreated
    have hPc : call.pc = .created := by
      cases hCallPc : call.pc <;>
        simp_all [CallPc.operationPc]
    rw [hRel.timer hPc] at hTimer
    cases hTimer
  refine .take (.cancelChannel i) ⟨op, hOp, hRel.kind, hStarted⟩
    (fun _ => trivial) ?_
  refine hSim.onOperation fun call' op' hCall' hOp' hRel' => ?_
  refine ⟨hRel'.token, hRel'.kind, hRel'.pc, ?_, ?_⟩
  · rw [hRel'.channel, Channel.map_cancel]
  · intro hCreated
    obtain rfl : op = op' :=
      Option.some.inj (hOp.symm.trans hOp')
    refine absurd ?_ hStarted
    rw [hRel'.pc]
    exact congrArg CallPc.operationPc hCreated

theorem followed_findOperation
    (hSim : Simulates s m)
    (token : UInt64)
    (result : OpResult) :
    Followed m s (.findOperation token result : Action ω)
      (s.update cfg (.findOperation token result)) := by
  refine .take (.completeOperation token .success result)
    trivial (fun _ => trivial) ?_
  constructor
  case nextToken => exact hSim.nextToken
  case channels =>
    simp only [AsyncManager.update, update, hSim.channels]
  case calls => exact hSim.calls
  case completing =>
    intro i result' hAt
    simp only [update] at hAt
    cases hLookup : s.channels.lookup token with
    | none =>
        rw [hLookup] at hAt
        cases hAt
    | some j =>
        rw [hLookup] at hAt
        injection hAt with hCall hResult
        refine ⟨m.completions.length, _,
          List.getElem?_concat_length, ?_, ?_, hResult⟩
        · simp only [Completion.find, hSim.channels, hLookup,
            hCall]
        · simp [Completion.find, hSim.channels, hLookup]
  case completed =>
    intro i hAt
    simp only [update] at hAt
    cases hLookup : s.channels.lookup token <;>
      rw [hLookup] at hAt <;> cases hAt
  case sweeping => exact hSim.sweeping
  case closing => exact hSim.closing

theorem followed_sendResult
    (hSim : Simulates s m)
    {i : Nat}
    {result : OpResult}
    (hEnabled :
      s.Enabled (.sendResult i result : Action ω)) :
    Followed m s (.sendResult i result : Action ω)
      (s.update cfg (.sendResult i result)) := by
  rcases hSim.completing i result hEnabled with
    ⟨k, c, hGet, hOperation, hPc, hResult⟩
  refine .take (.sendResult k i) ⟨c, hGet, hPc, hOperation⟩
    (fun _ => trivial) ?_
  constructor
  case nextToken => exact hSim.nextToken
  case channels => exact hSim.channels
  case calls =>
    refine hSim.calls.modify fun call op _ _ hRel => ?_
    refine hRel.onChannel
      (f := fun channel => channel.asyncSend result) ?_
    simp only [AsyncManager.send, hGet, Option.elim_some,
      Channel.map_asyncSend]
    rw [Sent.payload, hResult]
  case completing =>
    intro j result' hAt
    simp only [update] at hAt
    split at hAt <;> cases hAt
  case completed =>
    intro j hAt
    simp only [update] at hAt
    split at hAt
    · next hOpen =>
        obtain rfl : i = j := by
          injection hAt
        rcases hOpen with ⟨call, hCall, hIsOpen⟩
        rcases hSim.calls.some hCall with ⟨op, hOp, hRel⟩
        have hOpOpen : op.channel.isOpen = true := by
          rw [hRel.channel] at hIsOpen
          exact hIsOpen
        refine ⟨k, { c with pc := .ofSend op.channel },
          AsyncManager.completion_sendResult hGet hOp,
          hOperation, ?_⟩
        simp only [CompletionPc.ofSend, hOpOpen, if_true]
        cases op.channel.hasRoom with
        | true => exact .inl rfl
        | false => exact .inr rfl
    · cases hAt
  case sweeping => exact hSim.sweeping
  case closing => exact hSim.closing

theorem followed_resumeResult
    (hSim : Simulates s m)
    {i : Nat}
    (hEnabled : s.Enabled (.resumeResult i : Action ω)) :
    Followed m s (.resumeResult i : Action ω)
      (s.update cfg (.resumeResult i)) := by
  rcases hEnabled with ⟨hReader, call, hCall, hSenders⟩
  have hStay : Simulates { s with reader := .header } m := by
    refine hSim.stutter rfl rfl hSim.calls (.inr ?_)
      (.inl rfl)
    exact ⟨fun _ _ => (nomatch ·), fun _ => (nomatch ·)⟩
  rcases hSim.completed i hReader with
    ⟨k, c, hGet, hOperation, hReturned | hSending⟩
  · exact .stay hStay
  · rcases hSim.calls.some hCall with ⟨op, hOp, hRel⟩
    have hNone : op.channel.senders = [] := by
      rw [hRel.channel] at hSenders
      simpa using hSenders
    have hSent : m.isSent k i = true := by
      simp [AsyncManager.isSent, hOp, hNone]
    refine .take (.resumeSend k i)
      ⟨⟨c, hGet, hSending, hOperation⟩, hSent⟩
      (fun _ => trivial) ?_
    exact
      { hStay with
        completing := fun _ _ hNot => by cases hNot
        completed := fun _ hNot => by cases hNot }

theorem followed_takeTable
    (hSim : Simulates s m) :
    Followed m s (.takeTable : Action ω)
      (s.update cfg .takeTable) := by
  refine .take .takeTable trivial (fun _ => trivial) ?_
  exact
    { hSim with
      channels := rfl
      sweeping := by
        intro todo hAt
        injection hAt with hTodo
        refine ⟨m.sweeps.length, _,
          List.getElem?_concat_length, rfl, ?_⟩
        rw [← hTodo, ← hSim.channels]
        rfl
      closing := fun _ _ hNot => by cases hNot }

theorem followed_cancelChannel
    (hSim : Simulates s m)
    {i : Nat}
    (hEnabled : s.Enabled (.cancelChannel i : Action ω)) :
    Followed m s (.cancelChannel i : Action ω)
      (s.update cfg (.cancelChannel i)) := by
  rcases hEnabled with ⟨hTeardown, hMem⟩
  rcases hSim.sweeping _ hTeardown with
    ⟨b, sweep, hGet, hNone, hTodo⟩
  have hIn : i ∈ sweep.todo := hTodo ▸ hMem
  refine .take (.cancelNext b i) ⟨sweep, hGet, hNone, hIn⟩
    (fun _ => trivial) ?_
  constructor
  case nextToken => exact hSim.nextToken
  case channels => exact hSim.channels
  case calls =>
    refine hSim.calls.modify fun call op _ _ hRel => ?_
    exact hRel.onChannel (Channel.map_cancel _ _)
  case completing => exact hSim.completing
  case completed => exact hSim.completed
  case sweeping => exact fun _ hNot => by cases hNot
  case closing =>
    intro j todo hAt
    injection hAt with hCall hRest
    refine ⟨b, sweep.cancelled i, ?_, ?_, ?_⟩
    · simp only [AsyncManager.update,
        List.getElem?_modify_eq, hGet]
      rfl
    · rw [Sweep.cancelled, dif_pos hIn, ← hCall]
      rfl
    · rw [Sweep.cancelled, dif_pos hIn, ← hRest, ← hTodo]
      rfl

theorem followed_closeChannel
    (hSim : Simulates s m)
    {i : Nat}
    (hEnabled : s.Enabled (.closeChannel i : Action ω)) :
    Followed m s (.closeChannel i : Action ω)
      (s.update cfg (.closeChannel i)) := by
  have hTeardown :
      s.teardown = .channel i s.teardown.todo := hEnabled
  rcases hSim.closing _ _ hTeardown with
    ⟨b, sweep, hGet, hCurrent, hTodo⟩
  refine .take (.closeNext b i) ⟨sweep, hGet, hCurrent⟩
    (fun _ => trivial) ?_
  constructor
  case nextToken => exact hSim.nextToken
  case channels => exact hSim.channels
  case calls =>
    refine hSim.calls.modify fun call op _ _ hRel => ?_
    exact hRel.onChannel (Channel.map_close _ _)
  case completing => exact hSim.completing
  case completed => exact hSim.completed
  case sweeping =>
    intro todo hAt
    injection hAt with hRest
    refine ⟨b, sweep.finish, ?_, rfl, hTodo.trans hRest⟩
    simp only [AsyncManager.update, List.getElem?_modify_eq,
      hGet]
    rfl
  case closing => exact fun _ _ hNot => by cases hNot

theorem elsewhere_afterHeader
    (rid ord : Nat)
    (header : Header)
    (intake : Intake) :
    Simulates.Elsewhere
      (afterHeader rid ord header intake) := by
  cases intake <;> simp [Simulates.Elsewhere, afterHeader]

theorem elsewhere_afterBody
    (rid ord : Nat)
    (header : Header)
    (body : Buffer)
    (use : BodyUse) :
    Simulates.Elsewhere
      (afterBody rid ord header body use) := by
  cases use <;> simp [Simulates.Elsewhere, afterBody]

theorem elsewhere_afterClose (again : Bool) :
    Simulates.Elsewhere (.afterClose again) := by
  cases again <;>
    simp [Simulates.Elsewhere, ReaderPc.afterClose]

theorem begin_cases (t : Teardown) :
    t.begin = t ∨ t.begin.hasTaken = false := by
  cases t <;> simp [Teardown.begin, Teardown.hasTaken]

/- A step of a session is one of its manager's, or none. -/
theorem simulates_update
    (hSim : Simulates s m)
    {a : Action ω}
    (hEnabled : s.Enabled a) :
    Followed m s a (s.update cfg a) := by
  have hStay :
      ∀ {s' : Session}, s'.nextToken = s.nextToken →
        s'.channels = s.channels →
        Records.Related CallSimulates s'.calls m.operations →
        s'.reader = s.reader ∨
          Simulates.Elsewhere s'.reader →
        s'.teardown = s.teardown ∨
          s'.teardown.hasTaken = false ∨
            s'.teardown = .finished →
        Followed m s a s' :=
    fun hToken hChannels hCalls hReader hTeardown =>
      .stay (hSim.stutter hToken hChannels hCalls hReader
        hTeardown)
  -- A call moves on where the manager does not look.
  have hCall :
      ∀ {i : Nat} {f : PendingCall → PendingCall},
        (∀ call op, s.calls[i]? = some call →
          CallSimulates call op →
            CallSimulates (f call) op) →
          Records.Related CallSimulates (s.calls.modify i f)
            m.operations :=
    fun hAt => hSim.calls.modify_left
      fun call op hGet _ hRel => hAt call op hGet hRel
  cases a with
  | generateToken callName reqBuffer =>
      exact followed_generateToken hSim callName reqBuffer
  | registerOperation i =>
      exact followed_registerOperation hSim hEnabled
  | receiveReply i => exact followed_receiveReply hSim hEnabled
  | resumeCall i => exact followed_resumeCall hSim hEnabled
  | timerCancel i => exact followed_timerCancel hSim hEnabled
  | findOperation token result =>
      exact followed_findOperation hSim token result
  | sendResult i result =>
      exact followed_sendResult hSim hEnabled
  | resumeResult i => exact followed_resumeResult hSim hEnabled
  | takeTable => exact followed_takeTable hSim
  | cancelChannel i =>
      exact followed_cancelChannel hSim hEnabled
  | closeChannel i => exact followed_closeChannel hSim hEnabled
  | queueCall i =>
      rcases hEnabled with ⟨call, hGet, hPc⟩
      refine hStay rfl rfl (hCall ?_) (.inl rfl) (.inl rfl)
      intro call' op hGet' hRel
      obtain rfl : call = call' :=
        Option.some.inj (hGet.symm.trans hGet')
      refine hRel.keep rfl ?_ rfl ?_
      · simp only [hPc]
        split <;> rfl
      · intro hCreated
        split at hCreated <;> cases hCreated
  | armTimer i =>
      rcases hEnabled with ⟨⟨call, hGet, hPc⟩, -⟩
      refine hStay rfl rfl (hCall ?_) (.inl rfl) (.inl rfl)
      intro call' op hGet' hRel
      obtain rfl : call = call' :=
        Option.some.inj (hGet.symm.trans hGet')
      refine hRel.keep rfl ?_ rfl fun hNot => by cases hNot
      rw [hPc]
      rfl
  | timerFire i | timerStore i =>
      rcases hEnabled with ⟨call, hGet, hTimer⟩
      refine hStay rfl rfl (hCall ?_) (.inl rfl) (.inl rfl)
      intro call' op hGet' hRel
      obtain rfl : call = call' :=
        Option.some.inj (hGet.symm.trans hGet')
      refine hRel.keep rfl rfl rfl fun hCreated => ?_
      rw [hRel.timer hCreated] at hTimer
      cases hTimer
  | close | writerClose =>
      rcases begin_cases s.teardown with hSame | hEarly
      · exact hStay rfl rfl hSim.calls (.inl rfl) (.inl hSame)
      · exact hStay rfl rfl hSim.calls (.inl rfl)
          (.inr (.inl hEarly))
  | readerClose again =>
      have hElse :
          Simulates.Elsewhere
            (s.update cfg
              (.readerClose again : Action ω)).reader := by
        simp only [update]
        split
        · simp [Simulates.Elsewhere]
        · exact elsewhere_afterClose again
      rcases begin_cases s.teardown with hSame | hEarly
      · exact hStay rfl rfl hSim.calls (.inr hElse)
          (.inl hSame)
      · exact hStay rfl rfl hSim.calls (.inr hElse)
          (.inr (.inl hEarly))
  | closeWriteChannel =>
      exact hStay rfl rfl hSim.calls (.inl rfl)
        (.inr (.inl rfl))
  | closeStream =>
      exact hStay rfl rfl hSim.calls (.inl rfl)
        (.inr (.inr rfl))
  | readHeader now =>
      exact hStay rfl rfl hSim.calls
        (.inr (elsewhere_afterHeader _ _ _ _)) (.inl rfl)
  | readBody header use =>
      exact hStay rfl rfl hSim.calls
        (.inr (elsewhere_afterBody _ _ _ _ _)) (.inl rfl)
  | sendPong =>
      exact hStay rfl rfl hSim.calls
        (.inr (by simp [Simulates.Elsewhere, update]))
        (.inl rfl)
  | readFail =>
      exact hStay rfl rfl hSim.calls
        (.inr (by simp [Simulates.Elsewhere, update]))
        (.inl rfl)
  | rejectRequest rid header closes =>
      refine hStay rfl rfl hSim.calls (.inr ?_) (.inl rfl)
      simp only [update]
      split <;> simp [Simulates.Elsewhere]
  | resumeReject rid closes =>
      refine hStay rfl rfl hSim.calls (.inr ?_) (.inl rfl)
      simp only [update]
      split <;> simp [Simulates.Elsewhere]
  | readerClosed again =>
      exact hStay rfl rfl hSim.calls
        (.inr (elsewhere_afterClose again)) (.inl rfl)
  | _ =>
      exact hStay rfl rfl hSim.calls (.inl rfl) (.inl rfl)

/- Every run of a session is one of its manager. -/
theorem exists_simulates
    {s : Session}
    (hReach : ReachableBy (ω := ω) cfg FewCalls s) :
    ∃ m : AsyncManager OpResult,
      AsyncManager.ReachableBy AsyncManager.FewTokens m ∧
        Simulates s m := by
  induction hReach with
  | start => exact ⟨.start, .start, .start cfg⟩
  | @next s s' a _ hFew hStep ih =>
      rcases ih with ⟨m, hManager, hSim⟩
      rcases (step_eq_some_iff _ _ _ _).mp hStep with
        ⟨hEnabled, rfl⟩
      have hFollowed : Followed m s a (s.update cfg a) :=
        simulates_update hSim hEnabled
      rcases hFollowed with
        ⟨m', hSim', rfl | ⟨b, hOn, rfl, hTokens⟩⟩
      · exact ⟨m', hManager, hSim'⟩
      · refine ⟨_, hManager.next (hTokens hFew) ?_, hSim'⟩
        exact (AsyncManager.step_eq_some_iff _ _ _).mpr
          ⟨hOn, rfl⟩

------------------------------------------------------------
-- What The Session Gains
------------------------------------------------------------

/-
  What the table and the reader can rely on: a call that is
  in the table can be completed, a result that was looked up
  is taken by its channel at once, and no call is given two.
-/
structure PendingSound (s : Session) : Prop where
  table :
    ∀ token i, s.channels.lookup token = some i →
      ∃ call, s.calls[i]? = some call ∧ call.token = token ∧
        call.channel.isOpen = true ∧ call.channel.buffer = []
  unique :
    ∀ token token' i,
      s.channels.lookup token = some i →
        s.channels.lookup token' = some i → token = token'
  ready :
    ∀ i result, s.reader = .completing i result →
      ∃ call, s.calls[i]? = some call ∧
        call.channel.hasRoom = true
  prompt :
    ∀ i, s.reader = .completed i →
      ∃ call, s.calls[i]? = some call ∧
        call.channel.senders = []
  once :
    ∀ call ∈ s.calls, call.channel.admitted.length ≤ 1

theorem Simulates.pendingSound
    (hSim : Simulates s m)
    (hInv : AsyncManager.ManagerInv m) :
    PendingSound s := by
  have hSound := hInv.tableSound
  constructor
  case table =>
    intro token i hLookup
    rw [← hSim.channels] at hLookup
    rcases hSound.table token i hLookup with
      ⟨op, hOp, hToken, hOpen, hBuffer⟩
    rcases hSim.calls.some_right hOp with ⟨call, hCall, hRel⟩
    refine ⟨call, hCall, hRel.token.symm.trans hToken, ?_, ?_⟩
    · rw [hRel.channel]
      exact hOpen
    · rw [hRel.channel]
      simp [Channel.map, hBuffer]
  case unique =>
    rw [← hSim.channels]
    exact hSound.unique
  case ready =>
    intro i result hAt
    rcases hSim.completing i result hAt with
      ⟨k, c, hGet, hOperation, hPc, -⟩
    rcases hSound.ready c (List.mem_of_getElem? hGet) hPc with
      ⟨j, op, hFound, hOp, hRoom, hBuffer, hOpen⟩
    obtain rfl : i = j :=
      Option.some.inj (hOperation.symm.trans hFound)
    rcases hSim.calls.some_right hOp with ⟨call, hCall, hRel⟩
    refine ⟨call, hCall, ?_⟩
    rw [hRel.channel, Channel.hasRoom_map]
    simp [Channel.hasRoom, hOpen, hRoom, hBuffer]
  case prompt =>
    intro i hAt
    rcases hSim.completed i hAt with
      ⟨k, c, hGet, hOperation, -⟩
    rcases hInv.table.exists_operation
      (AsyncManager.fates_pos_of_found
        (List.mem_of_getElem? hGet) hOperation) with ⟨op, hOp⟩
    rcases hSim.calls.some_right hOp with ⟨call, hCall, hRel⟩
    refine ⟨call, hCall, ?_⟩
    rw [hRel.channel]
    simp [(hInv.channel i op hOp).unparked]
  case once =>
    intro call hMem
    rcases List.mem_iff_getElem?.mp hMem with ⟨i, hCall⟩
    rcases hSim.calls.some hCall with ⟨op, hOp, hRel⟩
    rw [hRel.channel, Channel.admitted_map, List.length_map]
    exact (hInv.channel i op hOp).once

/-
  The relation is a forward simulation: both start in it, a
  manager follows every step of the session by one of its own
  or by none, and a run of the manager reaches what a run of
  the session has.
-/
structure Simulated
    (cfg : Config ω)
    (s : Session) : Prop where
  start : Simulates (.start cfg) AsyncManager.start
  followed :
    ∀ m, Simulates s m → ∀ a : Action ω, s.Enabled a →
      Followed m s a (s.update cfg a)
  reached :
    ∃ m : AsyncManager OpResult,
      AsyncManager.ReachableBy AsyncManager.FewTokens m ∧
        Simulates s m
  sound : PendingSound s

theorem simulated
    (cfg : Config ω)
    (s : Session)
    (hReach : ReachableBy cfg FewCalls s) :
    Simulated cfg s := by
  rcases exists_simulates hReach with ⟨m, hManager, hSim⟩
  exact
    { start := .start cfg
      followed := fun _ hSim _ hEnabled =>
        simulates_update hSim hEnabled
      reached := ⟨m, hManager, hSim⟩
      sound := hSim.pendingSound
        (AsyncManager.managerInv (fun _ _ hFew => hFew)
          hManager) }

/- Two calls, of which `close()` takes both. -/
def strandedMoves : List (Action Unit) :=
  [.generateToken (literal "a") Buffer.empty,
    .generateToken (literal "b") Buffer.empty,
    .registerOperation 1,
    .registerOperation 0,
    .queueCall 0,
    .armTimer 0,
    .receiveReply 0,
    .close,
    .closeWriteChannel,
    .takeTable,
    .cancelChannel 0,
    .closeChannel 0,
    .resumeCall 0,
    .cancelChannel 1]

theorem simulated_stranded :
    ∃ s : Session,
      s.teardown = .channel 1 [] ∧
        Simulated ({} : Config Unit) s := by
  obtain ⟨s, hReach, hRun⟩ :=
    Transition.exists_of_runBy (step ({} : Config Unit))
      FewCalls (start ({} : Config Unit)) strandedMoves
      (fun s : Session => decide (s.teardown = .channel 1 []))
      (by decide +kernel)
  exact ⟨s, of_decide_eq_true hRun,
    simulated ({} : Config Unit) s hReach⟩

end Session

end GrlxRpc
